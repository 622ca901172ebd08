import Mathlib.Data.List.Find
import BlockLowering.Proofs.FiniteChains

/-!
# What a new declaration shadows

A name is looked up from block to parent, so what a new declaration of the name changes depends on
where it stands. It takes the name over at those blocks from which one comes to its block without
passing an earlier declaration of the name, its own block included (`Arena.TakesOver`); everything
else is found as before. A declaration that cannot be found by name changes nothing.

The blocks that are named in a call are to have been given out before. Parents come before their
children then, whether or not other calls are refused.
-/

namespace BlockLowering.IR

namespace Call

/-- The block that the call is about. -/
def block? : Call → Option BlockId
  | createChild block _ | addDecl block _ _ _ _ | addStmt block _ | sealBlock block => some block
  | _ => none

/-- The declaration that the call makes. -/
def newDecl? : Call → Option Decl
  | addDecl block name type kind span => some ⟨name, type, kind, block, span⟩
  | _ => none

end Call

namespace Arena

variable {a : Arena} {b c f p : BlockId} {x : Block} {d : Decl} {e : DeclId} {n name : String}
  {calls : List Call}

/-! ## Calls with known blocks -/

/-- Every block that one of the calls is about was given out before. -/
def GivenOut (a : Arena) : List Call → Prop
  | [] => True
  | c :: rest => (∀ b ∈ c.block?, b.index < a.blocks.length) ∧ (a.call c).1.GivenOut rest

instance decidableGivenOut (a : Arena) : (calls : List Call) → Decidable (a.GivenOut calls)
  | [] => isTrue trivial
  | c :: rest =>
    haveI := decidableGivenOut (a.call c).1 rest
    inferInstanceAs (Decidable ((∀ b ∈ c.block?, b.index < a.blocks.length) ∧ _))

theorem givenOut_append (a : Arena) (l r : List Call) :
    a.GivenOut (l ++ r) ↔ a.GivenOut l ∧ (a.perform l).GivenOut r := by
  induction l generalizing a with
  | nil => simp [GivenOut]
  | cons c rest ih => simp [GivenOut, ih, and_assoc]

theorem parentsBelow_perform (h : empty.GivenOut calls) : (empty.perform calls).ParentsBelow := by
  intro b p hp
  obtain ⟨before, span, after, rfl, hlength⟩ := parent?_perform_iff.1 hp
  have hcall := ((givenOut_append _ _ _).1 h).2.1 p rfl
  omega

theorem length_decls_call (a : Arena) (c : Call) :
    (a.call c).1.decls.length = a.decls.length + c.newDecl?.toList.length := by
  cases c with
  | createRoot | createTypeScope => rfl
  | createChild parent span =>
    show (a.createChild parent span).1.decls.length = _
    by_cases hp : parent.index ≤ a.blocks.length
    · rw [createChild_of_le hp]
      rfl
    · rw [createChild_unknown (by omega)]
      rfl
  | addDecl block name type kind span =>
    show (a.addDecl block name type kind span).1.decls.length = _
    have hpush : (a.decls ++ [Decl.mk name type kind block span]).length = a.decls.length + 1 := by
      rw [List.length_append]
      rfl
    cases hx : a.block? block with
    | none =>
      rw [addDecl_unknown hx]
      exact hpush
    | some x =>
      cases hs : x.isSealed with
      | true =>
        rw [addDecl_sealed hx hs]
        exact hpush
      | false =>
        rw [addDecl_eq hx hs]
        exact hpush
  | addStmt block stmt =>
    show (a.settle (a.addStmt block stmt)).1.decls.length = _
    unfold addStmt
    split
    · rfl
    · split <;> rfl
  | sealBlock block =>
    show (a.settle (a.sealBlock block)).1.decls.length = _
    unfold sealBlock
    split <;> rfl
  | linkPlaceholder placeholder target =>
    show (a.settle ((a.linkPlaceholder placeholder target).map Prod.fst)).1.decls.length = _
    unfold linkPlaceholder
    cases a.decl? placeholder with
    | none => rfl
    | some d =>
      dsimp only
      split
      · exact List.length_modify ..
      · rfl

/-- A call lists at most the declaration that it makes. -/
theorem mem_decls_effect {a : Arena} {c : Call} (h : e ∈ (c.effect a b x).decls) :
    e ∈ x.decls ∨ e.index < a.decls.length + c.newDecl?.toList.length := by
  cases c with
  | addDecl block name type kind span =>
    unfold Call.effect at h
    dsimp only at h
    split at h
    · rcases List.mem_append.1 h with h | h
      · exact .inl h
      · rw [List.mem_singleton.1 h]
        exact .inr (Nat.lt_succ_self _)
    · exact .inl h
  | createChild | addStmt | sealBlock =>
    unfold Call.effect at h
    dsimp only at h
    split at h <;> exact .inl h
  | createRoot | linkPlaceholder | createTypeScope => exact .inl h

theorem listed_perform (calls : List Call) : (empty.perform calls).Listed := by
  induction calls using List.reverseRecOn with
  | nil =>
    intro b x hx
    simp [empty, block?] at hx
  | append_singleton calls c ih =>
    intro b x hx e he
    rw [perform_concat, block?_call, Option.map_eq_some_iff] at hx
    obtain ⟨y, hy, rfl⟩ := hx
    rw [perform_concat, length_decls_call]
    rcases mem_decls_effect he with hmem | hlt
    · by_cases hb : b.index = (empty.perform calls).blocks.length
      · rw [if_pos hb] at hy
        cases c <;> cases hy <;> cases hmem
      · rw [if_neg hb] at hy
        exact Nat.lt_add_right _ (ih b y hy e hmem)
    · exact hlt

/-! ## Names in a block -/

/-- The block holds a declaration that can be found by `name`. -/
def Holds (a : Arena) (b : BlockId) (name : String) : Prop :=
  ∃ x e d, a.block? b = some x ∧ e ∈ x.decls ∧ a.decl? e = some d ∧ d.kind ≠ .temporary ∧
    d.name = name

theorem declares_iff :
    a.declares name e = true ↔ ∃ d, a.decl? e = some d ∧ d.kind ≠ .temporary ∧ d.name = name := by
  unfold declares
  cases a.decl? e with
  | none => simp
  | some d => simp [Decl.isCalled, Decl.isTemporary]

theorem findInBlock?_eq_none_iff : a.findInBlock? b name = none ↔ ¬a.Holds b name := by
  unfold findInBlock?
  constructor
  · rintro hnone ⟨x, e, d, hx, he, hd⟩
    rw [hx, Option.bind_some, List.find?_eq_none] at hnone
    exact hnone e he (declares_iff.2 ⟨d, hd⟩)
  · intro hnone
    rw [Option.bind_eq_none_iff]
    intro x hx
    rw [List.find?_eq_none]
    intro e he hdeclares
    obtain ⟨d, hd⟩ := declares_iff.1 hdeclares
    exact hnone ⟨x, e, d, hx, he, hd⟩

/-- In its block, a new declaration comes after those that are there. -/
theorem findInBlock?_withDecl (ha : a.Listed) (hb : a.block? b = some x) (d : Decl) (c : BlockId)
    (n : String) :
    (a.withDecl b d).findInBlock? c n = (a.findInBlock? c n).or
      (if c = b ∧ d.kind ≠ .temporary ∧ d.name = n then some ⟨a.decls.length⟩ else none) := by
  have hold : ∀ y, a.block? c = some y →
      y.decls.find? ((a.withDecl b d).declares n) = y.decls.find? (a.declares n) := by
    intro y hy
    apply List.find?_congr
    intro e he
    have hlt := ha c y hy e he
    unfold declares
    rw [show (a.withDecl b d).decl? e = a.decl? e from
      (decl?_pushDecl a d e).trans (if_neg (by omega))]
  have hnew : (a.withDecl b d).decl? ⟨a.decls.length⟩ = some d :=
    (decl?_pushDecl a d _).trans (if_pos rfl)
  unfold findInBlock?
  rw [block?_withDecl]
  by_cases hc : c = b
  · subst hc
    rw [if_pos rfl, hb, Option.map_some, Option.bind_some, Option.bind_some, List.find?_append,
      hold x hb]
    congr 1
    by_cases hd : d.kind ≠ .temporary ∧ d.name = n
    · rw [if_pos ⟨rfl, hd⟩, List.find?_cons_of_pos (declares_iff.2 ⟨d, hnew, hd⟩)]
    · rw [if_neg fun h => hd h.2, List.find?_cons_of_neg, List.find?_nil]
      intro h
      obtain ⟨d', hd', hnamed⟩ := declares_iff.1 h
      rw [hnew] at hd'
      cases hd'
      exact hd hnamed
  · rw [if_neg hc, if_neg fun h => hc h.1, Option.or_none]
    cases hy : a.block? c with
    | none => rfl
    | some y => exact hold y hy

/-! ## Names around a block -/

/-- A name is looked up in the block itself, and then from its parent. -/
theorem lookup?_eq_or (ha : a.ParentsBelow) (f : BlockId) (n : String) :
    a.lookup? f n = (a.findInBlock? f n).or ((a.parent? f).bind fun p => a.lookup? p n) := by
  unfold lookup?
  cases hp : a.parent? f with
  | none =>
    rw [ancestors_eq_singleton hp, List.findSome?_cons]
    cases a.findInBlock? f n <;> rfl
  | some p =>
    rw [ancestors_eq_cons ha hp, List.findSome?_cons]
    cases a.findInBlock? f n <;> rfl

/-- Blocks that lie inside each other are the same. -/
theorem Inside.antisymm (ha : a.ParentsBelow) (h : a.Inside b c) (h' : a.Inside c b) : b = c := by
  have hle := index_le_of_inside ha h
  have hle' := index_le_of_inside ha h'
  obtain ⟨i⟩ := b
  obtain ⟨j⟩ := c
  exact congrArg BlockId.mk (Nat.le_antisymm hle' hle)

/-- Going outwards from `f` one comes to `b` and up to there, `b` included, passes no declaration of
`name`. -/
structure Clear (a : Arena) (f b : BlockId) (name : String) : Prop where
  inside : a.Inside f b
  free : ∀ c, a.Inside f c → a.Inside c b → ¬a.Holds c name

theorem clear_self_iff (ha : a.ParentsBelow) : a.Clear b b name ↔ ¬a.Holds b name := by
  constructor
  · intro h
    exact h.free b (.self b) (.self b)
  · intro h
    refine ⟨.self b, fun c hbc hcb => ?_⟩
    rwa [← hbc.antisymm ha hcb]

/-- The way from a block starts with the block itself and goes on at its parent. -/
theorem clear_iff (hne : f ≠ b) :
    a.Clear f b name ↔ ¬a.Holds f name ∧ ∃ p, a.parent? f = some p ∧ a.Clear p b name := by
  constructor
  · rintro ⟨hinside, hfree⟩
    cases hinside with
    | self => exact absurd rfl hne
    | outward hp hrest =>
      refine ⟨hfree f (.self f) (.outward hp hrest), _, hp, hrest, fun c hpc hcb => ?_⟩
      exact hfree c (.outward hp hpc) hcb
  · rintro ⟨hfirst, p, hp, hrest⟩
    refine ⟨.outward hp hrest.inside, fun c hfc hcb => ?_⟩
    cases hfc with
    | self => exact hfirst
    | outward hp' hpc =>
      cases hp.symm.trans hp'
      exact hrest.free c hpc hcb

/-! ## The new declaration -/

theorem parent?_withDecl (a : Arena) (b : BlockId) (d : Decl) (c : BlockId) :
    (a.withDecl b d).parent? c = a.parent? c :=
  parent?_updateBlock (a := { a with decls := a.decls ++ [d] }) fun _ => rfl

theorem ParentsBelow.withDecl (ha : a.ParentsBelow) (b : BlockId) (d : Decl) :
    (a.withDecl b d).ParentsBelow := by
  intro c p hp
  rw [parent?_withDecl] at hp
  exact ha c p hp

/-- The declaration can be found by `n` at `b`, and the way from `f` to `b` is clear. -/
def FoundFrom (a : Arena) (f b : BlockId) (d : Decl) (n : String) : Prop :=
  (d.kind ≠ .temporary ∧ d.name = n) ∧ a.Clear f b n

/-- Beyond a block that does not hold the name, the search goes on at the parent, unless the new
declaration is found. -/
theorem foundFrom_iff (hholds : ¬a.Holds f n) (hnew : ¬(f = b ∧ d.kind ≠ .temporary ∧ d.name = n)) :
    a.FoundFrom f b d n ↔ ∃ p, a.parent? f = some p ∧ a.FoundFrom p b d n := by
  have hne : d.kind ≠ .temporary ∧ d.name = n → f ≠ b := fun hd hf => hnew ⟨hf, hd⟩
  constructor
  · rintro ⟨hd, hclear⟩
    obtain ⟨_, p, hp, hrest⟩ := (clear_iff (hne hd)).1 hclear
    exact ⟨p, hp, hd, hrest⟩
  · rintro ⟨p, hp, hd, hrest⟩
    exact ⟨hd, (clear_iff (hne hd)).2 ⟨hholds, p, hp, hrest⟩⟩

/-- The new declaration is found where the way to it is clear, and nothing else changes. -/
theorem lookup?_withDecl (ha : a.ParentsBelow) (hl : a.Listed) (hb : a.block? b = some x) (d : Decl)
    (f : BlockId) (n : String) :
    (a.FoundFrom f b d n → (a.withDecl b d).lookup? f n = some ⟨a.decls.length⟩) ∧
    (¬a.FoundFrom f b d n → (a.withDecl b d).lookup? f n = a.lookup? f n) := by
  induction hk : f.index using Nat.strongRecOn generalizing f with
  | ind k ih =>
    rw [lookup?_eq_or (ha.withDecl b d), findInBlock?_withDecl hl hb, parent?_withDecl,
      lookup?_eq_or ha f n]
    by_cases hholds : a.Holds f n
    · -- An earlier declaration in the block where the search starts stays in force.
      have hsome : a.findInBlock? f n ≠ none := fun h => findInBlock?_eq_none_iff.1 h hholds
      obtain ⟨e, he⟩ := Option.ne_none_iff_exists'.1 hsome
      rw [he]
      constructor
      · intro h
        exact absurd hholds (h.2.free f (.self f) h.2.inside)
      · intro _
        rfl
    rw [findInBlock?_eq_none_iff.2 hholds, Option.none_or, Option.none_or]
    by_cases hnew : f = b ∧ d.kind ≠ .temporary ∧ d.name = n
    · rw [if_pos hnew, Option.some_or]
      obtain ⟨rfl, hd⟩ := hnew
      constructor
      · intro _
        rfl
      · intro h
        exact absurd ⟨hd, (clear_self_iff ha).2 hholds⟩ h
    rw [if_neg hnew, Option.none_or]
    have hiff := foundFrom_iff hholds hnew
    cases hp : a.parent? f with
    | none =>
      constructor
      · intro h
        obtain ⟨p, hp', _⟩ := hiff.1 h
        rw [hp] at hp'
        cases hp'
      · intro _
        rfl
    | some p =>
      have hlt := ha f p hp
      obtain ⟨hfound, hsame⟩ := ih p.index (by omega) p rfl
      constructor
      · intro h
        obtain ⟨p', hp', hrest⟩ := hiff.1 h
        cases hp.symm.trans hp'
        exact hfound hrest
      · intro h
        apply hsame
        intro hrest
        exact h (hiff.2 ⟨p, hp, hrest⟩)

/-- What is found by name is there. -/
theorem index_lt_of_lookup? (h : a.lookup? f n = some e) : e.index < a.decls.length := by
  unfold lookup? at h
  obtain ⟨c, _, hc⟩ := List.exists_of_findSome?_eq_some h
  obtain ⟨x, _, hx⟩ := Option.bind_eq_some_iff.1 hc
  obtain ⟨d, hd, _⟩ := declares_iff.1 (List.find?_some hx)
  exact index_lt_of_decl? hd

/-- A new declaration of `name` in `b` takes the name `n` over at `f`. -/
structure TakesOver (a : Arena) (b : BlockId) (name : String) (kind : DeclKind) (f : BlockId)
    (n : String) : Prop where
  same : n = name
  named : kind ≠ .temporary
  around : a.encloses b f = true
  /-- No block from `f` up to `b` holds the name already. -/
  free : ∀ c, a.encloses c f = true → a.encloses b c = true → ¬a.Holds c name

theorem takesOver_iff (ha : a.ParentsBelow) (d : Decl) :
    a.TakesOver b d.name d.kind f n ↔ a.FoundFrom f b d n := by
  constructor
  · rintro ⟨rfl, hkind, haround, hfree⟩
    refine ⟨⟨hkind, rfl⟩, (encloses_iff ha).1 haround, fun c hfc hcb => ?_⟩
    exact hfree c ((encloses_iff ha).2 hfc) ((encloses_iff ha).2 hcb)
  · rintro ⟨⟨hkind, rfl⟩, hinside, hfree⟩
    refine ⟨rfl, hkind, (encloses_iff ha).2 hinside, fun c hfc hcb => ?_⟩
    exact hfree c ((encloses_iff ha).1 hfc) ((encloses_iff ha).1 hcb)

/-- In an arena whose calls were only about blocks that it had given out, a declaration that is
added to an open block gets the next number. A name is found as before, except where the new
declaration takes it over: there the new one is found. So what could be found can still be found,
and a second declaration of a name in a block changes nothing. -/
theorem declaration_effect_on_lookup (h : empty.GivenOut calls)
    (hb : (empty.perform calls).block? b = some x) (hopen : x.isSealed = false) (name : String)
    (type : Option TypeRef) (kind : DeclKind) (span : Span) :
    let a := empty.perform calls
    ∃ a', a.addDecl b name type kind span = (a', .ok ⟨a.decls.length⟩) ∧
      (∀ f n, ¬a.TakesOver b name kind f n → a'.lookup? f n = a.lookup? f n) ∧
      (∀ f n, a.TakesOver b name kind f n →
        a'.lookup? f n = some ⟨a.decls.length⟩ ∧ a.lookup? f n ≠ some ⟨a.decls.length⟩) ∧
      (∀ f n, a.lookup? f n ≠ none → a'.lookup? f n ≠ none) ∧
      (a.Holds b name → ∀ f n, a'.lookup? f n = a.lookup? f n) := by
  intro a
  have ha : a.ParentsBelow := parentsBelow_perform h
  have hiff : ∀ f n, a.TakesOver b name kind f n ↔ a.FoundFrom f b ⟨name, type, kind, b, span⟩ n :=
    fun f n => takesOver_iff ha ⟨name, type, kind, b, span⟩
  have hlookup := lookup?_withDecl ha (listed_perform calls) hb ⟨name, type, kind, b, span⟩
  have hsame : ∀ f n, ¬a.TakesOver b name kind f n →
      (a.withDecl b ⟨name, type, kind, b, span⟩).lookup? f n = a.lookup? f n := by
    intro f n hnot
    exact (hlookup f n).2 fun hfound => hnot ((hiff f n).2 hfound)
  have hnew : ∀ f n, a.TakesOver b name kind f n →
      (a.withDecl b ⟨name, type, kind, b, span⟩).lookup? f n = some ⟨a.decls.length⟩ := by
    intro f n htakes
    exact (hlookup f n).1 ((hiff f n).1 htakes)
  refine ⟨_, addDecl_eq hb hopen name type kind span, hsame, fun f n htakes => ?_,
    fun f n hfound => ?_, fun hholds f n => ?_⟩
  · refine ⟨hnew f n htakes, fun hold => ?_⟩
    exact Nat.lt_irrefl _ (index_lt_of_lookup? hold)
  · by_cases htakes : a.TakesOver b name kind f n
    · rw [hnew f n htakes]
      exact Option.some_ne_none _
    · rwa [hsame f n htakes]
  · apply hsame
    intro htakes
    exact htakes.free b htakes.around ((encloses_iff ha).2 (.self b)) hholds

/-- A variable of the root, declared again in a child: inside the child the new one is found, and in
the root still the old one. -/
theorem redeclared_in_child :
    let calls : List Call := [.createRoot .synthetic,
      .addDecl ⟨0⟩ "x" none .localVar .synthetic, .createChild ⟨0⟩ .synthetic,
      .createChild ⟨1⟩ .synthetic]
    let a := empty.perform calls
    empty.GivenOut calls ∧ a.lookup? ⟨2⟩ "x" = some ⟨0⟩ ∧
      ∃ a', a.addDecl ⟨1⟩ "x" none .param .synthetic = (a', .ok ⟨1⟩) ∧
        a'.lookup? ⟨2⟩ "x" = some ⟨1⟩ ∧ a'.lookup? ⟨0⟩ "x" = some ⟨0⟩ := by
  intro calls a
  have hgiven : empty.GivenOut calls := by decide
  have hblock : a.block? ⟨1⟩ = some ⟨⟨1⟩, some ⟨0⟩, [], [⟨2⟩], [], .synthetic, false⟩ := rfl
  obtain ⟨a', hadd, hsame, hnew, _⟩ :=
    declaration_effect_on_lookup hgiven hblock rfl "x" none .param .synthetic
  have htakes : a.TakesOver ⟨1⟩ "x" .param ⟨2⟩ "x" := by
    refine ⟨rfl, nofun, by decide, fun c hc hcb => ?_⟩
    have hchain : a.ancestors ⟨2⟩ = [⟨2⟩, ⟨1⟩, ⟨0⟩] := by decide
    have hmem : ⟨2⟩ = c ∨ ⟨1⟩ = c ∨ ⟨0⟩ = c := by
      simpa [encloses, hchain] using hc
    rcases hmem with rfl | rfl | rfl
    · exact findInBlock?_eq_none_iff.1 (by decide)
    · exact findInBlock?_eq_none_iff.1 (by decide)
    · exact absurd hcb (by decide)
  have hkept : ¬a.TakesOver ⟨1⟩ "x" .param ⟨0⟩ "x" := by
    intro h
    exact absurd h.around (by decide)
  exact ⟨hgiven, by decide, a', hadd, (hnew _ _ htakes).1, (hsame _ _ hkept).trans (by decide)⟩

end Arena

end BlockLowering.IR
