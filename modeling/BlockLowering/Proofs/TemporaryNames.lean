import BlockLowering.Proofs.ClosedScopes

/-!
# Names of temporaries

A session numbers its temporaries in the order in which it makes them, and names each by the text
that its options gave at that moment, followed by the number (`temporaryNames_run`). As long as the
text stays the same, all names differ. Two temporaries made under different texts can share a
name: then the earlier text is the later one with digits behind it.
-/

namespace BlockLowering

open IR Source Session

/-! ## Numerals -/

/-- The text of a smaller number is not longer. -/
theorem length_toDigits_le {i j : Nat} (h : i ≤ j) :
    (Nat.toDigits 10 i).length ≤ (Nat.toDigits 10 j).length := by
  have hj := (Nat.length_toDigits_le_iff (n := j) (by decide : 1 < 10) Nat.length_toDigits_pos).1
    (Nat.le_refl _)
  exact (Nat.length_toDigits_le_iff (by decide) Nat.length_toDigits_pos).2 (Nat.lt_of_le_of_lt h hj)

theorem toDigits_ne {i j : Nat} (h : i ≠ j) : Nat.toDigits 10 i ≠ Nat.toDigits 10 j := by
  intro heq
  refine h ?_
  rw [← Nat.ofDigitChars_ten_toDigits (n := i), heq, Nat.ofDigitChars_ten_toDigits]

/-- The text `p`, in force for a smaller number, is the text `q`, in force for a larger one, with
digits behind it that also begin the larger number; the smaller number is the rest of the larger. -/
def Clash (p q : String) (i j : Nat) : Prop :=
  ∃ digits : String, digits ≠ "" ∧ p = q ++ digits ∧ toString j = digits ++ toString i

/-- Names that end in different numbers are the same only by a clash. -/
theorem append_toString_eq_iff {p q : String} {i j : Nat} (h : i < j) :
    p ++ toString i = q ++ toString j ↔ Clash p q i j := by
  constructor
  · intro heq
    have hchars : p.toList ++ Nat.toDigits 10 i = q.toList ++ Nat.toDigits 10 j := by
      simpa using congrArg String.toList heq
    have hlength := length_toDigits_le (Nat.le_of_lt h)
    have hne := toDigits_ne (Nat.ne_of_lt h)
    rcases List.append_eq_append_iff.1 hchars with ⟨rest, _, hi⟩ | ⟨rest, hp, hj⟩
    · -- The text of the larger number would be the shorter one.
      rw [hi, List.length_append] at hlength
      obtain rfl : rest = [] := List.length_eq_zero_iff.1 (by omega)
      exact absurd hi hne
    · refine ⟨String.ofList rest, fun hempty => ?_, ?_, ?_⟩
      · obtain rfl : rest = [] := by simpa using congrArg String.toList hempty
        exact hne hj.symm
      · exact String.toList_inj.1 (by simpa using hp)
      · exact String.toList_inj.1 (by simpa using hj)
  · rintro ⟨digits, _, rfl, hj⟩
    rw [hj, String.append_assoc]

theorem not_clash_self (p : String) (i j : Nat) : ¬Clash p p i j := by
  rintro ⟨digits, hne, hp, _⟩
  refine hne (String.toList_inj.1 ?_)
  simpa using congrArg String.toList hp

/-! ## Numbered names -/

/-- The names of temporaries numbered from `start` on, given the texts in force for them. -/
def numberedNames (start : Nat) (texts : List String) : List String :=
  texts.mapIdx fun i text => text ++ toString (start + i)

theorem numberedNames_append (start : Nat) (l r : List String) :
    numberedNames start (l ++ r) = numberedNames start l ++ numberedNames (start + l.length) r := by
  unfold numberedNames
  rw [List.mapIdx_append]
  congr 2
  funext i text
  rw [Nat.add_assoc, Nat.add_comm l.length i]

/-- Names are distinct unless two of them clash. -/
theorem nodup_numberedNames_iff (texts : List String) :
    (numberedNames 0 texts).Nodup ↔
      ∀ i j p q, i < j → texts[i]? = some p → texts[j]? = some q → ¬Clash p q i j := by
  unfold numberedNames
  rw [List.Nodup, List.pairwise_iff_getElem]
  simp only [List.length_mapIdx, List.getElem_mapIdx, Nat.zero_add]
  constructor
  · intro h i j p q hij hp hq hclash
    obtain ⟨hi, rfl⟩ := List.getElem?_eq_some_iff.1 hp
    obtain ⟨hj, rfl⟩ := List.getElem?_eq_some_iff.1 hq
    exact h i j hi hj hij ((append_toString_eq_iff hij).2 hclash)
  · intro h i j hi hj hij heq
    exact h i j _ _ hij (List.getElem?_eq_getElem hi) (List.getElem?_eq_getElem hj)
      ((append_toString_eq_iff hij).1 heq)

/-! ## Temporaries of a session -/

/-- The names of the temporaries, in the order in which they were made. -/
def IR.Arena.temporaryNames (a : Arena) : List String :=
  (a.decls.filter Decl.isTemporary).map Decl.name

/-- From `s` to `t` some temporaries are made, all named with the text in force. -/
def Session.Supplies (s t : Session) : Prop :=
  t.options = s.options ∧ ∃ n, t.nextTemp = s.nextTemp + n ∧
    t.arena.temporaryNames =
      s.arena.temporaryNames ++ numberedNames s.nextTemp (.replicate n s.options.tempPrefix)

section

variable {names : SymbolTable} {src : Node → Prop} {s t u : Session} {b c : BlockId} {n : Nat}

theorem Session.Supplies.of_same (hoptions : t.options = s.options) (hnext : t.nextTemp = s.nextTemp)
    (hnames : t.arena.temporaryNames = s.arena.temporaryNames) : s.Supplies t :=
  ⟨hoptions, 0, hnext, by rw [hnames]; exact (List.append_nil _).symm⟩

theorem Session.Supplies.trans (h : s.Supplies t) (h' : t.Supplies u) : s.Supplies u := by
  obtain ⟨hoptions, n, hnext, hnames⟩ := h
  obtain ⟨hoptions', n', hnext', hnames'⟩ := h'
  refine ⟨hoptions'.trans hoptions, n + n', by omega, ?_⟩
  rw [hnames', hnames, hnext, hoptions, List.append_assoc, ← List.replicate_append_replicate,
    numberedNames_append, List.length_replicate]

theorem IR.Arena.temporaryNames_withDecl (a : Arena) (b : BlockId) (d : Decl) :
    (a.withDecl b d).temporaryNames =
      a.temporaryNames ++ if d.isTemporary then [d.name] else [] := by
  unfold Arena.temporaryNames
  rw [Arena.decls_withDecl, List.filter_append, List.map_append]
  by_cases hd : d.isTemporary = true
  · rw [List.filter_cons_of_pos hd, if_pos hd]
    rfl
  · rw [List.filter_cons_of_neg hd, if_neg hd]
    rfl

/-- Linking a placeholder changes the name of no temporary. -/
theorem IR.Arena.temporaryNames_withLink {a : Arena} {p : DeclId} {x : Decl}
    (hx : a.decl? p = some x) (free : x.kind = .placeholder none) (target : DeclId) :
    (a.withLink p target).temporaryNames = a.temporaryNames := by
  have hview : ∀ l : List Decl, (l.filter Decl.isTemporary).map Decl.name =
      (l.map fun d => (d.isTemporary, d.name)).filterMap fun v => if v.1 then some v.2 else none := by
    intro l
    rw [List.filterMap_map, ← List.filterMap_eq_map, List.filterMap_filter]
    rfl
  have hmap : (a.withLink p target).decls.map (fun d => (d.isTemporary, d.name)) =
      a.decls.map fun d => (d.isTemporary, d.name) := by
    apply List.ext_getElem?
    intro i
    rw [List.getElem?_map, List.getElem?_map]
    show ((a.withLink p target).decl? ⟨i⟩).map _ = (a.decl? ⟨i⟩).map _
    rw [Arena.decl?_withLink]
    by_cases hi : (⟨i⟩ : DeclId) = p
    · rw [if_pos hi, hi, hx]
      have hsame := (Decl.Becomes.linked x target free).isTemporary_eq
      exact congrArg some (Prod.ext hsame rfl)
    · rw [if_neg hi]
  unfold Arena.temporaryNames
  rw [hview, hmap, ← hview]

theorem Act.supplies (hs : s.Good names src) (h : Act names src s t) : s.Supplies t := by
  cases h with
  | report p => exact .of_same rfl rfl rfl
  | openRoot hnone =>
    rw [Lower.run_currentBlock_none hnone]
    exact .of_same rfl rfl rfl
  | @temporary b here span =>
    obtain ⟨x, hx, ho⟩ := hs.current here
    rw [Lower.run_freshTemp hx ho]
    refine ⟨rfl, 1, rfl, ?_⟩
    exact Arena.temporaryNames_withDecl s.arena b (Lower.tempDecl s b span)
  | @declare b here name type kind span named typed =>
    obtain ⟨x, hx, ho⟩ := hs.current here
    rw [Lower.run_addDecl hx ho]
    have hnot : (Decl.mk name type kind b span).isTemporary = false := by
      simpa [Decl.isTemporary] using named
    refine .of_same rfl rfl ?_
    show (s.arena.withDecl b ⟨name, type, kind, b, span⟩).temporaryNames = _
    rw [Arena.temporaryNames_withDecl, hnot]
    exact List.append_nil _
  | @link b here name d =>
    rcases hs.run_linkHoisted here name d with h | ⟨p, x, hx, hfree, h⟩
    · rw [h]
      exact .of_same rfl rfl rfl
    · rw [h]
      exact .of_same rfl rfl (Arena.temporaryNames_withLink hx hfree d)
  | child here span =>
    obtain ⟨x, hx, _⟩ := hs.current here
    rw [Lower.run_createChild hx]
    exact .of_same rfl rfl rfl
  | append here inScope =>
    obtain ⟨x, hx, ho⟩ := hs.current here
    rw [Lower.run_addStmt hx ho]
    exact .of_same rfl rfl rfl

theorem Runs.supplies (hs : s.Good names src) (h : Runs names src n s t) : s.Supplies t := by
  induction h with
  | done s => exact .of_same rfl rfl rfl
  | act h => exact h.supplies hs
  | trans h _ ih ih' => exact (ih hs).trans (ih' (h.good_frame hs).1)
  | @within s t c opens _ h ih =>
    have hin := hs.openBlock opens
    obtain ⟨ht, hst⟩ := h.good_frame hin
    have hopen : s.Supplies ((Lower.openBlock c).run s).2 := .of_same rfl rfl rfl
    refine (hopen.trans (ih hin)).trans ?_
    rw [ht.run_closeBlock (hst.current rfl)]
    exact .of_same rfl rfl rfl

/-- The placeholders of a unit are no temporaries. -/
theorem supplies_enterUnit (names : SymbolTable) (m : Module) (s : Session) :
    s.Supplies (s.enterUnit names m) := by
  obtain ⟨scopes, ids, htypes⟩ := run_ensureTypeScope_fields s
  have hnone : (m.placeholders names s.options s.nextUnit).filter Decl.isTemporary = [] := by
    refine List.filter_eq_nil_iff.2 fun d hd => ?_
    rw [isTemporary_placeholders hd]
    exact Bool.false_ne_true
  refine .of_same ?_ ?_ ?_
  · show (Lower.ensureTypeScope.run s).2.options = s.options
    rw [htypes]
  · show (Lower.ensureTypeScope.run s).2.nextTemp = s.nextTemp
    rw [htypes]
  · unfold Arena.temporaryNames
    rw [Session.decls_enterUnit, List.filter_append, hnone, List.append_nil]

/-- A step that does not choose options names its temporaries with the text in force. -/
theorem supplies_step (hs : Reachable names anyNode s) (step : Step)
    (hstep : ∀ chosen, step ≠ .options chosen) : s.Supplies (s.step names step) := by
  have hkept : Kept names anyNode (fun _ => False) s.Supplies := by
    refine ⟨fun _ _ h => h.elim, fun t m ht _ h => ?_, fun t st ht _ _ h => ?_⟩
    · have hin := ht.enterUnit m
      have hstatements := (does_statementList m.statements (covers_anyNode _) 0 _ hin.good
        (Nat.zero_le _)).1.supplies hin.good
      have hleave : (t.unitStatements names m).Supplies (t.leaveUnit (t.unitStatements names m)) :=
        .of_same rfl rfl rfl
      rw [run_module ht m]
      exact ((h.trans (supplies_enterUnit names m t)).trans hstatements).trans hleave
    · exact h.trans ((does_statementAt false st trivial (covers_anyNode _) 0 t ht.good
        (Nat.zero_le _)).1.supplies ht.good)
  exact hkept.step hs (.of_same rfl rfl rfl) (fun chosen heq => hstep chosen heq) fun _ _ =>
    covers_anyNode _

/-- The texts in force for the temporaries that the steps make, one for each temporary. -/
def temporaryTexts (names : SymbolTable) : List Step → Session → List String
  | [], _ => []
  | step :: rest, s =>
    let t := s.step names step
    .replicate (t.nextTemp - s.nextTemp) s.options.tempPrefix ++ temporaryTexts names rest t

theorem temporaryNames_run (hs : Reachable names anyNode s) (steps : List Step) :
    (s.run names steps).arena.temporaryNames =
      s.arena.temporaryNames ++ numberedNames s.nextTemp (temporaryTexts names steps s) := by
  induction steps generalizing s with
  | nil => exact (List.append_nil _).symm
  | cons step rest ih =>
    have hstep : ∃ n, (s.step names step).nextTemp = s.nextTemp + n ∧
        (s.step names step).arena.temporaryNames = s.arena.temporaryNames ++
          numberedNames s.nextTemp (.replicate n s.options.tempPrefix) := by
      cases step with
      | options chosen => exact ⟨0, rfl, (List.append_nil _).symm⟩
      | module | statement | expression | node => exact (supplies_step hs _ (by simp)).2
    obtain ⟨n, hnext, hnames⟩ := hstep
    show ((s.step names step).run names rest).arena.temporaryNames = _
    unfold temporaryTexts
    rw [ih (hs.step fun _ _ => covers_anyNode _), hnames, numberedNames_append,
      List.length_replicate, hnext, Nat.add_sub_cancel_left, List.append_assoc]

/-- Every temporary is named by the text in force when it was made and by its number, counted over
the whole session. So the names are distinct exactly if no two of them clash; in particular, they are
distinct if all temporaries were made under one text. -/
theorem run_temporaryNames_nodup_iff (names : SymbolTable) (steps : List Step) :
    let a := (Session.run names steps {}).arena
    let texts := temporaryTexts names steps {}
    a.temporaryNames = texts.mapIdx (fun i text => text ++ toString i) ∧
    (a.temporaryNames.Nodup ↔
      ∀ i j p q, i < j → texts[i]? = some p → texts[j]? = some q → ¬Clash p q i j) ∧
    ((∀ p ∈ texts, ∀ q ∈ texts, p = q) → a.temporaryNames.Nodup) := by
  intro a texts
  have hnames : a.temporaryNames = numberedNames 0 texts := temporaryNames_run .start steps
  have hiff := nodup_numberedNames_iff texts
  rw [hnames]
  refine ⟨?_, hiff, fun hsame => hiff.2 fun i j p q _ hp hq => ?_⟩
  · unfold numberedNames
    simp only [Nat.zero_add]
  · obtain rfl := hsame p (List.mem_of_getElem? hp) q (List.mem_of_getElem? hq)
    exact not_clash_self p i j

/-- One assignment under the text `t1` and ten under the text `t`: the first and the last temporary
are both named `t10`. -/
theorem changed_text_repeats_name :
    let names : SymbolTable := ⟨["x"]⟩
    let x : Ident := ⟨⟨0⟩, .synthetic⟩
    let declaration : Statement :=
      .variableDecl ⟨.letBinding, .identifier x, none, none, .synthetic⟩
    let assignment : Statement := .expression
      (.assignment .assign (.identifier x) (.int 1 .synthetic) .synthetic) .synthetic
    let steps : List Step :=
      [.options { tempPrefix := "t1" }, .module ⟨[declaration, assignment], .synthetic⟩,
        .options { tempPrefix := "t" }, .module ⟨declaration :: .replicate 10 assignment, .synthetic⟩]
    let texts := temporaryTexts names steps {}
    texts[0]? = some "t1" ∧ texts[10]? = some "t" ∧ Clash "t1" "t" 0 10 ∧
      ¬(Session.run names steps {}).arena.temporaryNames.Nodup := by
  intro names x declaration assignment steps texts
  have hfirst : texts[0]? = some "t1" := by decide +kernel
  have hlast : texts[10]? = some "t" := by decide +kernel
  have hclash : Clash "t1" "t" 0 10 := ⟨"1", by decide, by decide, by decide +kernel⟩
  refine ⟨hfirst, hlast, hclash, fun hnodup => ?_⟩
  obtain ⟨_, hiff, _⟩ := run_temporaryNames_nodup_iff names steps
  exact hiff.1 hnodup 0 10 "t1" "t" (by decide) hfirst hlast hclash

end

end BlockLowering
