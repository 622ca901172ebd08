import Mathlib.Algebra.Group.Nat.Defs
import Mathlib.Data.Finset.Card
import Mathlib.Data.List.Basic
import BlockLowering.Interner

/-!
# Interners are symbol tables

The two records of an interner agree: the handle of a text is the handle of its position
(`Mirrors`). So an interner does what a symbol table with the same texts does, with handles in the
place of symbols (`intern_eq`), and every handle that a run of calls gives
out is read off the texts at the end of the run (`handles_internAll`).

Positions and handles correspond as long as there are fewer than `2 ^ 32` texts, and no longer: the
next text shares its handle with the one before (`handles_injective_iff`).
-/

namespace BlockLowering

/-! ## Positions and handles -/

namespace Handle

theorem position_ofPosition {n : Nat} (h : n < 2 ^ 32 - 1) : (ofPosition n).position = n := by
  have hn : (UInt32.ofNat n).toNat = n := UInt32.toNat_ofNat_of_lt' (by unfold UInt32.size; omega)
  have hne : UInt32.ofNat n ≠ largest := by
    intro heq
    have hlargest : n = 4294967295 := hn.symm.trans (congrArg UInt32.toNat heq)
    omega
  unfold position ofPosition ofRaw
  rw [dif_neg hne, UInt32.add_sub_cancel, hn]

/-- The last position of 32 bits has no handle of its own. -/
theorem ofPosition_last : ofPosition (2 ^ 32 - 1) = ofPosition (2 ^ 32 - 2) := by decide

end Handle

/-! ## Symbol tables -/

namespace SymbolTable

variable (t : SymbolTable) (s : String)

theorem find?_of_mem (h : s ∈ t.texts) : t.find? s = some ⟨t.texts.idxOf s⟩ := by
  cases hs : t.texts.idxOf? s with
  | none => exact absurd h (List.idxOf?_eq_none_iff.1 hs)
  | some i =>
    have hi : t.texts.idxOf s = i := by rw [List.idxOf_eq_getD_idxOf?, hs]; rfl
    unfold find?
    rw [hs, hi]
    rfl

theorem find?_of_not_mem (h : s ∉ t.texts) : t.find? s = none := by
  unfold find?
  rw [List.idxOf?_eq_none_iff.2 h]
  rfl

/-- A new text is found at the end, and all others where they were. -/
theorem find?_push (h : s ∉ t.texts) (r : String) :
    (SymbolTable.mk (t.texts ++ [s])).find? r = if r = s then some ⟨t.size⟩ else t.find? r := by
  by_cases hr : r = s
  · have hlast : (t.texts ++ [s]).idxOf r = t.size := by
      rw [hr, List.idxOf_append_of_notMem h, List.idxOf_cons_self]
      rfl
    have hmem : r ∈ t.texts ++ [s] := by simp [hr]
    rw [if_pos hr, find?_of_mem _ r hmem]
    exact congrArg (fun n => some (Symbol.mk n)) hlast
  · rw [if_neg hr]
    by_cases hmem : r ∈ t.texts
    · rw [t.find?_of_mem r hmem, find?_of_mem _ r (List.mem_append_left [s] hmem)]
      exact congrArg (fun n => some (Symbol.mk n)) (List.idxOf_append_of_mem hmem)
    · have hmem' : r ∉ t.texts ++ [s] := by simp [hmem, hr]
      rw [t.find?_of_not_mem r hmem, find?_of_not_mem _ r hmem']

theorem texts_intern :
    (t.intern s).1.texts = if s ∈ t.texts then t.texts else t.texts ++ [s] := by
  unfold intern
  by_cases h : s ∈ t.texts
  · rw [if_pos h, t.find?_of_mem s h]
  · rw [if_neg h, t.find?_of_not_mem s h]

theorem index_intern : (t.intern s).2.index = (t.intern s).1.texts.idxOf s := by
  rw [texts_intern]
  unfold intern
  by_cases h : s ∈ t.texts
  · rw [if_pos h, t.find?_of_mem s h]
  · rw [if_neg h, t.find?_of_not_mem s h, List.idxOf_append_of_notMem h, List.idxOf_cons_self]
    rfl

end SymbolTable

/-! ## One call -/

namespace Interner

variable {t : Interner}

/-- The symbol table with the texts of the interner. -/
def toTable (t : Interner) : SymbolTable := ⟨t.texts⟩

/-- Each text is known by the handle of its position. -/
def Mirrors (t : Interner) : Prop :=
  ∀ s, t.find? s = (t.toTable.find? s).map fun symbol => .ofPosition symbol.index

theorem Mirrors.empty : Interner.empty.Mirrors := fun _ => rfl

section

variable (h : t.Mirrors) (s : String)

include h

/-- An interner finds and adds what a symbol table does. -/
theorem intern_eq :
    (t.intern s).1.toTable = (t.toTable.intern s).1 ∧
      (t.intern s).2 = .ofPosition (t.toTable.intern s).2.index := by
  unfold intern SymbolTable.intern
  rw [h s]
  cases t.toTable.find? s with
  | none => exact ⟨rfl, rfl⟩
  | some symbol => exact ⟨rfl, rfl⟩

theorem Mirrors.intern : (t.intern s).1.Mirrors := by
  by_cases hs : s ∈ t.toTable.texts
  · have hsame : (t.intern s).1 = t := by
      unfold Interner.intern
      rw [h s, SymbolTable.find?_of_mem _ _ hs]
      rfl
    rwa [hsame]
  · have hnew : (t.intern s).1 = ⟨(s, .ofPosition t.size) :: t.handles, t.texts ++ [s]⟩ := by
      unfold Interner.intern
      rw [h s, SymbolTable.find?_of_not_mem _ _ hs]
      rfl
    rw [hnew]
    intro r
    show List.lookup r ((s, _) :: t.handles) = ((SymbolTable.mk (t.toTable.texts ++ [s])).find? r).map _
    rw [t.toTable.find?_push s hs, List.lookup_cons]
    by_cases hr : r = s
    · rw [if_pos hr, show (r == s) = true by simp [hr]]
      rfl
    · rw [if_neg hr, show (r == s) = false by simp [hr]]
      exact h r

theorem texts_intern :
    (t.intern s).1.texts = if s ∈ t.texts then t.texts else t.texts ++ [s] := by
  have htable := congrArg SymbolTable.texts (intern_eq h s).1
  exact htable.trans (t.toTable.texts_intern s)

theorem intern_snd : (t.intern s).2 = .ofPosition ((t.intern s).1.texts.idxOf s) := by
  have htable := congrArg SymbolTable.texts (intern_eq h s).1
  rw [(intern_eq h s).2, SymbolTable.index_intern, ← htable]
  rfl

end

/-! ## Runs of calls -/

theorem internAll_append (t : Interner) (l r : List String) :
    (t.internAll (l ++ r)).1 = ((t.internAll l).1.internAll r).1 := by
  induction l generalizing t with
  | nil => rfl
  | cons s rest ih => exact ih (t.intern s).1

theorem Mirrors.internAll (h : t.Mirrors) (calls : List String) : (t.internAll calls).1.Mirrors := by
  induction calls generalizing t with
  | nil => exact h
  | cons s rest ih => exact ih (h.intern s)

theorem mem_texts_intern (h : t.Mirrors) (r s : String) :
    r ∈ (t.intern s).1.texts ↔ r ∈ t.texts ∨ r = s := by
  rw [texts_intern h]
  by_cases hs : s ∈ t.texts
  · rw [if_pos hs]
    exact ⟨.inl, fun hor => hor.elim id fun heq => heq ▸ hs⟩
  · rw [if_neg hs, List.mem_append, List.mem_singleton]

theorem mem_texts_internAll (h : t.Mirrors) (calls : List String) (r : String) :
    r ∈ (t.internAll calls).1.texts ↔ r ∈ t.texts ∨ r ∈ calls := by
  induction calls generalizing t with
  | nil => simp [internAll]
  | cons s rest ih =>
    have hrest := ih (h.intern s)
    rw [mem_texts_intern h] at hrest
    rw [List.mem_cons, ← or_assoc]
    exact hrest

theorem nodup_texts_internAll (h : t.Mirrors) (calls : List String) (hn : t.texts.Nodup) :
    (t.internAll calls).1.texts.Nodup := by
  induction calls generalizing t with
  | nil => exact hn
  | cons s rest ih =>
    apply ih (h.intern s)
    rw [texts_intern h]
    by_cases hs : s ∈ t.texts
    · rwa [if_pos hs]
    · rw [if_neg hs]
      exact List.nodup_append.2 ⟨hn, List.nodup_singleton s, fun a ha b hb => by
        rw [List.mem_singleton.1 hb]
        rintro rfl
        exact hs ha⟩

/-- Texts keep their positions. -/
theorem texts_internAll_isPrefix (h : t.Mirrors) (calls : List String) :
    t.texts <+: (t.internAll calls).1.texts := by
  induction calls generalizing t with
  | nil => exact List.prefix_refl _
  | cons s rest ih =>
    have hone : t.texts <+: (t.intern s).1.texts := by
      rw [texts_intern h]
      by_cases hs : s ∈ t.texts
      · rw [if_pos hs]
      · rw [if_neg hs]
        exact List.prefix_append _ _
    exact hone.trans (ih (h.intern s))

theorem idxOf_texts_internAll (h : t.Mirrors) (calls : List String) {s : String} (hs : s ∈ t.texts) :
    (t.internAll calls).1.texts.idxOf s = t.texts.idxOf s := by
  obtain ⟨more, hmore⟩ := texts_internAll_isPrefix h calls
  rw [← hmore, List.idxOf_append_of_mem hs]

/-- Every call gives the handle of the position at which its text stands at the end. -/
theorem handles_internAll (h : t.Mirrors) (calls : List String) :
    (t.internAll calls).2 =
      calls.map fun s => .ofPosition ((t.internAll calls).1.texts.idxOf s) := by
  induction calls generalizing t with
  | nil => rfl
  | cons s rest ih =>
    have hs : s ∈ (t.intern s).1.texts := (mem_texts_intern h s s).2 (.inr rfl)
    show (t.intern s).2 :: ((t.intern s).1.internAll rest).2 = _
    rw [ih (h.intern s), List.map_cons, intern_snd h]
    show _ = Handle.ofPosition (((t.intern s).1.internAll rest).1.texts.idxOf s) :: _
    rw [idxOf_texts_internAll (h.intern s) rest hs]
    rfl

/-! ## Runs from the start -/

/-- The interner after the calls. -/
def ofCalls (calls : List String) : Interner := (Interner.empty.internAll calls).1

/-- Call `i` interned the text and gave the handle. -/
def Gave (calls : List String) (i : Nat) (text : String) (handle : Handle) : Prop :=
  calls[i]? = some text ∧ (Interner.empty.internAll calls).2[i]? = some handle

theorem mirrors_ofCalls (calls : List String) : (ofCalls calls).Mirrors :=
  Mirrors.empty.internAll calls

theorem nodup_texts_ofCalls (calls : List String) : (ofCalls calls).texts.Nodup :=
  nodup_texts_internAll .empty calls List.nodup_nil

variable {calls : List String} {i k : Nat} {s : String} {x : Handle}

theorem mem_texts_ofCalls : s ∈ (ofCalls calls).texts ↔ s ∈ calls := by
  have hmem := mem_texts_internAll .empty calls s
  rwa [or_iff_right (show s ∉ Interner.empty.texts from List.not_mem_nil)] at hmem

theorem size_ofCalls (calls : List String) : (ofCalls calls).size = calls.toFinset.card := by
  have hset : (ofCalls calls).texts.toFinset = calls.toFinset := by
    ext s
    rw [List.mem_toFinset, List.mem_toFinset, mem_texts_ofCalls]
  rw [← hset, List.toFinset_card_of_nodup (nodup_texts_ofCalls calls)]
  rfl

/-- A text has the same position after any number of calls. -/
theorem idxOf_ofCalls_take (hs : s ∈ calls.take k) :
    (ofCalls (calls.take k)).texts.idxOf s = (ofCalls calls).texts.idxOf s := by
  have hsplit : ofCalls calls = ((ofCalls (calls.take k)).internAll (calls.drop k)).1 := by
    unfold ofCalls
    rw [← internAll_append, List.take_append_drop]
  rw [hsplit]
  exact (idxOf_texts_internAll (mirrors_ofCalls _) _ (mem_texts_ofCalls.2 hs)).symm

theorem gave_iff :
    Gave calls i s x ↔ calls[i]? = some s ∧ x = .ofPosition ((ofCalls calls).texts.idxOf s) := by
  unfold Gave
  rw [handles_internAll .empty, List.getElem?_map]
  constructor
  · rintro ⟨hs, hx⟩
    rw [hs] at hx
    exact ⟨hs, (Option.some.inj hx).symm⟩
  · rintro ⟨hs, rfl⟩
    rw [hs]
    exact ⟨rfl, rfl⟩

theorem exists_gave (hs : s ∈ calls) :
    ∃ i, Gave calls i s (.ofPosition ((ofCalls calls).texts.idxOf s)) := by
  obtain ⟨i, hi⟩ := List.mem_iff_getElem?.1 hs
  exact ⟨i, gave_iff.2 ⟨hi, rfl⟩⟩

theorem Gave.mem_take (h : Gave calls i s x) (hik : i < k) : s ∈ calls.take k := by
  apply List.mem_of_getElem? (i := i)
  rw [List.getElem?_take, if_pos hik, h.1]

theorem Gave.mem (h : Gave calls i s x) : s ∈ calls := List.mem_of_getElem? h.1

/-- With few enough texts, a handle tells the position of its text. -/
theorem Gave.position_eq (hfew : calls.toFinset.card ≤ 2 ^ 32 - 1) (h : Gave calls i s x) :
    x.position = (ofCalls calls).texts.idxOf s := by
  have hlt : (ofCalls calls).texts.idxOf s < (ofCalls calls).size :=
    List.idxOf_lt_length_iff.2 (mem_texts_ofCalls.2 h.mem)
  rw [size_ofCalls] at hlt
  rw [(gave_iff.1 h).2, Handle.position_ofPosition (by omega)]

/-- The text at a position was interned, and its handle is the one for the position. -/
theorem exists_gave_at (calls : List String) {n : Nat} (hn : n < (ofCalls calls).texts.length) :
    ∃ i, Gave calls i (ofCalls calls).texts[n] (.ofPosition n) := by
  obtain ⟨i, hi⟩ := exists_gave (mem_texts_ofCalls.1 (List.getElem_mem hn))
  rw [(nodup_texts_ofCalls calls).idxOf_getElem n hn] at hi
  exact ⟨i, hi⟩

/-- Different texts have different handles exactly as long as there are no more texts than
handles. -/
theorem handles_injective_iff (calls : List String) :
    (∀ i j s r x, Gave calls i s x → Gave calls j r x → s = r) ↔
      calls.toFinset.card ≤ 2 ^ 32 - 1 := by
  constructor
  · intro hinj
    by_contra hmany
    have hsize : (ofCalls calls).texts.length = calls.toFinset.card := size_ofCalls calls
    -- The texts at the last two positions of 32 bits share a handle.
    obtain ⟨i, hi⟩ := exists_gave_at calls (n := 2 ^ 32 - 1) (by omega)
    obtain ⟨j, hj⟩ := exists_gave_at calls (n := 2 ^ 32 - 2) (by omega)
    rw [Handle.ofPosition_last] at hi
    have hsame := (nodup_texts_ofCalls calls).getElem_inj_iff.1 (hinj i j _ _ _ hi hj)
    omega
  · intro hfew i j s r x hi hj
    have hpos := (hi.position_eq hfew).symm.trans (hj.position_eq hfew)
    exact (List.idxOf_inj (mem_texts_ofCalls.2 hi.mem)).1 hpos

/-- A text that is interned for the first time gets the next position. -/
theorem idxOf_ofCalls (hs : s ∈ calls) :
    (ofCalls calls).texts.idxOf s = (calls.take (calls.idxOf s)).toFinset.card := by
  have hlt : calls.idxOf s < calls.length := List.idxOf_lt_length_iff.2 hs
  have hnew : s ∉ calls.take (calls.idxOf s) := by
    intro hmem
    exact Nat.lt_irrefl _ ((List.mem_take_iff_idxOf_lt hs).1 hmem)
  have hstep : calls.take (calls.idxOf s + 1) = calls.take (calls.idxOf s) ++ [s] := by
    rw [List.take_succ_eq_append_getElem hlt, List.getElem_idxOf hlt]
  have hmem : s ∈ calls.take (calls.idxOf s + 1) := by simp [hstep]
  have htexts : (ofCalls (calls.take (calls.idxOf s + 1))).texts =
      (ofCalls (calls.take (calls.idxOf s))).texts ++ [s] := by
    unfold ofCalls
    rw [hstep, internAll_append]
    exact (texts_intern (mirrors_ofCalls _) s).trans (if_neg fun h => hnew (mem_texts_ofCalls.1 h))
  rw [← idxOf_ofCalls_take hmem, htexts,
    List.idxOf_append_of_notMem fun h => hnew (mem_texts_ofCalls.1 h), List.idxOf_cons_self,
    ← size_ofCalls]
  rfl

/-- As long as at most `2 ^ 32 - 1` different texts are interned, an interner is a bijection between
the texts that it has seen and its handles: two calls give the same handle exactly for the same
text; from then on the handle has that text; a text is found exactly if a call interned it, and
then by the handle of that call; the size counts the different texts, and handles count positions in
the order in which the texts were first seen. -/
theorem internAll_bijective (calls : List String) (hfew : calls.toFinset.card ≤ 2 ^ 32 - 1) :
    (∀ i < calls.length, ∃ s x, Gave calls i s x) ∧
    (∀ i j s r x y, Gave calls i s x → Gave calls j r y → (x = y ↔ s = r)) ∧
    (∀ i k s x, Gave calls i s x → i < k → (ofCalls (calls.take k)).resolve x = s) ∧
    (∀ k s x, (ofCalls (calls.take k)).find? s = some x ↔ ∃ i < k, Gave calls i s x) ∧
    (∀ k, (ofCalls (calls.take k)).size = (calls.take k).toFinset.card) ∧
    ∀ i s x, Gave calls i s x → x.position = (calls.take (calls.idxOf s)).toFinset.card := by
  refine ⟨?_, ?_, ?_, ?_, ?_, ?_⟩
  · intro i hi
    exact ⟨calls[i], _, gave_iff.2 ⟨List.getElem?_eq_getElem hi, rfl⟩⟩
  · intro i j s r x y hi hj
    constructor
    · rintro rfl
      exact (handles_injective_iff calls).2 hfew i j s r x hi hj
    · rintro rfl
      exact (gave_iff.1 hi).2.trans (gave_iff.1 hj).2.symm
  · intro i k s x h hik
    have hmem := mem_texts_ofCalls.2 (h.mem_take hik)
    unfold resolve
    rw [h.position_eq hfew, ← idxOf_ofCalls_take (h.mem_take hik), List.getElem?_idxOf hmem]
    rfl
  · intro k s x
    rw [mirrors_ofCalls (calls.take k) s]
    by_cases hs : s ∈ calls.take k
    · rw [SymbolTable.find?_of_mem _ s (mem_texts_ofCalls.2 hs)]
      show some (Handle.ofPosition ((ofCalls (calls.take k)).texts.idxOf s)) = some x ↔ _
      rw [idxOf_ofCalls_take hs]
      constructor
      · intro hx
        obtain ⟨i, hi⟩ := List.mem_iff_getElem?.1 hs
        rw [List.getElem?_take] at hi
        obtain ⟨hik, hi⟩ := Option.ite_none_right_eq_some.1 hi
        exact ⟨i, hik, gave_iff.2 ⟨hi, (Option.some.inj hx).symm⟩⟩
      · rintro ⟨i, _, hi⟩
        rw [(gave_iff.1 hi).2]
    · rw [SymbolTable.find?_of_not_mem _ s (fun h => hs (mem_texts_ofCalls.1 h))]
      constructor
      · intro hx
        cases hx
      · rintro ⟨i, hik, hi⟩
        exact absurd (hi.mem_take hik) hs
  · intro k
    exact size_ofCalls (calls.take k)
  · intro i s x h
    rw [h.position_eq hfew, idxOf_ofCalls h.mem]

/-- A text that comes again keeps its handle; the empty text has one of its own. -/
theorem repeated_text_has_one_handle :
    ["x", "", "x"].toFinset.card ≤ 2 ^ 32 - 1 ∧
      ∃ x y, Gave ["x", "", "x"] 0 "x" x ∧ Gave ["x", "", "x"] 1 "" y ∧ Gave ["x", "", "x"] 2 "x" x ∧
        x ≠ y ∧ (ofCalls ["x", ""]).find? "" = some y ∧ (ofCalls ["x", "", "x"]).resolve y = "" ∧
        (ofCalls ["x", "", "x"]).size = 2 ∧ y.position = 1 := by
  have hfew : ["x", "", "x"].toFinset.card ≤ 2 ^ 32 - 1 := by decide
  obtain ⟨hgave, heq, hresolve, hfind, hsize, hposition⟩ := internAll_bijective ["x", "", "x"] hfew
  have h0 : Gave ["x", "", "x"] 0 "x" (.ofPosition 0) := ⟨rfl, rfl⟩
  have h1 : Gave ["x", "", "x"] 1 "" (.ofPosition 1) := ⟨rfl, rfl⟩
  obtain ⟨s, x, h2⟩ := hgave 2 (by decide)
  obtain rfl : "x" = s := Option.some.inj h2.1
  obtain rfl : Handle.ofPosition 0 = x := (heq 0 2 _ _ _ _ h0 h2).2 rfl
  refine ⟨hfew, _, _, h0, h1, h2, ?_, ?_, ?_, hsize 3, ?_⟩
  · intro hsame
    exact absurd ((heq 0 1 _ _ _ _ h0 h1).1 hsame) (by decide)
  · exact (hfind 2 "" _).2 ⟨1, by decide, h1⟩
  · exact hresolve 1 3 "" _ h1 (by decide)
  · exact hposition 1 "" _ h1

end Interner

end BlockLowering
