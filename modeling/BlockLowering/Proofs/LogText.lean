import Mathlib.Data.List.Nodup
import BlockLowering.Diagnostic.Codec
import BlockLowering.Proofs.JsonText

/-!
# Diagnostics are read back from their text

A log is written as JSON and read in two steps: the text gives a value, and the value gives the log.
Each decoder undoes its encoder. What they make is legible, so the text gives the value back too.
-/

namespace BlockLowering

namespace Json

/-! ## Decoders undo encoders -/

theorem natural?_natural (n : Nat) : (natural n).natural? = some n := by
  have hdigits : (Nat.toDigits 10 n).all Char.isDigit = true :=
    List.all_eq_true.2 fun _ => isDigit_of_mem_numeral
  have hvalue : Nat.ofDigitChars 10 (Nat.toDigits 10 n) 0 = n := Nat.ofDigitChars_ten_toDigits
  rw [Nat.ofDigitChars_eq_foldl] at hvalue
  simp only [natural, natural?]
  rw [if_pos hdigits, hvalue]

theorem word?_natural (w : UInt64) : (natural w.toNat).word? = some w := by
  unfold word?
  rw [natural?_natural, Option.bind_some, if_pos w.toNat_lt, UInt64.ofNat_toNat]

section

variable {α : Type} {decode : Json → Option α} {encode : α → Json}

theorem list?_map (h : ∀ a, decode (encode a) = some a) (l : List α) :
    list? decode (.array (l.map encode)) = some l := by
  show (l.map encode).mapM decode = some l
  induction l with
  | nil => rfl
  | cons a l ih =>
    rw [List.map_cons, List.mapM_cons, h, ih]
    rfl

/-- A missing value is null, so a value that is there must not be written as null. -/
theorem optional?_ofOption (h : ∀ a, decode (encode a) = some a) (hnull : ∀ a, encode a ≠ .null)
    (o : Option α) : optional? decode (some (ofOption encode o)) = some o := by
  cases o with
  | none => rfl
  | some a =>
    rw [ofOption, optional?, h]
    · rfl
    · exact hnull a

end

section

variable {fields : List (String × Json)} {field : String × Json}

theorem keyed?_record (fields : List (String × Json)) :
    keyed? (fields.map fun field => (some field.1, field.2)) = some fields := by
  unfold keyed?
  induction fields with
  | nil => rfl
  | cons field fields ih =>
    rw [List.map_cons, List.mapM_cons, ih]
    rfl

theorem lookup_of_mem (h : (fields.map Prod.fst).Nodup) (hf : field ∈ fields) :
    fields.lookup field.1 = some field.2 := by
  induction fields with
  | nil => cases hf
  | cons first fields ih =>
    rw [List.map_cons, List.nodup_cons] at h
    rcases List.mem_cons.1 hf with rfl | hf
    · exact List.lookup_cons_self
    · have hne : (field.1 == first.1) = false := by
        apply beq_false_of_ne
        intro heq
        exact h.1 (heq ▸ List.mem_map_of_mem hf)
      rw [List.lookup_cons, hne]
      exact ih h.2 hf

theorem countP_eq_count (name : String) :
    (fields.countP fun field => field.1 == name) = (fields.map Prod.fst).count name := by
  rw [List.count, List.countP_map]
  rfl

/-- The fields of a record, asked for by their names, are its values. -/
theorem fieldsNamed?_record (h : (fields.map Prod.fst).Nodup) :
    fieldsNamed? (fields.map Prod.fst) (record fields) =
      some (fields.map fun field => some field.2) := by
  have hunique : ((fields.map Prod.fst).any fun name =>
      1 < fields.countP fun field => field.1 == name) = false := by
    rw [List.any_eq_false]
    intro name _
    rw [countP_eq_count, decide_eq_true_iff, Nat.not_lt]
    exact List.nodup_iff_count_le_one.1 h name
  have hlookup : (fields.map Prod.fst).map (fun name => fields.lookup name) =
      fields.map fun field => some field.2 := by
    rw [List.map_map]
    apply List.map_congr_left
    intro field hf
    exact lookup_of_mem h hf
  unfold record fieldsNamed?
  dsimp only
  rw [keyed?_record, Option.bind_eq_bind, Option.bind_some, hunique, hlookup]
  rfl

end

/-! ## Legible values -/

theorem legibleItems_iff {items : List Json} : LegibleItems items ↔ ∀ j ∈ items, j.Legible := by
  induction items with
  | nil => simp [LegibleItems]
  | cons item items ih => simp [LegibleItems, ih]

theorem legible_record {fields : List (String × Json)} (h : ∀ field ∈ fields, field.2.Legible) :
    (record fields).Legible := by
  show LegibleFields (fields.map fun field => (some field.1, field.2))
  induction fields with
  | nil => trivial
  | cons field fields ih =>
    rw [List.forall_mem_cons] at h
    exact ⟨Option.some_ne_none _, h.1, ih h.2⟩

theorem legible_array_map {α : Type} {encode : α → Json} (h : ∀ a, (encode a).Legible)
    (l : List α) : (Json.array (l.map encode)).Legible := by
  show LegibleItems (l.map encode)
  rw [legibleItems_iff]
  intro j hj
  obtain ⟨a, _, rfl⟩ := List.mem_map.1 hj
  exact h a

theorem legible_text (s : String) : (text s).Legible := Option.some_ne_none s

theorem legible_natural (n : Nat) : (natural n).Legible := ⟨n, rfl⟩

theorem legible_ofOption {α : Type} {encode : α → Json} (h : ∀ a, (encode a).Legible)
    (o : Option α) : (ofOption encode o).Legible := by
  cases o with
  | none => trivial
  | some a => exact h a

end Json

/-! ## Spans, codes, records and logs -/

open Json

theorem Span.ofJson?_toJson (s : Span) : ofJson? s.toJson = some s := by
  have hfields : fieldsNamed? ["start", "end"] s.toJson =
      some [some (natural s.start.toNat), some (natural s.stop.toNat)] :=
    fieldsNamed?_record (show ["start", "end"].Nodup by decide)
  unfold ofJson?
  rw [hfields]
  simp [required?, word?_natural]

theorem Span.legible_toJson (s : Span) : s.toJson.Legible := by
  apply legible_record
  simp [legible_natural]

namespace Diagnostic

theorem Code.ofJson?_toJson (code : Code) : ofJson? code.toJson = some code := by
  cases code <;> decide

theorem Code.legible_toJson (code : Code) : code.toJson.Legible := legible_text code.name

theorem Record.ofJson?_toJson (r : Record) : ofJson? r.toJson = some r := by
  have hfields : fieldsNamed? ["code", "span", "args"] r.toJson =
      some [some r.code.toJson, some (ofOption Span.toJson r.span),
        some (.array (r.args.map text))] :=
    fieldsNamed?_record (show ["code", "span", "args"].Nodup by decide)
  have hspan : optional? Span.ofJson? (some (ofOption Span.toJson r.span)) = some r.span :=
    optional?_ofOption Span.ofJson?_toJson (fun _ => nofun) r.span
  have htext : ∀ s, text? (text s) = some s := fun _ => rfl
  unfold ofJson?
  rw [hfields]
  simp [required?, Code.ofJson?_toJson, hspan, list?_map htext]

theorem Record.legible_toJson (r : Record) : r.toJson.Legible := by
  apply legible_record
  simp [Code.legible_toJson, legible_ofOption Span.legible_toJson, legible_array_map legible_text]

theorem Log.ofJson?_toJson (log : Log) : ofJson? log.toJson = some log := by
  have hfields : fieldsNamed? ["records"] log.toJson =
      some [some (.array (log.records.map Record.toJson))] :=
    fieldsNamed?_record (show ["records"].Nodup by decide)
  unfold ofJson?
  rw [hfields]
  simp [required?, list?_map Record.ofJson?_toJson]

theorem Log.legible_toJson (log : Log) : log.toJson.Legible := by
  apply legible_record
  simp [legible_array_map Record.legible_toJson]

/-- Whatever its records hold, the text of a log is read back as the same log. -/
theorem Log.text_read_back (log : Log) : read? log.write = some log := by
  unfold read? write
  rw [parse?_compact log.legible_toJson, Option.bind_some, ofJson?_toJson]

end Diagnostic

end BlockLowering
