import Mathlib.Data.List.Basic
import Mathlib.Data.List.TakeDrop
import BlockLowering.Json.Reader

/-!
# Reading JSON text back

The reader takes the compact text of a value for the value itself and leaves what follows it. The
value may hold natural numbers and texts of any characters (`Legible`); what follows may not be
taken for the end of a number (`Stops`).
-/

namespace BlockLowering.Json

/-! ## Literals -/

section

variable {c e : Char} {rest : List Char}

/-- The piece that a written character is read as. -/
def pieceOf (c : Char) : Piece :=
  if shortEscape? c = none ∧ c.toNat < 0x20 then .unit c.toNat else .char c

theorem unescape?_of_shortEscape? (h : shortEscape? c = some e) :
    unescape? e = some c ∧ e ≠ 'u' := by
  grind [shortEscape?, unescape?]

theorem ne_of_shortEscape? (h : shortEscape? c = none) : c ≠ '"' ∧ c ≠ '\\' := by
  constructor
  · rintro rfl
    cases h
  · rintro rfl
    cases h

theorem pieces?_short (hu : e ≠ 'u') (hc : unescape? e = some c) :
    pieces? ('\\' :: e :: rest) = (pieces? rest).map (Prod.map (.char c :: ·) id) := by
  rw [pieces?, hc]
  · cases pieces? rest <;> rfl
  · intro _ _ _ _ _ he
    exact absurd he hu

/-- The two last digits of a numbered escape. -/
theorem unit?_digitChar : ∀ n < 0x20,
    unit? '0' '0' (Nat.digitChar (n / 16)) (Nat.digitChar (n % 16)) = some n := by
  decide

theorem pieces?_numbered {n : Nat} (hn : n < 0x20) :
    pieces? ('\\' :: 'u' :: '0' :: '0' ::
      Nat.digitChar (n / 16) :: Nat.digitChar (n % 16) :: rest) =
        (pieces? rest).map (Prod.map (.unit n :: ·) id) := by
  rw [pieces?, unit?_digitChar n hn]
  cases pieces? rest <;> rfl

theorem pieces?_raw (hquote : c ≠ '"') (hslash : c ≠ '\\') (hc : ¬c.toNat < 0x20) :
    pieces? (c :: rest) = (pieces? rest).map (Prod.map (.char c :: ·) id) := by
  rw [pieces?.eq_def]
  split
  · rename_i heq
    cases heq
  · rename_i heq
    cases heq
    exact absurd rfl hquote
  · rename_i heq
    cases heq
    exact absurd rfl hslash
  · rename_i heq
    cases heq
    exact absurd rfl hslash
  · rename_i heq
    cases heq
    rw [if_neg hc]
    cases pieces? rest <;> rfl

/-- A written character is read as one piece. -/
theorem pieces?_writeChar (c : Char) (rest : List Char) :
    pieces? (writeChar c ++ rest) = (pieces? rest).map (Prod.map (pieceOf c :: ·) id) := by
  cases he : shortEscape? c with
  | some e =>
    have hwritten : writeChar c = ['\\', e] := by simp [writeChar, he]
    have hpiece : pieceOf c = .char c := by simp [pieceOf, he]
    obtain ⟨hc, hu⟩ := unescape?_of_shortEscape? he
    rw [hwritten, hpiece]
    exact pieces?_short hu hc
  | none =>
    obtain ⟨hquote, hslash⟩ := ne_of_shortEscape? he
    by_cases hc : c.toNat < 0x20
    · have hwritten : writeChar c = ['\\', 'u', '0', '0', Nat.digitChar (c.toNat / 16),
          Nat.digitChar (c.toNat % 16)] := by simp [writeChar, he, hc]
      have hpiece : pieceOf c = .unit c.toNat := by simp [pieceOf, he, hc]
      rw [hwritten, hpiece]
      exact pieces?_numbered hc
    · have hwritten : writeChar c = [c] := by simp [writeChar, he, hc]
      have hpiece : pieceOf c = .char c := by simp [pieceOf, hc]
      rw [hwritten, hpiece]
      exact pieces?_raw hquote hslash hc

/-- The piece of a character stands for the character. -/
theorem join?_pieceOf (c : Char) (ps : List Piece) :
    join? none (pieceOf c :: ps) = (join? none ps).map (c :: ·) := by
  unfold pieceOf
  split
  · rename_i h
    have hhigh : isHighSurrogate c.toNat = false := by
      unfold isHighSurrogate
      simp
      omega
    have hlow : isLowSurrogate c.toNat = false := by
      unfold isLowSurrogate
      simp
      omega
    rw [join?, hhigh, hlow, Char.ofNat_toNat]
    rfl
  · rfl

theorem pieces?_flatMap_writeChar (cs rest : List Char) :
    pieces? (cs.flatMap writeChar ++ '"' :: rest) = some (cs.map pieceOf, rest) := by
  induction cs with
  | nil => rfl
  | cons c cs ih =>
    rw [List.flatMap_cons, List.append_assoc, pieces?_writeChar, ih]
    rfl

theorem join?_map_pieceOf (cs : List Char) : join? none (cs.map pieceOf) = some cs := by
  induction cs with
  | nil => rfl
  | cons c cs ih =>
    rw [List.map_cons, join?_pieceOf, ih]
    rfl

theorem writeText_append (s : String) (rest : List Char) :
    writeText (some s) ++ rest = '"' :: (s.toList.flatMap writeChar ++ '"' :: rest) := by
  simp [writeText]

/-- The reader undoes the escapes of a text. -/
theorem string?_writeText (s : String) (rest : List Char) :
    string? (s.toList.flatMap writeChar ++ '"' :: rest) = some (some s, rest) := by
  unfold string?
  rw [pieces?_flatMap_writeChar, Option.map_some]
  dsimp only
  rw [join?_map_pieceOf, Option.map_some, String.ofList_toList]

end

/-! ## Numbers -/

/-- Nothing follows, or something that ends a value inside an array or an object. -/
def Stops (rest : List Char) : Prop := ∀ c ∈ rest.head?, c = ',' ∨ c = ']' ∨ c = '\x7d'

theorem stops_nil : Stops [] := nofun

theorem stops_cons {c : Char} (hc : c = ',' ∨ c = ']' ∨ c = '\x7d') (rest : List Char) :
    Stops (c :: rest) := by
  rintro _ ⟨⟩
  exact hc

section

variable {ds rest : List Char}

theorem Stops.takeWhile_isDigit (h : Stops rest) :
    rest.takeWhile Char.isDigit = [] ∧ rest.dropWhile Char.isDigit = rest := by
  cases rest with
  | nil => exact ⟨rfl, rfl⟩
  | cons c rest =>
    have hc : c.isDigit = false := by
      rcases h c rfl with rfl | rfl | rfl <;> decide
    exact ⟨List.takeWhile_cons_of_neg (by simp [hc]), List.dropWhile_cons_of_neg (by simp [hc])⟩

theorem digits?_append (hds : ∀ c ∈ ds, c.isDigit = true) (hne : ds ≠ []) (h : Stops rest) :
    digits? (ds ++ rest) = some (ds, rest) := by
  obtain ⟨htake, hdrop⟩ := h.takeWhile_isDigit
  have hspan : (ds ++ rest).span Char.isDigit = (ds, rest) := by
    rw [List.span_eq_takeWhile_dropWhile, List.takeWhile_append_of_pos hds,
      List.dropWhile_append_of_pos hds, htake, hdrop, List.append_nil]
  unfold digits?
  rw [hspan]
  cases ds with
  | nil => exact absurd rfl hne
  | cons c ds => rfl

theorem Stops.fraction? (h : Stops rest) : fraction? rest = some ([], rest) := by
  cases rest with
  | nil => rfl
  | cons c rest => rcases h c rfl with rfl | rfl | rfl <;> rfl

theorem Stops.exponent? (h : Stops rest) : exponent? rest = some ([], rest) := by
  cases rest with
  | nil => rfl
  | cons c rest => rcases h c rfl with rfl | rfl | rfl <;> rfl

/-- A positive number does not start with a zero. -/
theorem head?_toDigits {n : Nat} (hn : n ≠ 0) : (Nat.toDigits 10 n).head? ≠ some '0' := by
  induction n using Nat.strongRecOn with
  | ind n ih =>
    rw [Nat.toDigits_eq_if (by decide)]
    split
    · intro h
      exact hn (Nat.digitChar_eq_zero.1 (Option.some.inj h))
    · rw [List.head?_append_of_ne_nil _ Nat.toDigits_ne_nil]
      exact ih (n / 10) (by omega) (by omega)

theorem isDigit_of_mem_numeral {n : Nat} {c : Char} (hc : c ∈ Nat.toDigits 10 n) :
    c.isDigit = true :=
  Nat.isDigit_of_mem_toDigits (by decide) (by decide) hc

/-- The first character of a number. -/
theorem exists_toDigits_eq_cons (n : Nat) :
    ∃ c ds, Nat.toDigits 10 n = c :: ds ∧ c.isDigit = true ∧ (n ≠ 0 → c ≠ '0') := by
  obtain ⟨c, ds, heq⟩ := List.exists_cons_of_ne_nil (Nat.toDigits_ne_nil (b := 10) (n := n))
  refine ⟨c, ds, heq, isDigit_of_mem_numeral (heq ▸ List.mem_cons_self), fun hn hc => ?_⟩
  apply head?_toDigits hn
  rw [heq, hc]
  rfl

theorem whole?_toDigits (n : Nat) (h : Stops rest) :
    whole? (Nat.toDigits 10 n ++ rest) = some (Nat.toDigits 10 n, rest) := by
  by_cases hn : n = 0
  · subst hn
    rfl
  · have hdigits : digits? (Nat.toDigits 10 n ++ rest) = some (Nat.toDigits 10 n, rest) :=
      digits?_append (fun _ => isDigit_of_mem_numeral) Nat.toDigits_ne_nil h
    obtain ⟨c, ds, heq, _, hzero⟩ := exists_toDigits_eq_cons n
    rw [heq] at hdigits ⊢
    rw [List.cons_append, whole?]
    · exact hdigits
    · intro _ hcons
      exact hzero hn (List.cons.inj hcons).1

theorem unsigned?_toDigits (n : Nat) (h : Stops rest) :
    unsigned? (Nat.toDigits 10 n ++ rest) = some (Nat.toDigits 10 n, rest) := by
  unfold unsigned?
  rw [whole?_toDigits n h]
  simp [h.fraction?, h.exponent?]

theorem number?_toDigits (n : Nat) (h : Stops rest) :
    number? (Nat.toDigits 10 n ++ rest) = some (Nat.toDigits 10 n, rest) := by
  have hunsigned := unsigned?_toDigits n h
  obtain ⟨c, ds, heq, hdigit, _⟩ := exists_toDigits_eq_cons n
  rw [heq] at hunsigned ⊢
  rw [List.cons_append, number?]
  · exact hunsigned
  · rintro _ ⟨⟩
    cases hdigit

end

/-! ## Values -/

mutual

/-- Numbers are natural, and strings stand for texts. -/
def Legible : Json → Prop
  | .null | .boolean _ => True
  | .number numeral => ∃ n, numeral = Nat.toDigits 10 n
  | .string s => s ≠ none
  | .array items => LegibleItems items
  | .object fields => LegibleFields fields

def LegibleItems : List Json → Prop
  | [] => True
  | item :: rest => item.Legible ∧ LegibleItems rest

def LegibleFields : List (Option String × Json) → Prop
  | [] => True
  | (key, value) :: rest => key ≠ none ∧ value.Legible ∧ LegibleFields rest

end

theorem skipBlanks_cons {c : Char} (hc : isBlank c = false) (rest : List Char) :
    skipBlanks (c :: rest) = c :: rest :=
  List.dropWhile_cons_of_neg (by simp [hc])

theorem isBlank_of_isDigit {c : Char} (hc : c.isDigit = true) : isBlank c = false := by
  cases hblank : isBlank c with
  | false => rfl
  | true =>
    simp only [isBlank, Bool.or_eq_true, beq_iff_eq] at hblank
    rcases hblank with ((rfl | rfl) | rfl) | rfl <;> cases hc

/-- A text starts with a character of its value. -/
theorem exists_compactChars_eq_cons {j : Json} (h : j.Legible) :
    ∃ c rest, j.compactChars = c :: rest ∧ isBlank c = false ∧ c ≠ ']' := by
  cases j with
  | null => exact ⟨'n', _, rfl, rfl, by decide⟩
  | boolean value =>
    cases value with
    | true => exact ⟨'t', _, rfl, rfl, by decide⟩
    | false => exact ⟨'f', _, rfl, rfl, by decide⟩
  | number numeral =>
    obtain ⟨n, rfl⟩ := h
    obtain ⟨c, ds, heq, hdigit, _⟩ := exists_toDigits_eq_cons n
    refine ⟨c, ds, by rw [compactChars, heq], isBlank_of_isDigit hdigit, ?_⟩
    rintro rfl
    cases hdigit
  | string s =>
    cases s with
    | none => exact absurd rfl h
    | some s => exact ⟨'"', _, rfl, rfl, by decide⟩
  | array items => exact ⟨'[', _, rfl, rfl, by decide⟩
  | object fields => exact ⟨'\x7b', _, rfl, rfl, by decide⟩

/-- A non-empty list starts with its first item. -/
theorem exists_compactItems_eq_append (item : Json) (others : List Json) :
    ∃ more, compactItems (item :: others) = item.compactChars ++ more := by
  cases others with
  | nil => exact ⟨[], by rw [compactItems, List.append_nil]⟩
  | cons next others => exact ⟨_, rfl⟩

/-- Fields start with a key. -/
theorem exists_compactFields_eq_cons (key : String) (value : Json)
    (others : List (Option String × Json)) :
    ∃ more, compactFields ((some key, value) :: others) = '"' :: more := by
  cases others with
  | nil => exact ⟨_, rfl⟩
  | cons next others => exact ⟨_, rfl⟩

/-! What the reader makes of a value, given what it makes of the parts. -/

section

variable {c : Char} {cs numeral rest tail : List Char} {key : Option String} {item value : Json}
  {items : List Json} {fields : List (Option String × Json)} {fuel : Nat}

theorem value?_number (hc : c.isDigit = true) (h : number? (c :: rest) = some (numeral, tail)) :
    value? (fuel + 1) (c :: rest) = some (.number numeral, tail) := by
  have hne : ∀ d : Char, d.isDigit = false → c ≠ d := by
    rintro d hd rfl
    rw [hc] at hd
    cases hd
  rw [value?, skipBlanks_cons (isBlank_of_isDigit hc)]
  simp [h, hne 'n' rfl, hne 't' rfl, hne 'f' rfl, hne '"' rfl, hne '[' rfl, hne '\x7b' rfl]

theorem value?_string {s : Option String} (h : string? rest = some (s, tail)) :
    value? (fuel + 1) ('"' :: rest) = some (.string s, tail) := by
  rw [value?, skipBlanks_cons rfl]
  simp [h]

theorem value?_array (hblank : isBlank c = false) (hc : c ≠ ']')
    (h : items? fuel (c :: rest) = some (items, tail)) :
    value? (fuel + 1) ('[' :: c :: rest) = some (.array items, tail) := by
  rw [value?, skipBlanks_cons rfl]
  simp [skipBlanks_cons hblank, hc, h]

theorem value?_object (h : fields? fuel ('"' :: rest) = some (fields, tail)) :
    value? (fuel + 1) ('\x7b' :: '"' :: rest) = some (.object fields, tail) := by
  rw [value?, skipBlanks_cons rfl]
  simp [skipBlanks_cons, isBlank, h]

theorem items?_last (h : value? fuel cs = some (item, ']' :: tail)) :
    items? (fuel + 1) cs = some ([item], tail) := by
  rw [items?, h]
  rfl

theorem items?_more (h : value? fuel cs = some (item, ',' :: rest))
    (hrest : items? fuel rest = some (items, tail)) :
    items? (fuel + 1) cs = some (item :: items, tail) := by
  rw [items?, h]
  simp [skipBlanks_cons, isBlank, hrest]

theorem fields?_last (hkey : string? cs = some (key, ':' :: rest))
    (h : value? fuel rest = some (value, '\x7d' :: tail)) :
    fields? (fuel + 1) ('"' :: cs) = some ([(key, value)], tail) := by
  rw [fields?, skipBlanks_cons rfl]
  simp [hkey, skipBlanks_cons, isBlank, h]

theorem fields?_more {cs' : List Char} (hkey : string? cs = some (key, ':' :: cs'))
    (h : value? fuel cs' = some (value, ',' :: rest))
    (hrest : fields? fuel rest = some (fields, tail)) :
    fields? (fuel + 1) ('"' :: cs) = some ((key, value) :: fields, tail) := by
  rw [fields?, skipBlanks_cons rfl]
  simp [hkey, skipBlanks_cons, isBlank, h, hrest]

end

mutual

/-- Two steps for each character of the text are enough to read the value. -/
theorem value?_compactChars (j : Json) (h : j.Legible) (fuel : Nat)
    (hfuel : 2 * j.compactChars.length ≤ fuel) (rest : List Char) (hrest : Stops rest) :
    value? fuel (j.compactChars ++ rest) = some (j, rest) := by
  obtain ⟨c, tail, heq, _, _⟩ := exists_compactChars_eq_cons h
  obtain ⟨fuel, rfl⟩ : ∃ k, fuel = k + 1 := by
    rw [heq, List.length_cons] at hfuel
    exact ⟨fuel - 1, by omega⟩
  cases j with
  | null => rfl
  | boolean value => cases value <;> rfl
  | number numeral =>
    obtain ⟨n, rfl⟩ := h
    obtain ⟨c, ds, heq, hdigit, _⟩ := exists_toDigits_eq_cons n
    have hnumber := number?_toDigits n hrest
    rw [compactChars]
    rw [heq] at hnumber ⊢
    exact value?_number hdigit hnumber
  | string s =>
    cases s with
    | none => exact absurd rfl h
    | some s =>
      rw [compactChars, writeText_append]
      exact value?_string (string?_writeText s rest)
  | array items =>
    rw [compactChars, List.length_append, List.length_cons, List.length_singleton] at hfuel
    rw [compactChars, List.cons_append, List.cons_append, List.append_assoc]
    cases items with
    | nil => rfl
    | cons item others =>
      have hitems := items?_compactItems (item :: others) (List.cons_ne_nil _ _) h fuel (by omega)
        rest
      obtain ⟨more, hmore⟩ := exists_compactItems_eq_append item others
      obtain ⟨c, tail, heq, hblank, hc⟩ := exists_compactChars_eq_cons h.1
      rw [hmore, heq] at hitems ⊢
      exact value?_array hblank hc hitems
  | object fields =>
    rw [compactChars, List.length_append, List.length_cons, List.length_singleton] at hfuel
    rw [compactChars, List.cons_append, List.cons_append, List.append_assoc]
    cases fields with
    | nil => rfl
    | cons field others =>
      have hfields := fields?_compactFields (field :: others) (List.cons_ne_nil _ _) h fuel
        (by omega) rest
      obtain ⟨key, value⟩ := field
      obtain ⟨key, rfl⟩ := Option.ne_none_iff_exists'.1 h.1
      obtain ⟨more, hmore⟩ := exists_compactFields_eq_cons key value others
      rw [hmore] at hfields ⊢
      exact value?_object hfields

theorem items?_compactItems (items : List Json) (hne : items ≠ []) (h : LegibleItems items)
    (fuel : Nat) (hfuel : 2 * (compactItems items).length + 1 ≤ fuel) (rest : List Char) :
    items? fuel (compactItems items ++ ']' :: rest) = some (items, rest) := by
  obtain ⟨fuel, rfl⟩ : ∃ k, fuel = k + 1 := ⟨fuel - 1, by omega⟩
  match items, hne, h with
  | [item], _, h =>
    rw [compactItems] at hfuel ⊢
    exact items?_last (value?_compactChars item h.1 fuel (by omega) _ (stops_cons (by simp) rest))
  | item :: next :: others, _, h =>
    have hcons : compactItems (item :: next :: others) =
        item.compactChars ++ ',' :: compactItems (next :: others) := rfl
    rw [hcons, List.length_append, List.length_cons] at hfuel
    rw [hcons, List.append_assoc, List.cons_append]
    exact items?_more (value?_compactChars item h.1 fuel (by omega) _ (stops_cons (by simp) _))
      (items?_compactItems (next :: others) (List.cons_ne_nil _ _) h.2 fuel (by omega) rest)

theorem fields?_compactFields (fields : List (Option String × Json)) (hne : fields ≠ [])
    (h : LegibleFields fields) (fuel : Nat) (hfuel : 2 * (compactFields fields).length + 1 ≤ fuel)
    (rest : List Char) :
    fields? fuel (compactFields fields ++ '\x7d' :: rest) = some (fields, rest) := by
  obtain ⟨fuel, rfl⟩ : ∃ k, fuel = k + 1 := ⟨fuel - 1, by omega⟩
  match fields, hne, h with
  | [(some key, value)], _, h =>
    rw [compactFields, List.length_append, List.length_cons] at hfuel
    rw [compactFields, List.append_assoc, writeText_append, List.cons_append]
    exact fields?_last (string?_writeText key _)
      (value?_compactChars value h.2.1 fuel (by omega) _ (stops_cons (by simp) rest))
  | (some key, value) :: next :: others, _, h =>
    have hcons : compactFields ((some key, value) :: next :: others) = writeText (some key) ++
        ':' :: value.compactChars ++ ',' :: compactFields (next :: others) := rfl
    rw [hcons, List.length_append, List.length_append, List.length_cons, List.length_cons] at hfuel
    rw [hcons, List.append_assoc, List.append_assoc, writeText_append, List.cons_append,
      List.cons_append]
    exact fields?_more (string?_writeText key _)
      (value?_compactChars value h.2.1 fuel (by omega) _ (stops_cons (by simp) _))
      (fields?_compactFields (next :: others) (List.cons_ne_nil _ _) h.2.2 fuel (by omega) rest)

end

/-- Every legible value is read back from its text. -/
theorem parse?_compact {j : Json} (h : j.Legible) : parse? j.compact = some j := by
  have hvalue := value?_compactChars j h (2 * j.compactChars.length + 2) (by omega) [] stops_nil
  rw [List.append_nil] at hvalue
  unfold parse? compact
  simp only [String.toList_ofList, hvalue]
  rfl

end BlockLowering.Json
