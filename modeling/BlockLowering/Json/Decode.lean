import BlockLowering.Json.Value

/-!
# Reading values out of JSON

A structure is an object with its fields in any order, or an array of its fields in their own order.
Unknown fields of an object are passed over, and a known one may not be repeated.
-/

namespace BlockLowering.Json

/-- The text that a value holds. -/
def text? : Json → Option String
  | .string s => s
  | _ => none

/-- The value of a numeral that has digits only. -/
def natural? : Json → Option Nat
  | .number numeral =>
    if numeral.all Char.isDigit then
      some (numeral.foldl (fun n c => 10 * n + (c.toNat - '0'.toNat)) 0)
    else
      none
  | _ => none

/-- A natural number that fits a 64-bit word. -/
def word? (j : Json) : Option UInt64 :=
  j.natural?.bind fun n => if n < UInt64.size then some (UInt64.ofNat n) else none

/-- The members of an array, each decoded. -/
def list? {α : Type} (decode : Json → Option α) : Json → Option (List α)
  | .array items => items.mapM decode
  | _ => none

/-- The value of a field that may be missing or null. -/
def optional? {α : Type} (decode : Json → Option α) : Option Json → Option (Option α)
  | none | some .null => some none
  | some j => (decode j).map some

/-- The value of a field that must be there. -/
def required? {α : Type} (decode : Json → Option α) : Option Json → Option α
  | none => none
  | some j => decode j

/-- Every key is a text. -/
def keyed? (fields : List (Option String × Json)) : Option (List (String × Json)) :=
  fields.mapM fun (key, value) => key.map fun key => (key, value)

/-- The values of the fields `names`, in this order. -/
def fieldsNamed? (names : List String) : Json → Option (List (Option Json))
  | .array items => if items.length = names.length then some (items.map some) else none
  | .object fields => do
    let fields ← keyed? fields
    if names.any fun name => 1 < fields.countP fun (key, _) => key == name then none
    return names.map fun name => fields.lookup name
  | _ => none

/-- The name of a choice without a value: the name alone, or an object that maps it to null. -/
def choice? : Json → Option String
  | .string s => s
  | .object [(key, .null)] => key
  | _ => none

end BlockLowering.Json
