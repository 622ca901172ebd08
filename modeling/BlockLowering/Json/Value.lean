/-!
# JSON values and their text

Objects keep their fields in order, repeated ones included, and numbers keep their text. A string
literal may hold an unpaired surrogate escape; such a literal is well formed but stands for no text.
-/

namespace BlockLowering

inductive Json where
  | null
  | boolean (value : Bool)
  /-- A number as it is written. -/
  | number (numeral : List Char)
  /-- A string, or `none` for a literal that stands for no text. -/
  | string (text : Option String)
  | array (items : List Json)
  | object (fields : List (Option String × Json))

namespace Json

/-- A text as a JSON value. -/
def text (s : String) : Json := .string (some s)

/-- A natural number as a JSON value. -/
def natural (n : Nat) : Json := .number (Nat.toDigits 10 n)

/-- A missing value is null. -/
def ofOption {α : Type} (encode : α → Json) : Option α → Json
  | none => .null
  | some a => encode a

/-- An object with these fields in this order. -/
def record (fields : List (String × Json)) : Json :=
  .object (fields.map fun (key, value) => (some key, value))

/-! ## Writing -/

/-- The characters after the backslash in the short escapes. -/
def shortEscape? (c : Char) : Option Char :=
  if c = '"' then some '"'
  else if c = '\\' then some '\\'
  else if c = '\x08' then some 'b'
  else if c = '\x0c' then some 'f'
  else if c = '\n' then some 'n'
  else if c = '\r' then some 'r'
  else if c = '\t' then some 't'
  else none

/-- A character inside a literal; control characters without a short escape are numbered. -/
def writeChar (c : Char) : List Char :=
  match shortEscape? c with
  | some e => ['\\', e]
  | none =>
    if c.toNat < 0x20 then
      ['\\', 'u', '0', '0', Nat.digitChar (c.toNat / 16), Nat.digitChar (c.toNat % 16)]
    else
      [c]

/-- A string literal. An unpaired surrogate stands for a literal without text. -/
def writeText : Option String → List Char
  | some s => '"' :: s.toList.flatMap writeChar ++ ['"']
  | none => ['"', '\\', 'u', 'd', '8', '0', '0', '"']

mutual

/-- The text without any blanks. -/
def compactChars : Json → List Char
  | .null => "null".toList
  | .boolean value => (if value then "true" else "false").toList
  | .number numeral => numeral
  | .string s => writeText s
  | .array items => '[' :: compactItems items ++ [']']
  | .object fields => '\x7b' :: compactFields fields ++ ['\x7d']

def compactItems : List Json → List Char
  | [] => []
  | [item] => compactChars item
  | item :: rest => compactChars item ++ ',' :: compactItems rest

def compactFields : List (Option String × Json) → List Char
  | [] => []
  | [(key, value)] => writeText key ++ ':' :: compactChars value
  | (key, value) :: rest => writeText key ++ ':' :: compactChars value ++ ',' :: compactFields rest

end

def compact (j : Json) : String := String.ofList j.compactChars

/-- A new line at depth `depth`, two spaces a level. -/
def newline (depth : Nat) : List Char := '\n' :: List.replicate (2 * depth) ' '

mutual

/-- The text with one item or field a line; empty arrays and objects stay on their line. -/
def prettyChars (depth : Nat) : Json → List Char
  | .array [] => ['[', ']']
  | .object [] => ['\x7b', '\x7d']
  | .array (item :: rest) =>
    '[' :: newline (depth + 1) ++ prettyChars (depth + 1) item ++ prettyItems (depth + 1) rest ++
      newline depth ++ [']']
  | .object ((key, value) :: rest) =>
    '\x7b' :: newline (depth + 1) ++ writeText key ++ [':', ' '] ++ prettyChars (depth + 1) value ++
      prettyFields (depth + 1) rest ++ newline depth ++ ['\x7d']
  | .null => "null".toList
  | .boolean value => (if value then "true" else "false").toList
  | .number numeral => numeral
  | .string s => writeText s

/-- The items after the first one. -/
def prettyItems (depth : Nat) : List Json → List Char
  | [] => []
  | item :: rest => ',' :: newline depth ++ prettyChars depth item ++ prettyItems depth rest

/-- The fields after the first one. -/
def prettyFields (depth : Nat) : List (Option String × Json) → List Char
  | [] => []
  | (key, value) :: rest =>
    ',' :: newline depth ++ writeText key ++ [':', ' '] ++ prettyChars depth value ++
      prettyFields depth rest

end

def pretty (j : Json) : String := String.ofList (prettyChars 0 j)

end Json

end BlockLowering
