import BlockLowering.Span

/-!
# Diagnostic records

A record says what was wrong, where, and with which words. Its message is a template whose
placeholders, a digit in braces, are filled from the record's arguments one after the other.
-/

namespace BlockLowering.Diagnostic

/-- What kind of problem a diagnostic is about. -/
inductive Code where
  | unsupportedConstruct
  | nameNotFound
deriving DecidableEq, Repr

/-- The most arguments a record can have. -/
def maxArgs : Nat := 3

/-- Replace every placeholder with this digit by `value`; replaced text is not read again. -/
def fill (digit : Char) (value : List Char) : List Char → List Char
  | [] => []
  | '\x7b' :: tail@(c :: '\x7d' :: rest) =>
    if c = digit then value ++ fill digit value rest else '\x7b' :: fill digit value tail
  | c :: rest => c :: fill digit value rest

namespace Code

/-- The stable code. -/
def text : Code → String
  | unsupportedConstruct => "E5001"
  | nameNotFound => "E5002"

/-- The message before its placeholders are filled. -/
def template : Code → String
  | unsupportedConstruct => "Unsupported construct: \x7b0\x7d"
  | nameNotFound => "Cannot find name '\x7b0\x7d'"

/-- Fill the placeholders 0, 1 and 2 in this order; a missing argument is empty. -/
def format (code : Code) (args : List String) : String :=
  String.ofList <| (List.range maxArgs).foldl
    (fun message i => fill (Nat.digitChar i) (args.getD i "").toList message) code.template.toList

end Code

structure Record where
  code : Code
  span : Option Span
  args : List String
deriving DecidableEq, Repr

namespace Record

def message (r : Record) : String := r.code.format r.args

/-- Code, message and, where known, place. -/
def render (r : Record) : String :=
  "[" ++ r.code.text ++ "] " ++ r.message ++
    match r.span with
    | some span => " at " ++ span.render
    | none => ""

end Record

/-- The records of one run, in the order in which they were reported. -/
structure Log where
  records : List Record
deriving DecidableEq, Repr

/-- Why a report is refused. -/
inductive ReportError where
  | tooManyArguments
deriving DecidableEq, Repr

def ReportError.message : ReportError → String
  | tooManyArguments => "too many diagnostic arguments"

namespace Log

def empty : Log := ⟨[]⟩

instance : Inhabited Log := ⟨empty⟩

def push (log : Log) (record : Record) : Log := ⟨log.records ++ [record]⟩

/-- Append a record, unless it has too many arguments. -/
def report (log : Log) (record : Record) : Except ReportError Log :=
  if record.args.length ≤ maxArgs then .ok (log.push record) else .error .tooManyArguments

def size (log : Log) : Nat := log.records.length

/-- The number of records with this code. -/
def count (log : Log) (code : Code) : Nat := log.records.countP fun r => r.code == code

end Log

/-- A problem found while lowering, before it is reported. -/
inductive Problem where
  | unsupported (construct : String) (span : Span)
  | nameNotFound (name : String) (span : Span)
deriving DecidableEq, Repr

namespace Problem

def code : Problem → Code
  | unsupported .. => .unsupportedConstruct
  | nameNotFound .. => .nameNotFound

def span : Problem → Span
  | unsupported _ span | nameNotFound _ span => span

/-- The arguments of the record. -/
def args : Problem → List String
  | unsupported construct _ => [construct]
  | nameNotFound name _ => [name]

/-- The problem in words, written without the template. -/
def message : Problem → String
  | unsupported construct _ => String.join ["Unsupported construct: ", construct]
  | nameNotFound name _ => String.join ["Cannot find name '", name, "'"]

def record (p : Problem) : Record := ⟨p.code, some p.span, p.args⟩

end Problem

end BlockLowering.Diagnostic
