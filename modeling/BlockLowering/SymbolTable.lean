/-!
# Symbol tables

Source trees name things by symbols. A symbol table gives every text one symbol, numbered from zero
in the order in which the texts were first seen.
-/

namespace BlockLowering

/-- The name of a text in some symbol table. -/
structure Symbol where
  index : Nat
deriving DecidableEq, Repr, Inhabited

/-- The texts seen so far, in order; symbol `i` stands for the text at position `i`. -/
structure SymbolTable where
  texts : List String
deriving DecidableEq, Repr

namespace SymbolTable

def empty : SymbolTable := ⟨[]⟩

instance : Inhabited SymbolTable := ⟨empty⟩

/-- The number of distinct texts. -/
def size (t : SymbolTable) : Nat := t.texts.length

def isEmpty (t : SymbolTable) : Bool := t.texts.isEmpty

/-- The symbol of a text that was seen before. -/
def find? (t : SymbolTable) (text : String) : Option Symbol :=
  (t.texts.idxOf? text).map Symbol.mk

/-- The symbol of a text; a new text gets the next number. -/
def intern (t : SymbolTable) (text : String) : SymbolTable × Symbol :=
  match t.find? text with
  | some symbol => (t, symbol)
  | none => (⟨t.texts ++ [text]⟩, ⟨t.size⟩)

/-- The text of a symbol; a symbol that this table never gave out has the empty text. -/
def resolve (t : SymbolTable) (symbol : Symbol) : String :=
  (t.texts[symbol.index]?).getD ""

/-- The table that has seen `texts` in this order. -/
def ofTexts (texts : List String) : SymbolTable :=
  texts.foldl (fun t text => (t.intern text).1) empty

end SymbolTable

end BlockLowering
