import BlockLowering.Decimal.Shortest

/-!
# Written doubles

A double is written with the shortest digits that read back. Leading digits from the fourth place
after the point to the sixteenth before it stand in positional notation, with at least one digit
after the point; other values have one leading digit and an exponent.
-/

namespace BlockLowering.Decimal

/-- The exponent of the leading digit. -/
def Numeral.leading (d : Numeral) : Int := d.exponent + (toString d.digits).length - 1

/-- Positional notation: the point stands after, before or among the digits. -/
def Numeral.positional (d : Numeral) : String :=
  let digits := Nat.toDigits 10 d.digits
  let whole := d.leading + 1
  if 0 ≤ d.exponent then
    String.ofList (digits ++ List.replicate d.exponent.toNat '0' ++ ['.', '0'])
  else if whole ≤ 0 then
    String.ofList (['0', '.'] ++ List.replicate (-whole).toNat '0' ++ digits)
  else
    String.ofList (digits.take whole.toNat ++ ['.'] ++ digits.drop whole.toNat)

/-- Scientific notation: one leading digit, the others after a point, then the exponent. -/
def Numeral.scientific (d : Numeral) : String :=
  let power := 'e' :: (toString d.leading).toList
  match Nat.toDigits 10 d.digits with
  | [] => String.ofList power
  | [digit] => String.ofList (digit :: power)
  | digit :: rest => String.ofList (digit :: '.' :: rest ++ power)

/-- Exponents of a leading digit that is written positionally: -4 to 15. -/
def Numeral.render (d : Numeral) : String :=
  if -4 ≤ d.leading ∧ d.leading < 16 then d.positional else d.scientific

/-- The text of a double; a zero keeps its sign and a NaN has none. -/
def Double.render (x : Double) : String :=
  let sign := if x.negative then "-" else ""
  if x.isNaN then "NaN"
  else if x.isInfinite then sign ++ "inf"
  else if x.isZero then sign ++ "0.0"
  else sign ++ x.toBinary.shortest.render

end BlockLowering.Decimal
