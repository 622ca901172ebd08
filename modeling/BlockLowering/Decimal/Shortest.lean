import BlockLowering.Decimal.Double

/-!
# Shortest decimals

The reals that round to a double form an interval around it, its ends included exactly when the
significand is even. The shortest decimal of a double is the decimal of fewest digits in that
interval; of two such decimals it is the nearer one, and of two equally near ones the larger.
All comparisons are between natural numbers.
-/

namespace BlockLowering.Decimal

/-- A finite value, `significand * 2 ^ exponent`. -/
structure Binary where
  significand : Nat
  exponent : Int
  /-- The gap to the next value below is half the gap to the next value above. -/
  narrowBelow : Bool
deriving DecidableEq, Repr

/-- The magnitude of a finite double. -/
def Double.toBinary (x : Double) : Binary :=
  if x.exponentField = 0 then
    ⟨x.fractionField, -1074, false⟩
  else
    ⟨Nat.pow 2 52 + x.fractionField, x.exponentField - 1075,
      x.fractionField = 0 ∧ 1 < x.exponentField⟩

/-- The value `digits * 10 ^ exponent`. -/
structure Numeral where
  digits : Nat
  exponent : Int
deriving DecidableEq, Repr

/-- How `a * 10 ^ i` compares with `b * 2 ^ j`. -/
def compareScaled (a : Nat) (i : Int) (b : Nat) (j : Int) : Ordering :=
  compare (a * Nat.pow 10 i.toNat * Nat.pow 2 (-j).toNat)
    (b * Nat.pow 2 j.toNat * Nat.pow 10 (-i).toNat)

/-- The decimal lies in the interval of reals that round to `x`. -/
def Binary.covers (x : Binary) (d : Numeral) : Bool :=
  let low := 4 * x.significand - (if x.narrowBelow then 1 else 2)
  let high := 4 * x.significand + 2
  let ends := x.significand % 2 == 0
  let fromLow := compareScaled d.digits d.exponent low (x.exponent - 2)
  let fromHigh := compareScaled d.digits d.exponent high (x.exponent - 2)
  (fromLow == .gt || (ends && fromLow == .eq)) && (fromHigh == .lt || (ends && fromHigh == .eq))

/-- The largest multiple of `10 ^ e` that is at most `x`, divided by `10 ^ e`. -/
def Binary.floorAt (x : Binary) (e : Int) : Nat :=
  x.significand * Nat.pow 2 x.exponent.toNat * Nat.pow 10 (-e).toNat /
    (Nat.pow 2 (-x.exponent).toNat * Nat.pow 10 e.toNat)

/-- The decimal on the grid of multiples of `10 ^ e` that reads back as `x`, if there is one:
the nearer of the two neighbours of `x`, the upper one if both are equally near. -/
def Binary.onGrid? (x : Binary) (e : Int) : Option Numeral :=
  let below : Numeral := ⟨x.floorAt e, e⟩
  let above : Numeral := ⟨x.floorAt e + 1, e⟩
  match x.covers below, x.covers above with
  | true, true =>
    if compareScaled (2 * below.digits + 1) e (2 * x.significand) x.exponent == .gt then
      some below
    else
      some above
  | true, false => some below
  | false, true => some above
  | false, false => none

/-- The value written out in full. -/
def Binary.exact (x : Binary) : Numeral :=
  ⟨x.significand * Nat.pow 2 x.exponent.toNat * Nat.pow 5 (-x.exponent).toNat, min x.exponent 0⟩

/-- An `e` with `x < 10 ^ e`, at most two above the least one. -/
def Binary.scale (x : Binary) : Int :=
  ((Nat.log2 x.significand + 1 + x.exponent) * 30103).fdiv 100000 + 1

/-- The first grid, from coarse to fine, on which a decimal reads back as `x`. -/
def Binary.shortestOn (x : Binary) : List Int → Numeral
  | [] => x.exact
  | e :: rest =>
    match x.onGrid? e with
    | some d => d
    | none => x.shortestOn rest

/-- Moves trailing zeros of the digits into the exponent; `fuel` bounds their number. -/
def Numeral.normalize : Nat → Numeral → Numeral
  | 0, d => d
  | fuel + 1, d =>
    if d.digits ≠ 0 ∧ d.digits % 10 = 0 then
      normalize fuel ⟨d.digits / 10, d.exponent + 1⟩
    else
      d

/-- The shortest decimal that reads back as `x`, without trailing zeros. Seventeen digits always
suffice, and the scale is off by at most two, so twenty grids are enough. -/
def Binary.shortest (x : Binary) : Numeral :=
  (x.shortestOn ((List.range 20).map fun (n : Nat) => x.scale - n)).normalize 400

end BlockLowering.Decimal
