/-!
# Double-precision literals

A literal keeps its 64 bits: one sign bit, eleven exponent bits and 52 fraction bits. Two literals
are equal as numbers, so a NaN differs from every literal and the two zeros agree; bits tell all
literals apart.
-/

namespace BlockLowering.Decimal

/-- A double-precision literal, bit for bit. -/
structure Double where
  bits : UInt64
deriving DecidableEq, Repr, Inhabited

namespace Double

def negative (x : Double) : Bool := Nat.pow 2 63 ≤ x.bits.toNat

/-- The bits below the sign. -/
def magnitude (x : Double) : Nat := x.bits.toNat % Nat.pow 2 63

/-- The biased exponent. -/
def exponentField (x : Double) : Nat := x.magnitude / Nat.pow 2 52

def fractionField (x : Double) : Nat := x.magnitude % Nat.pow 2 52

def isNaN (x : Double) : Bool := x.exponentField == 2047 && x.fractionField != 0

def isInfinite (x : Double) : Bool := x.exponentField == 2047 && x.fractionField == 0

def isZero (x : Double) : Bool := x.magnitude == 0

/-- Equality of the numbers: a NaN equals nothing, and the zeros are equal. -/
def sameNumber (x y : Double) : Bool :=
  !x.isNaN && !y.isNaN && (x.bits == y.bits || (x.isZero && y.isZero))

end Double

end BlockLowering.Decimal
