/-!
The numbers of a document. A number is an integer or a double; the two never agree, even where a
double has an integral value. Numbers agree if they are equal but for the sign of a zero.
-/
namespace Reconciliation

/-- A finite binary64 number, given by its bits. -/
structure Double where
  /-- Sign, exponent and fraction, from the highest bit down. -/
  bits : UInt64
deriving DecidableEq, Repr, Inhabited

namespace Double

def exponent (d : Double) : Nat :=
  d.bits.toNat / 4503599627370496 % 2048

def fraction (d : Double) : Nat :=
  d.bits.toNat % 4503599627370496

def isNegative (d : Double) : Bool :=
  9223372036854775808 ≤ d.bits.toNat

/-- The magnitude is `significand * 2 ^ scale`. -/
def significand (d : Double) : Nat :=
  if d.exponent = 0 then d.fraction else d.fraction + 4503599627370496

/-- The magnitude is `significand * 2 ^ scale`. -/
def scale (d : Double) : Int :=
  if d.exponent = 0 then -1074 else d.exponent - 1075

/-- The double without the sign of a zero. -/
def plain (d : Double) : Double :=
  if d.bits = 9223372036854775808 then ⟨0⟩ else d

@[simp] theorem plain_plain (d : Double) : d.plain.plain = d.plain := by
  unfold plain
  split <;> simp_all

end Double

inductive Number where
  | integer (value : Int)
  | double (value : Double)
deriving DecidableEq, Repr, Inhabited

namespace Number

/-- The number without the sign of a zero. -/
def plain : Number → Number
  | .integer value => .integer value
  | .double value => .double value.plain

@[simp] theorem plain_plain (number : Number) : number.plain.plain = number.plain := by
  cases number <;> simp [plain]

end Number

end Reconciliation
