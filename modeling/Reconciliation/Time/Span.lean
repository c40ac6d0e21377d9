/-!
Lengths of time to the nanosecond.
-/
namespace Reconciliation

structure Span where
  seconds : Nat
  nanos : Nat
  nanos_lt : nanos < 1000000000 := by decide
deriving DecidableEq

namespace Span

def zero : Span := { seconds := 0, nanos := 0 }

instance : Inhabited Span := ⟨zero⟩

def ofSeconds (seconds : Nat) : Span := { seconds, nanos := 0 }

/-- `seconds` and `nanos`, if the nanoseconds make less than a second. -/
def ofNanos? (seconds nanos : Nat) : Option Span :=
  if h : nanos < 1000000000 then some ⟨seconds, nanos, h⟩ else none

def isZero (span : Span) : Bool :=
  span.seconds == 0 && span.nanos == 0

theorem isZero_iff {span : Span} : span.isZero = true ↔ span = zero := by
  cases span; simp [isZero, zero]

/-- The digits of `part / 10 ^ width` after the point, without trailing zeros. -/
def fractionDigits : (width part : Nat) → List Char
  | 0, _ => []
  | width + 1, part =>
    if part = 0 then []
    else
      let power := Nat.pow 10 width
      Nat.digitChar (part / power % 10) :: fractionDigits width (part % power)

/-- `whole` and `part / 10 ^ width` in a unit. -/
def inUnit (whole width part : Nat) (unit : String) : String :=
  let fraction := fractionDigits width part
  if fraction.isEmpty then s!"{whole}{unit}" else s!"{whole}.{String.ofList fraction}{unit}"

/-- A length of time in the largest unit of which it holds at least one. -/
def text (span : Span) : String :=
  if 0 < span.seconds then inUnit span.seconds 9 span.nanos "s"
  else if 1000000 ≤ span.nanos then inUnit (span.nanos / 1000000) 6 (span.nanos % 1000000) "ms"
  else if 1000 ≤ span.nanos then inUnit (span.nanos / 1000) 3 (span.nanos % 1000) "µs"
  else inUnit span.nanos 0 0 "ns"

end Span

end Reconciliation
