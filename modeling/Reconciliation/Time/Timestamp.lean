import Reconciliation.Time.Date

/-!
Instants in universal time, to the nanosecond. A leap second is the second half of the last second
of its minute: its fraction runs from one second to two.
-/
namespace Reconciliation

structure Timestamp where
  /-- Seconds since 1970-01-01T00:00:00Z, leap seconds not counted. -/
  seconds : Int
  /-- The fraction of the second. -/
  nanos : Nat
  nanos_lt : nanos < 2000000000
  /-- Only the last second of a minute can be a leap second. -/
  leap : 1000000000 ≤ nanos → seconds % 60 = 59
deriving DecidableEq

namespace Timestamp

/-- The instant a number of whole seconds after the epoch. -/
def ofSeconds (seconds : Int) : Timestamp :=
  ⟨seconds, 0, by decide, fun h => absurd h (by decide)⟩

/-- The instant `seconds` and `nanos` after the epoch, if the fraction is less than a second. -/
def ofSeconds? (seconds : Int) (nanos : Nat) : Option Timestamp :=
  if h : nanos < 1000000000 then some ⟨seconds, nanos, by omega, fun h' => absurd h (by omega)⟩
  else none

instance : Inhabited Timestamp := ⟨ofSeconds 0⟩

def isBefore (a b : Timestamp) : Bool :=
  a.seconds < b.seconds || (a.seconds == b.seconds && a.nanos < b.nanos)

def latest (a b : Timestamp) : Timestamp :=
  if a.isBefore b then b else a

def date (t : Timestamp) : Date :=
  Date.ofDays (t.seconds / 86400)

def secondOfDay (t : Timestamp) : Nat :=
  (t.seconds % 86400).toNat

end Timestamp

end Reconciliation
