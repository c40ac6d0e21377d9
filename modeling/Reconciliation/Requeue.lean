import Reconciliation.Time.Span

namespace Reconciliation

/-- Whether and after how long to run again. -/
structure Requeue where
  wanted : Bool
  delay : Span
deriving DecidableEq, Inhabited

namespace Requeue

def none : Requeue := ⟨false, .zero⟩

/-- Run again after a delay, which may be zero. -/
def after (delay : Span) : Requeue := ⟨true, delay⟩

def isNone (requeue : Requeue) : Bool :=
  !requeue.wanted && requeue.delay.isZero

theorem isNone_iff {requeue : Requeue} : requeue.isNone = true ↔ requeue = none := by
  cases requeue; simp [isNone, none, Span.isZero_iff]

/-- The first of the candidates that asks for anything. -/
def firstOf (candidates : List (Option Requeue)) : Requeue :=
  (candidates.reduceOption.find? fun requeue => !requeue.isNone).getD none

end Requeue

end Reconciliation
