import Reconciliation.Condition.Standing
import Reconciliation.Report
import Reconciliation.Requeue
import Reconciliation.Text.Cap

/-!
Verdicts: what a step hands back to shape the condition that is recorded for it, the phase, and what
happens next. The texts of failures are capped: a plain message at ten thousand characters, the text
of an error at twenty thousand.
-/
namespace Reconciliation

/-- The most characters of a message. -/
def maxMessage : Nat := 10000

/-- The most characters of the text of an error. -/
def maxError : Nat := 20000

/-- A structured outcome of a step. -/
structure Verdict where
  /-- The type to record the condition under, in place of the step's own. -/
  type : Option String := none
  status : Verity
  reason : String
  message : String
  phase : Option Phase := none
  /-- Whether no further step runs. -/
  exit : Bool := false
  /-- What the invocation asks for if it stops here. -/
  requeue : Option Requeue := none
  source : Option Report := none
  /-- Whether no event is sent. -/
  silent : Bool := false
  reason_valid : Text.isToken reason = true
deriving DecidableEq

namespace Verdict

/-- Makes a verdict, if the reason is one token. -/
def make (status : Verity) (reason message : String) (source : Option Report) :
    Except Violation Verdict :=
  if h : Text.isToken reason = true then .ok { status, reason, message, source, reason_valid := h }
  else .error (.invalidReason reason)

/-- A failure with a message. -/
def fail (reason message : String) : Except Violation Verdict :=
  make .fails reason (Text.cap maxMessage message) none

/-- A failure that an error brought about. -/
def failWith (reason : String) (report : Report) : Except Violation Verdict :=
  make .fails reason (Text.cap maxError report.full) (some report)

/-- A failure that an error brought about, under a message that says what was going on. -/
def failWithin (reason : String) (report : Report) (context : String) : Except Violation Verdict :=
  failWith reason (report.within (Text.cap maxMessage context))

def success (reason message : String) : Except Violation Verdict :=
  make .holds reason message none

def unknown (reason message : String) : Except Violation Verdict :=
  make .unknown reason message none

/-- Stops after this step. -/
def withExit (verdict : Verdict) : Verdict :=
  { verdict with exit := true }

/-- Stops after this step and asks for `requeue`. -/
def withExitRequeue (requeue : Requeue) (verdict : Verdict) : Verdict :=
  { verdict with exit := true, requeue := some requeue }

/-- Records the condition under another type. -/
def withType (type : String) (verdict : Verdict) : Verdict :=
  { verdict with type := some type }

def withPhase (phase : Phase) (verdict : Verdict) : Verdict :=
  { verdict with phase := some phase }

def withoutEvent (verdict : Verdict) : Verdict :=
  { verdict with silent := true }

/-- The type to record the condition under: an empty one counts as none. -/
def typeOr (verdict : Verdict) (default : String) : String :=
  (verdict.type.filter (· ≠ "")).getD default

/-- The message to record: the text of the error if there is no other. -/
def recordedMessage (verdict : Verdict) : String :=
  match verdict.source with
  | some report => if verdict.message = "" then Text.cap maxError report.full else verdict.message
  | none => verdict.message

def condition (verdict : Verdict) (default : String) : Except Violation Condition :=
  Condition.make (verdict.typeOr default) verdict.status verdict.reason verdict.recordedMessage

def text (verdict : Verdict) : String :=
  Text.cap maxError (verdict.source.elim verdict.message Report.full)

end Verdict

/-- Why a step did not simply succeed. -/
inductive Objection where
  /-- The step says itself what to record. -/
  | verdict (given : Verdict)
  /-- Something failed. -/
  | failure (cause : Report)
deriving DecidableEq

namespace Objection

def text : Objection → String
  | .verdict given => given.text
  | .failure cause => cause.full

def report : Objection → Report
  | .verdict given => .ofMessage given.text
  | .failure cause => cause

end Objection

end Reconciliation
