import Reconciliation.Text.Blank
import Reconciliation.Text.Quoted
import Reconciliation.Time.Timestamp

/-!
Conditions: named records of how one aspect of a resource stands. A condition that this library
makes has a type that is not empty and a reason that is one token; one that is read from a document
may have any.
-/
namespace Reconciliation

/-- How an aspect stands. -/
inductive Verity where
  | holds
  | fails
  | unknown
deriving DecidableEq, Repr, Inhabited

namespace Verity

def word : Verity → String
  | .holds => "True"
  | .fails => "False"
  | .unknown => "Unknown"

/-- All words, in the order in which error messages list them. -/
def words : List String :=
  [holds.word, fails.word, unknown.word]

def ofWord? (word : String) : Option Verity :=
  [holds, fails, unknown].find? fun verity => verity.word = word

theorem ofWord?_word (verity : Verity) : ofWord? verity.word = some verity := by
  cases verity <;> decide

end Verity

/-- A named record of how one aspect of a resource stands. -/
structure Condition where
  type : String
  status : Verity
  /-- A word for why it stands so. -/
  reason : String
  message : String
  /-- When the status last changed. -/
  since : Option Timestamp := none
  /-- The generation of the resource that was looked at. -/
  generation : Option Int64 := none
deriving DecidableEq, Inhabited

/-- What keeps a condition from being made. -/
inductive Violation where
  | emptyType
  | invalidReason (reason : String)
deriving DecidableEq, Repr

def Violation.message : Violation → String
  | .emptyType => "condition type cannot be empty"
  | .invalidReason reason =>
    s!"condition reason {Text.quoted reason} must be a non-empty token without whitespace"

namespace Condition

/-- Makes a condition. The type is looked at before the reason. -/
def make (type : String) (status : Verity) (reason message : String) :
    Except Violation Condition :=
  if type = "" then .error .emptyType
  else if Text.isToken reason then .ok { type, status, reason, message }
  else .error (.invalidReason reason)

/-- A type that is not empty and a reason that is one token make a condition. -/
theorem make_eq_ok {type reason : String} (ht : type ≠ "") (hr : Text.isToken reason = true)
    (status : Verity) (message : String) :
    make type status reason message = .ok { type, status, reason, message } := by
  simp [make, ht, hr]

def isTrue (condition : Condition) : Bool :=
  condition.status == .holds

def isFalse (condition : Condition) : Bool :=
  condition.status == .fails

end Condition

end Reconciliation
