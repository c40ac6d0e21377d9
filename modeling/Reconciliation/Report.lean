namespace Reconciliation

/-- A message and the messages of its causes, the nearest cause first. -/
structure Report where
  message : String
  causes : List String := []
deriving DecidableEq, Repr, Inhabited

namespace Report

def ofMessage (message : String) : Report := { message }

/-- The same failure under a message that says what was going on. -/
def within (context : String) (report : Report) : Report :=
  { message := context, causes := report.message :: report.causes }

/-- The message and all causes, with colons between them. -/
def full (report : Report) : String :=
  ": ".intercalate (report.message :: report.causes)

end Report

end Reconciliation
