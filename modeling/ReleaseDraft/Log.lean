/-!
# Log entries

What the program reports about its progress, in order.
-/

namespace ReleaseDraft

/-- How much a log entry matters. -/
inductive Level where
  | debug
  | info
  deriving DecidableEq, Repr

/-- One line of the log. -/
structure LogEntry where
  level : Level
  message : String
  deriving DecidableEq, Repr

namespace LogEntry

/-- An entry for those who look for a fault. -/
def debug (message : String) : LogEntry := ⟨.debug, message⟩

/-- An entry for everyone. -/
def info (message : String) : LogEntry := ⟨.info, message⟩

end LogEntry

end ReleaseDraft
