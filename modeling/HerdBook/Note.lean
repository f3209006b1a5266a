/-!
# Notes

The lines a run writes to its log: how severe, from which part of the program, and the words.
-/

namespace HerdBook

/-- How severe a note is. -/
inductive Severity where
  | debug
  | warning
  | error
  deriving DecidableEq, Inhabited

/-- A line of the log. -/
structure Note where
  severity : Severity
  source : String
  words : String
  deriving DecidableEq, Inhabited

namespace Note

/-- A note of the rule engine. -/
def engine (severity : Severity) (words : String) : Note := ⟨severity, "engine", words⟩

/-- A note of a concept. -/
def concept (severity : Severity) (words : String) : Note := ⟨severity, "concepts", words⟩

/-- A note of an adapter. -/
def adapter (words : String) : Note := ⟨.debug, "adapters", words⟩

/-- A note of the transport. -/
def transport (severity : Severity) (words : String) : Note := ⟨severity, "app", words⟩

end Note

end HerdBook
