import HerdBook.Fault
import HerdBook.Text.Capital
import HerdBook.Value.Basic

/-!
# Setting the log up

Setting the log up installs a writer of one of the two forms, in place of the one installed before,
and sets the level below which nothing is written. An unknown level is taken for `INFO`. There are
names that stand for something that is no level; they are a fault, which leaves the level as it was
and the new writer installed.
-/

namespace HerdBook

/-- The form in which the log is written. -/
inductive LogForm where
  | text
  | json
  deriving DecidableEq, Inhabited

/-- What is set up: the level, and the form of the writer installed. -/
structure LogSetup where
  level : Nat
  writer : Option LogForm
  deriving DecidableEq, Inhabited

namespace LogSetup

/-- Before anything is set up. -/
def initial : LogSetup := ⟨30, none⟩

/-- The form with a name; any name but `json` is that of the text form. -/
def formOf (name : String) : LogForm := if name = "json" then .json else .text

/-- The level with a name. -/
def levelNamed (name : String) : Except Fault Nat :=
  match Capital.ofText name with
  | "CRITICAL" => .ok 50
  | "FATAL" => .ok 50
  | "ERROR" => .ok 40
  | "WARNING" => .ok 30
  | "WARN" => .ok 30
  | "DEBUG" => .ok 10
  | "NOTSET" => .ok 0
  | "BASIC_FORMAT" => .error (.misuse .value)
  | "_STYLES" => .error (.misuse .type)
  | _ => .ok 20

/-- The level that a value names, which must be a text. -/
def levelOf : Value → Except Fault Nat
  | .str name => levelNamed name
  | _ => .error (.misuse .attribute)

/-- Sets the log up. Returns the fault of the level, if it has one, and the setup afterwards. -/
def install (level : Value) (form : String) (setup : LogSetup) : Option Fault × LogSetup :=
  let setup := { setup with writer := some (formOf form) }
  match levelOf level with
  | .ok n => (none, { setup with level := n })
  | .error fault => (some fault, setup)

end LogSetup

end HerdBook
