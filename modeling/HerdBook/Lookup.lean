import HerdBook.Engine.Program
import HerdBook.Outcome

/-!
# Lookups

The adapters that rules use to ask a concept something: they call an action or a query without
recording it and turn the answer into one row of outcome. The lookup of a token does not ask at
all when there is no token.
-/

namespace HerdBook

/-- An adapter over a concept. -/
inductive Lookup where
  /-- Who is logged in with a token. -/
  | token
  /-- An action or a query of a concept, with the fields of its success. -/
  | answer (concept action : String) (fields : List String)
  deriving DecidableEq, Inhabited

namespace Lookup

variable {ω κ : Type}

/-- The concept that knows who is logged in. -/
def accounts : String := "UserAuthentication"

/-- The action that says who is logged in with a token. -/
def verify : String := "verify"

/-- The error of a request without a token. -/
def missingToken : String := "Token is required for authentication."

/-- The name of a lookup in messages. -/
def name : Lookup → String
  | .token => accounts ++ "." ++ verify
  | .answer concept action _ => concept ++ "." ++ action

/-- The rows of what a concept answered, under the name of the adapter that asked it. An error is
noted. -/
def rowsOfAnswer (name : String) (fields : List String) (answer : Value) :
    Program ω κ Value := do
  let outcome ← Program.ofExcept (Outcome.ofAnswer answer)
  match outcome with
  | .failure error => Program.notes [.adapter s!"adapter {name}: error {error}"]
  | .success _ => pure ()
  return .list ((← Program.ofExcept (outcome.rows fields)).map .object)

/-- Asks a concept: a query when the name says so, else an action. -/
def askConcept (concept action : String) (fields : List String) (args : Fields) :
    Program ω κ Value := do
  let answer ←
    if action.startsWith "_" then Program.query concept action args
    else Program.call concept action args
  rowsOfAnswer (concept ++ "." ++ action) fields answer

/-- What a lookup does with arguments, which must be by name, and returns. -/
def program : Lookup → Value → Program ω κ Value
  | .answer concept action fields, .object args => askConcept concept action fields args
  | .answer _ _ _, _ => Program.fail (.misuse .type)
  | .token, .object args => do
    if ((Table.get? "token" args).getD .null).truthy then
      askConcept accounts verify ["user"] args
    else
      Program.notes [.adapter s!"adapter {Lookup.token.name}: missing token"]
      let rows ← Program.ofExcept ((Outcome.failure missingToken).rows ["user"])
      return .list (rows.map .object)
  | .token, _ => Program.fail (.misuse .attribute)

end Lookup

end HerdBook
