import HerdBook.Fault
import HerdBook.Value.Text

/-!
# Outcomes

A concept answers with fields that either hold `error` or do not. An adapter turns the answer into
an outcome first and the outcome into one row: the row of a success holds every success field and
the placeholder under `error`, the row of a failure the error's text and the placeholder under
every success field. So a rule that binds both branches always finds both symbols bound.
-/

namespace HerdBook

/-- The two branches of a concept's answer. -/
inductive Outcome where
  | success (fields : Fields)
  | failure (error : String)
  deriving Inhabited

namespace Outcome

/-- The outcome that an answer stands for. -/
def ofAnswer (answer : Value) : Except Fault Outcome :=
  match answer with
  | .object fields =>
    match Table.get? "error" fields with
    | some error => (error.text.map Outcome.failure).mapError .misuse
    | none => .ok (.success fields)
  | other =>
    let kind := other.kindName
    .error (.failed .adapter s!"concept returned {kind}, expected a mapping" none)

/-- The row of an outcome with the given success fields. -/
def row (wanted : List String) : Outcome → Except Fault Fields
  | .success fields =>
    let missing := wanted.filter fun name => !Table.has name fields
    if missing.isEmpty then
      let found := wanted.map fun name => (name, (Table.get? name fields).getD .null)
      .ok (Table.set "error" .notApplicable (Table.ofPairs found))
    else
      .error (.failed .adapter ("success result is missing " ++ ", ".intercalate missing) none)
  | .failure error =>
    let blank := wanted.map fun name => (name, Value.notApplicable)
    .ok (Table.set "error" (.str error) (Table.ofPairs blank))

/-- The rows of an outcome: always one. -/
def rows (wanted : List String) (outcome : Outcome) : Except Fault (List Fields) := do
  return [← outcome.row wanted]

end Outcome

end HerdBook
