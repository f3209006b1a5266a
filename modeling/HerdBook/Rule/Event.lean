import HerdBook.Value.Basic

/-!
# Events

An event records one completed action of a concept inside a flow: what it was called with and
what it answered. Events of a flow are told apart by their number.
-/

namespace HerdBook

/-- A completed action. `output` is null while the action has not answered. -/
structure Event where
  number : Nat
  concept : String
  action : String
  input : Value
  output : Value
  flow : String
  deriving Inhabited

namespace Event

/-- The full name of the action that took place. -/
def name (event : Event) : String := event.concept ++ "." ++ event.action

end Event

end HerdBook
