import HerdBook.Frame.Unify
import HerdBook.Rule.Event

/-!
# Patterns of events

A pattern matches one event; the patterns of a rule are a conjunction, matched by events that are
pairwise distinct and agree on the symbols the patterns share.

* `Pattern.match?` matches one event and extends a frame. Input fields are optional: the symbol of
  an input field that the action did not receive stays unbound. Output fields are required.
* `Pattern.combinations` joins the patterns from left to right over a log of events and yields, in
  the order of the log, each frame with the numbers of the events that make it.

A pattern that is no pair of objects is a misuse, but only once an event of its kind is met.
-/

namespace HerdBook

/-- A pattern for a completed action: an object for its input and one for its answer, with a literal
or a symbol for each field. -/
structure Pattern where
  concept : String
  action : String
  inputs : Value
  outputs : Value
  deriving Inhabited

/-- A frame together with the numbers of the events it comes from, one per pattern. -/
abbrev Combination := Frame × List Nat

namespace Pattern

/-- Whether the event is a completed action of the kind that the pattern is for. -/
def concerns (pattern : Pattern) (event : Event) : Bool :=
  event.concept == pattern.concept && event.action == pattern.action && !event.output.isNull

/-- The frame extended by what the event binds, or `none` when the event does not match. -/
def match? (pattern : Pattern) (event : Event) (frame : Frame) : Except Misuse (Option Frame) :=
  if pattern.concerns event then do
    match ← frame.unifyValue? .optional pattern.inputs event.input with
    | none => return none
    | some extended => extended.unifyValue? .required pattern.outputs event.output
  else .ok none

/-- The values of the fields of a pattern's half, which must be an object. -/
def wanted : Value → Except Misuse (List Value)
  | .object fields => .ok (fields.map (·.2))
  | _ => .error .attribute

/-- The symbols a pattern names, inputs before outputs, each once. -/
def symbols (pattern : Pattern) : Except Misuse (List Symbol) := do
  let values := (← wanted pattern.inputs) ++ (← wanted pattern.outputs)
  return (values.filterMap fun v =>
    match v with
    | .symbol s => some s
    | _ => none).eraseDups

/-- The ways in which one event of the log, not used so far, continues a combination. -/
def continuations (pattern : Pattern) (begun : Combination) :
    List Event → Except Misuse (List Combination)
  | [] => .ok []
  | event :: log => do
    let here ←
      if event.number ∈ begun.2 then pure none else pattern.match? event begun.1
    let others ← continuations pattern begun log
    return (here.map fun frame => (frame, begun.2 ++ [event.number])).toList ++ others

/-- The ways in which one event of the log continues one of the combinations, in their order. -/
def continueAll (pattern : Pattern) (log : List Event) :
    List Combination → Except Misuse (List Combination)
  | [] => .ok []
  | begun :: rest => do
    let here ← pattern.continuations begun log
    let others ← continueAll pattern log rest
    return here ++ others

/-- The combinations that continue the given ones through all patterns. -/
def joinAll (log : List Event) : List Pattern → List Combination →
    Except Misuse (List Combination)
  | [], found => .ok found
  | pattern :: rest, found => do joinAll log rest (← pattern.continueAll log found)

/-- Every combination of distinct events that the conjunction of patterns admits. -/
def combinations (patterns : List Pattern) (log : List Event) :
    Except Misuse (List Combination) :=
  joinAll log patterns [(Frame.empty, [])]

end Pattern

end HerdBook
