import HerdBook.Rule.Basic

/-!
# Flows

A flow is one round of causally linked actions. It keeps the log of the actions completed in it,
the queue of those that the rules have not seen yet, the combinations of events that each rule has
been carried out for, the responses that may not be given again, and the faults that aborted the
evaluation of a rule.

Events are numbered by their place in the log, so that a combination is known by its numbers.
-/

namespace HerdBook

/-- The fault that aborted the evaluation of a rule in a flow. -/
structure FlowFault where
  rule : String
  flow : String
  fault : Fault
  deriving Inhabited

/-- A response that may be given once in a flow: an action and the value of its key. -/
structure Marker where
  concept : String
  action : String
  key : Value
  deriving Inhabited

/-- Whether two markers stand for the same response. -/
def Marker.same (m other : Marker) : Bool :=
  m.concept == other.concept && m.action == other.action && m.key.sameItem other.key

/-- The state of a flow. -/
structure Flow where
  id : String
  log : List Event
  queue : List Event
  fired : List (String × List Nat)
  responses : List Marker
  faults : List FlowFault
  draining : Bool
  deriving Inhabited

namespace Flow

variable {κ : Type}

/-- A flow in which nothing has happened. -/
def start (id : String) : Flow := ⟨id, [], [], [], [], [], false⟩

/-- The flow after one more action is completed: it is logged and queued. -/
def record (flow : Flow) (concept action : String) (input : Fields) (output : Value) :
    Flow × Event :=
  let event : Event := ⟨flow.log.length, concept, action, .object input, output, flow.id⟩
  ({ flow with log := flow.log ++ [event], queue := flow.queue ++ [event] }, event)

/-- The combinations that a rule has yet to be carried out for. With a trigger, only those that
the trigger is part of. -/
def fresh (flow : Flow) (rule : Rule κ) (trigger : Option Nat) :
    Except Misuse (List Combination) := do
  let found ← Pattern.combinations rule.patterns flow.log
  return found.filter fun c =>
    trigger.all (fun n => c.2.contains n) && !flow.fired.contains (rule.name, c.2)

/-- The flow after a rule has fired for the combinations. -/
def fire (flow : Flow) (rule : Rule κ) (found : List Combination) : Flow :=
  { flow with fired := flow.fired ++ found.map fun c => (rule.name, c.2) }

/-- A recorded action is the last of the log. -/
theorem log_record (flow : Flow) (concept action : String) (input : Fields)
    (output : Value) : (flow.record concept action input output).1.log
      = flow.log ++ [(flow.record concept action input output).2] := rfl

/-- A recorded action is the last of the queue. -/
theorem queue_record (flow : Flow) (concept action : String) (input : Fields)
    (output : Value) : (flow.record concept action input output).1.queue
      = flow.queue ++ [(flow.record concept action input output).2] := rfl

/-- A new event has the number of its place in the log. -/
theorem number_record (flow : Flow) (concept action : String) (input : Fields)
    (output : Value) : (flow.record concept action input output).2.number = flow.log.length := rfl

/-- Whether the response was given in this flow. -/
def hasResponded (flow : Flow) (marker : Marker) : Bool :=
  flow.responses.any fun given => given.same marker

/-- The flow after a response is noted. -/
def noteResponse (flow : Flow) (marker : Marker) : Flow :=
  if flow.hasResponded marker then flow
  else { flow with responses := flow.responses ++ [marker] }

/-- The flow after a fault aborted a rule. -/
def addFault (flow : Flow) (rule : String) (fault : Fault) : Flow :=
  { flow with faults := flow.faults ++ [⟨rule, flow.id, fault⟩] }

/-- The number of actions that the flow may still begin under a ceiling, or more. -/
def room (flow : Flow) (ceiling : Limit) : Nat := ceiling.room flow.log.length

end Flow

end HerdBook
