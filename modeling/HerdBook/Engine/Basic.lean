import HerdBook.Engine.Flow
import HerdBook.Note

/-!
# The engine

The engine holds the rules and the flows; what its concepts are is left to a type `ω` of worlds.
Flows are retained by id, in the order in which they were opened. When a new flow makes more than
`maxRetained` of them, the oldest ones that are not being worked on are let go.

A flow that is let go, or ended, while somebody still works on it is only forgotten by id: the
work goes on with the state it has. So flows are held in `states`, which only grows, and
`retained` says which state an id stands for.
-/

namespace HerdBook

/-- An engine over worlds `ω` and adapter codes `κ`. -/
structure Engine (ω κ : Type) where
  world : ω
  rules : List (Rule κ)
  /-- The actions that are responses, with the argument that says what they respond to; with null
  in its place an action is none. -/
  terminals : List ((String × String) × Value)
  /-- The ceiling of actions per flow. -/
  maxFlowEvents : Limit
  /-- The number of flows retained. -/
  maxRetained : Limit
  retained : List (String × Nat)
  states : List Flow
  /-- The number of flows started under an id of the engine's own. -/
  started : Nat
  journal : Array Note

namespace Engine

variable {ω κ : Type}

/-- An engine without rules and flows. -/
def start (world : ω) (maxFlowEvents maxRetained : Limit) : Engine ω κ :=
  ⟨world, [], [], maxFlowEvents, maxRetained, [], [], 0, #[]⟩

/-! ### The world -/

/-- The engine over another world. -/
def withWorld (world : ω) (engine : Engine ω κ) : Engine ω κ := { engine with world := world }

/-- What an effect on the world does to the engine. -/
def inWorld {α : Type} (act : Effect ω α) : Effect (Engine ω κ) α :=
  Effect.focus world withWorld act

/-! ### Rules -/

/-- The engine with a response registered: the action and the argument it is told apart by. -/
def registerTerminal (concept action : String) (key : Value) (engine : Engine ω κ) :
    Engine ω κ :=
  { engine with terminals := Table.set (concept, action) key engine.terminals }

/-- Adds a rule under a name that is not taken. -/
def registerRule (rule : Rule κ) : Effect (Engine ω κ) Unit := do
  if (← get).rules.any fun other => other.name == rule.name then
    throw (.raised "ValueError" s!"sync {rule.name} already registered")
  modify fun engine => { engine with rules := engine.rules ++ [rule] }

/-! ### Notes -/

/-- Writes a line to the log. -/
def note (n : Note) : Effect (Engine ω κ) Unit :=
  modify fun engine => { engine with journal := engine.journal.push n }

/-! ### Flows -/

/-- The engine with a state changed. -/
def change (serial : Nat) (f : Flow → Flow) (engine : Engine ω κ) : Engine ω κ :=
  { engine with states := engine.states.modify serial f }

/-- Changes a state. -/
def update (serial : Nat) (f : Flow → Flow) : Effect (Engine ω κ) Unit := modify (change serial f)

/-- The state with a number. -/
def state (serial : Nat) : Effect (Engine ω κ) Flow := do
  return ((← get).states[serial]?).getD default

/-- The engine with a new flow under the id. -/
def openFlow (id : String) (engine : Engine ω κ) : Engine ω κ :=
  { engine with
    states := engine.states ++ [.start id]
    retained := Table.set id engine.states.length engine.retained }

/-- The number of the state an id stands for. -/
def serial (id : String) : Effect (Engine ω κ) Nat := do
  match Table.get? id (← get).retained with
  | some serial => return serial
  | none => throw (.raised "LookupError" s!"unknown flow {id}")

/-- The state an id stands for. -/
def flow (id : String) : Effect (Engine ω κ) Flow := do state (← serial id)

/-- The number of the state an id stands for, of a new one if there is none. -/
def serialOrNew (id : String) : Effect (Engine ω κ) Nat := do
  match Table.get? id (← get).retained with
  | some serial => return serial
  | none =>
    let serial := (← get).states.length
    modify (openFlow id)
    return serial

/-- Whether somebody works on the flow with the number. -/
def isBusy (engine : Engine ω κ) (serial : Nat) : Bool :=
  (engine.states[serial]?).any Flow.draining

/-- The retained flows that may be let go, oldest first. -/
def idle (engine : Engine ω κ) (keep : String) : List String :=
  (engine.retained.filter fun entry => !engine.isBusy entry.2 && entry.1 != keep).map (·.1)

/-- The number of flows beyond the number retained. A limit that is no count must not even be
reached. -/
def excess (engine : Engine ω κ) : Option Nat :=
  let size := engine.retained.length
  match engine.maxRetained with
  | .measure x => if (Amount.exact size).less x.amount then some 0 else none
  | limit => limit.excess size

/-- The engine without a flow. -/
def endFlow (id : String) (engine : Engine ω κ) : Engine ω κ :=
  { engine with retained := Table.erase id engine.retained }

/-- The engine after a number of flows are let go, the oldest idle ones first. -/
def evict (keep : String) (excess : Nat) (engine : Engine ω κ) : Engine ω κ :=
  ((engine.idle keep).take excess).foldl (fun acc id => acc.endFlow id) engine

/-- The id of the flow with the given number. -/
def flowId (n : Nat) : String := "flow-" ++ toString n

/-- Starts a flow and returns its id. -/
def startFlow : Effect (Engine ω κ) String := do
  let id := flowId ((← get).started + 1)
  modify fun engine => openFlow id { engine with started := engine.started + 1 }
  match (← get).excess with
  | none => throw (.misuse .type)
  | some excess =>
    modify (evict id excess)
    return id

/-- The ids of the retained flows, oldest first. -/
def flowIds (engine : Engine ω κ) : List String := Table.keys engine.retained

end Engine

end HerdBook
