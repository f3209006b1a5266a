import HerdBook.Script.Basic

/-!
# The world of a script

The concepts registered with an engine, those of the herd book and scripted ones, and what a script
can see of its own run: the calls of scripted actions and adapters in order, how often each was
called, and who waits under which label.
-/

namespace HerdBook

/-- A scripted concept; `serial` tells apart concepts registered under one name, and calls are
shown under `label`. -/
structure ScriptedConcept where
  serial : Nat
  label : String
  actions : List (String × Bool × Behaviour)
  attributes : Fields

/-- A registered concept. -/
inductive Member where
  | book (concept : Concept)
  | scripted (concept : ScriptedConcept)

/-- What is called: an action of a scripted concept, or a scripted adapter. -/
inductive Callee where
  | action (serial : Nat) (name : String)
  | adapter (number : Nat)
  deriving DecidableEq, Inhabited

/-- The world of a script. -/
structure World where
  members : List (String × Member)
  /-- The requests that others were registered in place of; there may still be waiters on them. -/
  former : List Requests
  issued : Issued
  /-- The number of scripted concepts registered. -/
  serials : Nat
  /-- The scripted calls, in order: what was called, and the arguments. -/
  calls : Array (String × Value)
  counts : List (Callee × Nat)
  /-- The tickets of those who wait, by label. -/
  tickets : List (String × Nat)
  /-- The time that is left for the work in progress. -/
  timeLeft : TimeLeft

namespace World

/-- The world without concepts. -/
def empty : World := ⟨[], [], .none, 0, #[], [], [], .ample⟩

instance : Inhabited World := ⟨empty⟩

/-- The concept registered under a name. -/
def member? (world : World) (name : String) : Option Member := Table.get? name world.members

/-- The world with a member changed. -/
def put (name : String) (member : Member) (world : World) : World :=
  { world with members := Table.set name member world.members }

/-- The world with a concept registered under a name, in place of the one before. -/
def register (name : String) (member : Member) (world : World) : World :=
  let former :=
    match world.member? name with
    | some (.book (.requests state)) => state :: world.former
    | _ => world.former
  put name member { world with former := former }

/-- Registers a concept under a name; under what is no text, nobody can ask for it. -/
def registerAs (name : Value) (member : Member) : Effect World Unit := do
  match name with
  | .str name => modify (register name member)
  | other => if !other.hashable then throw (.misuse .type)

/-- How often a scripted action or adapter was called. -/
def countOf (world : World) (callee : Callee) : Nat := (Table.get? callee world.counts).getD 0

/-- The world after a scripted call. -/
def recordCall (callee : Callee) (label : String) (args : Value) (world : World) : World :=
  { world with
    calls := world.calls.push (label, args)
    counts := Table.set callee (world.countOf callee + 1) world.counts }

/-- Registers a concept of the herd book. Only that of the requests takes an argument. -/
def registerBook (kind : Concept.Kind) (args : Fields) : Effect World Unit := do
  let parameters := if kind = .requests then ["max_requests"] else []
  Effect.ofExcept (Arguments.exactly parameters args)
  let limit := ((Table.get? "max_requests" args).map Limit.of).getD Concept.defaultLimit
  modify (register kind.name (.book (.start kind limit)))

/-- Registers a concept. A scripted one may have its name among its values; under an action in place
of the name, nobody can ask for it. -/
def registerScript (script : ConceptScript) : Effect World Unit :=
  match script with
  | .book kind args => registerBook kind args
  | .scripted label actions attributes => do
    modify fun world => { world with serials := world.serials + 1 }
    let concept : ScriptedConcept := ⟨(← get).serials, label, actions, attributes⟩
    if !Table.has "name" actions then
      registerAs (Arguments.optional attributes "name" (.str label)) (.scripted concept)

/-! ### The concepts of the herd book -/

/-- The concept of the herd book registered under a name; a fault when there is none. -/
def concept (name : String) : Effect World Concept := do
  match (← get).member? name with
  | some (.book concept) => return concept
  | some (.scripted _) => throw (.misuse .attribute)
  | none => throw (.misuse .key)

/-- Opens sessions of users by token, where users log in. -/
def openSessions (sessions : Fields) : Effect World Unit := do
  match ← concept Lookup.accounts with
  | .accounts state =>
    let state := { state with sessions := Table.merge state.sessions sessions }
    modify (put Lookup.accounts (.book (.accounts state)))
  | _ => throw (.misuse .attribute)

/-- Makes an operation of a concept's store fail at its nth next call. A concept without a store is
looked for one in vain. -/
def failStore (name : String) (operation : Operation) (n : Nat) : Effect World Unit := do
  match (← get).member? name with
  | none => throw (.misuse .key)
  | some (.scripted _) => throw (.strayEnd "")
  | some (.book (.requests _)) => throw (.strayEnd "")
  | some (.book keeping) =>
    modify (put name (.book (keeping.onDocuments (Store.failAt operation n))))

/-- The concept that keeps the requests. -/
def requesting : String := Concept.Kind.name .requests

/-! ### Waiting -/

/-- A member of which the requests are changed. -/
def onMember (f : Requests → Requests) : Member → Member
  | .book (.requests state) => .book (.requests (f state))
  | member => member

/-- The world with all requests changed, also those that others are registered in place of. -/
def onRequests (f : Requests → Requests) (world : World) : World :=
  { world with
    members := world.members.map fun entry => (entry.1, onMember f entry.2)
    former := world.former.map f }

/-- The world after everybody who waits had a turn. -/
def turn (world : World) : World := world.onRequests (Requests.resume 1)

/-- The world with so much time left for the work that begins now. -/
def allot (timeLeft : TimeLeft) (world : World) : World := { world with timeLeft := timeLeft }

/-- Fails when no time is left. -/
def requireTime : Effect World Unit := do
  if (← get).timeLeft = .over then throw .abandoned

/-- What happens while somebody waits for several computations: whoever else waits has a turn before
they begin, and two turns until all of them are known to have ended. -/
def waiting : Effect.Wait World where
  before := do
    requireTime
    modify fun world => { world.turn with timeLeft := world.timeLeft.afterTurn }
  after := do
    requireTime
    modify (turn ∘ turn)

/-- The requests that are waited on. -/
def requests : Effect World Requests := do
  match ← concept requesting with
  | .requests state => return state
  | _ => throw (.misuse .attribute)

/-- Starts to wait for the response to a request, under a label, after everybody who waits had a
turn. -/
def wait (label : String) (request timeout : Value) : Effect World Unit := do
  let _ ← requests
  modify turn
  let state := { (← requests) with tickets := (← get).issued.tickets }
  let (outcome, state) := (Requests.start request timeout).run state
  let waiter ← Effect.ofExcept outcome
  modify fun world =>
    put requesting (.book (.requests state))
      { world with
        issued := { world.issued with tickets := state.tickets }
        tickets := Table.set label waiter.ticket world.tickets }

/-- Who waits with a ticket. -/
def waiter (ticket : Nat) : Effect World Waiter := do
  let world ← get
  let current := world.members.filterMap fun entry =>
    match entry.2 with
    | .book (.requests state) => some state
    | _ => none
  match (current ++ world.former).findSome? (Requests.waiter? ticket) with
  | some w => return w
  | none => throw (.misuse .key)

/-- What the one who waits under a label ends with. Nobody waits under the label any more. -/
def join (label : String) : Effect World Answer := do
  match Table.get? label (← get).tickets with
  | none => throw (.misuse .key)
  | some ticket =>
    modify fun world => { world with tickets := Table.erase label world.tickets }
    let w ← waiter ticket
    modify fun world => world.onRequests (Requests.reach w)
    Effect.ofExcept (Requests.outcome (← waiter ticket))

end World

end HerdBook
