import HerdBook.Engine.Basic

/-!
# Rounds

How an engine works on a flow. An action that is invoked is performed and recorded; then the
recorded actions are taken from the queue one by one, and for each of them every rule is evaluated
on the combinations that it is part of (`Engine.drain`). Actions that the rules carry out are
recorded in turn, until the queue is empty.

* `Engine.evaluate` evaluates one rule: it marks the combinations that are new as fired, runs the
  stages, fills in the arguments of all actions, and only then carries any of them out
  (`Engine.carryOut`). A fault that aborts the rule is recorded with the flow; any other ends the
  round.
* `Engine.dispatch` carries out the actions of one frame, in order. A response that was given
  before is refused and the others go on; a fault ends the frame. The frames are all carried out,
  each as far as it goes, before the first fault counts.

What performing an action or calling an adapter does is a parameter, `Handlers`. It may use the
engine itself, so a flow may grow and rules may be added while a flow is worked on. The ceiling of
actions bounds the work that the rules cause, and `Handlers.reentries` what a handler adds by
using the engine from inside.
-/

namespace HerdBook

/-- What an engine is told about its concepts and adapters. -/
structure Handlers (ω κ : Type) where
  /-- Whether there is a concept of that name. -/
  isRegistered : ω → String → Bool
  /-- Performs an action of a concept. -/
  perform : String → String → Fields → Effect (Engine ω κ) Value
  /-- The name of an adapter in messages. -/
  adapterName : κ → String
  /-- Calls an adapter. -/
  adapt : κ → Value → Effect (Engine ω κ) Value
  /-- What happens to the world while the engine waits. -/
  wait : Effect.Wait ω
  /-- How often handlers may nest. -/
  reentries : Nat

/-- What happens to the engine while it waits. -/
def Handlers.waiting {ω κ : Type} (handlers : Handlers ω κ) : Effect.Wait (Engine ω κ) :=
  handlers.wait.focus Engine.world Engine.withWorld

/-- The adapters as the stages of a rule use them. -/
def Handlers.adapters {ω κ : Type} (handlers : Handlers ω κ) : Adapters (Engine ω κ) κ :=
  ⟨handlers.adapterName, handlers.adapt, handlers.waiting⟩

namespace Engine

variable {ω κ : Type} (handlers : Handlers ω κ)

/-! ### Actions -/

/-- Fails when the concept is not registered. -/
def requireConcept (concept : String) : Effect (Engine ω κ) Unit := do
  if !handlers.isRegistered (← get).world concept then
    throw (.unknownAction s!"concept {concept} not registered")

/-- Fails when the flow has reached the ceiling of actions. -/
def requireRoom (id : String) (serial : Nat) : Effect (Engine ω κ) Unit := do
  let limit := (← get).maxFlowEvents
  match limit.isReached (← state serial).log.length with
  | none => throw (.misuse .type)
  | some reached => if reached then throw (.flowLimit id limit)

/-- Records a completed action in a flow. -/
def record (serial : Nat) (concept action : String) (input : Fields) (output : Value) :
    Effect (Engine ω κ) Event := do
  let event := ((← state serial).record concept action input output).2
  update serial fun flow => (flow.record concept action input output).1
  return event

/-- Performs an action and records it in the flow with the id. The input must make fields. -/
def perform (concept action : String) (input : Value) (id : String) :
    Effect (Engine ω κ) Event := do
  requireConcept handlers concept
  let serial ← serialOrNew id
  requireRoom id serial
  let input ← Effect.ofExcept (input.toFields.mapError Fault.misuse)
  let output ← handlers.perform concept action input
  record serial concept action input output

/-! ### Carrying a rule out -/

/-- Whether an action may be carried out in the flow. A response may be given once for each value
of its key; giving it again is refused with a warning. -/
def permits (serial : Nat) (template : ActionTemplate) (args : Value) :
    Effect (Engine ω κ) Bool := do
  match (Table.get? (template.concept, template.action) (← get).terminals).getD .null with
  | .null => return true
  | key =>
    let value ← Effect.ofExcept ((args.under key).mapError Fault.misuse)
    if !value.hashable then throw (.misuse .type)
    let marker : Marker := ⟨template.concept, template.action, value⟩
    let seen := (← state serial).hasResponded marker
    update serial fun flow => flow.noteResponse marker
    if seen then
      let name ← Effect.ofExcept (key.text.mapError .misuse)
      let shown ← Effect.ofExcept (value.shown.mapError .misuse)
      note (.engine .warning s!"refusing second {template.name} for {name}={shown}")
    return !seen

/-- Carries out the actions of one frame, in order. -/
def dispatch (serial : Nat) : List Dispatch → Effect (Engine ω κ) Unit
  | [] => pure ()
  | (template, args) :: rest => do
    if ← permits serial template args then
      let id := (← state serial).id
      match ← Effect.attempt (perform handlers template.concept template.action args id) with
      | .ok _ => pure ()
      | .error fault => throw (fault.wrappedBy .action template.name)
    dispatch serial rest

/-- The actions that the stages and templates of a rule make of the frames. A fault that is not
the engine's own is wrapped. -/
def prepare (rule : Rule κ) (frames : List Frame) : Effect (Engine ω κ) (List (List Dispatch)) := do
  let prepared := do
    let kept ← Stage.applyAll handlers.adapters rule.stages frames
    Effect.ofExcept (rule.dispatches kept)
  match ← Effect.attempt prepared with
  | .ok calls => return calls
  | .error fault => throw (fault.wrappedBy .stage rule.name)

/-- Carries a rule out for the frames. -/
def carryOut (serial : Nat) (rule : Rule κ) (frames : List Frame) : Effect (Engine ω κ) Unit := do
  let calls ← prepare handlers rule frames
  let _ ← Effect.gather handlers.waiting (dispatch handlers serial) calls

/-- Records a fault that aborted a rule. -/
def recordFault (serial : Nat) (rule : Rule κ) (fault : Fault) : Effect (Engine ω κ) Unit := do
  let id := (← state serial).id
  let fault := fault.attributedTo ⟨rule.name, id⟩
  update serial fun flow => flow.addFault rule.name fault
  note (.engine .error s!"sync {rule.name} aborted in flow {id}: {fault.logText}")

/-- Evaluates a rule on a flow: on the new combinations that the trigger is part of, or on all new
combinations when there is no trigger. -/
def evaluate (serial : Nat) (trigger : Option Nat) (rule : Rule κ) :
    Effect (Engine ω κ) Unit := do
  let fresh ← Effect.ofExcept (((← state serial).fresh rule trigger).mapError Fault.misuse)
  if fresh.isEmpty then return
  update serial fun flow => flow.fire rule fresh
  note (.engine .debug s!"sync {rule.name} matched {fresh.length} frame(s)")
  match ← Effect.attempt (carryOut handlers serial rule (fresh.map (·.1))) with
  | .ok () => return
  | .error fault => if fault.abortsRule then recordFault serial rule fault else throw fault

/-- Evaluates the rules in order. -/
def evaluateEach (serial : Nat) (trigger : Option Nat) : List (Rule κ) → Effect (Engine ω κ) Unit
  | [] => pure ()
  | rule :: rest => do
    evaluate handlers serial trigger rule
    evaluateEach serial trigger rest

/-- Evaluates the rules from the given place on, then those added meanwhile, and so on for the
given number of times. -/
def evaluateFrom (serial : Nat) (trigger : Option Nat) : Nat → Nat → Effect (Engine ω κ) Unit
  | 0, _ => throw (.misuse .nesting)
  | times + 1, place => do
    let rules := (← get).rules.drop place
    if rules.isEmpty then return
    evaluateEach handlers serial trigger rules
    evaluateFrom serial trigger times (place + rules.length)

/-- Evaluates every rule. -/
def evaluateAll (serial : Nat) (trigger : Option Nat) : Effect (Engine ω κ) Unit :=
  evaluateFrom handlers serial trigger (handlers.reentries + 2) 0

/-! ### Draining the queue -/

/-- The first event of the queue, which is taken off it. -/
def dequeue (serial : Nat) : Effect (Engine ω κ) (Option Event) := do
  let event := (← state serial).queue.head?
  update serial fun flow => { flow with queue := flow.queue.tail }
  return event

/-- The number of events that can still be taken off the queue of a flow: those in it, one for
each action that the ceiling leaves room for, and those of the actions that have begun. -/
def remaining (engine : Engine ω κ) (serial : Nat) : Nat :=
  let flow := (engine.states[serial]?).getD default
  flow.queue.length + flow.room engine.maxFlowEvents + handlers.reentries

/-- Evaluates the rules for the events of the queue, at most the given number of them. -/
def drainLoop (serial : Nat) : Nat → Effect (Engine ω κ) Unit
  | 0 => do
    match ← dequeue serial with
    | none => return
    | some _ => throw (.misuse .nesting)
  | n + 1 => do
    match ← dequeue serial with
    | none => return
    | some event =>
      evaluateAll handlers serial (some event.number)
      drainLoop serial n

/-- Evaluates the rules until the queue of the flow is empty, unless that is being done. -/
def drain (id : String) : Effect (Engine ω κ) Unit := do
  let serial ← serial id
  if (← state serial).draining then return
  update serial fun flow => { flow with draining := true }
  let n := remaining handlers (← get) serial
  Effect.ensuring (drainLoop handlers serial n)
    (change serial fun flow => { flow with draining := false })

/-! ### Rounds -/

/-- Performs an action in a flow, a new one if none is named, and works on the flow until no rule
has anything to do. -/
def invoke (concept action : String) (input : Value) (flow : Option String) :
    Effect (Engine ω κ) Event := do
  let id ← match flow with
    | some id => pure id
    | none => startFlow
  let event ← perform handlers concept action input id
  drain handlers id
  return event

/-- Evaluates every rule on the whole log of a flow and works on the flow until no rule has
anything to do. -/
def reevaluate (id : String) : Effect (Engine ω κ) Unit := do
  let serial ← serial id
  evaluateAll handlers serial none
  drain handlers id

end Engine

end HerdBook
