import HerdBook.Engine.Basic

/-!
# Programs over an engine

An action of a concept, or an adapter, may do three things: read and change the world, write notes,
and use the engine it runs under. A `Program` spells out such a computation as a tree, so that what
it may do to the engine can be read off it: all it can do is to place an `EngineCall`. Placing one
never ends a program; the outcome is handed on, fault or not, and the program may go on after
either.

`Program.run` carries a program out, given how engine calls are answered. A program without engine
calls (`Program.IsLocal`) changes the world and the journal of the engine and nothing else
(`Program.IsLocal.run_engine`).
-/

namespace HerdBook

/-- What can be asked of an engine. -/
inductive EngineCall (κ : Type) where
  /-- Performs an action, records it, and works on the flow. -/
  | invoke (concept action : String) (input : Value) (flow : Option String)
  /-- Evaluates every rule on the whole log of a flow. -/
  | reevaluate (flow : String)
  /-- Performs an action without recording it. -/
  | call (concept action : String) (args : Value)
  /-- Asks a query of a concept. -/
  | query (concept name : String) (args : Value)
  | startFlow
  | endFlow (flow : String)
  | log (flow : String)
  | faults (flow : String)
  | flows
  | rules
  | registerRule (rule : Rule κ)
  | registerTerminal (concept action : String) (key : Value)

/-- What the engine answers to a call. -/
def EngineCall.Answer {κ : Type} : EngineCall κ → Type
  | .invoke _ _ _ _ => Event
  | .reevaluate _ => Unit
  | .call _ _ _ => Value
  | .query _ _ _ => Value
  | .startFlow => String
  | .endFlow _ => Unit
  | .log _ => List Event
  | .faults _ => List FlowFault
  | .flows => List String
  | .rules => List String
  | .registerRule _ => Unit
  | .registerTerminal _ _ _ => Unit

/-- A computation that yields an `α` or a fault. -/
inductive Program (ω κ α : Type) where
  | done (outcome : Except Fault α)
  | read (next : ω → Program ω κ α)
  | write (world : ω) (next : Program ω κ α)
  | note (n : Note) (next : Program ω κ α)
  | request (call : EngineCall κ) (next : Except Fault call.Answer → Program ω κ α)

namespace Program

variable {ω κ α β : Type}

/-- Continues with the outcome of a program. -/
def attemptThen (next : Except Fault α → Program ω κ β) : Program ω κ α → Program ω κ β
  | .done outcome => next outcome
  | .read more => .read fun world => (more world).attemptThen next
  | .write world more => .write world (more.attemptThen next)
  | .note n more => .note n (more.attemptThen next)
  | .request call more => .request call fun reply => (more reply).attemptThen next

/-- Continues with the result of a program; a fault ends it. -/
def andThen (program : Program ω κ α) (next : α → Program ω κ β) : Program ω κ β :=
  program.attemptThen fun outcome =>
    match outcome with
    | .ok a => next a
    | .error fault => .done (.error fault)

instance : Monad (Program ω κ) where
  pure a := .done (.ok a)
  bind := andThen

/-- The program that ends in a fault. -/
def fail (fault : Fault) : Program ω κ α := .done (.error fault)

/-- The program with the given outcome. -/
def ofExcept (outcome : Except Fault α) : Program ω κ α := .done outcome

/-- A function of the world. -/
def reading (f : ω → α) : Program ω κ α := .read fun world => .done (.ok (f world))

/-- The program that does what an effect on the world does. -/
def ofEffect (act : Effect ω α) : Program ω κ α :=
  .read fun world => .write (act.run world).2 (.done (act.run world).1)

/-- The program that asks the engine and passes its answer on. -/
def ask (call : EngineCall κ) : Program ω κ call.Answer := .request call .done

/-- Fails when an argument has the name of a parameter of the call itself. -/
def requireFree (parameters : List String) (args : Fields) : Program ω κ Unit :=
  if args.any fun entry => parameters.contains entry.1 then fail (.misuse .type) else pure ()

/-- Performs an action without recording it. The arguments are passed by name, next to the
parameters of the call itself. -/
def call (concept action : String) (args : Fields) : Program ω κ Value := do
  requireFree ["self", "concept", "action"] args
  ask (.call concept action (.object args))

/-- Asks a query of a concept, with arguments by name as for `Program.call`. -/
def query (concept name : String) (args : Fields) : Program ω κ Value := do
  requireFree ["self", "concept", "qname"] args
  ask (.query concept name (.object args))

/-- The program with its fault as it leaves a computation that others wait for. -/
def leaving (program : Program ω κ α) : Program ω κ α :=
  program.attemptThen fun outcome => .done (outcome.mapError Fault.onLeaving)

/-- Writes lines to the log. -/
def notes : List Note → Program ω κ Unit
  | [] => pure ()
  | n :: rest => .note n (notes rest)

/-- Runs the programs in order, each to its end, and stops at the first fault. -/
def inTurn : List (Program ω κ α) → Program ω κ Unit
  | [] => pure ()
  | program :: rest => program.andThen fun _ => inTurn rest

/-- Carries a program out, given how the engine answers. -/
def run (answer : (call : EngineCall κ) → Effect (Engine ω κ) call.Answer) :
    Program ω κ α → Effect (Engine ω κ) α
  | .done outcome => Effect.ofExcept outcome
  | .read next => do run answer (next (← get).world)
  | .write world next => do
    modify fun engine => { engine with world := world }
    run answer next
  | .note n next => do
    Engine.note n
    run answer next
  | .request call next => do run answer (next (← Effect.attempt (answer call)))

/-- A program that does not use the engine. -/
inductive IsLocal : Program ω κ α → Prop where
  | done (outcome : Except Fault α) : IsLocal (.done outcome)
  | read {next : ω → Program ω κ α} (each : ∀ world, IsLocal (next world)) : IsLocal (.read next)
  | write {world : ω} {next : Program ω κ α} (rest : IsLocal next) : IsLocal (.write world next)
  | note {n : Note} {next : Program ω κ α} (rest : IsLocal next) : IsLocal (.note n next)

/-- A local program that goes on locally whatever its outcome is local. -/
theorem IsLocal.attemptThen {program : Program ω κ α} (h : IsLocal program)
    {next : Except Fault α → Program ω κ β} (each : ∀ outcome, IsLocal (next outcome)) :
    IsLocal (program.attemptThen next) := by
  induction h with
  | done outcome => exact each outcome
  | read _ ih => exact .read ih
  | write _ ih => exact .write ih
  | note _ ih => exact .note ih

/-- A local program that goes on locally after its result is local. -/
theorem IsLocal.andThen {program : Program ω κ α} (h : IsLocal program)
    {next : α → Program ω κ β} (each : ∀ a, IsLocal (next a)) :
    IsLocal (program.andThen next) :=
  h.attemptThen fun outcome =>
    match outcome with
    | .ok a => each a
    | .error _ => .done _

/-- A local program leaves everything of the engine but the world and the journal as it is. -/
theorem IsLocal.run_engine {program : Program ω κ α} (h : IsLocal program)
    (answer : (call : EngineCall κ) → Effect (Engine ω κ) call.Answer) (engine : Engine ω κ) :
    ∃ world journal,
      ((program.run answer).run engine).2
        = { engine with world := world, journal := journal } := by
  induction h generalizing engine with
  | done outcome => exact ⟨engine.world, engine.journal, rfl⟩
  | read _ ih => exact ih engine.world engine
  | write _ ih => exact ih { engine with world := _ }
  | note _ ih => exact ih { engine with journal := engine.journal.push _ }

/-- An effect on the world uses no engine. -/
theorem isLocal_ofEffect (act : Effect ω α) : IsLocal (ofEffect act : Program ω κ α) :=
  .read fun _ => .write (.done _)

end Program

end HerdBook
