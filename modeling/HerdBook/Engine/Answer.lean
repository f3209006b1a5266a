import HerdBook.Engine.Program
import HerdBook.Engine.Round

/-!
# Answering engine calls

A `Host` says what concepts and adapters there are, as programs over the engine. Since these
programs may call the engine, whose answer may run further programs, the answer is defined by the
depth to which calls may nest (`Engine.answer`); at depth zero a call ends in a fault.
-/

namespace HerdBook

/-- The concepts and adapters that an engine works with. -/
structure Host (ω κ : Type) where
  /-- Whether there is a concept of that name. -/
  isRegistered : ω → String → Bool
  /-- What an action of a concept does and answers. -/
  perform : String → String → Value → Program ω κ Value
  /-- What a query of a concept does and answers. -/
  query : String → String → Value → Program ω κ Value
  /-- The name of an adapter in messages. -/
  adapterName : κ → String
  /-- What an adapter does and returns. -/
  adapt : κ → Value → Program ω κ Value
  /-- What happens to the world while the engine waits. -/
  wait : Effect.Wait ω

namespace Host

variable {ω κ : Type} (host : Host ω κ)

/-- The handlers of an engine whose programs' calls are answered as given. -/
def handlers (answer : (call : EngineCall κ) → Effect (Engine ω κ) call.Answer)
    (reentries : Nat) : Handlers ω κ where
  isRegistered := host.isRegistered
  perform concept action input := (host.perform concept action (.object input)).run answer
  adapterName := host.adapterName
  adapt adapter args := (host.adapt adapter args).run answer
  wait := host.wait
  reentries := reentries

end Host

namespace Engine

variable {ω κ : Type}

/-- How the engine answers a call, given how it answers the calls that are placed meanwhile. -/
def answerWith (host : Host ω κ)
    (inner : (call : EngineCall κ) → Effect (Engine ω κ) call.Answer) (depth : Nat) :
    (call : EngineCall κ) → Effect (Engine ω κ) call.Answer
  | .invoke concept action input flow =>
    invoke (host.handlers inner depth) concept action input flow
  | .reevaluate flow => reevaluate (host.handlers inner depth) flow
  | .call concept action args => do
    requireConcept (host.handlers inner depth) concept
    (host.perform concept action args).run inner
  | .query concept name args => do
    requireConcept (host.handlers inner depth) concept
    (host.query concept name args).run inner
  | .startFlow => startFlow
  | .endFlow flow => modify (endFlow flow)
  | .log flow => do return (← Engine.flow flow).log
  | .faults flow => do return (← Engine.flow flow).faults
  | .flows => do return (← get).flowIds
  | .rules => do return (← get).rules.map Rule.name
  | .registerRule rule => do registerRule (← Effect.ofExcept rule.checked)
  | .registerTerminal concept action key => modify (registerTerminal concept action key)

/-- How the engine answers a call when calls may nest to the given depth. -/
def answer (host : Host ω κ) : Nat → (call : EngineCall κ) → Effect (Engine ω κ) call.Answer
  | 0, _ => throw (.misuse .nesting)
  | depth + 1, call => answerWith host (answer host depth) depth call

/-- The depth to which calls may nest. -/
def nesting : Nat := 1000

/-- Carries a program out on an engine. -/
def execute {α : Type} (host : Host ω κ) (program : Program ω κ α) : Effect (Engine ω κ) α :=
  program.run (answer host nesting)

end Engine

end HerdBook
