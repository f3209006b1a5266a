import HerdBook.Book
import HerdBook.Script.Expression
import HerdBook.Script.Host

/-!
# Running scripts

An engine set up by a script, the steps on it, and what each of them shows: its outcome, the
scripted calls it made and the notes it wrote. There are two kinds of steps, those on an engine and
those on a collection of frames.
-/

namespace HerdBook

/-- An engine over the world of a script. -/
abbrev Rehearsal := Engine World AdapterCode

/-- What a computation shows. -/
structure Trace (α : Type) where
  outcome : Except Fault α
  calls : List (String × Value)
  notes : List Note

namespace Rehearsal

variable {α : Type}

/-- The engine with no calls and no notes to show. -/
def quiet (engine : Rehearsal) : Rehearsal :=
  { engine with journal := #[], world := { engine.world with calls := #[] } }

/-- What a computation shows, and the engine after it. -/
def observe (act : Effect Rehearsal α) (engine : Rehearsal) : Trace α × Rehearsal :=
  let (outcome, after) := act.run engine.quiet
  (⟨outcome, after.world.calls.toList, after.journal.toList⟩, after)

/-- The traces of computations that are run in order. -/
def observeAll {β : Type} (act : β → Effect Rehearsal α) : List β → Rehearsal → List (Trace α)
  | [], _ => []
  | b :: bs, engine =>
    let (trace, after) := observe (act b) engine
    trace :: observeAll act bs after

/-- Carries a step out. -/
def step (s : Step) : Effect Rehearsal Reply := Engine.execute World.host s.program

/-- Calls an adapter. -/
def adapt (adapter : AdapterCode) (args : Value) : Effect Rehearsal Value :=
  Engine.execute World.host (adapter.program args)

/-- The adapters of a script. -/
def adapters : Adapters Rehearsal AdapterCode :=
  ⟨AdapterCode.name, adapt, World.waiting.focus Engine.world Engine.withWorld⟩

/-- Registers concepts. -/
def registerConcepts (concepts : List ConceptScript) : Effect Rehearsal Unit :=
  concepts.forM fun script =>
    Engine.inWorld (World.registerScript script)

/-- Opens sessions of users by token, if they are given. -/
def openSessions (sessions : Option Fields) : Effect Rehearsal Unit :=
  match sessions with
  | none => pure ()
  | some sessions =>
    Engine.inWorld (World.openSessions sessions)

end Rehearsal

/-- What an engine is set up with. -/
structure Setup where
  maxFlowEvents : Limit
  maxRetained : Limit
  concepts : List ConceptScript
  sessions : Option Fields
  /-- The responses: concept, action and key. -/
  terminals : List (String × String × Value)
  rules : List (Rule AdapterCode)

namespace Setup

/-- The limits of an engine unless told otherwise. -/
def plain : Setup := ⟨.count 256, .count 1024, [], none, [], []⟩

/-- Sets an engine up. -/
def prepare (setup : Setup) : Effect Rehearsal Unit := do
  Rehearsal.registerConcepts setup.concepts
  Rehearsal.openSessions setup.sessions
  for (concept, action, key) in setup.terminals do
    modify (Engine.registerTerminal concept action key)
  for rule in setup.rules do
    Engine.registerRule (← Effect.ofExcept rule.checked)

/-- The engine that is set up. -/
def build (setup : Setup) : Except Fault Rehearsal :=
  let start : Rehearsal := Engine.start .empty setup.maxFlowEvents setup.maxRetained
  let (outcome, engine) := setup.prepare.run start
  outcome.map fun () => engine

end Setup

namespace Rehearsal

/-- The world with the four concepts of the herd book. -/
def bookWorld (settings : Settings) : World :=
  let kinds : List Concept.Kind := [.requests, .accounts, .herds, .animals]
  kinds.foldl
    (fun world kind =>
      world.register kind.name (.book (.start kind (.count settings.maxRetainedRequests))))
    .empty

/-- The engine of the herd book, with further concepts and with sessions. -/
def ofBook (settings : Settings) (concepts : List ConceptScript) (sessions : Option Fields) :
    Except Fault Rehearsal :=
  let act : Effect Rehearsal Unit := do
    openSessions sessions
    registerConcepts concepts
  let (outcome, engine) := act.run (Engine.ofBook settings .lookup (bookWorld settings))
  outcome.map fun () => engine

end Rehearsal

/-! ### Frames -/

/-- A step on a collection of frames. -/
inductive FramesStep where
  | stage (stage : Stage AdapterCode)
  | stages (stages : List (Stage AdapterCode))
  | append (frames : List Frame)
  | same (frames : List Frame)
  | item (index : Value)
  | describe

/-- What a step on frames comes to. -/
inductive FramesReply where
  | frames (frames : List Frame)
  | truth (b : Bool)
  | frame (frame : Frame)
  | description (size : Nat) (text : String)

namespace FramesStep

/-- The place that an index stands for in a list of the given length; a negative one counts from
the end. -/
def place (index : Value) (length : Nat) : Except Fault Nat :=
  match index.asInteger? with
  | none => .error (.misuse .type)
  | some i =>
    let place := if i < 0 then i + length else i
    if 0 ≤ place ∧ place < length then .ok place.toNat else .error (.misuse .index)

/-- What a step does to the frames. -/
def run (frames : List Frame) : FramesStep → Effect Rehearsal FramesReply
  | .stage next => do return .frames (← next.apply Rehearsal.adapters frames)
  | .stages all => do return .frames (← Stage.applyAll Rehearsal.adapters all frames)
  | .append more => return .frames (frames ++ more)
  | .same other => return .truth (Frame.sameAll frames other)
  | .item index => do
    let i ← Effect.ofExcept (place index frames.length)
    return .frame (frames[i]?.getD .empty)
  | .describe => do
    let text ← Effect.ofExcept ((Frame.textAll frames).mapError .misuse)
    return .description frames.length text

/-- The traces of steps that are run in order, each on the frames that the one before it left. A
step that fails leaves the frames as they are. -/
def runAll : List FramesStep → List Frame → Rehearsal → List (Trace FramesReply)
  | [], _, _ => []
  | step :: rest, frames, engine =>
    let (trace, after) := Rehearsal.observe (run frames step) engine
    let next :=
      match trace.outcome with
      | .ok (.frames made) => made
      | _ => frames
    trace :: runAll rest next after

end FramesStep

end HerdBook
