import HerdBook.Effect
import HerdBook.Frame.Fill
import HerdBook.Frame.Unify

/-!
# Stages of a rule

Between the match of its patterns and its actions, a rule sends its frames through stages, in
order. A filter keeps the frames on which its test holds; a map replaces each frame by one that
binds at least the same symbols; a query joins each frame with the rows that an adapter returns
for it. Filters and maps stop at the first fault. A query calls its adapter for every frame it can
fill its arguments for, and only then reports the first fault.

Adapters are named by a type of codes `κ`; what calling one does is a parameter.
-/

namespace HerdBook

/-- A stage of a rule, over adapter codes `κ`. -/
inductive Stage (κ : Type) where
  | filter (test : Frame → Except Fault Bool)
  | map (change : Frame → Except Fault Frame)
  | query (adapter : κ) (inputs outputs : Value)

instance {κ : Type} : Inhabited (Stage κ) := ⟨.filter fun _ => .ok true⟩

/-- What the codes of adapters stand for: a name for messages, and what a call does and
returns; and what happens while a query waits for the calls. -/
structure Adapters (σ κ : Type) where
  name : κ → String
  call : κ → Value → Effect σ Value
  wait : Effect.Wait σ

namespace Stage

variable {σ κ : Type}

/-- The frames on which the test holds, in order. -/
def keep (test : Frame → Except Fault Bool) : List Frame → Except Fault (List Frame)
  | [] => .ok []
  | frame :: rest => do
    let holds ← test frame
    let kept ← keep test rest
    return if holds then frame :: kept else kept

/-- The frame that a change makes of one frame; dropping a symbol is a fault. -/
def changeOne (change : Frame → Except Fault Frame) (frame : Frame) : Except Fault Frame := do
  let changed ← change frame
  let missing := frame.symbols.filter fun s => !changed.binds s
  if missing.isEmpty then return changed else .error (.dropped (missing.map Symbol.text))

/-- The frames that a change makes of each frame, in order. -/
def changeAll (change : Frame → Except Fault Frame) : List Frame → Except Fault (List Frame)
  | [] => .ok []
  | frame :: rest => do
    let changed ← changeOne change frame
    let others ← changeAll change rest
    return changed :: others

/-- The rows among the items an adapter returned; an item that is no row is a fault. -/
def rowsOfItems (name : String) : List Value → Except Fault (List Fields)
  | [] => .ok []
  | .object fields :: rest => do return fields :: (← rowsOfItems name rest)
  | other :: _ =>
    let kind := other.kindName
    .error (.failed .adapter s!"adapter {name} returned a {kind} row" none)

/-- The rows an adapter returned; anything but a list of rows is a fault. -/
def rowsOf (name : String) (answer : Value) : Except Fault (List Fields) :=
  match answer.items? with
  | some items => rowsOfItems name items
  | none =>
    let kind := answer.kindName
    .error (.failed .adapter s!"adapter {name} returned {kind}, expected a list of rows" none)

/-- Calls an adapter and yields its rows. A fault of the engine passes, any other is wrapped. -/
def callAdapter (adapters : Adapters σ κ) (adapter : κ) (args : Value) :
    Effect σ (List Fields) := do
  match ← Effect.attempt (adapters.call adapter args) with
  | .ok answer => Effect.ofExcept (rowsOf (adapters.name adapter) answer)
  | .error fault => throw (fault.wrappedBy .adapter (adapters.name adapter))

/-- The frames in which one frame continues: one for each row that the pattern matches. Fields a
row does not hold leave their symbols unbound. -/
def matchRows (frame : Frame) (outputs : Value) : List Fields → Except Misuse (List Frame)
  | [] => .ok []
  | row :: rest => do
    let here ← frame.unifyValue? .optional outputs (.object row)
    let others ← matchRows frame outputs rest
    return here.toList ++ others

/-- Calls an adapter for one frame and yields the frames in which it continues. -/
def joinRows (adapters : Adapters σ κ) (adapter : κ) (inputs outputs : Value) (frame : Frame) :
    Effect σ (List Frame) := do
  let args ← Effect.ofExcept (inputs.fill frame)
  let rows ← callAdapter adapters adapter args
  Effect.ofExcept ((matchRows frame outputs rows).mapError Fault.misuse)

/-- What a stage makes of the frames. -/
def apply (adapters : Adapters σ κ) (frames : List Frame) : Stage κ → Effect σ (List Frame)
  | .filter test => Effect.ofExcept ((keep test frames).mapError Fault.onLeaving)
  | .map change => Effect.ofExcept ((changeAll change frames).mapError Fault.onLeaving)
  | .query adapter inputs outputs => do
    let joined ← Effect.gather adapters.wait (joinRows adapters adapter inputs outputs) frames
    return joined.flatten

/-- What a list of stages makes of the frames, each stage on what the one before it left; without
frames the stages that remain are not run. -/
def applyAll (adapters : Adapters σ κ) : List (Stage κ) → List Frame → Effect σ (List Frame)
  | [], frames => pure frames
  | stage :: rest, frames =>
    if frames.isEmpty then pure frames
    else do applyAll adapters rest (← stage.apply adapters frames)

end Stage

end HerdBook
