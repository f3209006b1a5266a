import HerdBook.Fault

/-!
# Effects

A computation that reads and changes a state and may end in a fault. The state survives the
fault: what was done before it stays done.

* `Effect.attempt` turns the fault of a computation into a value.
* `Effect.gather` runs one computation per item, each to its end whatever the others did, and
  then reports the first fault or all results. What happens meanwhile is an `Effect.Wait`.

The laws named `run_…` say what each operation does to a state; `run_bind` is the one for a
sequence.
-/

namespace HerdBook

/-- A computation over states of type `σ` that yields an `α` or a fault. -/
abbrev Effect (σ α : Type) := ExceptT Fault (StateM σ) α

namespace Effect

variable {σ α β : Type}

/-- The computation that is the given transition of states. -/
def ofStep (step : σ → Except Fault α × σ) : Effect σ α := ExceptT.mk fun s => step s

/-- The outcome and the final state of a computation. -/
def run (act : Effect σ α) (s : σ) : Except Fault α × σ := (ExceptT.run act : StateM σ _) s

/-- Runs the computation and yields its outcome, fault or not. -/
def attempt (act : Effect σ α) : Effect σ (Except Fault α) :=
  ofStep fun s => let (outcome, s') := act.run s; (.ok outcome, s')

/-- The computation that has the given outcome and changes nothing. -/
def ofExcept (outcome : Except Fault α) : Effect σ α := ofStep fun s => (outcome, s)

/-- Runs `act` and, whatever its outcome, `last` on the state it leaves. -/
def ensuring (act : Effect σ α) (last : σ → σ) : Effect σ α :=
  ofStep fun s => let (outcome, s') := act.run s; (outcome, last s')

/-- All outcomes of one computation per item, run in order. -/
def attemptAll (act : β → Effect σ α) : List β → Effect σ (List (Except Fault α))
  | [] => pure []
  | b :: bs => do
    let outcome ← attempt (act b)
    let outcomes ← attemptAll act bs
    pure (outcome :: outcomes)

/-- The first fault of a list of outcomes, or else all results. -/
def allOrFirstFault : List (Except Fault α) → Except Fault (List α)
  | [] => .ok []
  | .error fault :: _ => .error fault
  | .ok a :: rest => (allOrFirstFault rest).map (a :: ·)

/-- What happens to a state while somebody waits for several computations: before they begin, and
until all of them are known to have ended. A fault in either ends the wait. -/
structure Wait (σ : Type) where
  before : Effect σ Unit
  after : Effect σ Unit

/-- Waits for one computation per item. They are run in order, each to its end, and then the first
fault or all results are reported. Without items nothing is waited for. -/
def gather (wait : Wait σ) (act : β → Effect σ α) (items : List β) : Effect σ (List α) := do
  if items.isEmpty then return []
  wait.before
  let outcomes ← attemptAll act items
  wait.after
  ofExcept (allOrFirstFault outcomes)

/-- Runs a computation on a part of the state. -/
def focus {τ : Type} (get : σ → τ) (put : τ → σ → σ) (act : Effect τ α) : Effect σ α :=
  ofStep fun s => let (outcome, t) := act.run (get s); (outcome, put t s)

/-- The wait for a part of the state. -/
def Wait.focus {τ : Type} (get : σ → τ) (put : τ → σ → σ) (wait : Wait τ) : Wait σ :=
  ⟨.focus get put wait.before, .focus get put wait.after⟩

/-! ### What each operation does to a state -/

@[simp] theorem run_ofStep (step : σ → Except Fault α × σ) (s : σ) :
    (ofStep step).run s = step s := rfl

@[simp] theorem run_pure (a : α) (s : σ) : (pure a : Effect σ α).run s = (.ok a, s) := rfl

@[simp] theorem run_throw (fault : Fault) (s : σ) :
    (throw fault : Effect σ α).run s = (.error fault, s) := rfl

@[simp] theorem run_get (s : σ) : (get : Effect σ σ).run s = (.ok s, s) := rfl

@[simp] theorem run_set (s t : σ) : (set t : Effect σ PUnit).run s = (.ok ⟨⟩, t) := rfl

@[simp] theorem run_modify (f : σ → σ) (s : σ) :
    (modify f : Effect σ PUnit).run s = (.ok ⟨⟩, f s) := rfl

/-- A sequence runs its second part on the state that the first one leaves, unless that ended in a
fault. -/
theorem run_bind (act : Effect σ α) (next : α → Effect σ β) (s : σ) :
    (act >>= next).run s =
      match act.run s with
      | (.ok a, s') => (next a).run s'
      | (.error fault, s') => (.error fault, s') := by
  change (ExceptT.bindCont next (act.run s).1 : StateM σ _) (act.run s).2 = _
  rcases act.run s with ⟨_ | _, s'⟩ <;> rfl

@[simp] theorem run_ofExcept (outcome : Except Fault α) (s : σ) :
    (ofExcept outcome).run s = (outcome, s) := rfl

@[simp] theorem run_attempt (act : Effect σ α) (s : σ) :
    (attempt act).run s = (.ok (act.run s).1, (act.run s).2) := rfl

@[simp] theorem run_ensuring (act : Effect σ α) (last : σ → σ) (s : σ) :
    (ensuring act last).run s = ((act.run s).1, last (act.run s).2) := rfl

@[simp] theorem run_focus {τ : Type} (get : σ → τ) (put : τ → σ → σ) (act : Effect τ α) (s : σ) :
    (focus get put act).run s = ((act.run (get s)).1, put (act.run (get s)).2 s) := rfl

end Effect

end HerdBook
