import HerdBook.Proofs.Discretion
import HerdBook.Proofs.Motions
import Mathlib.Tactic.Choose

/-!
# Two runs side by side

Two computations mirror each other on states that are related when they end alike and leave states
that are related again. The computations need not be the same: each may go by names of its own, such
as the number under which it finds what both of them work on.

A computation on an engine that uses nothing of it but the world and writes nothing but notes
besides is one on the world. It mirrors itself on all engines in one world, so it is what actions
and adapters must be that are not to tell such engines apart.

## Main definitions

* `Effect.Mirrors`: the judgement about two computations.
* `Effect.IsOnWorld`: the computation is one on the world.
* `Host.Withdraws`: a class of calls that have engines only perform actions and ask queries without
  recording anything, and so have the programs that answer them.

## Main results

* `Effect.Mirrors.bind`, `Effect.Mirrors.gather`, `Effect.Mirrors.applyAll`: computations that are
  put together from parts that mirror each other do so as well.
* `Engine.isOnWorld_answer`: answering a call of a class that withdraws is a computation on the
  world.
-/

namespace HerdBook

variable {ω κ α β σ : Type}

namespace Effect

/-- From the two states, the computations end alike and leave states that are related; their result
is as stated. -/
structure MirrorsAt (R : σ → σ → Prop) (act act' : Effect σ α) (Q : α → Prop) (s s' : σ) :
    Prop where
  same : (act'.run s').1 = (act.run s).1
  keeps : R (act.run s).2 (act'.run s').2
  result : ∀ a, (act.run s).1 = .ok a → Q a

/-- So it is from all states that are related. -/
def Mirrors (R : σ → σ → Prop) (act act' : Effect σ α) (Q : α → Prop) : Prop :=
  ∀ s s', R s s' → MirrorsAt R act act' Q s s'

section Laws

variable {R : σ → σ → Prop} {act act' : Effect σ α} {next next' : α → Effect σ β}
  {Q : α → Prop} {P : β → Prop}

namespace Mirrors

/-- An outcome without a computation. -/
theorem ofExcept {outcome : Except Fault α} (h : ∀ a, outcome = .ok a → Q a) :
    Mirrors R (Effect.ofExcept outcome) (Effect.ofExcept outcome) Q :=
  fun _ _ hs => ⟨rfl, hs, h⟩

/-- A result. -/
theorem pure {a : α} (h : Q a) :
    Mirrors R (Pure.pure a : Effect σ α) (Pure.pure a) Q :=
  fun _ _ hs => ⟨rfl, hs, fun _ ha => Except.ok.inj ha ▸ h⟩

/-- A fault. -/
theorem throw (fault : Fault) :
    Mirrors R (MonadExcept.throw fault : Effect σ α) (MonadExcept.throw fault) Q :=
  fun _ _ hs => ⟨rfl, hs, fun _ ha => absurd ha (by simp)⟩

/-- A sequence. -/
theorem bind (h : Mirrors R act act' Q) (hn : ∀ a, Q a → Mirrors R (next a) (next' a) P) :
    Mirrors R (act >>= next) (act' >>= next') P := by
  intro s s' hs
  obtain ⟨hsame, hkeeps, hresult⟩ := h s s' hs
  rcases hrun : act.run s with ⟨fault | a, t⟩ <;> rcases hrun' : act'.run s' with ⟨outcome', t'⟩ <;>
    rw [hrun, hrun'] at hsame hkeeps <;> obtain rfl : outcome' = _ := hsame
  · refine ⟨?_, ?_, ?_⟩ <;> rw [run_bind_error hrun]
    · rw [run_bind_error hrun']
    · rw [run_bind_error hrun']
      exact hkeeps
    · exact fun _ hb => absurd hb (by simp)
  · rw [hrun] at hresult
    obtain ⟨hsame', hkeeps', hresult'⟩ := hn a (hresult a rfl) t t' hkeeps
    refine ⟨?_, ?_, ?_⟩ <;> rw [run_bind_ok hrun]
    · rwa [run_bind_ok hrun']
    · rwa [run_bind_ok hrun']
    · exact hresult'

/-- Going on from an outcome. -/
theorem ofExcept_bind {outcome : Except Fault α}
    (h : ∀ a, outcome = .ok a → Mirrors R (next a) (next' a) P) :
    Mirrors R (Effect.ofExcept outcome >>= next) (Effect.ofExcept outcome >>= next') P :=
  (ofExcept fun _ ha => ha).bind h

/-- What would come after a fault does not count. -/
theorem throw_bind (fault : Fault) :
    Mirrors R ((MonadExcept.throw fault : Effect σ α) >>= next)
      ((MonadExcept.throw fault : Effect σ α) >>= next') P :=
  (throw (Q := fun _ => False) fault).bind fun _ h => h.elim

/-- Going on from something that is read, and need not be the same in both. -/
theorem read_bind {γ : Type} {read read' : Effect σ γ} {next next' : γ → Effect σ β}
    (h : ∀ s s', R s s' → ∃ c c', read.run s = (.ok c, s) ∧ read'.run s' = (.ok c', s') ∧
      Mirrors R (next c) (next' c') P) : Mirrors R (read >>= next) (read' >>= next') P := by
  intro s s' hs
  obtain ⟨c, c', hread, hread', hn⟩ := h s s' hs
  obtain ⟨hsame, hkeeps, hresult⟩ := hn s s' hs
  refine ⟨?_, ?_, ?_⟩ <;> rw [run_bind_ok hread]
  · rwa [run_bind_ok hread']
  · rwa [run_bind_ok hread']
  · exact hresult

/-- Going on from the states. -/
theorem get_bind {next next' : σ → Effect σ β}
    (h : ∀ s s', R s s' → Mirrors R (next s) (next' s') P) :
    Mirrors R (get >>= next) (get >>= next') P :=
  read_bind fun s s' hs => ⟨s, s', run_get s, run_get s', h s s' hs⟩

/-- Changes that lead from related states to related ones. -/
theorem modify {f f' : σ → σ} (h : ∀ s s', R s s' → R (f s) (f' s')) :
    Mirrors R (modify f : Effect σ PUnit) (modify f') fun _ => True :=
  fun s s' hs => ⟨rfl, h s s' hs, fun _ _ => trivial⟩

/-- The outcome as a value. -/
theorem attempt (h : Mirrors R act act' Q) :
    Mirrors R (Effect.attempt act) (Effect.attempt act') fun outcome =>
      ∀ a, outcome = .ok a → Q a := by
  intro s s' hs
  obtain ⟨hsame, hkeeps, hresult⟩ := h s s' hs
  exact ⟨congrArg Except.ok hsame, hkeeps, fun _ ho a ha => hresult a ((Except.ok.inj ho).trans ha)⟩

/-- What is done at last, whatever the outcome. -/
theorem ensuring {f f' : σ → σ} (h : Mirrors R act act' Q)
    (hl : ∀ s s', R s s' → R (f s) (f' s')) :
    Mirrors R (Effect.ensuring act f) (Effect.ensuring act' f') Q := fun s s' hs =>
  ⟨(h s s' hs).same, hl _ _ (h s s' hs).keeps, (h s s' hs).result⟩

/-- Computations that are run to their ends. -/
theorem attemptAll {each each' : β → Effect σ α} {items : List β}
    (h : ∀ b ∈ items, Mirrors R (each b) (each' b) Q) :
    Mirrors R (Effect.attemptAll each items) (Effect.attemptAll each' items) fun outcomes =>
      ∀ outcome ∈ outcomes, ∀ a, outcome = .ok a → Q a := by
  induction items with
  | nil => exact pure (by simp)
  | cons b bs ih =>
    rw [List.forall_mem_cons] at h
    exact h.1.attempt.bind fun outcome ho => (ih h.2).bind fun outcomes hos =>
      pure (List.forall_mem_cons.mpr ⟨ho, hos⟩)

/-- A wait for several computations. -/
theorem gather {wait wait' : Wait σ} {each each' : β → Effect σ α} {items : List β}
    (hb : Mirrors R wait.before wait'.before fun _ => True)
    (ha : Mirrors R wait.after wait'.after fun _ => True)
    (h : ∀ b ∈ items, Mirrors R (each b) (each' b) Q) :
    Mirrors R (Effect.gather wait each items) (Effect.gather wait' each' items) fun results =>
      ∀ a ∈ results, Q a := by
  unfold Effect.gather
  split
  · exact pure (by simp)
  · exact hb.bind fun _ _ => (attemptAll h).bind fun outcomes ho => ha.bind fun _ _ =>
      ofExcept fun _ hr => forall_mem_of_allOrFirstFault ho hr

/-- The stages of a rule, when the adapters that they ask mirror themselves and so does the wait for
them. -/
theorem applyAll {adapters : Adapters σ κ} {stages : List (Stage κ)}
    (hcall : ∀ adapter inputs outputs, .query adapter inputs outputs ∈ stages →
      ∀ args, Mirrors R (adapters.call adapter args) (adapters.call adapter args) fun _ => True)
    (hb : Mirrors R adapters.wait.before adapters.wait.before fun _ => True)
    (ha : Mirrors R adapters.wait.after adapters.wait.after fun _ => True) (frames : List Frame) :
    Mirrors R (Stage.applyAll adapters stages frames) (Stage.applyAll adapters stages frames)
      fun _ => True := by
  induction stages generalizing frames with
  | nil => exact pure trivial
  | cons stage rest ih =>
    unfold Stage.applyAll
    split
    · exact pure trivial
    have hrest := ih fun adapter inputs outputs hmem =>
      hcall adapter inputs outputs (List.mem_cons_of_mem _ hmem)
    refine bind (Q := fun _ => True) ?_ fun kept _ => hrest kept
    cases stage with
    | filter test => exact ofExcept fun _ _ => trivial
    | map change => exact ofExcept fun _ _ => trivial
    | query adapter inputs outputs =>
      have hjoin : ∀ frame, Mirrors R (Stage.joinRows adapters adapter inputs outputs frame)
          (Stage.joinRows adapters adapter inputs outputs frame) fun _ => True := by
        intro frame
        unfold Stage.joinRows Stage.callAdapter
        refine ofExcept_bind fun args _ => bind (Q := fun _ => True) ?_ fun rows _ =>
          ofExcept fun _ _ => trivial
        refine (hcall adapter inputs outputs List.mem_cons_self args).attempt.bind
          fun outcome _ => ?_
        cases outcome with
        | ok answer => exact ofExcept fun _ _ => trivial
        | error fault => exact throw _
      exact (gather hb ha fun frame _ => hjoin frame).bind fun _ _ => pure trivial

end Mirrors

end Laws

/-! ### Computations on the world -/

/-- The computation does what one on the world does, and changes nothing else of the engine, except
that it writes notes. -/
def IsOnWorld (act : Effect (Engine ω κ) α) : Prop :=
  ∃ inner : Effect ω α, ∀ engine, ∃ journal,
    act.run engine = ((inner.run engine.world).1,
      { engine with world := (inner.run engine.world).2, journal := journal })

namespace IsOnWorld

variable {act : Effect (Engine ω κ) α} {next : α → Effect (Engine ω κ) β}

/-- An outcome without a computation. -/
theorem ofExcept (outcome : Except Fault α) :
    IsOnWorld (Effect.ofExcept outcome : Effect (Engine ω κ) α) :=
  ⟨Effect.ofExcept outcome, fun engine => ⟨engine.journal, rfl⟩⟩

/-- A sequence. -/
theorem bind (h : IsOnWorld act) (hn : ∀ a, IsOnWorld (next a)) : IsOnWorld (act >>= next) := by
  obtain ⟨inner, hinner⟩ := h
  choose inner' hinner' using hn
  refine ⟨inner >>= inner', fun engine => ?_⟩
  obtain ⟨journal, hrun⟩ := hinner engine
  rcases hworld : inner.run engine.world with ⟨fault | a, world⟩ <;> rw [hworld] at hrun
  · exact ⟨journal, by rw [run_bind_error hrun, run_bind_error hworld]⟩
  · obtain ⟨journal', hrun'⟩ := hinner' a { engine with world := world, journal := journal }
    exact ⟨journal', by rw [run_bind_ok hrun, run_bind_ok hworld, hrun']⟩

/-- The outcome as a value. -/
theorem attempt (h : IsOnWorld act) : IsOnWorld (Effect.attempt act) := by
  obtain ⟨inner, hinner⟩ := h
  refine ⟨Effect.attempt inner, fun engine => ?_⟩
  obtain ⟨journal, hrun⟩ := hinner engine
  exact ⟨journal, by rw [run_attempt, run_attempt, hrun]⟩

/-- What is done to the world alone. -/
theorem inWorld (act : Effect ω α) : IsOnWorld (Engine.inWorld act : Effect (Engine ω κ) α) :=
  ⟨act, fun engine => ⟨engine.journal, rfl⟩⟩

/-- What goes by the world that is read. -/
theorem read_bind {next : ω → Effect (Engine ω κ) β} (h : ∀ world, IsOnWorld (next world)) :
    IsOnWorld (get >>= fun engine => next engine.world) := by
  choose inner hinner using h
  exact ⟨get >>= inner, fun engine => hinner engine.world engine⟩

/-- Asking for a concept. -/
theorem requireConcept (handlers : Handlers ω κ) (concept : String) :
    IsOnWorld (Engine.requireConcept handlers concept) := by
  have hasked : ∀ world, IsOnWorld (if !handlers.isRegistered world concept then
      MonadExcept.throw (.unknownAction s!"concept {concept} not registered") else pure () :
        Effect (Engine ω κ) Unit) := by
    intro world
    split
    · exact ofExcept (.error _)
    · exact ofExcept (.ok ())
  exact read_bind hasked

/-- A program, when answering the calls that it places is a computation on the world. -/
theorem program {may : EngineCall κ → Prop}
    {answer : (call : EngineCall κ) → Effect (Engine ω κ) call.Answer}
    (ha : ∀ call, may call → IsOnWorld (answer call)) {program : Program ω κ α}
    (hp : program.Places may) : IsOnWorld (program.run answer) := by
  induction hp with
  | done outcome => exact ofExcept outcome
  | read each ih => exact read_bind ih
  | @write world next rest ih =>
    obtain ⟨inner, hinner⟩ := ih
    exact ⟨set world >>= fun _ => inner, fun engine => hinner { engine with world := world }⟩
  | @note n next rest ih =>
    obtain ⟨inner, hinner⟩ := ih
    exact ⟨inner, fun engine => hinner { engine with journal := engine.journal.push n }⟩
  | request allowed each ih => exact (ha _ allowed).attempt.bind ih

end IsOnWorld

end Effect

/-! ### Calls that are not recorded -/

/-- Calls that perform an action or ask a query without recording it. -/
def EngineCall.IsUnrecorded : EngineCall κ → Prop
  | .call _ _ _ => True
  | .query _ _ _ => True
  | _ => False

/-- The calls of the class are not recorded, and the actions and queries that they ask for place
none but calls of the class. -/
structure Host.Withdraws (host : Host ω κ) (may : EngineCall κ → Prop) : Prop where
  unrecorded : ∀ call, may call → call.IsUnrecorded
  perform : ∀ concept action args, may (.call concept action args) →
    (host.perform concept action args).Places may
  query : ∀ concept name args, may (.query concept name args) →
    (host.query concept name args).Places may

/-- Answering a call of such a class is a computation on the world, however deep calls may nest. -/
theorem Engine.isOnWorld_answer {host : Host ω κ} {may : EngineCall κ → Prop}
    (hh : host.Withdraws may) (depth : Nat) {call : EngineCall κ} (hc : may call) :
    Effect.IsOnWorld (answer host depth call) := by
  induction depth generalizing call with
  | zero => exact .ofExcept (.error (.misuse .nesting))
  | succ depth ih =>
    have hcall := hh.unrecorded call hc
    cases call with
    | call concept action args =>
      exact (Effect.IsOnWorld.requireConcept _ concept).bind fun _ =>
        .program (fun _ => ih) (hh.perform concept action args hc)
    | query concept name args =>
      exact (Effect.IsOnWorld.requireConcept _ concept).bind fun _ =>
        .program (fun _ => ih) (hh.query concept name args hc)
    | _ => exact hcall.elim

end HerdBook
