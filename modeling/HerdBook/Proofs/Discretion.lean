import HerdBook.Proofs.Containment
import HerdBook.Proofs.Programs

/-!
# Discretion

A computation ignores a part of the state when it runs alike whatever that part is: its outcome is
the same, and so is all that it does to the rest. This is a statement about two runs, and it goes
together with what is known of the states of the one, since what is done depends on them.

* `Effect.Ignores`: the judgement, for any change of the state.
* `Veil`: the judgement for an engine that works on a flow, where the secret is a part of the world.

## Main results

* `Effect.Ignores.bind`, `Effect.Ignores.attempt`, `Effect.Ignores.gather`: computations that are
  put together ignore what their parts ignore.
* `Effect.Ignores.attemptThen`, `Effect.Ignores.andThen`: so do programs.
* `Veil.keeps_drain`: a round ignores the secret when every rule does, on what is known of the log.
-/

namespace HerdBook

variable {ω κ α β σ : Type}

namespace Effect

/-- From the state, the computation ends alike when `f` has changed the state before, but for that
change; it leaves a state as described, and its result is as stated. -/
structure IgnoresAt (f : σ → σ) (P : σ → Prop) (act : Effect σ α) (Q : α → Prop) (s : σ) :
    Prop where
  same : act.run (f s) = ((act.run s).1, f (act.run s).2)
  keeps : P (act.run s).2
  result : ∀ a, (act.run s).1 = .ok a → Q a

/-- So it is from all states that are as described. -/
def Ignores (f : σ → σ) (P : σ → Prop) (act : Effect σ α) (Q : α → Prop) : Prop :=
  ∀ s, P s → IgnoresAt f P act Q s

section Laws

variable {f : σ → σ} {P P' : σ → Prop} {act : Effect σ α} {next : α → Effect σ β} {Q Q' : α → Prop}
  {R : β → Prop} {s : σ}

/-- An outcome without a computation. -/
theorem Ignores.ofExcept {outcome : Except Fault α} (h : ∀ a, outcome = .ok a → Q a) :
    Ignores f P (Effect.ofExcept outcome) Q :=
  fun _ hs => ⟨rfl, hs, h⟩

/-- A result. -/
theorem Ignores.pure {a : α} (h : Q a) : Ignores f P (Pure.pure a : Effect σ α) Q :=
  fun _ hs => ⟨rfl, hs, fun _ ha => Except.ok.inj ha ▸ h⟩

/-- A fault. -/
theorem Ignores.throw (fault : Fault) :
    Ignores f P (MonadExcept.throw fault : Effect σ α) Q :=
  fun _ hs => ⟨rfl, hs, fun _ ha => absurd ha (by simp)⟩

/-- Less may be said of what is left, and of the result. -/
theorem IgnoresAt.weaken (h : IgnoresAt f P act Q s) (hP : ∀ s, P s → P' s) (hQ : ∀ a, Q a → Q' a) :
    IgnoresAt f P' act Q' s :=
  ⟨h.same, hP _ h.keeps, fun a ha => hQ a (h.result a ha)⟩

/-- What is known of the state that is left. -/
theorem Ignores.keeps_of_run (h : Ignores f P act Q) (hs : P s) {outcome : Except Fault α} {t : σ}
    (hrun : act.run s = (outcome, t)) : P t := by
  have hkeeps := (h s hs).keeps
  rwa [hrun] at hkeeps

/-- Less may be said of the result. -/
theorem Ignores.weaken (h : Ignores f P act Q) (hQ : ∀ a, Q a → Q' a) : Ignores f P act Q' :=
  fun s hs => (h s hs).weaken (fun _ h => h) hQ

/-- A sequence. What is known of the states may change on the way. -/
theorem IgnoresAt.bind (h : IgnoresAt f P act Q s)
    (hn : ∀ a t, act.run s = (.ok a, t) → IgnoresAt f P' (next a) R t)
    (hP : ∀ t, P t → P' t) : IgnoresAt f P' (act >>= next) R s := by
  obtain ⟨hsame, hkeeps, -⟩ := h
  rcases hrun : act.run s with ⟨fault | a, t⟩ <;> rw [hrun] at hsame hkeeps
  · refine ⟨?_, ?_, ?_⟩
    · rw [run_bind_error hsame, run_bind_error hrun]
    · rw [run_bind_error hrun]
      exact hP _ hkeeps
    · rw [run_bind_error hrun]
      exact fun _ hb => absurd hb (by simp)
  · obtain ⟨hsame', hkeeps', hresult'⟩ := hn a t hrun
    refine ⟨?_, ?_, ?_⟩
    · rw [run_bind_ok hsame, run_bind_ok hrun]
      exact hsame'
    · rw [run_bind_ok hrun]
      exact hkeeps'
    · rw [run_bind_ok hrun]
      exact hresult'

/-- A sequence. -/
theorem Ignores.bind (h : Ignores f P act Q) (hn : ∀ a, Q a → Ignores f P (next a) R) :
    Ignores f P (act >>= next) R := by
  refine fun s hs => (h s hs).bind (fun a t hrun => ?_) fun _ h => h
  obtain ⟨-, hkeeps, hresult⟩ := h s hs
  rw [hrun] at hkeeps hresult
  exact hn a (hresult a rfl) t hkeeps

/-- Going on from an outcome. -/
theorem Ignores.ofExcept_bind {outcome : Except Fault α}
    (h : ∀ a, outcome = .ok a → Ignores f P (next a) R) :
    Ignores f P (Effect.ofExcept outcome >>= next) R :=
  (Ignores.ofExcept fun _ ha => ha).bind h

/-- What would come after a fault does not count. -/
theorem Ignores.throw_bind (fault : Fault) :
    Ignores f P ((MonadExcept.throw fault : Effect σ α) >>= next) R :=
  (Ignores.throw (Q := fun _ => False) fault).bind fun _ h => h.elim

/-- Going on from the state: what is done must be the same for what `f` makes of it. -/
theorem Ignores.get_bind {next : σ → Effect σ β}
    (h : ∀ s, P s → next (f s) = next s ∧ Ignores f P (next s) R) :
    Ignores f P (get >>= next) R := by
  intro s hs
  obtain ⟨hnext, hn⟩ := h s hs
  obtain ⟨hsame, hkeeps, hresult⟩ := hn s hs
  refine ⟨?_, ?_, ?_⟩
  · rw [run_bind_ok (run_get _), run_bind_ok (run_get _), hnext]
    exact hsame
  · rw [run_bind_ok (run_get _)]
    exact hkeeps
  · rw [run_bind_ok (run_get _)]
    exact hresult

/-- A change of the state that is made alike. -/
theorem Ignores.modify {g : σ → σ} (h : ∀ s, P s → g (f s) = f (g s) ∧ P (g s)) :
    Ignores f P (modify g : Effect σ PUnit) fun _ => True :=
  fun s hs => ⟨congrArg (Prod.mk _) (h s hs).1, (h s hs).2, fun _ _ => trivial⟩

/-- The outcome as a value. -/
theorem Ignores.attempt (h : Ignores f P act Q) :
    Ignores f P (Effect.attempt act) fun outcome => ∀ a, outcome = .ok a → Q a := by
  intro s hs
  obtain ⟨hsame, hkeeps, hresult⟩ := h s hs
  refine ⟨?_, hkeeps, fun outcome ho a ha => hresult a ((Except.ok.inj ho).trans ha)⟩
  rw [run_attempt, run_attempt, hsame]

/-- What is done at last, whatever the outcome. -/
theorem Ignores.ensuring {last : σ → σ} (h : Ignores f P act Q)
    (hl : ∀ s, P s → last (f s) = f (last s) ∧ P (last s)) : Ignores f P (ensuring act last) Q := by
  intro s hs
  obtain ⟨hsame, hkeeps, hresult⟩ := h s hs
  refine ⟨?_, (hl _ hkeeps).2, hresult⟩
  rw [run_ensuring, run_ensuring, hsame]
  exact congrArg (Prod.mk _) (hl _ hkeeps).1

/-- All results are as stated when each is. -/
theorem forall_mem_of_allOrFirstFault {outcomes : List (Except Fault α)}
    (h : ∀ outcome ∈ outcomes, ∀ a, outcome = .ok a → Q a) {results : List α}
    (hr : allOrFirstFault outcomes = .ok results) : ∀ a ∈ results, Q a := by
  induction outcomes generalizing results with
  | nil =>
    obtain rfl : [] = results := Except.ok.inj hr
    simp
  | cons outcome rest ih =>
    rw [List.forall_mem_cons] at h
    cases outcome with
    | error fault => cases hr
    | ok a =>
      rw [allOrFirstFault] at hr
      cases hrest : allOrFirstFault rest with
      | error fault =>
        rw [hrest] at hr
        cases hr
      | ok others =>
        rw [hrest] at hr
        obtain rfl : a :: others = results := Except.ok.inj hr
        exact List.forall_mem_cons.mpr ⟨h.1 a rfl, ih h.2 hrest⟩

/-- Computations that are run to their ends. -/
theorem Ignores.attemptAll {each : β → Effect σ α} {items : List β}
    (h : ∀ b ∈ items, Ignores f P (each b) Q) :
    Ignores f P (Effect.attemptAll each items) fun outcomes =>
      ∀ outcome ∈ outcomes, ∀ a, outcome = .ok a → Q a := by
  induction items with
  | nil => exact .pure (by simp)
  | cons b bs ih =>
    rw [List.forall_mem_cons] at h
    exact h.1.attempt.bind fun outcome ho => (ih h.2).bind fun outcomes hos =>
      .pure (List.forall_mem_cons.mpr ⟨ho, hos⟩)

/-- A wait for several computations. -/
theorem Ignores.gather {wait : Wait σ} {each : β → Effect σ α} {items : List β}
    (hb : Ignores f P wait.before fun _ => True) (ha : Ignores f P wait.after fun _ => True)
    (h : ∀ b ∈ items, Ignores f P (each b) Q) :
    Ignores f P (Effect.gather wait each items) fun results => ∀ a ∈ results, Q a := by
  unfold Effect.gather
  split
  · exact .pure (by simp)
  · exact hb.bind fun _ _ => (Ignores.attemptAll h).bind fun outcomes ho => ha.bind fun _ _ =>
      .ofExcept fun _ hr => forall_mem_of_allOrFirstFault ho hr

/-- Asking for a concept that is registered on the one side when it is on the other. -/
theorem Ignores.requireConcept {f : Engine ω κ → Engine ω κ} {P : Engine ω κ → Prop}
    {handlers : Handlers ω κ} {concept : String}
    (h : ∀ engine, P engine → handlers.isRegistered (f engine).world concept
      = handlers.isRegistered engine.world concept) :
    Ignores f P (Engine.requireConcept handlers concept) fun _ => True := by
  unfold Engine.requireConcept
  refine .get_bind fun engine hs => ⟨by rw [h engine hs], ?_⟩
  split
  · exact .throw _
  · exact .pure trivial

end Laws

/-! ### Programs -/

section Programs

variable {f : Engine ω κ → Engine ω κ} {P P' : Engine ω κ → Prop} {engine : Engine ω κ}
  {answer : (call : EngineCall κ) → Effect (Engine ω κ) call.Answer} {program : Program ω κ α}
  {Q : α → Prop} {R : β → Prop}

/-- A program that goes on with an outcome. What is known of the engine may change on the way. -/
theorem IgnoresAt.attemptThen {next : Except Fault α → Program ω κ β}
    (h : IgnoresAt f P (program.run answer) Q engine)
    (hn : ∀ outcome t, (program.run answer).run engine = (outcome, t) →
      IgnoresAt f P' ((next outcome).run answer) R t) :
    IgnoresAt f P' ((program.attemptThen next).run answer) R engine := by
  obtain ⟨hsame', hkeeps', hresult'⟩ := hn _ _ rfl
  refine ⟨?_, ?_, ?_⟩
  · rw [Program.run_attemptThen, Program.run_attemptThen, h.same]
    exact hsame'
  · rw [Program.run_attemptThen]
    exact hkeeps'
  · rw [Program.run_attemptThen]
    exact hresult'

/-- A program that goes on with an outcome. -/
theorem Ignores.attemptThen {next : Except Fault α → Program ω κ β}
    (h : Ignores f P (program.run answer) Q)
    (hn : ∀ outcome, (∀ a, outcome = .ok a → Q a) →
      Ignores f P ((next outcome).run answer) R) :
    Ignores f P ((program.attemptThen next).run answer) R := by
  refine fun engine hs => (h engine hs).attemptThen fun outcome t hrun => ?_
  obtain ⟨-, hkeeps, hresult⟩ := h engine hs
  rw [hrun] at hkeeps hresult
  exact hn outcome hresult t hkeeps

/-- A program that goes on after a success. What is known of the engine may change on the way. -/
theorem IgnoresAt.andThen {next : α → Program ω κ β}
    (h : IgnoresAt f P (program.run answer) Q engine)
    (hn : ∀ a t, (program.run answer).run engine = (.ok a, t) →
      IgnoresAt f P' ((next a).run answer) R t)
    (hP : ∀ t, P t → P' t) : IgnoresAt f P' ((program >>= next).run answer) R engine := by
  refine h.attemptThen fun outcome t hrun => ?_
  cases outcome with
  | ok a => exact hn a t hrun
  | error fault =>
    have hkeeps := h.keeps
    rw [hrun] at hkeeps
    exact ⟨rfl, hP t hkeeps, fun _ hb => absurd hb (by simp [Program.run])⟩

/-- A program that goes on after a success. -/
theorem Ignores.andThen {next : α → Program ω κ β} (h : Ignores f P (program.run answer) Q)
    (hn : ∀ a, Q a → Ignores f P ((next a).run answer) R) :
    Ignores f P ((program >>= next).run answer) R := by
  refine h.attemptThen fun outcome ho => ?_
  cases outcome with
  | ok a => exact hn a (ho a rfl)
  | error fault => exact .throw fault

/-- A program that goes on with something of the world that is the same for what `f` makes of it. -/
theorem Ignores.reading_bind {g : ω → α} {next : α → Program ω κ β}
    (h : ∀ engine, P engine → g (f engine).world = g engine.world ∧
      Ignores f P ((next (g engine.world)).run answer) R) :
    Ignores f P ((Program.reading g >>= next).run answer) R := by
  intro engine hs
  obtain ⟨hg, hn⟩ := h engine hs
  obtain ⟨hsame, hkeeps, hresult⟩ := hn engine hs
  refine ⟨?_, hkeeps, hresult⟩
  change ((next (g (f engine).world)).run answer).run (f engine) = _
  rw [hg]
  exact hsame

/-- What the engine answers is what a program gets that asks it. -/
theorem Ignores.ask {call : EngineCall κ} {Q : call.Answer → Prop}
    (h : Ignores f P (answer call) Q) :
    Ignores f P ((Program.ask call).run answer) Q :=
  h.attempt.bind fun _ ho => .ofExcept ho

/-- Lines that are written. -/
theorem Ignores.notes (h : ∀ engine n, P engine →
      (Engine.note n).run (f engine) = (.ok (), f ((Engine.note n).run engine).2) ∧
        P ((Engine.note n).run engine).2) (lines : List Note) :
    Ignores f P ((Program.notes lines : Program ω κ Unit).run answer) fun _ => True := by
  induction lines with
  | nil => exact .pure trivial
  | cons n rest ih =>
    have hnote : Ignores f P (Engine.note n) fun _ => True :=
      fun engine hs => ⟨(h engine n hs).1, (h engine n hs).2, fun _ _ => trivial⟩
    exact hnote.bind fun _ _ => ih

/-- Arguments under names that are free. -/
theorem Ignores.requireFree (parameters : List String) (args : Fields) :
    Ignores f P ((Program.requireFree parameters args : Program ω κ Unit).run answer)
      fun _ => True := by
  unfold Program.requireFree
  split
  · exact .throw _
  · exact .pure trivial

end Programs

end Effect

open Effect

/-- What is secret in a world, and what is known of an engine while it works on a flow. -/
structure Veil (ω κ : Type) where
  /-- Puts something else in place of the secret. -/
  hide : ω → ω
  fine : ω → Prop
  rules : List (Rule κ)
  /-- What is known of every event of the flow. -/
  known : Event → Prop
  id : String
  serial : Nat

namespace Veil

variable {veil : Veil ω κ} {engine : Engine ω κ} {post : α → Prop}

/-- The engine with something else in place of the secret. -/
def conceal (veil : Veil ω κ) (engine : Engine ω κ) : Engine ω κ :=
  engine.withWorld (veil.hide engine.world)

/-- What is known of the engine. -/
structure Holds (veil : Veil ω κ) (engine : Engine ω κ) : Prop where
  rules : engine.rules = veil.rules
  fine : veil.fine engine.world
  flow : ∃ flow, engine.Hosts veil.id veil.serial flow ∧ ∀ event ∈ flow.log, veil.known event

/-- The computation keeps the secret, and what is known of the engine. -/
abbrev Keeps (veil : Veil ω κ) (act : Effect (Engine ω κ) α) (post : α → Prop) : Prop :=
  Ignores veil.conceal veil.Holds act post

/-- Going on from the state of the flow. -/
theorem keeps_state_bind {next : Flow → Effect (Engine ω κ) α}
    (h : ∀ flow : Flow, flow.id = veil.id → (∀ event ∈ flow.log, veil.known event) →
      veil.Keeps (next flow) post) :
    veil.Keeps (Engine.state veil.serial >>= next) post := by
  intro engine hs
  obtain ⟨flow, hf, hlog⟩ := hs.flow
  have hf' : (veil.conceal engine).Hosts veil.id veil.serial flow :=
    ⟨hf.retained, hf.state, hf.named⟩
  obtain ⟨hsame, hkeeps, hresult⟩ := h flow hf.named hlog engine hs
  refine ⟨?_, ?_, ?_⟩
  · rw [run_bind_ok hf'.run_state, run_bind_ok hf.run_state]
    exact hsame
  · rw [run_bind_ok hf.run_state]
    exact hkeeps
  · rw [run_bind_ok hf.run_state]
    exact hresult

/-- A change of the flow, of which as much is known afterwards. -/
theorem Holds.change (hs : veil.Holds engine) {f : Flow → Flow}
    (hid : ∀ flow, (f flow).id = flow.id)
    (hlog : ∀ flow : Flow, (∀ event ∈ flow.log, veil.known event) → flow.id = veil.id →
      ∀ event ∈ (f flow).log, veil.known event) :
    veil.Holds (engine.change veil.serial f) := by
  obtain ⟨flow, hf, hknown⟩ := hs.flow
  exact ⟨hs.rules, hs.fine, f flow, (hf.change (hid flow)).1, hlog flow hknown hf.named⟩

/-- A change of the flow. -/
theorem keeps_update {f : Flow → Flow} (hid : ∀ flow, (f flow).id = flow.id)
    (hlog : ∀ flow : Flow, (∀ event ∈ flow.log, veil.known event) → flow.id = veil.id →
      ∀ event ∈ (f flow).log, veil.known event) :
    veil.Keeps (Engine.update veil.serial f) fun _ => True :=
  .modify fun _ hs => ⟨rfl, hs.change hid hlog⟩

/-- A line that is written. -/
theorem keeps_note (n : Note) : veil.Keeps (Engine.note n) fun _ => True :=
  .modify fun _ hs => ⟨rfl, hs.rules, hs.fine,
    hs.flow.imp fun _ hf => ⟨⟨hf.1.retained, hf.1.state, hf.1.named⟩, hf.2⟩⟩

/-- An effect on the world. -/
theorem keeps_world {act : Effect ω α} {post : α → Prop}
    (h : Ignores veil.hide veil.fine act post) :
    veil.Keeps (Effect.focus Engine.world Engine.withWorld act) post := by
  intro engine hs
  obtain ⟨hsame, hkeeps, hresult⟩ := h engine.world hs.fine
  refine ⟨?_, ⟨hs.rules, hkeeps,
    hs.flow.imp fun _ hf => ⟨⟨hf.1.retained, hf.1.state, hf.1.named⟩, hf.2⟩⟩, hresult⟩
  rw [run_focus, run_focus]
  change ((act.run (veil.hide engine.world)).1,
    Engine.withWorld (act.run (veil.hide engine.world)).2 (veil.conceal engine)) = _
  rw [hsame]
  rfl

/-- The handlers tell which concepts are registered, and wait, without the secret. -/
structure Admits (veil : Veil ω κ) (handlers : Handlers ω κ) : Prop where
  isRegistered : ∀ world name, veil.fine world →
    handlers.isRegistered (veil.hide world) name = handlers.isRegistered world name
  before : Ignores veil.hide veil.fine handlers.wait.before fun _ => True
  after : Ignores veil.hide veil.fine handlers.wait.after fun _ => True

section Rounds

variable {handlers : Handlers ω κ} {rule : Rule κ}

/-! ### Actions -/

/-- Asking for a concept. -/
theorem keeps_requireConcept (hh : veil.Admits handlers) (concept : String) :
    veil.Keeps (Engine.requireConcept handlers concept) fun _ => True :=
  .requireConcept fun _ hs => hh.isRegistered _ _ hs.fine

/-- Asking for room. -/
theorem keeps_requireRoom (id : String) :
    veil.Keeps (Engine.requireRoom id veil.serial) fun _ => True := by
  unfold Engine.requireRoom
  refine .get_bind fun engine _ => ⟨rfl, keeps_state_bind fun flow _ _ => ?_⟩
  split
  · exact .throw _
  · split
    · exact .throw _
    · exact .pure trivial

/-- Performing an action that keeps the secret, when of its event as much is known as of the others
in the log. -/
theorem keeps_perform (hh : veil.Admits handlers) {concept action : String} {input : Value}
    {answered : Fields → Value → Prop}
    (h : ∀ fields, input.toFields = .ok fields →
      veil.Keeps (handlers.perform concept action fields) (answered fields))
    (hknown : ∀ fields output number, input.toFields = .ok fields → answered fields output →
      veil.known ⟨number, concept, action, .object fields, output, veil.id⟩) :
    veil.Keeps (Engine.perform handlers concept action input veil.id) fun _ => True := by
  unfold Engine.perform
  refine (keeps_requireConcept hh concept).bind fun _ _ => ?_
  have hserial : veil.Keeps (Engine.serialOrNew veil.id : Effect (Engine ω κ) Nat)
      fun serial => serial = veil.serial := by
    intro engine hs
    obtain ⟨flow, hf, -⟩ := hs.flow
    have hf' : (veil.conceal engine).Hosts veil.id veil.serial flow :=
      ⟨hf.retained, hf.state, hf.named⟩
    refine ⟨by rw [hf.run_serialOrNew, hf'.run_serialOrNew], by rwa [hf.run_serialOrNew], ?_⟩
    rw [hf.run_serialOrNew]
    exact fun _ ha => (Except.ok.inj ha).symm
  refine hserial.bind fun serial hserial => ?_
  obtain rfl := hserial
  refine (keeps_requireRoom _).bind fun _ _ => ?_
  refine Ignores.ofExcept_bind fun fields hfields => ?_
  rw [mapError_eq_ok_iff] at hfields
  refine (h _ hfields).bind fun output hout => ?_
  unfold Engine.record
  refine keeps_state_bind fun flow _ _ => ?_
  have hupdate : veil.Keeps (Engine.update veil.serial fun flow =>
      (flow.record concept action fields output).1) fun _ => True := by
    refine keeps_update (fun _ => rfl) fun flow hlog hid event he => ?_
    rw [Flow.log_record] at he
    rcases List.mem_append.mp he with he | he
    · exact hlog event he
    · rw [List.mem_singleton.mp he]
      have hevent := hknown _ output flow.log.length hfields hout
      rwa [← hid] at hevent
  exact hupdate.bind fun _ _ => .pure trivial

/-- An action, with its arguments filled in, that keeps the secret. -/
def IsDiscreet (veil : Veil ω κ) (handlers : Handlers ω κ) (call : Dispatch) : Prop :=
  veil.Keeps (Engine.perform handlers call.1.concept call.1.action call.2 veil.id) fun _ => True

/-- Asking whether an action may be carried out. -/
theorem keeps_permits (template : ActionTemplate) (args : Value) :
    veil.Keeps (Engine.permits veil.serial template args) fun _ => True := by
  unfold Engine.permits
  refine .get_bind fun engine _ => ⟨rfl, ?_⟩
  split
  · exact .pure trivial
  refine Ignores.ofExcept_bind fun value _ => ?_
  dsimp only
  split
  · exact .throw_bind _
  have hnote : ∀ marker : Marker, veil.Keeps
      (Engine.update veil.serial fun flow => flow.noteResponse marker) fun _ => True := by
    refine fun marker => keeps_update (fun flow => ?_) fun flow hlog _ event he => ?_
    · have hgrows : flow.Grows .all (flow.noteResponse marker) := .noteResponse flow marker
      exact hgrows.id
    · rw [Flow.log_noteResponse] at he
      exact hlog event he
  refine keeps_state_bind fun flow _ _ => (hnote _).bind fun _ _ => ?_
  split
  · exact .ofExcept_bind fun _ _ => .ofExcept_bind fun _ _ =>
      (keeps_note _).bind fun _ _ => .pure trivial
  · exact .pure trivial

/-- Carrying the actions of a frame out. -/
theorem keeps_dispatch {calls : List Dispatch} (h : ∀ call ∈ calls, veil.IsDiscreet handlers call) :
    veil.Keeps (Engine.dispatch handlers veil.serial calls) fun _ => True := by
  induction calls with
  | nil => exact .pure trivial
  | cons call rest ih =>
    obtain ⟨template, args⟩ := call
    rw [List.forall_mem_cons] at h
    unfold Engine.dispatch
    refine (keeps_permits template args).bind fun permitted _ => ?_
    split
    · refine keeps_state_bind fun flow hid _ => ?_
      rw [hid]
      refine h.1.attempt.bind fun outcome _ => ?_
      split
      · exact ih h.2
      · exact .throw_bind _
    · exact ih h.2

/-! ### Rules -/

/-- What happens while the engine waits. -/
theorem keeps_waiting (hh : veil.Admits handlers) :
    veil.Keeps handlers.waiting.before (fun _ => True) ∧
      veil.Keeps handlers.waiting.after fun _ => True :=
  ⟨keeps_world hh.before, keeps_world hh.after⟩

/-- Stages that come after frames are filtered or changed go on from what is left of them. -/
theorem keeps_applyAll_cons {stage : Stage κ} {rest : List (Stage κ)} {frames : List Frame}
    {made : List Frame → Prop} {post : List Frame → Prop}
    (h : veil.Keeps (stage.apply handlers.adapters frames) made) (hnil : post [])
    (hrest : ∀ kept, made kept → veil.Keeps (Stage.applyAll handlers.adapters rest kept) post) :
    veil.Keeps (Stage.applyAll handlers.adapters (stage :: rest) frames) post := by
  unfold Stage.applyAll
  split
  · next hempty =>
    rw [List.isEmpty_iff.mp hempty]
    exact .pure hnil
  · exact h.bind hrest

/-- A call of an adapter. -/
theorem keeps_callAdapter {adapter : κ} {args : Value} {answered : Value → Prop}
    (h : veil.Keeps (handlers.adapt adapter args) answered) :
    veil.Keeps (Stage.callAdapter handlers.adapters adapter args) fun rows =>
      ∃ answer, answered answer ∧
        Stage.rowsOf (handlers.adapterName adapter) answer = .ok rows := by
  unfold Stage.callAdapter
  refine h.attempt.bind fun outcome houtcome => ?_
  cases outcome with
  | ok answer => exact .ofExcept fun rows hrows => ⟨answer, houtcome answer rfl, hrows⟩
  | error fault => exact .throw _

/-- A stage that asks an adapter. -/
theorem keeps_query (hh : veil.Admits handlers) {adapter : κ} {inputs outputs : Value}
    {frames : List Frame} {answered : Frame → Value → Prop} {made : Frame → Prop}
    (h : ∀ frame ∈ frames, ∀ args, inputs.fill frame = .ok args →
      veil.Keeps (handlers.adapt adapter args) (answered frame))
    (hmade : ∀ frame ∈ frames, ∀ answer rows next, answered frame answer →
      Stage.rowsOf (handlers.adapterName adapter) answer = .ok rows →
      Stage.matchRows frame outputs rows = .ok next → ∀ other ∈ next, made other) :
    veil.Keeps (Stage.apply handlers.adapters frames (.query adapter inputs outputs))
      fun kept => ∀ frame ∈ kept, made frame := by
  have hjoin : ∀ frame ∈ frames, veil.Keeps
      (Stage.joinRows handlers.adapters adapter inputs outputs frame)
      fun next => ∀ other ∈ next, made other := by
    intro frame hf
    unfold Stage.joinRows
    refine .ofExcept_bind fun args hargs => ?_
    refine (keeps_callAdapter (h frame hf args hargs)).bind fun rows hrows =>
      .ofExcept fun next hnext => ?_
    obtain ⟨answer, hanswer, hrows⟩ := hrows
    exact hmade frame hf answer rows next hanswer hrows (mapError_eq_ok_iff.mp hnext)
  unfold Stage.apply
  refine (Ignores.gather (keeps_waiting hh).1 (keeps_waiting hh).2 hjoin).bind
    fun joined hjoined => .pure fun frame hm => ?_
  obtain ⟨next, hnext, hmem⟩ := List.mem_flatten.mp hm
  exact hjoined next hnext frame hmem

/-- Stages that ask no adapter. -/
theorem keeps_applyAll_of_no_query {stages : List (Stage κ)}
    (h : ∀ adapter inputs outputs, .query adapter inputs outputs ∉ stages) (frames : List Frame) :
    veil.Keeps (Stage.applyAll handlers.adapters stages frames) fun _ => True := by
  induction stages generalizing frames with
  | nil => exact .pure trivial
  | cons stage rest ih =>
    have hstage : veil.Keeps (stage.apply handlers.adapters frames) fun _ => True := by
      cases stage with
      | filter test => exact .ofExcept fun _ _ => trivial
      | map change => exact .ofExcept fun _ _ => trivial
      | query adapter inputs outputs => exact absurd List.mem_cons_self (h adapter inputs outputs)
    exact keeps_applyAll_cons hstage trivial fun kept _ =>
      ih (fun adapter inputs outputs hm => h _ _ _ (List.mem_cons_of_mem _ hm)) kept

/-- Preparing the actions of a rule, for frames that its stages make. -/
theorem keeps_prepare {frames : List Frame} {made : List Frame → Prop}
    (h : veil.Keeps (Stage.applyAll handlers.adapters rule.stages frames) made) :
    veil.Keeps (Engine.prepare handlers rule frames) fun calls =>
      ∃ kept, made kept ∧ rule.dispatches kept = .ok calls := by
  have hprepared : veil.Keeps (Stage.applyAll handlers.adapters rule.stages frames >>=
      fun kept => Effect.ofExcept (rule.dispatches kept)) fun calls =>
        ∃ kept, made kept ∧ rule.dispatches kept = .ok calls :=
    h.bind fun kept hkept => .ofExcept fun _ hcalls => ⟨kept, hkept, hcalls⟩
  unfold Engine.prepare
  refine hprepared.attempt.bind fun outcome houtcome => ?_
  cases outcome with
  | ok calls => exact .pure (houtcome calls rfl)
  | error fault => exact .throw _

/-- The rule keeps the secret: for frames that its patterns find in a log of which this is known,
its stages do, and so do the actions for the frames that they leave. -/
def IsDiscreetRule (veil : Veil ω κ) (handlers : Handlers ω κ) (rule : Rule κ) : Prop :=
  ∀ log found, (∀ event ∈ log, veil.known event) →
    Pattern.combinations rule.patterns log = .ok found →
    ∀ frames, (∀ frame ∈ frames, ∃ c ∈ found, c.1 = frame) → frames ≠ [] →
      veil.Keeps (Stage.applyAll handlers.adapters rule.stages frames) fun kept =>
        ∀ calls, rule.dispatches kept = .ok calls →
          ∀ mine ∈ calls, ∀ call ∈ mine, veil.IsDiscreet handlers call

/-- Recording a fault. -/
theorem keeps_recordFault (rule : Rule κ) (fault : Fault) :
    veil.Keeps (Engine.recordFault veil.serial rule fault) fun _ => True := by
  unfold Engine.recordFault
  refine keeps_state_bind fun _ _ _ => ?_
  have hadd : ∀ fault, veil.Keeps (Engine.update veil.serial
      fun flow => flow.addFault rule.name fault) fun _ => True :=
    fun fault => keeps_update (fun _ => rfl) fun _ hlog _ => hlog
  exact (hadd _).bind fun _ _ => keeps_note _

/-- Carrying out a rule that keeps the secret, for frames that its patterns find. -/
theorem keeps_carryOut (hh : veil.Admits handlers) (hr : veil.IsDiscreetRule handlers rule)
    {log : List Event} {found : List (Frame × List Nat)} (hknown : ∀ event ∈ log, veil.known event)
    (hfound : Pattern.combinations rule.patterns log = .ok found) {frames : List Frame}
    (hframes : ∀ frame ∈ frames, ∃ c ∈ found, c.1 = frame) (hne : frames ≠ []) :
    veil.Keeps (Engine.carryOut handlers veil.serial rule frames) fun _ => True := by
  unfold Engine.carryOut
  refine (keeps_prepare (hr log found hknown hfound frames hframes hne)).bind
    fun calls hcalls => ?_
  obtain ⟨kept, hdiscreet, hcalls⟩ := hcalls
  exact (Ignores.gather (keeps_waiting hh).1 (keeps_waiting hh).2 fun mine hm =>
    keeps_dispatch (hdiscreet calls hcalls mine hm)).bind fun _ _ => .pure trivial

/-- Evaluating a rule that keeps the secret. -/
theorem keeps_evaluate (hh : veil.Admits handlers) (hr : veil.IsDiscreetRule handlers rule)
    (trigger : Option Nat) :
    veil.Keeps (Engine.evaluate handlers veil.serial trigger rule) fun _ => True := by
  unfold Engine.evaluate
  refine keeps_state_bind fun flow hid hknown => .ofExcept_bind fun fresh hfresh => ?_
  rw [mapError_eq_ok_iff] at hfresh
  obtain ⟨found, hfound, hfilter⟩ := bind_eq_ok_iff.mp hfresh
  obtain rfl := Except.ok.inj hfilter
  split
  · exact .pure trivial
  next hsome =>
  have hfire : ∀ found, veil.Keeps (Engine.update veil.serial fun flow => flow.fire rule found)
      fun _ => True := fun found => keeps_update (fun _ => rfl) fun _ hlog _ => hlog
  refine (hfire _).bind fun _ _ => (keeps_note _).bind fun _ _ => ?_
  refine (keeps_carryOut hh hr hknown hfound (fun frame hf => ?_) ?_).attempt.bind
    fun outcome _ => ?_
  · obtain ⟨c, hc, rfl⟩ := List.mem_map.mp hf
    exact ⟨c, (List.mem_filter.mp hc).1, rfl⟩
  · intro hnil
    exact hsome (by rw [List.map_eq_nil_iff.mp hnil]; rfl)
  · split
    · exact .pure trivial
    · split
      · exact keeps_recordFault _ _
      · exact .throw _

/-- Evaluating rules that keep the secret. -/
theorem keeps_evaluateEach (hh : veil.Admits handlers) {rules : List (Rule κ)}
    (hr : ∀ rule ∈ rules, veil.IsDiscreetRule handlers rule) (trigger : Option Nat) :
    veil.Keeps (Engine.evaluateEach handlers veil.serial trigger rules) fun _ => True := by
  induction rules with
  | nil => exact .pure trivial
  | cons rule rest ih =>
    rw [List.forall_mem_cons] at hr
    unfold Engine.evaluateEach
    exact (keeps_evaluate hh hr.1 trigger).bind fun _ _ => ih hr.2

variable (hh : veil.Admits handlers)
  (hr : ∀ rule ∈ veil.rules, veil.IsDiscreetRule handlers rule)

include hh hr

/-- Evaluating all rules from a place on. -/
theorem keeps_evaluateFrom (trigger : Option Nat) (times place : Nat) :
    veil.Keeps (Engine.evaluateFrom handlers veil.serial trigger times place) fun _ => True := by
  induction times generalizing place with
  | zero => exact .throw _
  | succ times ih =>
    unfold Engine.evaluateFrom
    refine .get_bind fun engine hs => ⟨rfl, ?_⟩
    dsimp only
    split
    · exact .pure trivial
    · rw [hs.rules]
      exact (keeps_evaluateEach hh (fun rule h => hr rule (List.mem_of_mem_drop h)) trigger).bind
        fun _ _ => ih _

/-- Evaluating all rules. -/
theorem keeps_evaluateAll (trigger : Option Nat) :
    veil.Keeps (Engine.evaluateAll handlers veil.serial trigger) fun _ => True :=
  keeps_evaluateFrom hh hr trigger _ _

/-- Emptying the queue. -/
theorem keeps_drainLoop (n : Nat) :
    veil.Keeps (Engine.drainLoop handlers veil.serial n) fun _ => True := by
  have hdequeue : veil.Keeps (Engine.dequeue veil.serial) fun _ => True := by
    unfold Engine.dequeue
    have hupdate : veil.Keeps (Engine.update veil.serial fun flow =>
        { flow with queue := flow.queue.tail }) fun _ => True :=
      keeps_update (fun _ => rfl) fun _ hlog _ => hlog
    exact keeps_state_bind fun _ _ _ => hupdate.bind fun _ _ => .pure trivial
  induction n with
  | zero =>
    unfold Engine.drainLoop
    refine hdequeue.bind fun event _ => ?_
    split
    · exact .pure trivial
    · exact .throw _
  | succ n ih =>
    unfold Engine.drainLoop
    refine hdequeue.bind fun event _ => ?_
    split
    · exact .pure trivial
    · exact (keeps_evaluateAll hh hr _).bind fun _ _ => ih

/-- A round. -/
theorem keeps_drain : veil.Keeps (Engine.drain handlers veil.id) fun _ => True := by
  unfold Engine.drain
  have hserial : veil.Keeps (Engine.serial veil.id : Effect (Engine ω κ) Nat)
      fun serial => serial = veil.serial := by
    intro engine hs
    obtain ⟨flow, hf, -⟩ := hs.flow
    have hf' : (veil.conceal engine).Hosts veil.id veil.serial flow :=
      ⟨hf.retained, hf.state, hf.named⟩
    refine ⟨by rw [hf.run_serial, hf'.run_serial], by rwa [hf.run_serial], ?_⟩
    rw [hf.run_serial]
    exact fun _ ha => (Except.ok.inj ha).symm
  refine hserial.bind fun serial hserial => ?_
  obtain rfl := hserial
  refine keeps_state_bind fun flow _ _ => ?_
  split
  · exact .pure trivial
  have hupdate : veil.Keeps (Engine.update veil.serial fun flow =>
      { flow with draining := true }) fun _ => True :=
    keeps_update (fun _ => rfl) fun _ hlog _ => hlog
  refine hupdate.bind fun _ _ => .get_bind fun engine _ => ⟨rfl, ?_⟩
  exact (keeps_drainLoop hh hr _).ensuring fun engine hs =>
    ⟨rfl, hs.change (fun _ => rfl) fun _ hlog _ => hlog⟩

end Rounds

end Veil

end HerdBook
