import HerdBook.Proofs.Growth
import HerdBook.Proofs.Templates

/-!
# Contained faults

A rule that fails must not take the round with it. Most faults see to that themselves: they abort
the rule they arise in, or the layer above them wraps them in one that does (`Fault.isContained`).
This module follows a fault from where it arises to where the evaluation of a rule ends.

The handlers may use the engine, other flows included, but they hold on to the flow that is worked
on. What is fixed meanwhile is a `Scope`, and `Scope.Ends` is the judgement by which each part of an
evaluation is covered: whatever the part does, the flow grows, within the bound that the ceiling
and the reentries of the handlers set, and its outcome is as stated.

## Main results

* `Scope.ends_perform`: performing an action ends in a contained fault, or in one that escapes.
* `Scope.ends_carryOut`: carrying a rule out ends in a fault that aborts the rule, or in one that
  escapes. What escapes is listed in `Scope.Escapes`.
-/

namespace HerdBook

open Effect

variable {ω κ α β : Type}

namespace Fault

/-- Whether the fault aborts a rule and nothing else, as it is or once a layer has wrapped it. -/
def isContained (fault : Fault) : Bool :=
  fault.abortsRule || !(fault.isEngine || fault.isStop)

/-- A fault passes a layer as it is, or becomes one that aborts the rule. -/
theorem wrappedBy_cases (layer : Layer) (subject : String) (fault : Fault) :
    (fault.wrappedBy layer subject = fault ∧ (fault.isEngine || fault.isStop) = true) ∨
      (fault.wrappedBy layer subject).abortsRule = true := by
  unfold wrappedBy
  split
  · next h => exact .inl ⟨rfl, h⟩
  · exact .inr rfl

/-- A contained fault aborts the rule once it has passed a layer. -/
theorem abortsRule_wrappedBy {fault : Fault} (h : fault.isContained = true) (layer : Layer)
    (subject : String) : (fault.wrappedBy layer subject).abortsRule = true := by
  rcases wrappedBy_cases layer subject fault with ⟨hsame, hpass⟩ | haborts
  · rw [hsame]
    simpa only [isContained, hpass, Bool.not_true, Bool.or_false] using h
  · exact haborts

/-- An order to stop is not contained. -/
theorem isContained_of_isStop {fault : Fault} (h : fault.isStop = true) :
    fault.isContained = false := by
  rw [isContained, h, Bool.or_true, Bool.not_true, Bool.or_false]
  cases fault <;> first | rfl | cases h

/-- A fault that leaves a computation is the same one, or contained. -/
theorem onLeaving_cases (fault : Fault) :
    fault.onLeaving = fault ∨ fault.onLeaving.isContained = true := by
  unfold onLeaving
  split
  · split
    · exact .inr rfl
    · exact .inl rfl
  · exact .inl rfl

end Fault

/-! ### Faults of templates and stages -/

/-- A template that cannot be filled in ends in a fault that aborts the rule. -/
theorem Value.abortsRule_of_fill {frame : Frame} {fault : Fault} (template : Value)
    (h : template.fill frame = .error fault) : fault.abortsRule = true := by
  obtain ⟨_, -, hlacks⟩ := template.exists_names_of_fill h
  exact hlacks.abortsRule

/-- So do the actions of frames. -/
theorem Rule.abortsRule_of_dispatches {rule : Rule κ} {frames : List Frame} {fault : Fault}
    (h : rule.dispatches frames = .error fault) : fault.abortsRule = true := by
  obtain ⟨_, -, _, -, _, -, hlacks⟩ := exists_names_of_dispatches h
  exact hlacks.abortsRule

namespace Stage

/-- A filter ends in a fault of its test. -/
theorem exists_of_keep {test : Frame → Except Fault Bool} {frames : List Frame} {fault : Fault}
    (h : keep test frames = .error fault) : ∃ frame, test frame = .error fault := by
  induction frames with
  | nil => cases h
  | cons frame rest ih =>
    rcases bind_eq_error_iff.mp h with h | ⟨_, -, h⟩
    · exact ⟨frame, h⟩
    · rcases bind_eq_error_iff.mp h with h | ⟨_, -, h⟩
      · exact ih h
      · cases h

/-- A map ends in a fault of its change, or in one that aborts the rule. -/
theorem exists_of_changeAll {change : Frame → Except Fault Frame} {frames : List Frame}
    {fault : Fault} (h : changeAll change frames = .error fault) :
    (∃ frame, change frame = .error fault) ∨ fault.abortsRule = true := by
  induction frames with
  | nil => cases h
  | cons frame rest ih =>
    rcases bind_eq_error_iff.mp h with h | ⟨_, -, h⟩
    · rcases bind_eq_error_iff.mp h with h | ⟨_, -, h⟩
      · exact .inl ⟨frame, h⟩
      · dsimp only at h
        split at h
        · cases h
        · exact .inr ((Except.error.inj h) ▸ rfl)
    · rcases bind_eq_error_iff.mp h with h | ⟨_, -, h⟩
      · exact ih h
      · cases h

/-- An adapter that returns no rows makes a fault that aborts the rule. -/
theorem abortsRule_of_rowsOf {name : String} {answer : Value} {fault : Fault}
    (h : rowsOf name answer = .error fault) : fault.abortsRule = true := by
  have hitems : ∀ items, rowsOfItems name items = .error fault → fault.abortsRule = true := by
    intro items
    induction items with
    | nil => exact fun h => by cases h
    | cons item rest ih =>
      intro h
      cases item with
      | object fields =>
        rcases bind_eq_error_iff.mp h with h | ⟨_, -, h⟩
        · exact ih h
        · cases h
      | _ => exact (Except.error.inj h) ▸ rfl
  unfold rowsOf at h
  split at h
  · exact hitems _ h
  · exact (Except.error.inj h) ▸ rfl

end Stage

/-- Noting a response leaves the log. -/
theorem Flow.log_noteResponse (flow : Flow) (marker : Marker) :
    (flow.noteResponse marker).log = flow.log := by
  unfold noteResponse
  split <;> rfl

/-- Whether the arguments have under the key something that a response can be told apart by, and
that a warning can name. -/
def Value.marks (key args : Value) : Bool :=
  match args.under key with
  | .ok value => value.hashable && key.text.isOk && value.shown.isOk
  | .error _ => false

/-- What is fixed while a flow is worked on. -/
structure Scope (ω κ : Type) where
  fine : ω → Prop
  rules : List (Rule κ)
  terminals : List ((String × String) × Value)
  ceiling : Int
  reentries : Nat
  /-- The faults that the predicates, the changes, the adapters and the actions may end in. -/
  raises : Fault → Prop
  id : String
  serial : Nat

namespace Scope

variable {scope : Scope ω κ} {flow flow' flow'' : Flow}

/-- The engine is in the scope, and the flow is as given. -/
structure Holds (scope : Scope ω κ) (engine : Engine ω κ) (flow : Flow) : Prop extends
    engine.HostsIn scope.fine scope.id scope.serial flow where
  rules : engine.rules = scope.rules
  terminals : engine.terminals = scope.terminals
  ceiling : engine.maxFlowEvents = .count scope.ceiling

/-- The most actions that a flow comes to hold. -/
def bound (scope : Scope ω κ) : Nat := scope.ceiling.toNat + scope.reentries

/-- The flow grows, within the bound. -/
structure Extends (scope : Scope ω κ) (flow flow' : Flow) : Prop where
  grows : flow.Grows .all flow'
  bounded : flow'.log.length ≤ max flow.log.length scope.bound

/-- A flow to which nothing is added. -/
theorem Extends.refl (flow : Flow) : scope.Extends flow flow :=
  ⟨.refl flow, Nat.le_max_left _ _⟩

/-- A flow to which something is added twice. -/
theorem Extends.trans (h : scope.Extends flow flow') (h' : scope.Extends flow' flow'') :
    scope.Extends flow flow'' := by
  refine ⟨h.grows.trans h'.grows, ?_⟩
  have hb := h.bounded
  have hb' := h'.bounded
  omega

/-- A change of the flow that leaves its log. -/
theorem Extends.of_log (hg : flow.Grows .all flow') (hl : flow'.log = flow.log) :
    scope.Extends flow flow' :=
  ⟨hg, by rw [hl]; exact Nat.le_max_left _ _⟩

/-- What ends a round early. -/
inductive Escapes (scope : Scope ω κ) : Fault → Flow → Prop where
  /-- The flow has reached its ceiling. -/
  | ceiling {flow : Flow} (h : scope.ceiling ≤ flow.log.length) :
    Escapes scope (.flowLimit scope.id (.count scope.ceiling)) flow
  /-- Something was raised that no layer makes abort the rule alone. -/
  | raised {fault : Fault} {flow : Flow} (h : scope.raises fault)
    (hc : fault.isContained = false) : Escapes scope fault flow
  /-- The patterns of a rule cannot be put to the log. -/
  | unmatched {rule : Rule κ} {kind : Misuse} {flow : Flow} {log : List Event}
    (hr : rule ∈ scope.rules) (hl : log <+: flow.log)
    (h : Pattern.combinations rule.patterns log = .error kind) :
    Escapes scope (.misuse kind) flow
  /-- A response has nothing under its key that it can be told apart by. -/
  | unmarked {rule : Rule κ} {template : ActionTemplate} {frame : Frame} {args key : Value}
    {kind : Misuse} {flow : Flow} (hr : rule ∈ scope.rules) (ht : template ∈ rule.actions)
    (hf : template.args.fill frame = .ok args)
    (hk : Table.get? (template.concept, template.action) scope.terminals = some key)
    (h : key.marks args = false) : Escapes scope (.misuse kind) flow

/-- What ends a round early still does when there is more in the log. -/
theorem Escapes.of_log {fault : Fault} (h : scope.Escapes fault flow)
    (hl : flow.log <+: flow'.log) : scope.Escapes fault flow' := by
  cases h with
  | ceiling h =>
    refine .ceiling (Int.le_trans h ?_)
    exact Int.ofNat_le.mpr hl.length_le
  | raised h hc => exact .raised h hc
  | unmatched hr hm h => exact .unmatched hr (hm.trans hl) h
  | unmarked hr ht hf hk h => exact .unmarked hr ht hf hk h

/-- So it does when the flow has grown. -/
theorem Escapes.grows {fault : Fault} (h : scope.Escapes fault flow) (hg : flow.Grows .all flow') :
    scope.Escapes fault flow' := by
  obtain ⟨more, hlog, -, -⟩ := hg.events
  exact h.of_log (hlog ▸ List.prefix_append _ _)

/-- The fault is contained, or escapes. -/
def Wrappable (scope : Scope ω κ) (fault : Fault) (flow : Flow) : Prop :=
  fault.isContained = true ∨ scope.Escapes fault flow

/-- The fault aborts the rule, or escapes. -/
def Aborts (scope : Scope ω κ) (fault : Fault) (flow : Flow) : Prop :=
  fault.abortsRule = true ∨ scope.Escapes fault flow

/-- What is said of a fault stays true while the flow grows. -/
def Lasts (spoils : Fault → Flow → Prop) : Prop :=
  ∀ fault flow flow', spoils fault flow → flow.Grows .all flow' → spoils fault flow'

/-- A fault that aborts the rule or escapes still does when the flow has grown. -/
theorem lasts_aborts : Lasts scope.Aborts :=
  fun _ _ _ h hg => h.imp_right fun h => h.grows hg

/-- Past a layer, a fault aborts the rule or escapes. -/
theorem Wrappable.wrappedBy {fault : Fault} (h : scope.Wrappable fault flow) (layer : Layer)
    (subject : String) : scope.Aborts (fault.wrappedBy layer subject) flow := by
  rcases h with h | h
  · exact .inl (Fault.abortsRule_wrappedBy h layer subject)
  · rcases Fault.wrappedBy_cases layer subject fault with ⟨hsame, -⟩ | haborts
    · exact .inr (hsame.symm ▸ h)
    · exact .inl haborts

/-- A fault that is contained or escapes still is when the flow has grown. -/
theorem lasts_wrappable : Lasts scope.Wrappable :=
  fun _ _ _ h hg => h.imp_right fun h => h.grows hg

/-- Leaving a computation does not change what becomes of a fault. -/
theorem Wrappable.onLeaving {fault : Fault} (h : scope.Wrappable fault flow) :
    scope.Wrappable fault.onLeaving flow := by
  rcases fault.onLeaving_cases with hsame | hc
  · rwa [hsame]
  · exact .inl hc

/-- What the parts may raise is contained, or escapes. -/
theorem wrappable_of_raises {fault : Fault} (h : scope.raises fault) :
    scope.Wrappable fault flow := by
  cases hc : fault.isContained with
  | true => exact .inl hc
  | false => exact .inr (.raised h hc)

/-- A fault that aborts the rule is contained. -/
theorem wrappable_of_abortsRule {fault : Fault} (h : fault.abortsRule = true) :
    scope.Wrappable fault flow := .inl (by rw [Fault.isContained, h, Bool.true_or])

/-- A fault that aborts the rule or escapes is contained or escapes. -/
theorem Aborts.wrappable {fault : Fault} (h : scope.Aborts fault flow) :
    scope.Wrappable fault flow := h.elim wrappable_of_abortsRule .inr

/-! ### The judgement -/

/-- Run in the scope from the flow, the computation leaves the engine in the scope with a flow that
extends the first one, and its outcome and that flow are as stated. -/
def Ends (scope : Scope ω κ) (flow : Flow) (act : Effect (Engine ω κ) α)
    (post : Except Fault α → Flow → Prop) : Prop :=
  ∀ engine, scope.Holds engine flow → ∃ flow', scope.Holds (act.run engine).2 flow' ∧
    scope.Extends flow flow' ∧ post (act.run engine).1 flow'

/-- If the outcome is a fault, it is as stated. -/
def Only (spoils : Fault → Flow → Prop) (outcome : Except Fault α) (flow : Flow) : Prop :=
  ∀ fault, outcome = .error fault → spoils fault flow

section Rules

variable {act : Effect (Engine ω κ) α} {next : α → Effect (Engine ω κ) β}
  {mid : Except Fault α → Flow → Prop} {post : Except Fault β → Flow → Prop}
  {spoils : Fault → Flow → Prop}

/-- A success is no fault. -/
theorem only_ok (a : α) : Only spoils (.ok a : Except Fault α) flow := by
  intro fault h
  cases h

/-- The fault is the only one. -/
theorem only_error {fault : Fault} (h : spoils fault flow) :
    Only spoils (.error fault : Except Fault α) flow := by
  intro other hother
  cases hother
  exact h

/-- An outcome without a computation. -/
theorem Ends.ofExcept {outcome : Except Fault β} (h : post outcome flow) :
    scope.Ends flow (Effect.ofExcept outcome) post :=
  fun _ hf => ⟨flow, hf, .refl flow, h⟩

/-- A result. -/
theorem Ends.pure {b : β} (h : post (.ok b) flow) :
    scope.Ends flow (Pure.pure b : Effect (Engine ω κ) β) post :=
  fun _ hf => ⟨flow, hf, .refl flow, h⟩

/-- A fault. -/
theorem Ends.throw {fault : Fault} (h : post (.error fault) flow) :
    scope.Ends flow (MonadExcept.throw fault : Effect (Engine ω κ) β) post :=
  fun _ hf => ⟨flow, hf, .refl flow, h⟩

/-- A sequence goes on after a success and is over after a fault. -/
theorem Ends.bind (h : scope.Ends flow act mid)
    (hok : ∀ a flow', scope.Extends flow flow' → mid (.ok a) flow' → scope.Ends flow' (next a) post)
    (herror : ∀ fault flow', mid (.error fault) flow' → post (.error fault) flow') :
    scope.Ends flow (act >>= next) post := by
  intro engine hf
  obtain ⟨flow₁, hf₁, he₁, hmid⟩ := h engine hf
  rw [run_bind]
  rcases hrun : act.run engine with ⟨fault | a, engine₁⟩ <;> rw [hrun] at hf₁ hmid
  · exact ⟨flow₁, hf₁, he₁, herror _ _ hmid⟩
  · obtain ⟨flow₂, hf₂, he₂, hpost⟩ := hok a flow₁ he₁ hmid engine₁ hf₁
    exact ⟨flow₂, hf₂, he₁.trans he₂, hpost⟩

/-- A sequence ends in the faults that its parts end in. -/
theorem Ends.bind_only (h : scope.Ends flow act (Only spoils))
    (hok : ∀ a flow', scope.Ends flow' (next a) (Only spoils)) :
    scope.Ends flow (act >>= next) (Only spoils) :=
  h.bind (fun a flow' _ _ => hok a flow') fun _ _ hmid => only_error (hmid _ rfl)

/-- What would come after a fault does not count. -/
theorem Ends.throw_bind {fault : Fault} (h : post (.error fault) flow) :
    scope.Ends flow ((MonadExcept.throw fault : Effect (Engine ω κ) α) >>= next) post := by
  intro engine hf
  rw [run_bind_error (run_throw fault engine)]
  exact ⟨flow, hf, .refl flow, h⟩

/-- Going on from an outcome, unless it is a misuse. -/
theorem Ends.misuse_bind {outcome : Except Misuse α}
    (hok : ∀ a, outcome = .ok a → scope.Ends flow (next a) post)
    (herror : ∀ kind, outcome = .error kind → post (.error (.misuse kind)) flow) :
    scope.Ends flow (Effect.ofExcept (outcome.mapError Fault.misuse) >>= next) post := by
  intro engine hf
  cases outcome with
  | ok a => exact hok a rfl engine hf
  | error kind => exact ⟨flow, hf, .refl flow, herror kind rfl⟩

/-- A weaker statement. -/
theorem Ends.weaken {post' : Except Fault β → Flow → Prop} {act : Effect (Engine ω κ) β}
    (h : scope.Ends flow act post) (hp : ∀ outcome flow', post outcome flow' → post' outcome flow') :
    scope.Ends flow act post' := by
  intro engine hf
  obtain ⟨flow', hf', he, hpost⟩ := h engine hf
  exact ⟨flow', hf', he, hp _ _ hpost⟩

/-- The outcome as a value. -/
theorem Ends.attempt (h : scope.Ends flow act mid) :
    scope.Ends flow (Effect.attempt act) fun outcome flow' =>
      ∃ inner, outcome = .ok inner ∧ mid inner flow' := by
  intro engine hf
  obtain ⟨flow', hf', he, hmid⟩ := h engine hf
  exact ⟨flow', hf', he, _, rfl, hmid⟩

/-- What is done about an outcome decides. -/
theorem Ends.attempt_bind {next : Except Fault α → Effect (Engine ω κ) β}
    (h : scope.Ends flow act mid)
    (hnext : ∀ outcome flow', scope.Extends flow flow' → mid outcome flow' →
      scope.Ends flow' (next outcome) post) :
    scope.Ends flow (Effect.attempt act >>= next) post := by
  refine h.attempt.bind (fun outcome flow' he hmid => ?_) fun _ _ hmid => ?_
  · obtain ⟨inner, hinner, hmid⟩ := hmid
    obtain rfl := Except.ok.inj hinner
    exact hnext outcome flow' he hmid
  · obtain ⟨inner, hinner, -⟩ := hmid
    cases hinner

/-- Going on from the engine as it is. -/
theorem Ends.get_bind {next : Engine ω κ → Effect (Engine ω κ) β}
    (h : ∀ engine, scope.Holds engine flow → scope.Ends flow (next engine) post) :
    scope.Ends flow (get >>= next) post :=
  fun engine hf => h engine hf engine hf

/-- Going on from the state of the flow. -/
theorem Ends.state_bind {next : Flow → Effect (Engine ω κ) β}
    (h : scope.Ends flow (next flow) post) :
    scope.Ends flow (Engine.state scope.serial >>= next) post := by
  intro engine hf
  rw [run_bind_ok hf.run_state]
  exact h engine hf

/-- Changing the state of the flow. -/
theorem Holds.change {engine : Engine ω κ} (hf : scope.Holds engine flow) {f : Flow → Flow}
    (hid : (f flow).id = flow.id) : scope.Holds (engine.change scope.serial f) (f flow) :=
  ⟨(hf.toHostsIn.change hid).1, hf.rules, hf.terminals, hf.ceiling⟩

/-- Going on from a flow that is changed. -/
theorem Ends.update_bind {f : Flow → Flow} {next : Unit → Effect (Engine ω κ) β}
    (he : scope.Extends flow (f flow)) (h : scope.Ends (f flow) (next ()) post) :
    scope.Ends flow (Engine.update scope.serial f >>= next) post := by
  intro engine hf
  rw [run_bind_ok (Engine.run_update f engine)]
  obtain ⟨flow', hf', he', hpost⟩ := h _ (hf.change he.grows.id)
  exact ⟨flow', hf', he.trans he', hpost⟩

/-- A line that is written changes nothing of the scope. -/
theorem Holds.note {engine : Engine ω κ} (hf : scope.Holds engine flow) (n : Note) :
    scope.Holds ((Engine.note n).run engine).2 flow :=
  ⟨⟨⟨hf.retained, hf.state, hf.named⟩, hf.fine⟩, hf.rules, hf.terminals, hf.ceiling⟩

/-- Going on after a line is written. -/
theorem Ends.note_bind {n : Note} {next : Unit → Effect (Engine ω κ) β}
    (h : scope.Ends flow (next ()) post) :
    scope.Ends flow (Engine.note n >>= next) post :=
  fun _ hf => h _ (hf.note n)

/-- Computations that are run to their ends, each with a fault that lasts. -/
theorem Ends.attemptAll {each : β → Effect (Engine ω κ) α}
    (hl : Lasts spoils)
    {items : List β} (h : ∀ b ∈ items, ∀ flow, scope.Ends flow (each b) (Only spoils)) :
    scope.Ends flow (Effect.attemptAll each items) fun outcome flow' =>
      ∃ outcomes, outcome = .ok outcomes ∧ ∀ one ∈ outcomes, Only spoils one flow' := by
  induction items generalizing flow with
  | nil => exact .pure ⟨[], rfl, by simp⟩
  | cons b bs ih =>
    rw [List.forall_mem_cons] at h
    refine (h.1 flow).attempt_bind fun outcome flow₁ _ hone => ?_
    refine (ih h.2).bind (fun outcomes flow₂ he hall => .pure ⟨_, rfl, ?_⟩) fun _ _ hall => ?_
    · obtain ⟨_, hsame, hall⟩ := hall
      obtain rfl := Except.ok.inj hsame
      exact List.forall_mem_cons.mpr ⟨fun fault hf => hl _ _ _ (hone fault hf) he.grows, hall⟩
    · obtain ⟨_, hsame, -⟩ := hall
      cases hsame

/-- A wait ends in the faults that its computations and the waiting end in. -/
theorem Ends.gather {wait : Wait (Engine ω κ)} {each : β → Effect (Engine ω κ) α}
    (hl : Lasts spoils)
    (hb : ∀ flow, scope.Ends flow wait.before (Only spoils))
    (ha : ∀ flow, scope.Ends flow wait.after (Only spoils)) {items : List β}
    (h : ∀ b ∈ items, ∀ flow, scope.Ends flow (each b) (Only spoils)) :
    scope.Ends flow (Effect.gather wait each items) (Only spoils) := by
  unfold Effect.gather
  split
  · exact .pure (only_ok _)
  refine (hb flow).bind_only fun _ flow₁ => ?_
  refine (Ends.attemptAll hl h).bind (fun outcomes flow₂ _ hall => ?_) fun _ _ hall => ?_
  · obtain ⟨_, hsame, hall⟩ := hall
    obtain rfl := Except.ok.inj hsame
    refine (ha flow₂).bind (fun _ flow₃ he _ => .ofExcept fun fault hfault => ?_)
      fun _ _ hmid => only_error (hmid _ rfl)
    exact hl _ _ _ (hall _ (mem_of_allOrFirstFault hfault) fault rfl) he.grows
  · obtain ⟨_, hsame, -⟩ := hall
    cases hsame

end Rules

/-! ### Handlers -/

/-- What a handler may do: anything with the engine that keeps it in the scope, the log of the flow
below the bound unless it was beyond it before. -/
def Allows (scope : Scope ω κ) (act : Effect (Engine ω κ) α) : Prop :=
  ∀ engine flow, scope.Holds engine flow → ∃ flow', scope.Holds (act.run engine).2 flow' ∧
    flow.Grows .all flow' ∧
    flow'.log.length + 1 ≤ max (flow.log.length + 1) scope.bound ∧
    ∀ fault, (act.run engine).1 = .error fault → scope.raises fault

/-- The handlers, and the predicates and changes of the rules, keep to the scope; only an order to
stop ends a wait. -/
structure Admits (scope : Scope ω κ) (handlers : Handlers ω κ) : Prop where
  reentries : handlers.reentries = scope.reentries
  perform : ∀ concept action input, scope.Allows (handlers.perform concept action input)
  adapt : ∀ rule ∈ scope.rules, ∀ adapter inputs outputs,
    .query adapter inputs outputs ∈ rule.stages → ∀ args, scope.Allows (handlers.adapt adapter args)
  before : scope.Allows handlers.waiting.before
  after : scope.Allows handlers.waiting.after
  stops : ∀ engine fault, (handlers.waiting.before.run engine).1 = .error fault ∨
    (handlers.waiting.after.run engine).1 = .error fault → fault.isStop = true
  filter : ∀ rule ∈ scope.rules, ∀ test, .filter test ∈ rule.stages → ∀ frame fault,
    test frame = .error fault → scope.raises fault
  map : ∀ rule ∈ scope.rules, ∀ change, .map change ∈ rule.stages → ∀ frame fault,
    change frame = .error fault → scope.raises fault

section Handlers

variable {handlers : Handlers ω κ} {act : Effect (Engine ω κ) α}

/-- What uses only the world and the journal keeps to the scope. -/
theorem allows_of_local
    (h : ∀ engine, scope.fine engine.world → ∃ world journal, scope.fine world ∧
      (act.run engine).2 = { engine with world := world, journal := journal })
    (hr : ∀ engine fault, (act.run engine).1 = .error fault → scope.raises fault) :
    scope.Allows act := by
  intro engine flow hf
  obtain ⟨world, journal, hw, he⟩ := h engine hf.fine
  refine ⟨flow, ?_, .refl flow, Nat.le_max_left _ _, hr engine⟩
  rw [he]
  exact ⟨⟨⟨hf.retained, hf.state, hf.named⟩, hw⟩, hf.rules, hf.terminals, hf.ceiling⟩

/-- What a handler does, with the bound that it keeps. -/
theorem Allows.ends (h : scope.Allows act) (flow : Flow) :
    scope.Ends flow act fun outcome flow' =>
      flow'.log.length + 1 ≤ max (flow.log.length + 1) scope.bound ∧
        Only (fun fault _ => scope.raises fault) outcome flow' := by
  intro engine hf
  obtain ⟨flow', hf', hg, hb, hr⟩ := h engine flow hf
  exact ⟨flow', hf', ⟨hg, by omega⟩, hb, hr⟩

/-- A handler ends in what the parts may raise. -/
theorem Allows.only (h : scope.Allows act) (flow : Flow) :
    scope.Ends flow act (Only scope.Wrappable) :=
  (h.ends flow).weaken fun _ _ hpost fault hfault => wrappable_of_raises (hpost.2 fault hfault)

/-- A wait ends in nothing but what escapes. -/
theorem Allows.aborts (h : scope.Allows act)
    (hs : ∀ engine fault, (act.run engine).1 = .error fault → fault.isStop = true) (flow : Flow) :
    scope.Ends flow act (Only scope.Aborts) := by
  intro engine hf
  obtain ⟨flow', hf', he, -, hr⟩ := h.ends flow engine hf
  refine ⟨flow', hf', he, fun fault hfault => .inr (.raised (hr fault hfault) ?_)⟩
  exact Fault.isContained_of_isStop (hs engine fault hfault)

/-! ### Actions -/

/-- Asking for a concept. -/
theorem ends_requireConcept (concept : String) :
    scope.Ends flow (Engine.requireConcept handlers concept) (Only scope.Wrappable) := by
  unfold Engine.requireConcept
  refine Ends.get_bind fun _ _ => ?_
  split
  · exact .throw (only_error (.inl rfl))
  · exact .pure (only_ok _)

/-- Asking for room: there is some, or the flow has reached its ceiling. -/
theorem ends_requireRoom :
    scope.Ends flow (Engine.requireRoom scope.id scope.serial) fun outcome flow' =>
      Only scope.Wrappable outcome flow' ∧
        (outcome.isOk = true → (flow'.log.length : Int) < scope.ceiling) := by
  unfold Engine.requireRoom
  refine Ends.get_bind fun engine hf => Ends.state_bind ?_
  rw [hf.ceiling]
  dsimp only [Limit.isReached]
  by_cases h : scope.ceiling ≤ flow.log.length
  · rw [if_pos (decide_eq_true h)]
    exact .throw ⟨only_error (.inr (.ceiling h)), Bool.noConfusion⟩
  · rw [if_neg (by simpa using h)]
    exact .pure ⟨only_ok _, fun _ => Int.not_le.mp h⟩

/-- Recording an action adds one to the log. -/
theorem ends_record {concept action : String} {input : Fields} {output : Value}
    (h : flow.log.length + 1 ≤ max flow.log.length scope.bound) :
    scope.Ends flow (Engine.record scope.serial concept action input output)
      (Only scope.Wrappable) := by
  unfold Engine.record
  refine Ends.state_bind (Ends.update_bind ⟨.record flow trivial .., ?_⟩ (.pure (only_ok _)))
  rw [Flow.log_record, List.length_append]
  exact h

/-- Performing an action ends in a contained fault, or in one that escapes. -/
theorem ends_perform (hh : scope.Admits handlers) (concept action : String) (input : Value) :
    scope.Ends flow (Engine.perform handlers concept action input scope.id)
      (Only scope.Wrappable) := by
  unfold Engine.perform
  refine (ends_requireConcept concept).bind_only fun _ flow => ?_
  intro engine hf
  rw [run_bind_ok hf.run_serialOrNew]
  refine Ends.bind ends_requireRoom (fun _ flow₁ _ hroom => ?_)
    (fun _ _ hmid => only_error (hmid.1 _ rfl)) engine hf
  refine Ends.misuse_bind (fun fields _ => ?_) fun _ _ => only_error (.inl rfl)
  refine Ends.bind ((hh.perform concept action fields).ends flow₁)
    (fun output flow₂ _ hmid => ends_record ?_)
    fun _ _ hmid => only_error (wrappable_of_raises (hmid.2 _ rfl))
  -- the action was begun below the ceiling
  have hbelow := hroom.2 rfl
  have hbound := hmid.1
  unfold bound at hbound ⊢
  omega

/-! ### Responses -/

/-- Whether an action may be carried out: the question ends in a fault only for a response that has
nothing to tell it apart by. -/
theorem ends_permits {rule : Rule κ} (hr : rule ∈ scope.rules) {template : ActionTemplate}
    (ht : template ∈ rule.actions) {frame : Frame} {args : Value}
    (hf : template.args.fill frame = .ok args) :
    scope.Ends flow (Engine.permits scope.serial template args) (Only scope.Aborts) := by
  unfold Engine.permits
  refine Ends.get_bind fun engine hengine => ?_
  rw [hengine.terminals]
  cases hreg : Table.get? (template.concept, template.action) scope.terminals with
  | none => exact .pure (only_ok _)
  | some key =>
  have hunmarked : ∀ kind flow, key.marks args = false → scope.Aborts (.misuse kind) flow :=
    fun kind flow h => .inr (.unmarked hr ht hf hreg h)
  rw [Option.getD_some]
  split
  · exact .pure (only_ok _)
  refine Ends.misuse_bind (fun value hvalue => ?_) fun kind hkind => ?_
  · have hmarks : key.marks args = (value.hashable && key.text.isOk && value.shown.isOk) := by
      rw [Value.marks, hvalue]
    dsimp only
    split
    · next h => exact .throw_bind (only_error (hunmarked _ _ (by simp_all)))
    refine Ends.state_bind (Ends.update_bind ?_ ?_)
    · exact .of_log (.noteResponse ..) (Flow.log_noteResponse ..)
    split
    · refine Ends.misuse_bind (fun name _ => ?_) fun _ h => ?_
      · refine Ends.misuse_bind (fun shown _ => ?_) fun _ h => ?_
        · exact .note_bind (.pure (only_ok _))
        · exact only_error (hunmarked _ _ (by rw [hmarks, h]; exact Bool.and_false _))
      · exact only_error (hunmarked _ _ (by rw [hmarks, h]; simp [Except.isOk, Except.toBool]))
    · exact .pure (only_ok _)
  · exact only_error (hunmarked _ _ (by rw [Value.marks, hkind]))

/-- Carrying the actions of a frame out ends in a fault that aborts the rule, or in one that
escapes. -/
theorem ends_dispatch (hh : scope.Admits handlers) {rule : Rule κ} (hr : rule ∈ scope.rules)
    {frame : Frame} {calls : List Dispatch}
    (hc : ∀ call ∈ calls, call.1 ∈ rule.actions ∧ call.1.args.fill frame = .ok call.2) :
    scope.Ends flow (Engine.dispatch handlers scope.serial calls) (Only scope.Aborts) := by
  induction calls generalizing flow with
  | nil => exact .pure (only_ok _)
  | cons call rest ih =>
    obtain ⟨template, args⟩ := call
    rw [List.forall_mem_cons] at hc
    unfold Engine.dispatch
    refine (ends_permits hr hc.1.1 hc.1.2).bind_only fun permitted flow₁ => ?_
    split
    · intro engine hf
      rw [run_bind_ok hf.run_state, hf.named]
      refine Ends.attempt_bind (ends_perform hh _ _ _) (fun outcome flow₂ _ hmid => ?_) engine hf
      cases outcome with
      | ok _ => exact ih hc.2
      | error fault => exact .throw_bind (only_error ((hmid fault rfl).wrappedBy ..))
    · exact ih hc.2

/-! ### Rules -/

/-- The stages of a rule end in a fault that is contained, or in one that escapes. -/
theorem ends_applyAll (hh : scope.Admits handlers) {rule : Rule κ} (hr : rule ∈ scope.rules)
    {stages : List (Stage κ)} (hs : stages ⊆ rule.stages) (frames : List Frame) :
    scope.Ends flow (Stage.applyAll handlers.adapters stages frames) (Only scope.Wrappable) := by
  induction stages generalizing flow frames with
  | nil => exact .pure (only_ok _)
  | cons stage rest ih =>
    rw [List.cons_subset] at hs
    unfold Stage.applyAll
    split
    · exact .pure (only_ok _)
    refine Ends.bind_only ?_ fun kept flow₁ => ih hs.2 kept
    cases stage with
    | filter test =>
      refine .ofExcept fun fault hfault => ?_
      obtain ⟨_, hkeep, rfl⟩ := exists_of_mapError hfault
      obtain ⟨frame, hframe⟩ := Stage.exists_of_keep hkeep
      exact (wrappable_of_raises (hh.filter rule hr test hs.1 frame _ hframe)).onLeaving
    | map change =>
      refine .ofExcept fun fault hfault => ?_
      obtain ⟨_, hchange, rfl⟩ := exists_of_mapError hfault
      rcases Stage.exists_of_changeAll hchange with ⟨frame, hframe⟩ | haborts
      · exact (wrappable_of_raises (hh.map rule hr change hs.1 frame _ hframe)).onLeaving
      · exact (wrappable_of_abortsRule haborts).onLeaving
    | query adapter inputs outputs =>
      refine Ends.bind_only (.gather lasts_wrappable hh.before.only hh.after.only
        fun frame _ flow => ?_) fun _ _ => .pure (only_ok _)
      unfold Stage.joinRows Stage.callAdapter
      refine Ends.bind_only (.ofExcept fun fault hfault => ?_) fun args flow => ?_
      · exact wrappable_of_abortsRule (inputs.abortsRule_of_fill hfault)
      refine Ends.bind_only ?_ fun rows flow => .ofExcept fun fault hfault => ?_
      · refine Ends.attempt_bind ((hh.adapt rule hr _ _ _ hs.1 args).only flow)
          fun outcome flow' _ hmid => ?_
        cases outcome with
        | ok answer =>
          exact .ofExcept fun fault hfault =>
            wrappable_of_abortsRule (Stage.abortsRule_of_rowsOf hfault)
        | error fault => exact .throw (only_error ((hmid fault rfl).wrappedBy ..).wrappable)
      · obtain ⟨_, -, rfl⟩ := exists_of_mapError hfault
        exact .inl rfl

/-- What is prepared fails with a fault that aborts the rule, or one that escapes. -/
theorem ends_prepare (hh : scope.Admits handlers) {rule : Rule κ} (hr : rule ∈ scope.rules)
    (frames : List Frame) :
    scope.Ends flow (Engine.prepare handlers rule frames) (Only scope.Aborts) := by
  unfold Engine.prepare
  have hmade : scope.Ends flow (Stage.applyAll handlers.adapters rule.stages frames >>=
      fun kept => Effect.ofExcept (rule.dispatches kept)) (Only scope.Wrappable) := by
    refine Ends.bind_only (ends_applyAll hh hr (List.Subset.refl _) frames) fun kept flow => ?_
    exact .ofExcept fun fault hfault =>
      wrappable_of_abortsRule (Rule.abortsRule_of_dispatches hfault)
  refine Ends.attempt_bind hmade fun outcome flow' _ hmid => ?_
  cases outcome with
  | ok calls => exact .pure (only_ok _)
  | error fault => exact .throw (only_error ((hmid fault rfl).wrappedBy ..))

/-- Carrying a rule out ends in a fault that aborts the rule, or in one that escapes. -/
theorem ends_carryOut (hh : scope.Admits handlers) {rule : Rule κ} (hr : rule ∈ scope.rules)
    (frames : List Frame) :
    scope.Ends flow (Engine.carryOut handlers scope.serial rule frames) (Only scope.Aborts) := by
  intro engine hf
  obtain ⟨flow₁, hf₁, he₁, hmid⟩ := ends_prepare hh hr frames engine hf
  unfold Engine.carryOut
  rw [run_bind]
  rcases hrun : (Engine.prepare handlers rule frames).run engine with ⟨fault | calls, engine₁⟩ <;>
    rw [hrun] at hf₁ hmid
  · exact ⟨flow₁, hf₁, he₁, only_error (hmid fault rfl)⟩
  obtain ⟨kept, hcalls⟩ := Engine.exists_dispatches_of_prepare hrun
  have hlast : scope.Ends flow₁ (Effect.gather handlers.waiting
      (Engine.dispatch handlers scope.serial) calls >>= fun _ => Pure.pure ())
      (Only scope.Aborts) := by
    have hbefore := hh.before.aborts fun engine fault h => hh.stops engine fault (.inl h)
    have hafter := hh.after.aborts fun engine fault h => hh.stops engine fault (.inr h)
    refine Ends.bind_only (.gather lasts_aborts hbefore hafter
      fun mine hm flow => ?_) fun _ _ => .pure (only_ok _)
    obtain ⟨frame, -, hfill⟩ := Rule.exists_frame_of_mem_dispatches hcalls mine hm
    exact ends_dispatch hh hr (Rule.fill_of_mem_fillActions hfill)
  obtain ⟨flow₂, hf₂, he₂, hpost⟩ := hlast engine₁ hf₁
  exact ⟨flow₂, hf₂, he₁.trans he₂, hpost⟩

end Handlers

end Scope

end HerdBook
