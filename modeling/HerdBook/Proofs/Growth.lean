import HerdBook.Engine.Round
import HerdBook.Proofs.Outcomes

/-!
# How a flow grows

Whatever a rule does to a flow, it only adds to it, and the events that it adds are of the actions
that it performs. This holds for handlers that leave the engine alone (`Handlers.IsLocal`): what
they do to the world and what they write to the journal is up to them.

* `Flow.Grows`: a flow with more events at the end of its log and of its queue, the same ones and all
  of certain kinds, and with more at the end of all its other records.
* `Engine.Hosts`: an id stands for a state of the engine.
* `Engine.WorksOn`: nothing of the engine changes but the world, the journal and one flow, which
  grows.

## Main results

* `Engine.moves_perform`, `Engine.moves_dispatch`, `Engine.moves_carryOut`,
  `Engine.moves_recordFault`: the parts of the evaluation of a rule work on the flow in this sense.
-/

namespace HerdBook

variable {ω κ : Type}

/-- Handlers that use nothing of the engine but the world and the journal, as long as the world is
fine, and leave it so. Of the adapters, those count that the rules ask. -/
structure Handlers.IsLocal (handlers : Handlers ω κ) (fine : ω → Prop) (rules : List (Rule κ)) :
    Prop where
  perform : ∀ concept action input engine, fine engine.world → ∃ world journal, fine world ∧
    ((handlers.perform concept action input).run engine).2
      = { engine with world := world, journal := journal }
  adapt : ∀ rule ∈ rules, ∀ adapter inputs outputs, .query adapter inputs outputs ∈ rule.stages →
    ∀ args engine, fine engine.world → ∃ world journal, fine world ∧
      ((handlers.adapt adapter args).run engine).2
        = { engine with world := world, journal := journal }
  before : ∀ world, fine world → fine (handlers.wait.before.run world).2
  after : ∀ world, fine world → fine (handlers.wait.after.run world).2

/-! ### Kinds of events -/

/-- Kinds of events: of which concepts, and of which of their actions. -/
abbrev Kinds := String → String → Prop

/-- All kinds. -/
def Kinds.all : Kinds := fun _ _ => True

/-- The actions that a rule performs, each with its concept. -/
def Rule.performed (rule : Rule κ) : List (String × String) :=
  rule.actions.map fun template => (template.concept, template.action)

/-- The actions that a rule watches for, each with its concept. -/
def Rule.watched (rule : Rule κ) : List (String × String) :=
  rule.patterns.map fun pattern => (pattern.concept, pattern.action)

/-- The kinds of the events that a rule brings about. -/
def Rule.Performs (rule : Rule κ) : Kinds := fun concept action =>
  (concept, action) ∈ rule.performed

namespace Rule

/-- What a frame makes of templates are actions of these templates, filled in by the frame. -/
theorem fill_of_mem_fillActions {frame : Frame} {templates : List ActionTemplate}
    {calls : List Dispatch} (h : fillActions frame templates = .ok calls) :
    ∀ call ∈ calls, call.1 ∈ templates ∧ call.1.args.fill frame = .ok call.2 := by
  induction templates generalizing calls with
  | nil =>
    obtain rfl : [] = calls := Except.ok.inj h
    simp
  | cons template rest ih =>
    rw [fillActions, bind_eq_ok_iff] at h
    obtain ⟨args, hargs, h⟩ := h
    rw [bind_eq_ok_iff] at h
    obtain ⟨others, hothers, h⟩ := h
    obtain rfl : (template, args) :: others = calls := Except.ok.inj h
    refine List.forall_mem_cons.mpr ⟨⟨List.mem_cons_self, hargs⟩, fun call hc => ?_⟩
    exact (ih hothers call hc).imp_left (List.mem_cons_of_mem _)

/-- What frames make of a rule is what each of them makes of its templates. -/
theorem exists_frame_of_mem_dispatches {rule : Rule κ} {frames : List Frame}
    {calls : List (List Dispatch)} (h : rule.dispatches frames = .ok calls) :
    ∀ mine ∈ calls, ∃ frame ∈ frames, fillActions frame rule.actions = .ok mine := by
  induction frames generalizing calls with
  | nil =>
    obtain rfl : [] = calls := Except.ok.inj h
    simp
  | cons frame rest ih =>
    rw [dispatches, bind_eq_ok_iff] at h
    obtain ⟨mine, hmine, h⟩ := h
    rw [bind_eq_ok_iff] at h
    obtain ⟨others, hothers, h⟩ := h
    obtain rfl : mine :: others = calls := Except.ok.inj h
    refine List.forall_mem_cons.mpr ⟨⟨frame, List.mem_cons_self, hmine⟩, fun mine hm => ?_⟩
    obtain ⟨other, hother, hfill⟩ := ih hothers mine hm
    exact ⟨other, List.mem_cons_of_mem _ hother, hfill⟩

/-- What the frames make of a rule are actions that it performs. -/
theorem performs_of_mem_dispatches {rule : Rule κ} {frames : List Frame}
    {calls : List (List Dispatch)} (h : rule.dispatches frames = .ok calls) :
    ∀ mine ∈ calls, ∀ call ∈ mine, rule.Performs call.1.concept call.1.action := by
  intro mine hm call hc
  obtain ⟨frame, -, hfill⟩ := exists_frame_of_mem_dispatches h mine hm
  exact List.mem_map_of_mem (fill_of_mem_fillActions hfill call hc).1

end Rule

/-! ### Flows -/

/-- The second flow is the first one with more added at the ends of its records. What is added to
the log is added to the queue, and is of the given kinds. -/
structure Flow.Grows (kinds : Kinds) (flow flow' : Flow) : Prop where
  id : flow'.id = flow.id
  draining : flow'.draining = flow.draining
  events : ∃ more, flow'.log = flow.log ++ more ∧ flow'.queue = flow.queue ++ more ∧
    ∀ event ∈ more, kinds event.concept event.action
  fired : flow.fired <+: flow'.fired
  responses : flow.responses <+: flow'.responses
  faults : flow.faults <+: flow'.faults

namespace Flow.Grows

variable {kinds : Kinds} {flow flow' flow'' : Flow}

/-- A flow to which nothing is added. -/
theorem refl (flow : Flow) : flow.Grows kinds flow where
  id := rfl
  draining := rfl
  events := ⟨[], by simp, by simp, by simp⟩
  fired := List.prefix_refl _
  responses := List.prefix_refl _
  faults := List.prefix_refl _

/-- A flow to which something is added twice. -/
theorem trans (h : flow.Grows kinds flow') (h' : flow'.Grows kinds flow'') :
    flow.Grows kinds flow'' where
  id := h'.id.trans h.id
  draining := h'.draining.trans h.draining
  events := by
    obtain ⟨more, hl, hq, hk⟩ := h.events
    obtain ⟨more', hl', hq', hk'⟩ := h'.events
    refine ⟨more ++ more', by rw [hl', hl, List.append_assoc], by rw [hq', hq, List.append_assoc],
      fun event he => ?_⟩
    rcases List.mem_append.mp he with he | he
    · exact hk event he
    · exact hk' event he
  fired := h.fired.trans h'.fired
  responses := h.responses.trans h'.responses
  faults := h.faults.trans h'.faults

/-- What is added is also of kinds that include those it is of. -/
theorem weaken (h : flow.Grows kinds flow') {others : Kinds}
    (hk : ∀ concept action, kinds concept action → others concept action) :
    flow.Grows others flow' :=
  { h with
    events := by
      obtain ⟨more, hl, hq, hmore⟩ := h.events
      exact ⟨more, hl, hq, fun event he => hk _ _ (hmore event he)⟩ }

/-- Recording an action adds an event. -/
theorem record (flow : Flow) {concept action : String} (hk : kinds concept action)
    (input : Fields) (output : Value) :
    flow.Grows kinds (flow.record concept action input output).1 :=
  { (refl flow : flow.Grows kinds flow) with
    events := ⟨_, log_record .., queue_record .., List.forall_mem_singleton.mpr hk⟩ }

/-- Noting a response adds at most that. -/
theorem noteResponse (flow : Flow) (marker : Marker) : flow.Grows kinds
    (flow.noteResponse marker) := by
  unfold Flow.noteResponse
  split
  · exact refl flow
  · exact { (refl flow : flow.Grows kinds flow) with responses := List.prefix_append _ _ }

/-- Firing a rule adds its combinations. -/
theorem fire (flow : Flow) (rule : Rule κ) (found : List Combination) :
    flow.Grows kinds (flow.fire rule found) :=
  { (refl flow : flow.Grows kinds flow) with fired := List.prefix_append _ _ }

/-- A fault that aborts a rule is added to the faults. -/
theorem addFault (flow : Flow) (rule : String) (fault : Fault) :
    flow.Grows kinds (flow.addFault rule fault) :=
  { (refl flow : flow.Grows kinds flow) with faults := List.prefix_append _ _ }

end Flow.Grows

namespace Engine

/-! ### Engines -/

/-- The id stands for the state with the number, which is the given one and carries the id. -/
structure Hosts (engine : Engine ω κ) (id : String) (serial : Nat) (flow : Flow) : Prop where
  retained : Table.get? id engine.retained = some serial
  state : engine.states[serial]? = some flow
  named : flow.id = id

/-- The same, in a world that is fine. -/
structure HostsIn (engine : Engine ω κ) (fine : ω → Prop) (id : String) (serial : Nat)
    (flow : Flow) : Prop extends Hosts engine id serial flow where
  fine : fine engine.world

/-- Two engines that differ in the world, the journal and one flow at most. -/
structure SameBut (serial : Nat) (engine engine' : Engine ω κ) : Prop where
  rules : engine'.rules = engine.rules
  terminals : engine'.terminals = engine.terminals
  maxFlowEvents : engine'.maxFlowEvents = engine.maxFlowEvents
  maxRetained : engine'.maxRetained = engine.maxRetained
  retained : engine'.retained = engine.retained
  started : engine'.started = engine.started
  others : ∀ n, n ≠ serial → engine'.states[n]? = engine.states[n]?

/-- An engine differs from itself in nothing. -/
theorem SameBut.refl (serial : Nat) (engine : Engine ω κ) : SameBut serial engine engine :=
  ⟨rfl, rfl, rfl, rfl, rfl, rfl, fun _ _ => rfl⟩

/-- Two differences of this kind are one. -/
theorem SameBut.trans {serial : Nat} {a b c : Engine ω κ} (h : SameBut serial a b)
    (h' : SameBut serial b c) : SameBut serial a c where
  rules := h'.rules.trans h.rules
  terminals := h'.terminals.trans h.terminals
  maxFlowEvents := h'.maxFlowEvents.trans h.maxFlowEvents
  maxRetained := h'.maxRetained.trans h.maxRetained
  retained := h'.retained.trans h.retained
  started := h'.started.trans h.started
  others n hn := (h'.others n hn).trans (h.others n hn)

/-- Nothing of the engine changes but the world, which stays fine, the journal and the flow with the
id, which grows by events of the given kinds. -/
def WorksOn (fine : ω → Prop) (kinds : Kinds) (id : String) (serial : Nat)
    (engine engine' : Engine ω κ) : Prop :=
  ∀ flow, engine.HostsIn fine id serial flow →
    ∃ flow', engine'.HostsIn fine id serial flow' ∧ flow.Grows kinds flow' ∧
      SameBut serial engine engine'

instance (fine : ω → Prop) (kinds : Kinds) (id : String) (serial : Nat) :
    IsPreorder (Engine ω κ) (WorksOn fine kinds id serial) where
  refl engine flow h := ⟨flow, h, .refl flow, .refl serial engine⟩
  trans _ _ _ h h' flow hf := by
    obtain ⟨flow', hf', hg, hs⟩ := h flow hf
    obtain ⟨flow'', hf'', hg', hs'⟩ := h' flow' hf'
    exact ⟨flow'', hf'', hg.trans hg', hs.trans hs'⟩

section Parts

open Effect

variable {fine : ω → Prop} {rules : List (Rule κ)} {handlers : Handlers ω κ} {kinds : Kinds}
  {id : String}
  {serial : Nat} {α β : Type}

/-- Updating a state changes it. -/
@[simp] theorem run_update (f : Flow → Flow) (engine : Engine ω κ) :
    (update serial f).run engine = (.ok (), engine.change serial f) := rfl

/-- The state that an id stands for is what is read under its number. -/
theorem Hosts.run_state {engine : Engine ω κ} {flow : Flow} (h : engine.Hosts id serial flow) :
    (Engine.state serial).run engine = (.ok flow, engine) := by
  change (Except.ok (engine.states[serial]?.getD default), engine) = _
  rw [h.state, Option.getD_some]

/-- The id of a state that is there leads to its number. -/
theorem Hosts.run_serialOrNew {engine : Engine ω κ} {flow : Flow}
    (h : engine.Hosts id serial flow) :
    (serialOrNew id).run engine = (.ok serial, engine) := by
  rw [serialOrNew, run_bind_ok (run_get engine), h.retained]
  rfl

/-- The id of a state that is there leads to its number. -/
theorem Hosts.run_serial {engine : Engine ω κ} {flow : Flow} (h : engine.Hosts id serial flow) :
    (Engine.serial id).run engine = (.ok serial, engine) := by
  rw [Engine.serial, run_bind_ok (run_get engine), h.retained]
  rfl

/-- A state that is changed is there in its changed form, and nothing else is changed. -/
theorem Hosts.change {engine : Engine ω κ} {flow : Flow} (h : engine.Hosts id serial flow)
    {f : Flow → Flow} (hid : (f flow).id = flow.id) :
    (engine.change serial f).Hosts id serial (f flow) ∧
      SameBut serial engine (engine.change serial f) := by
  refine ⟨⟨h.retained, ?_, hid.trans h.named⟩, rfl, rfl, rfl, rfl, rfl, rfl, fun n hn => ?_⟩
  · change (engine.states.modify serial f)[serial]? = _
    simp [h.state]
  · change (engine.states.modify serial f)[n]? = _
    simp [Ne.symm hn]

/-- The same in a world that is fine. -/
theorem HostsIn.change {engine : Engine ω κ} {flow : Flow} (h : engine.HostsIn fine id serial flow)
    {f : Flow → Flow} (hid : (f flow).id = flow.id) :
    (engine.change serial f).HostsIn fine id serial (f flow) ∧
      SameBut serial engine (engine.change serial f) := by
  obtain ⟨hf, hs⟩ := h.toHosts.change hid
  exact ⟨⟨hf, h.fine⟩, hs⟩

/-- Changes that make the same of the state make the same of the engine. -/
theorem Hosts.change_congr {engine : Engine ω κ} {flow : Flow} (h : engine.Hosts id serial flow)
    {f g : Flow → Flow} (hsame : f flow = g flow) :
    engine.change serial f = engine.change serial g := by
  have hstates : engine.states.modify serial f = engine.states.modify serial g := by
    refine List.ext_getElem? fun n => ?_
    rw [List.getElem?_modify, List.getElem?_modify]
    split
    · next hn => rw [← hn, h.state, Option.map_eq_map, Option.map_eq_map, Option.map_some,
        Option.map_some, hsame]
    · rfl
  exact congrArg (fun states => { engine with states := states }) hstates

/-- A change that leaves the state as it is leaves the engine as it is. -/
theorem Hosts.change_eq_self {engine : Engine ω κ} {flow : Flow} (h : engine.Hosts id serial flow)
    {f : Flow → Flow} (hsame : f flow = flow) : engine.change serial f = engine := by
  rw [h.change_congr (g := fun flow => flow) hsame]
  have hid : engine.states.modify serial (fun flow => flow) = engine.states :=
    List.modify_id serial engine.states
  exact congrArg (fun states => { engine with states := states }) hid

/-- Two changes of one state are one. -/
theorem change_change (f g : Flow → Flow) (engine : Engine ω κ) :
    (engine.change serial f).change serial g = engine.change serial (g ∘ f) :=
  congrArg (fun states => { engine with states := states }) (List.modify_modify_eq f g serial _)

variable (kinds) in
/-- Computations that only use the world and the journal work on any flow. -/
theorem moves_of_local {act : Effect (Engine ω κ) α}
    (h : ∀ engine, fine engine.world → ∃ world journal, fine world ∧
      (act.run engine).2 = { engine with world := world, journal := journal }) :
    Moves (WorksOn fine kinds id serial) act := by
  intro engine flow hf
  obtain ⟨world, journal, hw, he⟩ := h engine hf.fine
  rw [he]
  exact ⟨flow, ⟨⟨hf.retained, hf.state, hf.named⟩, hw⟩, .refl flow,
    rfl, rfl, rfl, rfl, rfl, rfl, fun _ _ => rfl⟩

/-- A note goes to the journal. -/
theorem moves_note (n : Note) : Moves (WorksOn (ω := ω) (κ := κ) fine kinds id serial) (note n) :=
  moves_of_local _ fun engine hw => ⟨engine.world, engine.journal.push n, hw, rfl⟩

/-- A change of the flow that makes it grow. -/
theorem moves_update {f : Flow → Flow} (hf : ∀ flow : Flow, flow.Grows kinds (f flow)) :
    Moves (WorksOn (ω := ω) (κ := κ) fine kinds id serial) (update serial f) := by
  intro engine flow h
  obtain ⟨hh, hs⟩ := h.change (f := f) (hf flow).id
  exact ⟨f flow, hh, hf flow, hs⟩

/-- Going on from the state that the number stands for. -/
theorem moves_state_bind {next : Flow → Effect (Engine ω κ) β}
    (h : ∀ flow, flow.id = id → Moves (WorksOn fine kinds id serial) (next flow)) :
    Moves (WorksOn fine kinds id serial) (state serial >>= next) := by
  intro engine flow hf
  rw [run_bind_ok hf.run_state]
  exact h flow hf.named engine flow hf

/-- Going on from the number that the id leads to. -/
theorem moves_serialOrNew_bind {next : Nat → Effect (Engine ω κ) β}
    (h : Moves (WorksOn fine kinds id serial) (next serial)) :
    Moves (WorksOn fine kinds id serial) (serialOrNew id >>= next) := by
  intro engine flow hf
  rw [run_bind_ok hf.run_serialOrNew]
  exact h engine flow hf

/-- What is read of the engine changes nothing. -/
theorem moves_get_bind {next : Engine ω κ → Effect (Engine ω κ) β}
    (h : ∀ engine, Moves (WorksOn fine kinds id serial) (next engine)) :
    Moves (WorksOn fine kinds id serial) (get >>= next) :=
  fun engine => h engine engine

/-! ### Actions -/

/-- Asking for a concept changes nothing. -/
theorem moves_requireConcept (concept : String) :
    Moves (WorksOn fine kinds id serial) (requireConcept handlers concept) := by
  unfold requireConcept
  refine moves_get_bind fun engine => ?_
  split
  · exact Moves.throw _
  · exact Moves.pure _

variable (kinds) in
/-- Asking for room changes nothing. -/
theorem moves_requireRoom (name : String) :
    Moves (WorksOn (ω := ω) (κ := κ) fine kinds id serial) (requireRoom name serial) := by
  unfold requireRoom
  refine moves_get_bind fun engine => moves_state_bind fun flow _ => ?_
  split
  · exact Moves.throw _
  · split
    · exact Moves.throw _
    · exact Moves.pure _

/-- An action that is performed adds an event of its kind at most. -/
theorem moves_perform (hl : handlers.IsLocal fine rules) {concept action : String}
    (hk : kinds concept action) (input : Value) :
    Moves (WorksOn fine kinds id serial) (perform handlers concept action input id) := by
  unfold perform
  refine Moves.bind (moves_requireConcept concept) fun _ => moves_serialOrNew_bind ?_
  refine Moves.bind (moves_requireRoom _ id) fun _ => ?_
  refine Moves.bind (Moves.ofExcept _) fun fields => ?_
  refine Moves.bind (moves_of_local _ (hl.perform concept action fields)) fun output => ?_
  unfold record
  refine moves_state_bind fun flow _ => ?_
  exact Moves.bind (moves_update fun flow => .record flow hk ..) fun _ => Moves.pure _

/-! ### Rules -/

/-- Asking whether an action may be carried out notes a response at most. -/
theorem moves_permits (template : ActionTemplate) (args : Value) :
    Moves (WorksOn (ω := ω) (κ := κ) fine kinds id serial) (permits serial template args) := by
  have hnote : ∀ marker, Moves (WorksOn (ω := ω) (κ := κ) fine kinds id serial)
      (update serial fun flow => flow.noteResponse marker) :=
    fun marker => moves_update fun flow => .noteResponse flow marker
  unfold permits
  refine moves_get_bind fun engine => ?_
  split
  · exact Moves.pure _
  · refine Moves.bind (Moves.ofExcept _) fun value => ?_
    dsimp only
    split
    · exact Moves.throw_bind _ _
    · refine moves_state_bind fun flow _ => Moves.bind (hnote _) fun _ => ?_
      split
      · exact Moves.bind (Moves.ofExcept _) fun _ => Moves.bind (Moves.ofExcept _) fun _ =>
          Moves.bind (moves_note _) fun _ => Moves.pure _
      · exact Moves.pure _

/-- Carrying out the actions of a frame adds their events and responses at most. -/
theorem moves_dispatch (hl : handlers.IsLocal fine rules) {calls : List Dispatch}
    (hk : ∀ call ∈ calls, kinds call.1.concept call.1.action) :
    Moves (WorksOn fine kinds id serial) (dispatch handlers serial calls) := by
  induction calls with
  | nil => exact Moves.pure _
  | cons call rest ih =>
    obtain ⟨template, args⟩ := call
    rw [List.forall_mem_cons] at hk
    have ih := ih hk.2
    unfold dispatch
    refine Moves.bind (moves_permits template args) fun permitted => ?_
    split
    · refine moves_state_bind fun flow hid => ?_
      rw [hid]
      refine Moves.bind (moves_perform hl hk.1 _).attempt fun outcome => ?_
      split
      · exact ih
      · exact Moves.bind (Moves.throw _) fun _ => ih
    · exact ih

/-- What happens while the engine waits happens to the world. -/
theorem moves_waiting (hl : handlers.IsLocal fine rules) :
    Moves (WorksOn fine kinds id serial) handlers.waiting.before ∧
      Moves (WorksOn fine kinds id serial) handlers.waiting.after :=
  ⟨moves_of_local _ fun engine hw => ⟨_, engine.journal, hl.before _ hw, rfl⟩,
    moves_of_local _ fun engine hw => ⟨_, engine.journal, hl.after _ hw, rfl⟩⟩

/-- The stages of a rule leave the flow as it is. -/
theorem moves_applyAll (hl : handlers.IsLocal fine rules) {rule : Rule κ} (hr : rule ∈ rules)
    (frames : List Frame) :
    Moves (WorksOn fine kinds id serial)
      (Stage.applyAll handlers.adapters rule.stages frames) :=
  Moves.applyAll _ _
    (fun _ _ _ hmem args => moves_of_local _ (hl.adapt rule hr _ _ _ hmem args))
    (moves_waiting hl).1 (moves_waiting hl).2 frames

/-- What is prepared is what the frames that the stages left make of the rule. -/
theorem exists_dispatches_of_prepare {rule : Rule κ} {frames : List Frame}
    {calls : List (List Dispatch)} {engine engine' : Engine ω κ}
    (h : (prepare handlers rule frames).run engine = (.ok calls, engine')) :
    ∃ kept, rule.dispatches kept = .ok calls := by
  obtain ⟨outcome, engine₁, hattempt, h⟩ := exists_of_run_bind h
  cases outcome with
  | error fault => exact absurd (congrArg Prod.fst h) (by simp)
  | ok made =>
    obtain rfl : made = calls := Except.ok.inj (congrArg Prod.fst h)
    obtain ⟨hmade, -⟩ := Prod.mk.inj hattempt
    obtain ⟨kept, _, -, hdispatches⟩ := exists_of_run_bind (Prod.ext (Except.ok.inj hmade) rfl)
    exact ⟨kept, congrArg Prod.fst hdispatches⟩

/-- Carrying a rule out adds what its actions add. -/
theorem moves_carryOut (hl : handlers.IsLocal fine rules) {rule : Rule κ} (hr : rule ∈ rules)
    (hk : ∀ concept action, rule.Performs concept action → kinds concept action)
    (frames : List Frame) :
    Moves (WorksOn fine kinds id serial) (carryOut handlers serial rule frames) := by
  have hprepare : Moves (WorksOn fine kinds id serial) (prepare handlers rule frames) := by
    refine Moves.bind (Moves.attempt ?_) fun outcome => ?_
    · exact Moves.bind (moves_applyAll hl hr frames) fun _ => Moves.ofExcept _
    · split
      · exact Moves.pure _
      · exact Moves.throw _
  refine Moves.bind_of_ok hprepare fun engine calls engine' h => ?_
  obtain ⟨kept, hcalls⟩ := exists_dispatches_of_prepare h
  refine Moves.bind (Moves.gather (moves_waiting hl).1 (moves_waiting hl).2 fun mine hm => ?_)
    fun _ => Moves.pure _
  exact moves_dispatch hl fun call hc => hk _ _ (Rule.performs_of_mem_dispatches hcalls _ hm _ hc)

/-- Recording a fault adds it to the flow. -/
theorem moves_recordFault (rule : Rule κ) (fault : Fault) :
    Moves (WorksOn (ω := ω) fine kinds id serial) (recordFault serial rule fault) := by
  unfold recordFault
  refine moves_state_bind fun flow _ => Moves.bind ?_ fun _ => moves_note _
  exact moves_update fun flow => .addFault flow ..

end Parts

end Engine

end HerdBook
