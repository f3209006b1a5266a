import HerdBook.Proofs.Growth
import HerdBook.Proofs.Joins

/-!
# Settled flows

A flow is settled when no rule has anything to do on it: its queue is empty, nobody works on it,
and every combination that a rule finds on its log has fired.

A round never looks at all combinations. For each event that it takes off the queue, it evaluates
the rules on the combinations of that event alone, while the log grows. That nothing is missed is
an invariant of the work on a flow (`Flow.Covers`): a combination that has not fired uses an event
that is still to come. An event that is added to the log is added to the queue, so growth keeps the
invariant; and evaluating a rule makes up for the event that was taken off the queue.

## Main results

* `Engine.evaluate_covers`, `Engine.evaluateAll_covers`: what one evaluation makes up for, and what
  a pass over all rules does.
* `Engine.drain_settles`: a queue that is worked off leaves a settled flow.
* `Engine.rounds_settle`: so does every round that ends well, and evaluating the rules again on a
  settled flow does nothing at all.
-/

namespace HerdBook

open Effect

variable {ω κ : Type}

namespace Flow

/-- The rule has fired for every combination that it finds on the log. -/
def HasFired (flow : Flow) (rule : Rule κ) : Prop :=
  ∃ found, Pattern.combinations rule.patterns flow.log = .ok found ∧
    ∀ c ∈ found, (rule.name, c.2) ∈ flow.fired

/-- No rule has anything to do on the flow. -/
structure IsSettled (rules : List (Rule κ)) (flow : Flow) : Prop where
  queue : flow.queue = []
  idle : flow.draining = false
  fired : ∀ rule ∈ rules, flow.HasFired rule

/-- What the rule finds on the log and has not fired for uses an event that is still to come: one
of the queue, or one of those that are pending. -/
def Covers (flow : Flow) (rule : Rule κ) (pending : List Event) : Prop :=
  ∀ found, Pattern.combinations rule.patterns flow.log = .ok found →
    ∀ c ∈ found, (rule.name, c.2) ∈ flow.fired ∨ Pattern.Uses (pending ++ flow.queue) c

/-- The rule has nothing to make up for: what it has not fired for uses an event of the queue, and
once the queue is empty the rule can be matched against the log. -/
structure IsCovered (flow : Flow) (rule : Rule κ) : Prop where
  covers : flow.Covers rule []
  found : flow.queue = [] → ∃ found, Pattern.combinations rule.patterns flow.log = .ok found

variable {kinds : Kinds} {flow flow' : Flow} {rule : Rule κ} {pending : List Event}

/-- A flow that grows misses nothing: what is new in its log is in its queue too. -/
theorem Covers.grows (h : flow.Covers rule pending) (hg : flow.Grows kinds flow') :
    flow'.Covers rule pending := by
  obtain ⟨more, hlog, hqueue, -⟩ := hg.events
  intro found' hf' c hc
  rw [hlog] at hf'
  obtain ⟨found, hf, hnew⟩ := Pattern.combinations_append hf'
  rw [hqueue]
  rcases hnew c hc with hold | ⟨event, he, hn⟩
  · rcases h found hf c hold with hfired | ⟨event, he, hn⟩
    · exact .inl (hg.fired.subset hfired)
    · exact .inr ⟨event, by rw [← List.append_assoc]; exact List.mem_append_left _ he, hn⟩
  · exact .inr ⟨event, List.mem_append_right _ (List.mem_append_right _ he), hn⟩

/-- A flow that grows stays covered. -/
theorem IsCovered.grows (h : flow.IsCovered rule) (hg : flow.Grows kinds flow') :
    flow'.IsCovered rule := by
  refine ⟨h.covers.grows hg, fun hempty => ?_⟩
  obtain ⟨more, hlog, hqueue, -⟩ := hg.events
  rw [hqueue, List.append_eq_nil_iff] at hempty
  obtain ⟨hq, rfl⟩ := hempty
  obtain ⟨found, hf⟩ := h.found hq
  exact ⟨found, by rwa [hlog, List.append_nil]⟩

/-- An event that is taken off the queue is pending. -/
theorem IsCovered.dequeue {event : Event} {rest : List Event} (h : flow.IsCovered rule)
    (hq : flow.queue = event :: rest) :
    Covers { flow with queue := flow.queue.tail } rule [event] := by
  intro found hf c hc
  have hcov := h.covers found hf c hc
  rw [hq] at hcov
  simpa only [hq, List.tail_cons, List.nil_append, List.singleton_append] using hcov

/-- The combinations that are new to a rule, as it finds them. -/
theorem fresh_eq_ok_iff {trigger : Option Nat} {found : List Combination} :
    flow.fresh rule trigger = .ok found ↔
      ∃ all, Pattern.combinations rule.patterns flow.log = .ok all ∧
        found = all.filter fun c =>
          trigger.all (fun n => c.2.contains n) && !flow.fired.contains (rule.name, c.2) := by
  rw [fresh, bind_eq_ok_iff]
  refine exists_congr fun all => and_congr Iff.rfl ?_
  exact ⟨fun h => (Except.ok.inj h).symm, fun h => congrArg Except.ok h.symm⟩

/-- A rule that has fired for what is new to it has nothing to make up for. -/
theorem IsCovered.fire {trigger : Option Event} {found : List Combination}
    (hp : ∀ event ∈ trigger, flow.Covers rule [event])
    (h : flow.fresh rule (trigger.map Event.number) = .ok found) :
    (flow.fire rule found).IsCovered rule := by
  obtain ⟨all, hall, rfl⟩ := fresh_eq_ok_iff.mp h
  refine ⟨fun all' hall' c hc => ?_, fun _ => ⟨all, hall⟩⟩
  obtain rfl : all = all' := Except.ok.inj (hall.symm.trans hall')
  by_cases hfired : (rule.name, c.2) ∈ flow.fired
  · exact .inl (List.mem_append_left _ hfired)
  by_cases htrigger : (trigger.map Event.number).all (fun n => c.2.contains n) = true
  · refine .inl (List.mem_append_right _ (List.mem_map_of_mem (List.mem_filter.mpr ⟨hc, ?_⟩)))
    simpa [hfired] using htrigger
  · -- only a trigger that the combination does not use keeps it from being new
    cases trigger with
    | none => exact absurd rfl htrigger
    | some event =>
      have hn : event.number ∉ c.2 := by simpa using htrigger
      rcases hp event rfl all hall c hc with hf | ⟨other, ho, hon⟩
      · exact absurd hf hfired
      · rcases List.mem_cons.mp ho with rfl | ho
        · exact absurd hon hn
        · exact .inr ⟨other, ho, hon⟩

/-- Firing for nothing changes nothing. -/
@[simp] theorem fire_nil (flow : Flow) (rule : Rule κ) : flow.fire rule [] = flow := by
  simp [Flow.fire]

/-- On an empty log no rule finds anything. -/
theorem isCovered_start (h : rule.checked = .ok rule) (id : String) :
    (Flow.start id).IsCovered rule := by
  have hne : rule.patterns ≠ [] := by
    intro hnil
    rw [Rule.checked, if_pos (List.isEmpty_iff.mpr hnil)] at h
    exact nomatch h
  have hnone := Pattern.combinations_nil hne
  refine ⟨fun found hf c hc => ?_, fun _ => ⟨[], hnone⟩⟩
  obtain rfl : [] = found := Except.ok.inj (hnone.symm.trans hf)
  exact absurd hc (by simp)

/-- A rule that has fired for all it finds has nothing to make up for. -/
theorem HasFired.isCovered (h : flow.HasFired rule) : flow.IsCovered rule := by
  obtain ⟨found, hfound, hfired⟩ := h
  refine ⟨fun other hother c hc => ?_, fun _ => ⟨found, hfound⟩⟩
  obtain rfl : found = other := Except.ok.inj (hfound.symm.trans hother)
  exact .inl (hfired c hc)

/-- A flow that is covered and whose queue is empty is settled once nobody works on it. -/
theorem isSettled_of_isCovered {rules : List (Rule κ)} (hq : flow.queue = [])
    (hc : ∀ rule ∈ rules, flow.IsCovered rule) :
    IsSettled rules { flow with draining := false } where
  queue := hq
  idle := rfl
  fired := fun rule hr => by
    obtain ⟨found, hfound⟩ := (hc rule hr).found hq
    refine ⟨found, hfound, fun c hcf => ?_⟩
    rcases (hc rule hr).covers found hfound c hcf with h | ⟨event, he, _⟩
    · exact h
    · simp [hq] at he

end Flow

namespace Engine

variable {fine : ω → Prop} {all : List (Rule κ)} {handlers : Handlers ω κ} {kinds : Kinds}
  {id : String} {serial : Nat} {engine engine' : Engine ω κ} {flow : Flow} {trigger : Option Event}

/-! ### Evaluating rules -/

/-- An evaluation that ends well fires for what is new to the rule, and then the flow grows by what
the rule performs. -/
theorem evaluate_grows (hl : handlers.IsLocal fine all) {rule : Rule κ} (hr : rule ∈ all)
    {trigger : Option Nat}
    (hk : ∀ concept action, rule.Performs concept action → kinds concept action)
    (hf : engine.HostsIn fine id serial flow)
    (h : (evaluate handlers serial trigger rule).run engine = (.ok (), engine')) :
    ∃ fresh flow', flow.fresh rule trigger = .ok fresh ∧ engine'.HostsIn fine id serial flow' ∧
      (flow.fire rule fresh).Grows kinds flow' ∧ SameBut serial engine engine' := by
  unfold evaluate at h
  rw [run_bind_ok hf.run_state] at h
  obtain ⟨fresh, _, hread, h⟩ := exists_of_run_bind h
  obtain ⟨hfresh, rfl⟩ := Prod.mk.inj hread
  rw [mapError_eq_ok_iff] at hfresh
  by_cases hempty : fresh.isEmpty = true
  · rw [if_pos hempty] at h
    obtain rfl : engine = engine' := congrArg Prod.snd h
    obtain rfl := List.isEmpty_iff.mp hempty
    exact ⟨[], flow, hfresh, hf, by rw [Flow.fire_nil]; exact .refl flow, .refl serial engine⟩
  · rw [if_neg hempty] at h
    obtain ⟨hf₁, hs₁⟩ := hf.change (f := fun flow => flow.fire rule fresh) rfl
    obtain ⟨_, engine₁, h₁, h⟩ := exists_of_run_bind h
    obtain rfl : engine.change serial (fun flow => flow.fire rule fresh) = engine₁ :=
      congrArg Prod.snd h₁
    -- what follows the firing only adds to the flow
    obtain ⟨flow', hf', hg, hs⟩ := Moves.of_run (R := WorksOn fine kinds id serial) (by
      refine Moves.bind (moves_note _) fun _ =>
        Moves.bind (moves_carryOut hl hr hk _).attempt fun outcome => ?_
      split
      · exact Moves.pure _
      · split
        · exact moves_recordFault rule _
        · exact Moves.throw _) h _ hf₁
    exact ⟨fresh, flow', hfresh, hf', hg, hs₁.trans hs⟩

/-- An evaluation that ends well has nothing left to make up for. -/
theorem evaluate_covers (hl : handlers.IsLocal fine all) {rule : Rule κ} (hr : rule ∈ all)
    (hk : ∀ concept action, rule.Performs concept action → kinds concept action)
    (hf : engine.HostsIn fine id serial flow) (hp : ∀ event ∈ trigger, flow.Covers rule [event])
    (h : (evaluate handlers serial (trigger.map Event.number) rule).run engine
      = (.ok (), engine')) :
    ∃ flow', engine'.HostsIn fine id serial flow' ∧ flow.Grows kinds flow' ∧
      SameBut serial engine engine' ∧ flow'.IsCovered rule := by
  obtain ⟨fresh, flow', hfresh, hf', hg, hs⟩ := evaluate_grows hl hr hk hf h
  exact ⟨flow', hf', (Flow.Grows.fire flow rule fresh).trans hg, hs,
    (Flow.IsCovered.fire hp hfresh).grows hg⟩

/-- An evaluation of several rules that ends well leaves none of them anything to make up for. -/
theorem evaluateEach_covers (hl : handlers.IsLocal fine all) {rules : List (Rule κ)}
    (hr : ∀ rule ∈ rules, rule ∈ all)
    (hk : ∀ rule ∈ rules, ∀ concept action, rule.Performs concept action → kinds concept action)
    (hf : engine.HostsIn fine id serial flow)
    (hp : ∀ rule ∈ rules, ∀ event ∈ trigger, flow.Covers rule [event])
    (h : (evaluateEach handlers serial (trigger.map Event.number) rules).run engine
      = (.ok (), engine')) :
    ∃ flow', engine'.HostsIn fine id serial flow' ∧ flow.Grows kinds flow' ∧
      SameBut serial engine engine' ∧ ∀ rule ∈ rules, flow'.IsCovered rule := by
  induction rules generalizing engine flow with
  | nil =>
    obtain rfl : engine = engine' := congrArg Prod.snd h
    exact ⟨flow, hf, .refl flow, .refl serial engine, by simp⟩
  | cons rule rest ih =>
    rw [List.forall_mem_cons] at hp hk hr
    obtain ⟨_, engine₁, h₁, h⟩ := exists_of_run_bind h
    obtain ⟨flow₁, hf₁, hg₁, hs₁, hc₁⟩ := evaluate_covers hl hr.1 hk.1 hf hp.1 h₁
    have hp₁ : ∀ rule ∈ rest, ∀ event ∈ trigger, flow₁.Covers rule [event] :=
      fun rule hr event he => (hp.2 rule hr event he).grows hg₁
    obtain ⟨flow', hf', hg', hs', hc'⟩ := ih hr.2 hk.2 hf₁ hp₁ h
    refine ⟨flow', hf', hg₁.trans hg', hs₁.trans hs', ?_⟩
    exact List.forall_mem_cons.mpr ⟨hc₁.grows hg', hc'⟩

variable (engine trigger) in
/-- A pass over all rules that ends well leaves none of them anything to make up for. -/
theorem evaluateAll_covers (hl : handlers.IsLocal fine engine.rules)
    (hk : ∀ rule ∈ engine.rules, ∀ concept action,
      rule.Performs concept action → kinds concept action)
    (hf : engine.HostsIn fine id serial flow)
    (hp : ∀ rule ∈ engine.rules, ∀ event ∈ trigger, flow.Covers rule [event])
    (h : (evaluateAll handlers serial (trigger.map Event.number)).run engine = (.ok (), engine')) :
    ∃ flow', engine'.HostsIn fine id serial flow' ∧ flow.Grows kinds flow' ∧
      SameBut serial engine engine' ∧ ∀ rule ∈ engine.rules, flow'.IsCovered rule := by
  have hget : (get : Effect (Engine ω κ) (Engine ω κ)).run engine = (.ok engine, engine) := rfl
  unfold evaluateAll evaluateFrom at h
  rw [run_bind_ok hget, List.drop_zero] at h
  dsimp only at h
  by_cases hempty : engine.rules.isEmpty = true
  · rw [if_pos hempty] at h
    obtain rfl : engine = engine' := congrArg Prod.snd h
    refine ⟨flow, hf, .refl flow, .refl serial engine, ?_⟩
    simp [List.isEmpty_iff.mp hempty]
  · rw [if_neg hempty] at h
    obtain ⟨_, engine₁, h₁, h⟩ := exists_of_run_bind h
    obtain ⟨flow', hf', hg, hs, hc⟩ := evaluateEach_covers hl (fun _ hr => hr) hk hf hp h₁
    -- the rules are the same afterwards, so there is no second turn
    have hget₁ : (get : Effect (Engine ω κ) (Engine ω κ)).run engine₁ = (.ok engine₁, engine₁) :=
      rfl
    have hdrop : engine₁.rules.drop (0 + engine.rules.length) = [] := by
      rw [hs.rules, Nat.zero_add, List.drop_length]
    unfold evaluateFrom at h
    rw [run_bind_ok hget₁, hdrop] at h
    obtain rfl : engine₁ = engine' := congrArg Prod.snd h
    exact ⟨flow', hf', hg, hs, hc⟩

/-! ### Working a queue off -/

/-- The first event of the queue is taken off it. -/
theorem Hosts.run_dequeue (hf : engine.Hosts id serial flow) :
    (dequeue serial).run engine = (.ok flow.queue.head?,
      engine.change serial fun flow => { flow with queue := flow.queue.tail }) := by
  unfold dequeue
  rw [run_bind_ok hf.run_state]
  rfl

/-- Taking an event off an empty queue changes nothing. -/
theorem Hosts.run_dequeue_of_empty (hf : engine.Hosts id serial flow) (hq : flow.queue = []) :
    (dequeue serial).run engine = (.ok none, engine) := by
  have hsame : { flow with queue := flow.queue.tail } = flow := by
    rw [hq, List.tail_nil, ← hq]
  rw [hf.run_dequeue, hf.change_eq_self hsame, hq, List.head?_nil]

/-- On an empty queue there is nothing to work off. -/
theorem drainLoop_of_empty (n : Nat) (hf : engine.Hosts id serial flow) (hq : flow.queue = []) :
    (drainLoop handlers serial n).run engine = (.ok (), engine) := by
  cases n <;>
  · unfold drainLoop
    rw [run_bind_ok (hf.run_dequeue_of_empty hq)]
    rfl

variable (engine) in
/-- A queue that is worked off leaves a flow on which every rule has fired for all it finds. -/
theorem drainLoop_covers (hl : handlers.IsLocal fine engine.rules) (n : Nat)
    (hf : engine.HostsIn fine id serial flow)
    (hc : ∀ rule ∈ engine.rules, flow.IsCovered rule)
    (h : (drainLoop handlers serial n).run engine = (.ok (), engine')) :
    ∃ flow', engine'.HostsIn fine id serial flow' ∧ SameBut serial engine engine' ∧ flow'.queue = []
      ∧
      ∀ rule ∈ engine.rules, flow'.IsCovered rule := by
  induction n generalizing engine flow with
  | zero =>
    cases hq : flow.queue with
    | nil =>
      rw [drainLoop_of_empty 0 hf.toHosts hq] at h
      obtain rfl := congrArg Prod.snd h
      exact ⟨flow, hf, .refl serial engine, hq, hc⟩
    | cons event rest =>
      unfold drainLoop at h
      rw [run_bind_ok hf.run_dequeue, hq] at h
      exact absurd (congrArg Prod.fst h) (by simp)
  | succ n ih =>
    cases hq : flow.queue with
    | nil =>
      rw [drainLoop_of_empty (n + 1) hf.toHosts hq] at h
      obtain rfl := congrArg Prod.snd h
      exact ⟨flow, hf, .refl serial engine, hq, hc⟩
    | cons event rest =>
      unfold drainLoop at h
      rw [run_bind_ok hf.run_dequeue, hq] at h
      obtain ⟨_, engine₂, h₂, h⟩ := exists_of_run_bind h
      obtain ⟨hf₁, hs₁⟩ := hf.change (f := fun flow => { flow with queue := flow.queue.tail }) rfl
      have hpending : ∀ rule ∈ engine.rules, ∀ pending ∈ some event,
          Flow.Covers { flow with queue := flow.queue.tail } rule [pending] := by
        intro rule hr pending hp
        obtain rfl : event = pending := Option.some.inj hp
        exact (hc rule hr).dequeue hq
      obtain ⟨flow₂, hf₂, -, hs₂, hc₂⟩ :=
        evaluateAll_covers (engine.change serial _) (some event) hl
          (fun _ _ _ _ _ => trivial) hf₁ hpending h₂
      obtain ⟨flow', hf', hs', hempty, hc'⟩ := ih _ (hs₂.rules.symm ▸ hl) hf₂ (hs₂.rules ▸ hc₂) h
      refine ⟨flow', hf', hs₁.trans (hs₂.trans hs'), hempty, ?_⟩
      rwa [hs₂.rules] at hc'

/-- The flow with an id is settled. -/
def IsSettled (engine : Engine ω κ) (id : String) : Prop :=
  ∃ serial flow, engine.Hosts id serial flow ∧ flow.IsSettled engine.rules

/-- Working on a covered flow leaves it settled. -/
theorem drain_settles (hl : handlers.IsLocal fine engine.rules)
    (hf : engine.HostsIn fine id serial flow)
    (hidle : flow.draining = false) (hc : ∀ rule ∈ engine.rules, flow.IsCovered rule)
    (h : (drain handlers id).run engine = (.ok (), engine')) : engine'.IsSettled id := by
  obtain ⟨hf₁, hs₁⟩ := hf.change (f := fun flow => { flow with draining := true }) rfl
  have hc₁ : ∀ rule ∈ engine.rules, Flow.IsCovered { flow with draining := true } rule :=
    fun rule hr => ⟨(hc rule hr).covers, (hc rule hr).found⟩
  unfold drain at h
  rw [run_bind_ok hf.run_serial, run_bind_ok hf.run_state, hidle, if_neg (by simp)] at h
  obtain ⟨_, engine₁, h₁, h⟩ := exists_of_run_bind h
  obtain rfl : engine.change serial (fun flow => { flow with draining := true }) = engine₁ :=
    congrArg Prod.snd h₁
  obtain ⟨_, engine₂, h₂, h⟩ := exists_of_run_bind h
  obtain ⟨-, rfl⟩ := Prod.mk.inj h₂
  rw [run_ensuring] at h
  obtain ⟨hok, rfl⟩ := Prod.mk.inj h
  obtain ⟨flow', hf', hs', hempty, hc'⟩ := drainLoop_covers (engine.change serial _) hl _ hf₁ hc₁
    (Prod.ext hok rfl)
  obtain ⟨hf'', hs''⟩ := hf'.change (f := fun flow => { flow with draining := false }) rfl
  refine ⟨serial, _, hf''.toHosts, ?_⟩
  rw [hs''.rules, hs'.rules]
  exact Flow.isSettled_of_isCovered hempty hc'

/-! ### Rounds -/

/-- The id leads to the flow with the number: it stands for it, or it is free, and then the flow is
a new one. -/
def LeadsTo (engine : Engine ω κ) (id : String) (serial : Nat) (flow : Flow) : Prop :=
  engine.Hosts id serial flow ∨
    Table.get? id engine.retained = none ∧ serial = engine.states.length ∧ flow = .start id

/-- Two engines that differ in their flows and the journal at most. -/
structure SameSetup (engine engine' : Engine ω κ) : Prop where
  rules : engine'.rules = engine.rules
  terminals : engine'.terminals = engine.terminals
  maxFlowEvents : engine'.maxFlowEvents = engine.maxFlowEvents
  maxRetained : engine'.maxRetained = engine.maxRetained
  world : engine'.world = engine.world

/-- A flow that is opened is there. -/
theorem hosts_openFlow (engine : Engine ω κ) (id : String) :
    (engine.openFlow id).Hosts id engine.states.length (.start id) where
  retained := by simp [openFlow, Table.get?_set]
  state := by simp [openFlow]
  named := rfl

/-- The id of a flow leads to its number, and then the flow is there. -/
theorem LeadsTo.run_serialOrNew (h : engine.LeadsTo id serial flow) :
    ∃ engine₁, (serialOrNew id).run engine = (.ok serial, engine₁) ∧
      engine₁.Hosts id serial flow ∧ SameSetup engine engine₁ := by
  rcases h with h | ⟨hfree, rfl, rfl⟩
  · exact ⟨engine, h.run_serialOrNew, h, rfl, rfl, rfl, rfl, rfl⟩
  · refine ⟨engine.openFlow id, ?_, hosts_openFlow engine id, rfl, rfl, rfl, rfl, rfl⟩
    rw [serialOrNew, run_bind_ok (run_get engine), hfree]
    rfl

/-- Asking for a concept leaves the engine as it is. -/
theorem run_requireConcept_snd (concept : String) (engine : Engine ω κ) :
    ((requireConcept handlers concept).run engine).2 = engine := by
  have hget : (get : Effect (Engine ω κ) (Engine ω κ)).run engine = (.ok engine, engine) := rfl
  unfold requireConcept
  rw [run_bind_ok hget]
  split <;> rfl

variable (kinds) in
/-- An action that is performed adds an event, which carries the id of the flow. -/
theorem perform_grows (hl : handlers.IsLocal fine all) {concept action : String}
    (hk : kinds concept action) {input : Value} {event : Event} (hw : fine engine.world)
    (hf : engine.LeadsTo id serial flow)
    (h : (perform handlers concept action input id).run engine = (.ok event, engine')) :
    ∃ flow', engine'.HostsIn fine id serial flow' ∧ flow.Grows kinds flow' ∧
      engine'.rules = engine.rules ∧ event.flow = id := by
  unfold perform at h
  obtain ⟨_, engine₀, h₀, h⟩ := exists_of_run_bind h
  obtain rfl : engine = engine₀ := by
    rw [← run_requireConcept_snd concept engine, h₀]
  obtain ⟨engine₁, h₁, hf₁, hsame⟩ := hf.run_serialOrNew
  rw [run_bind_ok h₁] at h
  obtain ⟨_, engine₂, h₂, h⟩ := exists_of_run_bind h
  obtain ⟨_, hf₂, hg₂, hs₂⟩ := (moves_requireRoom kinds id).of_run h₂ _
    ⟨hf₁, hsame.world ▸ hw⟩
  obtain ⟨fields, engine₃, h₃, h⟩ := exists_of_run_bind h
  obtain ⟨-, rfl⟩ := Prod.mk.inj h₃
  obtain ⟨output, engine₄, h₄, h⟩ := exists_of_run_bind h
  obtain ⟨flow₄, hf₄, hg₄, hs₄⟩ :=
    (moves_of_local kinds (hl.perform concept action fields)).of_run h₄ _ hf₂
  -- the event is the one that the flow records
  unfold record at h
  rw [run_bind_ok hf₄.run_state] at h
  obtain ⟨hevent, rfl⟩ := Prod.mk.inj h
  obtain ⟨hf₅, hs₅⟩ := hf₄.change (f := fun flow => (flow.record concept action fields output).1)
    rfl
  refine ⟨_, hf₅, hg₂.trans (hg₄.trans (.record flow₄ hk ..)), ?_, ?_⟩
  · rw [hs₅.rules, hs₄.rules, hs₂.rules, hsame.rules]
  · rw [← Except.ok.inj hevent]
    exact hf₄.named

/-- The ids that are let go do not include the one that is kept. -/
theorem Hosts.evict (hf : engine.Hosts id serial flow) (excess : Nat) :
    (engine.evict id excess).Hosts id serial flow ∧ SameSetup engine (engine.evict id excess) := by
  have hkeep : ∀ other ∈ (engine.idle id).take excess, other ≠ id := by
    intro other ho
    obtain ⟨entry, he, rfl⟩ := List.mem_map.mp (List.mem_of_mem_take ho)
    simpa using (Bool.and_eq_true_iff.mp (List.mem_filter.mp he).2).2
  unfold Engine.evict
  generalize (engine.idle id).take excess = others at hkeep
  induction others generalizing engine with
  | nil => exact ⟨hf, rfl, rfl, rfl, rfl, rfl⟩
  | cons other rest ih =>
    rw [List.forall_mem_cons] at hkeep
    have hnext : (engine.endFlow other).Hosts id serial flow :=
      ⟨(Table.get?_erase_of_ne hkeep.1 _).trans hf.retained, hf.state, hf.named⟩
    obtain ⟨hf', hs⟩ := ih hnext hkeep.2
    exact ⟨hf', hs.rules, hs.terminals, hs.maxFlowEvents, hs.maxRetained, hs.world⟩

/-- A flow that is started is there. -/
theorem run_startFlow_hosts (h : (startFlow (κ := κ)).run engine = (.ok id, engine')) :
    ∃ serial, engine'.Hosts id serial (.start id) ∧ SameSetup engine engine' := by
  have hget : ∀ e : Engine ω κ, (get : Effect (Engine ω κ) (Engine ω κ)).run e = (.ok e, e) :=
    fun _ => rfl
  unfold startFlow at h
  rw [run_bind_ok (hget _), run_bind_ok (run_modify ..), run_bind_ok (hget _)] at h
  split at h
  · exact absurd (congrArg Prod.fst h) (by simp)
  · rw [run_bind_ok (run_modify ..)] at h
    obtain ⟨hid, rfl⟩ := Prod.mk.inj h
    obtain rfl := Except.ok.inj hid
    obtain ⟨hf, hs⟩ := (hosts_openFlow { engine with started := engine.started + 1 } _).evict _
    exact ⟨_, hf, hs.rules, hs.terminals, hs.maxFlowEvents, hs.maxRetained, hs.world⟩

/-- What a round does once it has its flow leaves that settled, if it is covered. -/
theorem perform_drain_settles (hl : handlers.IsLocal fine engine.rules) (hw : fine engine.world)
    {concept action id : String} {input : Value} {serial : Nat} {flow : Flow} {event : Event}
    (hlead : engine.LeadsTo id serial flow) (hidle : flow.draining = false)
    (hc : ∀ rule ∈ engine.rules, flow.IsCovered rule)
    (h : (do
      let event ← perform handlers concept action input id
      drain handlers id
      return event : Effect (Engine ω κ) Event).run engine = (.ok event, engine')) :
    engine'.IsSettled event.flow := by
  obtain ⟨performed, engine₁, h₁, h⟩ := exists_of_run_bind h
  obtain ⟨flow₁, hf₁, hg, hr₁, rfl⟩ := perform_grows .all hl trivial hw hlead h₁
  obtain ⟨_, engine₂, h₂, h⟩ := exists_of_run_bind h
  obtain ⟨he, rfl⟩ := Prod.mk.inj h
  obtain rfl := Except.ok.inj he
  refine drain_settles (by rwa [hr₁]) hf₁ (hg.draining.trans hidle) (fun rule hr => ?_) h₂
  exact (hc rule (by rwa [hr₁] at hr)).grows hg

/-- A round that begins on a settled flow, or on a new one, leaves it settled. -/
theorem invoke_settles (hl : handlers.IsLocal fine engine.rules) (hw : fine engine.world)
    (hr : ∀ rule ∈ engine.rules, rule.checked = .ok rule) {concept action : String}
    {input : Value} {flow : Option String} {event : Event}
    (hf : ∀ id ∈ flow, engine.IsSettled id ∨ Table.get? id engine.retained = none)
    (h : (invoke handlers concept action input flow).run engine = (.ok event, engine')) :
    engine'.IsSettled event.flow := by
  have hnew : ∀ id, ∀ rule ∈ engine.rules, (Flow.start id).IsCovered rule :=
    fun id rule hrule => Flow.isCovered_start (hr rule hrule) id
  unfold invoke at h
  cases flow with
  | none =>
    obtain ⟨id, engine₁, h₁, h⟩ := exists_of_run_bind h
    obtain ⟨serial, hf₁, hs₁⟩ := run_startFlow_hosts h₁
    rw [← hs₁.rules] at hl hnew
    exact perform_drain_settles hl (hs₁.world ▸ hw) (.inl hf₁) rfl (hnew id) h
  | some id =>
    rw [run_bind_ok (run_pure ..)] at h
    rcases hf id rfl with ⟨serial, flow, hf, hs⟩ | hfree
    · exact perform_drain_settles hl hw (.inl hf) hs.idle
        (fun rule hr => (hs.fired rule hr).isCovered) h
    · exact perform_drain_settles hl hw (.inr ⟨hfree, rfl, rfl⟩) rfl (hnew id) h

/-- Evaluating the rules on the whole log of a flow that nobody works on leaves it settled. -/
theorem reevaluate_settles (hl : handlers.IsLocal fine engine.rules)
    (hf : engine.HostsIn fine id serial flow)
    (hidle : flow.draining = false)
    (h : (reevaluate handlers id).run engine = (.ok (), engine')) : engine'.IsSettled id := by
  unfold reevaluate at h
  rw [run_bind_ok hf.run_serial] at h
  obtain ⟨_, engine₁, h₁, h⟩ := exists_of_run_bind h
  obtain ⟨flow₁, hf₁, hg, hs₁, hc⟩ :=
    evaluateAll_covers _ none hl (fun _ _ _ _ _ => trivial) hf
      (fun _ _ _ he => nomatch he) h₁
  exact drain_settles (hs₁.rules ▸ hl) hf₁ (hg.draining.trans hidle) (hs₁.rules ▸ hc) h

/-- A rule that has fired for all it finds is not carried out again. -/
theorem evaluate_of_hasFired (hf : engine.Hosts id serial flow) {rule : Rule κ}
    (hr : flow.HasFired rule) (trigger : Option Nat) :
    (evaluate handlers serial trigger rule).run engine = (.ok (), engine) := by
  obtain ⟨found, hfound, hfired⟩ := hr
  have hfresh : flow.fresh rule trigger = .ok [] := by
    refine Flow.fresh_eq_ok_iff.mpr ⟨found, hfound, (List.filter_eq_nil_iff.mpr ?_).symm⟩
    intro c hc
    simp [hfired c hc]
  unfold evaluate
  rw [run_bind_ok hf.run_state, hfresh]
  rfl

/-- Nor are several of them. -/
theorem evaluateEach_of_hasFired (hf : engine.Hosts id serial flow) {rules : List (Rule κ)}
    (hr : ∀ rule ∈ rules, flow.HasFired rule) (trigger : Option Nat) :
    (evaluateEach handlers serial trigger rules).run engine = (.ok (), engine) := by
  induction rules with
  | nil => rfl
  | cons rule rest ih =>
    rw [List.forall_mem_cons] at hr
    unfold evaluateEach
    rw [run_bind_ok (evaluate_of_hasFired hf hr.1 trigger), ih hr.2]

/-- Nor are all of them. -/
theorem evaluateAll_of_hasFired (hf : engine.Hosts id serial flow)
    (hr : ∀ rule ∈ engine.rules, flow.HasFired rule) (trigger : Option Nat) :
    (evaluateAll handlers serial trigger).run engine = (.ok (), engine) := by
  unfold evaluateAll evaluateFrom
  rw [run_bind_ok (run_get engine), List.drop_zero]
  by_cases hempty : engine.rules.isEmpty = true
  · rw [if_pos hempty]
    rfl
  · rw [if_neg hempty, run_bind_ok (evaluateEach_of_hasFired hf hr trigger)]
    unfold evaluateFrom
    rw [run_bind_ok (run_get engine), Nat.zero_add, List.drop_length]
    rfl

/-- Working on a settled flow does nothing. -/
theorem drain_of_isSettled (hf : engine.Hosts id serial flow) (hs : flow.IsSettled engine.rules) :
    (drain handlers id).run engine = (.ok (), engine) := by
  obtain ⟨hf₁, -⟩ := hf.change (f := fun flow => { flow with draining := true }) rfl
  have hsame : { flow with draining := false } = flow := by
    rw [← hs.idle]
  have hback : (engine.change serial fun flow => { flow with draining := true }).change serial
      (fun flow => { flow with draining := false }) = engine := by
    rw [change_change]
    exact hf.change_eq_self hsame
  unfold drain
  rw [run_bind_ok hf.run_serial, run_bind_ok hf.run_state, hs.idle, if_neg (by simp),
    run_bind_ok (run_update ..), run_bind_ok (run_get _), run_ensuring,
    drainLoop_of_empty _ hf₁ hs.queue, hback]

/-- Evaluating the rules again on a settled flow does nothing at all. -/
theorem reevaluate_of_isSettled (hs : engine.IsSettled id) :
    (reevaluate handlers id).run engine = (.ok (), engine) := by
  obtain ⟨serial, flow, hf, hs⟩ := hs
  unfold reevaluate
  rw [run_bind_ok hf.run_serial, run_bind_ok (evaluateAll_of_hasFired hf hs.fired none)]
  exact drain_of_isSettled hf hs

/-- Nothing is missed. A round on a settled flow or on a new one that ends well leaves it settled,
and so does evaluating the rules on a flow that nobody works on, whatever has become of it before.
On a settled flow evaluating the rules changes nothing and asks nothing of any handlers. -/
theorem rounds_settle (hl : handlers.IsLocal fine engine.rules) (hw : fine engine.world)
    (hr : ∀ rule ∈ engine.rules, rule.checked = .ok rule) :
    (∀ concept action input (flow : Option String) event engine',
      (∀ id ∈ flow, engine.IsSettled id ∨ Table.get? id engine.retained = none) →
      (invoke handlers concept action input flow).run engine = (.ok event, engine') →
      engine'.IsSettled event.flow) ∧
    (∀ id serial flow engine', engine.Hosts id serial flow → flow.draining = false →
      (reevaluate handlers id).run engine = (.ok (), engine') → engine'.IsSettled id) ∧
    (∀ id (others : Handlers ω κ), engine.IsSettled id →
      (reevaluate others id).run engine = (.ok (), engine)) :=
  ⟨fun _ _ _ _ _ _ hf h => invoke_settles hl hw hr hf h,
    fun _ _ _ _ hf hidle h => reevaluate_settles hl ⟨hf, hw⟩ hidle h,
    fun _ _ hs => reevaluate_of_isSettled hs⟩

/-- Handlers of concepts that answer everything with an object without fields. -/
def plainHandlers : Handlers Unit Unit where
  isRegistered _ _ := true
  perform _ _ _ := pure (.object [])
  adapterName _ := ""
  adapt _ _ := pure (.list [])
  wait := ⟨pure (), pure ()⟩
  reentries := 0

/-- The rule by which a tick is followed by a tock. -/
def ticking : Rule Unit where
  name := "ticking"
  patterns := [⟨"Clock", "tick", .object [], .object []⟩]
  stages := []
  actions := [⟨"Clock", "tock", .object []⟩]

/-- An engine with that rule. -/
def tickingEngine : Engine Unit Unit :=
  { (Engine.start () (.count 4) (.count 4) : Engine Unit Unit) with rules := [ticking] }

/-- A tick leaves a settled flow, and nothing happens when the rule is evaluated on it again. -/
theorem rounds_settle_ticking :
    ∃ event engine',
      (invoke plainHandlers "Clock" "tick" (.object []) none).run tickingEngine
        = (.ok event, engine') ∧
      engine'.IsSettled event.flow ∧
      (reevaluate plainHandlers event.flow).run engine' = (.ok (), engine') := by
  have hl : plainHandlers.IsLocal (fun _ => True) tickingEngine.rules :=
    ⟨fun _ _ _ engine _ => ⟨engine.world, engine.journal, trivial, rfl⟩,
      fun _ _ _ _ _ _ _ engine _ => ⟨engine.world, engine.journal, trivial, rfl⟩,
      fun _ _ => trivial, fun _ _ => trivial⟩
  have hr : ∀ rule ∈ tickingEngine.rules, rule.checked = .ok rule := by
    simp [tickingEngine, ticking, Rule.checked]
  have hok : ((invoke plainHandlers "Clock" "tick" (.object []) none).run tickingEngine).1.isOk
      = true := by decide
  rcases hrun : (invoke plainHandlers "Clock" "tick" (.object []) none).run tickingEngine
    with ⟨_ | event, engine'⟩ <;> rw [hrun] at hok
  · exact nomatch hok
  · have hsettled := (rounds_settle hl trivial hr).1 _ _ _ none event engine' (by simp) hrun
    exact ⟨event, engine', rfl, hsettled, reevaluate_of_isSettled hsettled⟩

end Engine

end HerdBook
