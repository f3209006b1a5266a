import HerdBook.Proofs.Settled

/-!
# Rules in strata

Rules are in strata when none of them performs an action that itself or a rule before it watches
for (`Rule.Stratified`). Where, besides, all of them begin with a kind of event that none of them
brings about, a round is a single pass: when the rules have been evaluated once for the event that
the flow begins with, each has fired for all that it will ever find, and the events that are left in
the queue are taken off it to no effect.

## Main results

* `Engine.evaluateEach_hasFired`: after a pass every rule has fired for all it finds.
* `Engine.drain_of_pass`: what working on the flow comes to, given what the pass comes to.
-/

namespace HerdBook

open Effect

variable {ω κ : Type}

namespace Rule

/-- No rule performs an action that itself or a rule before it watches for. -/
def Stratified : List (Rule κ) → Prop
  | [] => True
  | rule :: rest =>
    (∀ later ∈ rule :: rest, ∀ kind ∈ later.performed, kind ∉ rule.watched) ∧ Stratified rest

instance decidableStratified : (rules : List (Rule κ)) → Decidable (Stratified rules)
  | [] => isTrue trivial
  | _ :: rest =>
    have := decidableStratified rest
    inferInstanceAs (Decidable (_ ∧ Stratified rest))

/-- The rule begins with events of a kind and does not bring them about. -/
structure IsRooted (rule : Rule κ) (concept action : String) : Prop where
  begins : ∃ pattern rest, rule.patterns = pattern :: rest ∧ pattern.concept = concept ∧
    pattern.action = action
  stays : ¬ rule.Performs concept action

end Rule

namespace Flow

variable {kinds : Kinds} {flow flow' : Flow} {rule : Rule κ}

/-- A rule that has fired for all it finds stays so while what it watches for does not happen. -/
theorem HasFired.grows (h : flow.HasFired rule) (hg : flow.Grows kinds flow')
    (hk : ∀ concept action, kinds concept action → (concept, action) ∉ rule.watched) :
    flow'.HasFired rule := by
  obtain ⟨found, hfound, hfired⟩ := h
  obtain ⟨more, hlog, -, hmore⟩ := hg.events
  have hsame : Pattern.combinations rule.patterns flow'.log
      = Pattern.combinations rule.patterns flow.log := by
    refine Pattern.combinations_congr fun pattern hp => ?_
    rw [hlog, List.filter_append, List.append_right_eq_self, List.filter_eq_nil_iff]
    intro event he hc
    refine hk _ _ (hmore event he) ?_
    rw [(Pattern.kind_eq_of_concerns hc).1, (Pattern.kind_eq_of_concerns hc).2]
    exact List.mem_map_of_mem hp
  exact ⟨found, hsame.trans hfound, fun c hc => hg.fired.subset (hfired c hc)⟩

/-- The flow has no event of a kind but those with the number. -/
def HasOnly (flow : Flow) (concept action : String) (n : Nat) : Prop :=
  ∀ event ∈ flow.log, event.concept = concept → event.action = action → event.number = n

variable (flow) in
/-- A flow that grows by other kinds has no further event of the kind. -/
theorem HasOnly.grows {concept action : String} {n : Nat} (h : flow.HasOnly concept action n)
    (hg : flow.Grows kinds flow') (hk : ¬ kinds concept action) :
    flow'.HasOnly concept action n := by
  obtain ⟨more, hlog, -, hmore⟩ := hg.events
  intro event he hc ha
  rw [hlog] at he
  rcases List.mem_append.mp he with he | he
  · exact h event he hc ha
  · exact absurd (hc ▸ ha ▸ hmore event he) hk

/-- A rule that begins with a kind of event of which there is one has fired for all it finds once it
has fired for what that event is part of. -/
theorem hasFired_fire {concept action : String} {n : Nat} {found : List Combination}
    (hr : rule.IsRooted concept action) (h : flow.HasOnly concept action n)
    (hfresh : flow.fresh rule (some n) = .ok found) : (flow.fire rule found).HasFired rule := by
  obtain ⟨pattern, rest, hpatterns, hc, ha⟩ := hr.begins
  obtain ⟨all, hall, rfl⟩ := fresh_eq_ok_iff.mp hfresh
  refine ⟨all, hall, fun c hcm => ?_⟩
  by_cases hfired : (rule.name, c.2) ∈ flow.fired
  · exact List.mem_append_left _ hfired
  refine List.mem_append_right _ (List.mem_map_of_mem (List.mem_filter.mpr ⟨hcm, ?_⟩))
  rw [hpatterns] at hall
  obtain ⟨event, he, hn⟩ := Pattern.uses_of_mem_combinations hall c hcm
  obtain ⟨he, hcon⟩ := List.mem_filter.mp he
  obtain ⟨hec, hea⟩ := Pattern.kind_eq_of_concerns hcon
  rw [h event he (hec.trans hc) (hea.trans ha)] at hn
  simpa [hfired] using hn

end Flow

namespace Engine

variable {fine : ω → Prop} {all : List (Rule κ)} {handlers : Handlers ω κ} {id : String}
  {serial : Nat}
  {engine engine' : Engine ω κ} {flow : Flow}

/-- After a pass over rules in strata every rule has fired for all it finds. -/
theorem evaluateEach_hasFired (hl : handlers.IsLocal fine all) {rules : List (Rule κ)}
    (hsub : ∀ rule ∈ rules, rule ∈ all)
    {concept action : String} {n : Nat} (hs : Rule.Stratified rules)
    (hr : ∀ rule ∈ rules, rule.IsRooted concept action) (hf : engine.HostsIn fine id serial flow)
    (ho : flow.HasOnly concept action n)
    (h : (evaluateEach handlers serial (some n) rules).run engine = (.ok (), engine')) :
    ∃ flow', engine'.HostsIn fine id serial flow' ∧
      flow.Grows (fun c a => ∃ rule ∈ rules, rule.Performs c a) flow' ∧
      SameBut serial engine engine' ∧ ∀ rule ∈ rules, flow'.HasFired rule := by
  induction rules generalizing engine flow with
  | nil =>
    obtain rfl : engine = engine' := congrArg Prod.snd h
    exact ⟨flow, hf, .refl flow, .refl serial engine, by simp⟩
  | cons rule rest ih =>
    rw [List.forall_mem_cons] at hr hsub
    obtain ⟨_, engine₁, h₁, h⟩ := exists_of_run_bind h
    obtain ⟨fresh, flow₁, hfresh, hf₁, hg₁, hs₁⟩ :=
      evaluate_grows hl hsub.1 (fun _ _ h => h) hf h₁
    have hfired := Flow.hasFired_fire hr.1 ho hfresh
    have ho₁ : flow₁.HasOnly concept action n :=
      Flow.HasOnly.grows (flow.fire rule fresh) ho hg₁ hr.1.stays
    obtain ⟨flow', hf', hg', hs', hrest⟩ := ih hsub.2 hs.2 hr.2 hf₁ ho₁ h
    have hg : (flow.fire rule fresh).Grows (fun c a => ∃ r ∈ rule :: rest, r.Performs c a) flow' :=
      (hg₁.weaken fun _ _ hp => ⟨rule, List.mem_cons_self, hp⟩).trans
        (hg'.weaken fun _ _ ⟨r, hm, hp⟩ => ⟨r, List.mem_cons_of_mem _ hm, hp⟩)
    refine ⟨flow', hf', (Flow.Grows.fire flow rule fresh).trans hg, hs₁.trans hs', ?_⟩
    refine List.forall_mem_cons.mpr ⟨hfired.grows hg ?_, hrest⟩
    rintro c a ⟨r, hm, hp⟩
    exact hs.1 r hm (c, a) hp

variable (engine) in
/-- A pass over all rules is one over each of them, when they stay what they are. -/
theorem evaluateAll_of_evaluateEach {trigger : Option Nat}
    (h : (evaluateEach handlers serial trigger engine.rules).run engine = (.ok (), engine'))
    (hrules : engine'.rules = engine.rules) :
    (evaluateAll handlers serial trigger).run engine = (.ok (), engine') := by
  unfold evaluateAll evaluateFrom
  rw [run_bind_ok (run_get engine), List.drop_zero]
  by_cases hempty : engine.rules.isEmpty = true
  · rw [if_pos hempty]
    rw [List.isEmpty_iff.mp hempty] at h
    exact h
  · rw [if_neg hempty, run_bind_ok h]
    unfold evaluateFrom
    rw [run_bind_ok (run_get engine'), Nat.zero_add, hrules, List.drop_length]
    rfl

/-- When every rule has fired for all it finds, the queue is emptied to no effect. -/
theorem drainLoop_of_hasFired {n : Nat} (hf : engine.Hosts id serial flow)
    (hr : ∀ rule ∈ engine.rules, flow.HasFired rule) (hn : flow.queue.length ≤ n) :
    (drainLoop handlers serial n).run engine
      = (.ok (), engine.change serial fun flow => { flow with queue := [] }) := by
  induction n generalizing engine flow with
  | zero =>
    have hq : flow.queue = [] := List.length_eq_zero_iff.mp (Nat.le_zero.mp hn)
    rw [drainLoop_of_empty 0 hf hq, hf.change_eq_self (by rw [← hq])]
  | succ n ih =>
    cases hq : flow.queue with
    | nil => rw [drainLoop_of_empty (n + 1) hf hq, hf.change_eq_self (by rw [← hq])]
    | cons event rest =>
      obtain ⟨hf₁, -⟩ := hf.change (f := fun flow => { flow with queue := flow.queue.tail }) rfl
      have hn₁ : flow.queue.tail.length ≤ n := by
        rw [hq] at hn ⊢
        simpa using hn
      unfold drainLoop
      rw [run_bind_ok hf.run_dequeue, hq, List.head?_cons]
      dsimp only
      rw [run_bind_ok (evaluateAll_of_hasFired hf₁ hr _), ih hf₁ hr hn₁, change_change]
      rfl

/-- Working on a flow of one event comes to one pass over the rules for that event, when these are
in strata and begin with its kind, and when the ceiling leaves room for what the pass adds. -/
theorem drain_of_pass (hl : handlers.IsLocal fine engine.rules) {concept action : String}
    {event : Event}
    {flow₁ : Flow} {engine₁ : Engine ω κ} (hs : Rule.Stratified engine.rules)
    (hr : ∀ rule ∈ engine.rules, rule.IsRooted concept action)
    (hf : engine.HostsIn fine id serial flow) (hidle : flow.draining = false)
    (hq : flow.queue = [event]) (ho : flow.HasOnly concept action event.number)
    (hpass : (evaluateEach handlers serial (some event.number) engine.rules).run
      (engine.change serial fun flow => { flow with queue := [], draining := true })
        = (.ok (), engine₁))
    (hf₁ : engine₁.Hosts id serial flow₁)
    (hroom : flow₁.queue.length ≤ flow.room engine.maxFlowEvents + handlers.reentries) :
    (drain handlers id).run engine = (.ok (), engine₁.change serial fun flow =>
      { flow with queue := [], draining := false }) := by
  obtain ⟨hf₀, hs₀⟩ :=
    hf.change (f := fun flow => { flow with queue := [], draining := true }) rfl
  obtain ⟨flow₁', hf₁', -, hs₁, hfired⟩ := evaluateEach_hasFired hl (fun _ hr => hr) hs hr hf₀ ho
    hpass
  obtain rfl : flow₁' = flow₁ := Option.some.inj (hf₁'.state.symm.trans hf₁.state)
  obtain ⟨hfd, -⟩ := hf.change (f := fun flow => { flow with draining := true }) rfl
  have hn : remaining handlers (engine.change serial fun flow => { flow with draining := true })
      serial = flow.room engine.maxFlowEvents + handlers.reentries + 1 := by
    simp only [remaining, hfd.state, Option.getD_some, hq]
    change 1 + flow.room engine.maxFlowEvents + _ = _
    omega
  -- taking the event off the queue leaves the engine that the pass begins with
  have hbegin : (engine.change serial fun flow => { flow with draining := true }).change serial
      (fun flow => { flow with queue := flow.queue.tail })
        = engine.change serial fun flow => { flow with queue := [], draining := true } := by
    rw [change_change]
    exact hf.change_congr (by simp [hq])
  have hrules : engine₁.rules = engine.rules := hs₁.rules
  unfold drain
  rw [run_bind_ok hf.run_serial, run_bind_ok hf.run_state, hidle, if_neg (by simp),
    run_bind_ok (run_update ..), run_bind_ok (run_get _), run_ensuring, hn]
  unfold drainLoop
  rw [run_bind_ok hfd.run_dequeue, hbegin]
  simp only [hq, List.head?_cons]
  rw [run_bind_ok (evaluateAll_of_evaluateEach (engine.change serial
      fun flow => { flow with queue := [], draining := true }) hpass hrules),
    drainLoop_of_hasFired hf₁ (hrules ▸ hfired) hroom, change_change]
  rfl

end Engine

end HerdBook
