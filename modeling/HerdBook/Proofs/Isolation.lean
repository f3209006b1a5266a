import HerdBook.Proofs.Containment
import HerdBook.Proofs.Settled
import Mathlib.Data.List.ProdSigma

/-!
# Faults stay where they arise

The fault of a rule ends its evaluation and nothing else: it is added to the flow, and the round
goes on with the next rule. So a round evaluates every rule for every event of the queue, whatever
the rules come to. There are exceptions, and they are all listed (`Scope.Escapes`): the ceiling of
the flow; an order to stop; a fault of the engine that is not one of those that abort a rule; and
what arises outside of the carrying out of a rule, in matching its patterns or in telling a response
apart.

## Main definitions

* `Engine.Evaluates`: one evaluation of a rule, with the fault that it ended in, if any.
* `Engine.Course`: evaluations one after the other, as the events are taken off the queue.

## Main results

* `Engine.evaluate_isolates`, `Engine.drainLoop_isolates`: one evaluation, and a queue.
* `Engine.invoke_isolates`: a round that has recorded its own action ends with what escapes, or it
  ends well, and then every rule was evaluated for every event of the queue.
-/

namespace HerdBook

open Effect

variable {ω κ : Type}

/-- An evaluation of a rule for an event, and the fault that it ended in. -/
structure Evaluation (κ : Type) where
  event : Event
  rule : Rule κ
  fault : Option Fault

namespace Evaluation

/-- What was evaluated. -/
def subject (evaluation : Evaluation κ) : Event × Rule κ := (evaluation.event, evaluation.rule)

/-- What a flow with the id holds about the evaluation: its fault, which names the rule and the
flow. -/
def report (id : String) (evaluation : Evaluation κ) : Option FlowFault :=
  evaluation.fault.map fun fault =>
    ⟨evaluation.rule.name, id, fault.attributedTo ⟨evaluation.rule.name, id⟩⟩

end Evaluation

/-- The flow with somebody working on it, or nobody. -/
def Flow.worked (busy : Bool) (flow : Flow) : Flow := { flow with draining := busy }

namespace Engine

variable {handlers : Handlers ω κ} {scope : Scope ω κ} {id : String} {serial : Nat}
  {flow flow' : Flow}
  {engine engine' engine'' : Engine ω κ} {trigger : Option Nat} {rule : Rule κ}

/-! ### One evaluation -/

variable (handlers serial trigger rule) in
/-- The evaluation of a rule up to the fault that it may end in. -/
def carryOutFresh : Effect (Engine ω κ) Unit := do
  let fresh ← Effect.ofExcept (((← state serial).fresh rule trigger).mapError Fault.misuse)
  if fresh.isEmpty then return
  update serial fun flow => flow.fire rule fresh
  note (.engine .debug s!"sync {rule.name} matched {fresh.length} frame(s)")
  carryOut handlers serial rule (fresh.map (·.1))

variable (serial rule) in
/-- What is done about the outcome of a rule. -/
def conclude : Except Fault Unit → Effect (Engine ω κ) Unit
  | .ok () => return
  | .error fault => if fault.abortsRule then recordFault serial rule fault else throw fault

/-- A rule is carried out and concluded. -/
theorem run_evaluate (engine : Engine ω κ) :
    (evaluate handlers serial trigger rule).run engine
      = (conclude serial rule ((carryOutFresh handlers serial trigger rule).run engine).1).run
          ((carryOutFresh handlers serial trigger rule).run engine).2 := by
  have hstate : (state serial).run engine = (.ok (engine.states[serial]?.getD default), engine) :=
    rfl
  have hnote : ∀ n (e : Engine ω κ), (note n).run e
      = (.ok (), { e with journal := e.journal.push n }) := fun _ _ => rfl
  unfold evaluate carryOutFresh
  rw [run_bind_ok hstate, run_bind_ok hstate]
  cases (engine.states[serial]?.getD default).fresh rule trigger with
  | error kind => rfl
  | ok fresh =>
    dsimp only [Except.mapError]
    rw [run_bind_ok (run_ofExcept ..), run_bind_ok (run_ofExcept ..)]
    by_cases hempty : fresh.isEmpty = true
    · rw [if_pos hempty, if_pos hempty]
      rfl
    · rw [if_neg hempty, if_neg hempty, run_bind_ok (run_update ..), run_bind_ok (run_update ..),
        run_bind_ok (hnote ..), run_bind_ok (hnote ..), run_bind_ok (run_attempt ..)]
      generalize (carryOut handlers serial rule _).run _ = ended
      obtain ⟨_ | _, engine₁⟩ := ended <;> rfl

variable (handlers serial trigger rule) in
/-- The rule was evaluated: it had its way, or its fault was recorded. -/
inductive Evaluates : Option Fault → Engine ω κ → Engine ω κ → Prop where
  | carriedOut {engine engine' : Engine ω κ}
    (h : (carryOutFresh handlers serial trigger rule).run engine = (.ok (), engine')) :
    Evaluates none engine engine'
  | aborted {engine engine₁ engine' : Engine ω κ} {fault : Fault}
    (h : (carryOutFresh handlers serial trigger rule).run engine = (.error fault, engine₁))
    (hr : (recordFault serial rule fault).run engine₁ = (.ok (), engine')) :
    Evaluates (some fault) engine engine'

variable (trigger) in
/-- Carrying out what is new to a rule ends in a fault that aborts the rule, or one that escapes. -/
theorem ends_carryOutFresh (hh : scope.Admits handlers) (hr : rule ∈ scope.rules) :
    scope.Ends flow (carryOutFresh handlers scope.serial trigger rule)
      (Scope.Only scope.Aborts) := by
  unfold carryOutFresh
  refine Scope.Ends.state_bind (Scope.Ends.misuse_bind (fun fresh _ => ?_) fun kind hkind => ?_)
  · split
    · exact .pure (Scope.only_ok _)
    refine Scope.Ends.update_bind (.of_log (.fire ..) rfl) (Scope.Ends.note_bind ?_)
    exact Scope.ends_carryOut hh hr _
  · refine Scope.only_error (.inr (.unmatched hr (List.prefix_refl _) ?_))
    rcases bind_eq_error_iff.mp hkind with h | ⟨_, -, h⟩
    · exact h
    · cases h

/-- A fault that is recorded is added to the flow, with the names of the rule and the flow. -/
theorem run_recordFault (hf : scope.Holds engine flow) (rule : Rule κ) (fault : Fault) :
    ∃ engine' flow', (recordFault scope.serial rule fault).run engine = (.ok (), engine') ∧
      scope.Holds engine' flow' ∧ scope.Extends flow flow' ∧ flow'.faults =
        flow.faults ++ [⟨rule.name, scope.id, fault.attributedTo ⟨rule.name, scope.id⟩⟩] := by
  unfold recordFault
  rw [run_bind_ok hf.run_state, hf.named]
  have hf' := hf.change (f := fun flow => flow.addFault rule.name
    (fault.attributedTo ⟨rule.name, scope.id⟩)) rfl
  refine ⟨_, _, rfl, hf'.note _, .of_log (.addFault ..) rfl, ?_⟩
  rw [Flow.addFault, hf.named]

/-- An evaluation ends with what escapes, or the rule was evaluated, and then its fault, if it ended
in one, was added to the flow. -/
theorem evaluate_isolates (hh : scope.Admits handlers) (hr : rule ∈ scope.rules)
    (hf : scope.Holds engine flow) {outcome : Except Fault Unit} (event : Event)
    (h : (evaluate handlers scope.serial trigger rule).run engine = (outcome, engine')) :
    ∃ flow', scope.Holds engine' flow' ∧ scope.Extends flow flow' ∧
      ((∃ fault, outcome = .error fault ∧ scope.Escapes fault flow') ∨
        outcome = .ok () ∧ ∃ fault, Evaluates handlers scope.serial trigger rule fault engine engine'
          ∧ (flow.faults ++ (Evaluation.report scope.id ⟨event, rule, fault⟩).toList).Sublist
            flow'.faults) := by
  obtain ⟨flow₁, hf₁, he₁, hmid⟩ := ends_carryOutFresh trigger hh hr engine hf
  have hfaults := he₁.grows.faults.sublist
  rw [run_evaluate] at h
  rcases hrun : (carryOutFresh handlers scope.serial trigger rule).run engine
    with ⟨fault | _, engine₁⟩ <;> rw [hrun] at hf₁ hmid h
  · by_cases haborts : fault.abortsRule = true
    · -- the fault is recorded, after all that were there
      obtain ⟨engine₂, flow₂, hrecord, hf₂, he₂, hadded⟩ := run_recordFault hf₁ rule fault
      rw [conclude, if_pos haborts, hrecord] at h
      obtain ⟨rfl, rfl⟩ := Prod.mk.inj h
      refine ⟨flow₂, hf₂, he₁.trans he₂, .inr ⟨rfl, some fault, .aborted hrun hrecord, ?_⟩⟩
      rw [hadded]
      exact hfaults.append (.refl _)
    · rw [conclude, if_neg haborts] at h
      obtain ⟨rfl, rfl⟩ := Prod.mk.inj h
      exact ⟨flow₁, hf₁, he₁, .inl ⟨fault, rfl, (hmid fault rfl).resolve_left haborts⟩⟩
  · obtain ⟨rfl, rfl⟩ := Prod.mk.inj h
    refine ⟨flow₁, hf₁, he₁, .inr ⟨rfl, none, .carriedOut hrun, ?_⟩⟩
    exact (List.append_nil flow.faults).symm ▸ hfaults

/-! ### Evaluations in order -/

variable (handlers serial) in
/-- Evaluations one after the other, and events taken off the queue in between. -/
inductive Course : List (Evaluation κ) → Engine ω κ → Engine ω κ → Prop where
  | done (engine : Engine ω κ) : Course [] engine engine
  | dequeued {engine engine₁ engine' : Engine ω κ} {event : Event} {rest : List (Evaluation κ)}
    (h : (dequeue serial).run engine = (.ok (some event), engine₁))
    (hrest : Course rest engine₁ engine') : Course rest engine engine'
  | evaluated {engine engine₁ engine' : Engine ω κ} {evaluation : Evaluation κ}
    {rest : List (Evaluation κ)}
    (h : Evaluates handlers serial (some evaluation.event.number) evaluation.rule evaluation.fault
      engine engine₁)
    (hrest : Course rest engine₁ engine') : Course (evaluation :: rest) engine engine'

/-- Two courses make one. -/
theorem Course.append {first rest : List (Evaluation κ)}
    (h : Course handlers serial first engine engine')
    (h' : Course handlers serial rest engine' engine'') :
    Course handlers serial (first ++ rest) engine engine'' := by
  induction h with
  | done => exact h'
  | dequeued hd _ ih => exact .dequeued hd (ih h')
  | evaluated he _ ih => exact .evaluated he (ih h')

/-- Evaluating rules for an event ends with what escapes, or all of them were evaluated. -/
theorem evaluateEach_isolates (hh : scope.Admits handlers) {rules : List (Rule κ)}
    (hr : ∀ rule ∈ rules, rule ∈ scope.rules) (hf : scope.Holds engine flow)
    {outcome : Except Fault Unit} (event : Event)
    (h : (evaluateEach handlers scope.serial (some event.number) rules).run engine
      = (outcome, engine')) :
    ∃ flow', scope.Holds engine' flow' ∧ scope.Extends flow flow' ∧
      ((∃ fault, outcome = .error fault ∧ scope.Escapes fault flow') ∨
        outcome = .ok () ∧ ∃ course, Course handlers scope.serial course engine engine' ∧
          course.map Evaluation.subject = rules.map (Prod.mk event) ∧
          (flow.faults ++ course.filterMap (Evaluation.report scope.id)).Sublist
            flow'.faults) := by
  induction rules generalizing engine flow with
  | nil =>
    obtain ⟨rfl, rfl⟩ := Prod.mk.inj h
    refine ⟨flow, hf, .refl flow, .inr ⟨rfl, [], .done engine, rfl, ?_⟩⟩
    exact (List.append_nil flow.faults).symm ▸ .refl _
  | cons rule rest ih =>
    rw [List.forall_mem_cons] at hr
    unfold evaluateEach at h
    rw [run_bind] at h
    rcases hrun : (evaluate handlers scope.serial (some event.number) rule).run engine
      with ⟨first, engine₁⟩
    obtain ⟨flow₁, hf₁, he₁, hfirst⟩ := evaluate_isolates hh hr.1 hf event hrun
    rw [hrun] at h
    rcases hfirst with ⟨fault, rfl, hescapes⟩ | ⟨rfl, fault, hevaluated, hfaults⟩
    · obtain ⟨rfl, rfl⟩ := Prod.mk.inj h
      exact ⟨flow₁, hf₁, he₁, .inl ⟨fault, rfl, hescapes⟩⟩
    obtain ⟨flow', hf', he', hrest⟩ := ih hr.2 hf₁ h
    refine ⟨flow', hf', he₁.trans he', hrest.imp_right ?_⟩
    rintro ⟨hok, course, hcourse, hsubjects, hreports⟩
    refine ⟨hok, ⟨event, rule, fault⟩ :: course, .evaluated hevaluated hcourse, ?_, ?_⟩
    · rw [List.map_cons, List.map_cons, hsubjects]
      rfl
    · rw [← List.singleton_append, List.filterMap_append, ← List.append_assoc]
      exact (hfaults.append (.refl _)).trans hreports

/-- So does evaluating all rules. -/
theorem evaluateAll_isolates (hh : scope.Admits handlers) (hf : scope.Holds engine flow)
    {outcome : Except Fault Unit} (event : Event)
    (h : (evaluateAll handlers scope.serial (some event.number)).run engine = (outcome, engine')) :
    ∃ flow', scope.Holds engine' flow' ∧ scope.Extends flow flow' ∧
      ((∃ fault, outcome = .error fault ∧ scope.Escapes fault flow') ∨
        outcome = .ok () ∧ ∃ course, Course handlers scope.serial course engine engine' ∧
          course.map Evaluation.subject = scope.rules.map (Prod.mk event) ∧
          (flow.faults ++ course.filterMap (Evaluation.report scope.id)).Sublist
            flow'.faults) := by
  unfold evaluateAll evaluateFrom at h
  rw [run_bind_ok (run_get engine), List.drop_zero, hf.rules] at h
  dsimp only at h
  by_cases hempty : scope.rules.isEmpty = true
  · rw [if_pos hempty] at h
    rw [List.isEmpty_iff.mp hempty]
    exact evaluateEach_isolates hh (by simp) hf event h
  rw [if_neg hempty, run_bind] at h
  rcases hrun : (evaluateEach handlers scope.serial (some event.number) scope.rules).run engine
    with ⟨first, engine₁⟩
  obtain ⟨flow₁, hf₁, he₁, hfirst⟩ := evaluateEach_isolates hh (fun _ hr => hr) hf event hrun
  rw [hrun] at h
  -- the rules are the same afterwards, so there is no second turn
  have hdrop : engine₁.rules.drop (0 + scope.rules.length) = [] := by
    rw [hf₁.rules, Nat.zero_add, List.drop_length]
  cases first with
  | error fault =>
    obtain ⟨rfl, rfl⟩ := Prod.mk.inj h
    exact ⟨flow₁, hf₁, he₁, hfirst⟩
  | ok _ =>
    dsimp only at h
    unfold evaluateFrom at h
    rw [run_bind_ok (run_get engine₁), hdrop] at h
    obtain ⟨rfl, rfl⟩ := Prod.mk.inj h
    exact ⟨flow₁, hf₁, he₁, hfirst⟩

/-! ### Queues -/

/-- How many events can still come off the queue: those in it, and those that the bound leaves room
for. -/
def pending (scope : Scope ω κ) (flow : Flow) : Nat :=
  flow.queue.length + (max flow.log.length scope.bound - flow.log.length)

/-- It does not become more while the flow is worked on. -/
theorem pending_le (h : scope.Extends flow flow') : pending scope flow' ≤ pending scope flow := by
  obtain ⟨more, hlog, hqueue, -⟩ := h.grows.events
  have hb := h.bounded
  have hl := congrArg List.length hlog
  have hq := congrArg List.length hqueue
  rw [List.length_append] at hl hq
  unfold pending
  omega

/-- It becomes less when an event is taken off and worked on. -/
theorem pending_lt {event : Event} {rest : List Event} (hq : flow.queue = event :: rest)
    (h : scope.Extends { flow with queue := flow.queue.tail } flow') :
    pending scope flow' < pending scope flow := by
  refine Nat.lt_of_le_of_lt (pending_le h) ?_
  unfold pending
  rw [hq]
  simp only [List.tail_cons, List.length_cons]
  omega

variable (handlers scope) in
/-- From one flow to the other the queue is worked off: every rule is evaluated for every event of
it, those included that come meanwhile, and each fault that an evaluation ends in is added. -/
def WorksOff (flow : Flow) (engine : Engine ω κ) (flow' : Flow) (engine' : Engine ω κ) : Prop :=
  flow'.queue = [] ∧ ∃ course more,
    Course handlers scope.serial course engine engine' ∧
    flow'.log = flow.log ++ more ∧
    course.map Evaluation.subject = (flow.queue ++ more) ×ˢ scope.rules ∧
    (flow.faults ++ course.filterMap (Evaluation.report scope.id)).Sublist flow'.faults

/-- Nothing is to be done for an empty queue. -/
theorem worksOff_of_empty (hq : flow.queue = []) (engine : Engine ω κ) :
    WorksOff handlers scope flow engine flow engine :=
  ⟨hq, [], [], .done engine, by simp, by rw [hq]; rfl, by simp⟩

/-- An event is taken off, all rules are evaluated for it, and the queue is worked off then. -/
theorem WorksOff.cons {event : Event} {rest : List Event} {engine₁ engine₂ : Engine ω κ}
    {flow₂ : Flow} {course : List (Evaluation κ)}
    (h : WorksOff handlers scope flow₂ engine₂ flow' engine') (hq : flow.queue = event :: rest)
    (htaken : (dequeue scope.serial).run engine = (.ok (some event), engine₁))
    (hcourse : Course handlers scope.serial course engine₁ engine₂)
    (he : scope.Extends { flow with queue := flow.queue.tail } flow₂)
    (hsubjects : course.map Evaluation.subject = scope.rules.map (Prod.mk event))
    (hreports : (flow.faults ++ course.filterMap (Evaluation.report scope.id)).Sublist
      flow₂.faults) : WorksOff handlers scope flow engine flow' engine' := by
  obtain ⟨hempty, course₂, more₂, hcourse₂, hlog₂, hsubjects₂, hreports₂⟩ := h
  obtain ⟨more₁, hlog₁, hqueue₁, -⟩ := he.grows.events
  refine ⟨hempty, course ++ course₂, more₁ ++ more₂,
    .dequeued htaken (hcourse.append hcourse₂), ?_, ?_, ?_⟩
  · rw [hlog₂, hlog₁, List.append_assoc]
  · rw [List.map_append, hsubjects, hsubjects₂, hqueue₁, hq, List.cons_append,
      List.product_cons, List.append_assoc]
    rfl
  · rw [List.filterMap_append, ← List.append_assoc]
    exact (hreports.append (.refl _)).trans hreports₂

/-- Working a queue off ends with what escapes, or it comes to its end. -/
theorem drainLoop_isolates (hh : scope.Admits handlers) (n : Nat) (hn : pending scope flow ≤ n)
    (hf : scope.Holds engine flow) {outcome : Except Fault Unit}
    (h : (drainLoop handlers scope.serial n).run engine = (outcome, engine')) :
    ∃ flow', scope.Holds engine' flow' ∧ flow'.draining = flow.draining ∧
      ((∃ fault, outcome = .error fault ∧ scope.Escapes fault flow') ∨
        outcome = .ok () ∧ WorksOff handlers scope flow engine flow' engine') := by
  have hdone : ∀ {engine : Engine ω κ} {flow : Flow} n, scope.Holds engine flow →
      flow.queue = [] → (drainLoop handlers scope.serial n).run engine = (outcome, engine') →
      outcome = .ok () ∧ engine' = engine := by
    intro engine flow n hf hq h
    rw [drainLoop_of_empty n hf.toHosts hq] at h
    obtain ⟨rfl, rfl⟩ := Prod.mk.inj h
    exact ⟨rfl, rfl⟩
  induction n generalizing engine flow with
  | zero =>
    have hq : flow.queue = [] := by
      unfold pending at hn
      exact List.length_eq_zero_iff.mp (by omega)
    obtain ⟨rfl, rfl⟩ := hdone 0 hf hq h
    exact ⟨flow, hf, rfl, .inr ⟨rfl, worksOff_of_empty hq _⟩⟩
  | succ n ih =>
    rcases hq : flow.queue with _ | ⟨event, rest⟩
    · obtain ⟨rfl, rfl⟩ := hdone (n + 1) hf hq h
      exact ⟨flow, hf, rfl, .inr ⟨rfl, worksOff_of_empty hq _⟩⟩
    have htaken := hf.run_dequeue
    have hf₁ := hf.change (f := fun flow => { flow with queue := flow.queue.tail }) rfl
    rw [hq, List.head?_cons] at htaken
    unfold drainLoop at h
    rw [run_bind_ok htaken] at h
    dsimp only at h
    rw [run_bind] at h
    rcases hrun : (evaluateAll handlers scope.serial (some event.number)).run _
      with ⟨first, engine₂⟩
    rw [hrun] at h
    obtain ⟨flow₂, hf₂, he₂, hfirst⟩ := evaluateAll_isolates hh hf₁ event hrun
    rcases hfirst with ⟨fault, rfl, hescapes⟩ | ⟨rfl, course, hcourse, hsubjects, hreports⟩
    · obtain ⟨rfl, rfl⟩ := Prod.mk.inj h
      exact ⟨flow₂, hf₂, he₂.grows.draining, .inl ⟨fault, rfl, hescapes⟩⟩
    have hless : pending scope flow₂ ≤ n :=
      Nat.le_of_lt_succ (Nat.lt_of_lt_of_le (pending_lt hq he₂) hn)
    obtain ⟨flow', hf', hdraining, hrest⟩ := ih hless hf₂ h
    exact ⟨flow', hf', hdraining.trans he₂.grows.draining, hrest.imp_right <| And.imp_right
      fun hworks => hworks.cons hq htaken hcourse he₂ hsubjects hreports⟩

/-- Nothing is done about a flow that somebody works on. -/
theorem run_drain_of_busy (hf : engine.Hosts id serial flow) (hbusy : flow.draining = true) :
    (drain handlers id).run engine = (.ok (), engine) := by
  unfold drain
  rw [run_bind_ok hf.run_serial, run_bind_ok hf.run_state, if_pos hbusy]
  rfl

/-- On any other flow the queue is worked off. -/
theorem run_drain_of_idle (hf : engine.Hosts id serial flow) (hidle : flow.draining = false)
    {outcome : Except Fault Unit}
    (h : (drainLoop handlers serial (remaining handlers (engine.change serial (Flow.worked true))
      serial)).run (engine.change serial (Flow.worked true)) = (outcome, engine')) :
    (drain handlers id).run engine = (outcome, engine'.change serial (Flow.worked false)) := by
  unfold drain
  rw [run_bind_ok hf.run_serial, run_bind_ok hf.run_state, hidle, if_neg (by simp),
    run_bind_ok (run_update ..), run_bind_ok (run_get _), run_ensuring]
  have houtcome := congrArg Prod.fst h
  have hlast := congrArg (fun ended => ended.2.change serial (Flow.worked false)) h
  exact Prod.ext houtcome hlast

/-! ### Rounds -/

/-- The id of the flow that a round works on. -/
def flowFor : Option String → Effect (Engine ω κ) String
  | some id => return id
  | none => startFlow

/-- A round opens a flow, performs its own action there, and works the queue off. -/
theorem invoke_eq (concept action : String) (input : Value) (flow : Option String) :
    invoke handlers concept action input flow = (do
      let id ← flowFor flow
      let event ← perform handlers concept action input id
      drain handlers id
      return event) := by
  cases flow <;> rfl

/-- A fault stays where it arises. Once a round has recorded its own action in a flow, either
somebody else works on the flow already, and the round leaves that to him. Or it ends with what
escapes. Or it ends well; then every rule was evaluated for every event of the queue, those that were
there and those that came meanwhile, and each fault that an evaluation ended in was added to the
flow. -/
theorem invoke_isolates (hh : scope.Admits handlers) {concept action : String} {input : Value}
    {name : Option String} {event : Event} {opened recorded : Engine ω κ} {before : Flow}
    (hopened : (flowFor name).run engine = (.ok scope.id, opened))
    (hrecorded : (perform handlers concept action input scope.id).run opened = (.ok event, recorded))
    (hbefore : scope.Holds recorded before) {outcome : Except Fault Event}
    (h : (invoke handlers concept action input name).run engine = (outcome, engine')) :
    (before.draining = true → outcome = .ok event ∧ engine' = recorded) ∧
    (before.draining = false → ∃ after, scope.Holds engine' after ∧ after.draining = false ∧
      ((∃ fault, outcome = .error fault ∧ scope.Escapes fault after) ∨
        outcome = .ok event ∧ after.queue = [] ∧ ∃ course more worked,
          Course handlers scope.serial course
            (recorded.change scope.serial (Flow.worked true)) worked ∧
          engine' = worked.change scope.serial (Flow.worked false) ∧
          after.log = before.log ++ more ∧
          course.map Evaluation.subject = (before.queue ++ more) ×ˢ scope.rules ∧
          (before.faults ++ course.filterMap (Evaluation.report scope.id)).Sublist
            after.faults)) := by
  rw [invoke_eq, run_bind_ok hopened, run_bind_ok hrecorded, run_bind] at h
  refine ⟨fun hbusy => ?_, fun hidle => ?_⟩
  · rw [run_drain_of_busy hbefore.toHosts hbusy] at h
    obtain ⟨rfl, rfl⟩ := Prod.mk.inj h
    exact ⟨rfl, rfl⟩
  have hworked := hbefore.change (f := Flow.worked true) rfl
  have henough : pending scope (before.worked true) ≤ remaining handlers
      (recorded.change scope.serial (Flow.worked true)) scope.serial := by
    unfold remaining pending Scope.bound Flow.room
    rw [hworked.state, Option.getD_some, hworked.ceiling, hh.reentries]
    dsimp only [Limit.room]
    omega
  rcases hloop : (drainLoop handlers scope.serial (remaining handlers
    (recorded.change scope.serial (Flow.worked true)) scope.serial)).run
    (recorded.change scope.serial (Flow.worked true)) with ⟨last, worked⟩
  rw [run_drain_of_idle hbefore.toHosts hidle hloop] at h
  obtain ⟨flow', hf', -, hrest⟩ := drainLoop_isolates hh _ henough hworked hloop
  have hended := hf'.change (f := Flow.worked false) rfl
  rcases hrest with ⟨fault, rfl, hescapes⟩ | ⟨rfl, hempty, course, more, hcourse, hrest⟩
  · obtain ⟨rfl, rfl⟩ := Prod.mk.inj h
    exact ⟨_, hended, rfl, .inl ⟨fault, rfl, hescapes.of_log (List.prefix_refl _)⟩⟩
  · obtain ⟨rfl, rfl⟩ := Prod.mk.inj h
    exact ⟨_, hended, rfl, .inr ⟨rfl, hempty, course, more, worked, hcourse, rfl, hrest⟩⟩

/-- What an adapter that does not work ends in. -/
def brokenDown : Fault := .raised "ValueError" "out of order"

/-- Handlers of concepts that answer everything, next to an adapter that does not work. -/
def brokenHandlers : Handlers Unit Unit :=
  { plainHandlers with adapt := fun _ _ => throw brokenDown }

/-- The rule by which a tick is followed by a ring, if the adapter answers. -/
def ringing : Rule Unit :=
  { ticking with
    name := "ringing"
    stages := [.query () (.object []) (.object [])]
    actions := [⟨"Clock", "ring", .object []⟩] }

/-- An engine with that rule in front of the one by which a tick is followed by a tock. -/
def ringingEngine : Engine Unit Unit := { tickingEngine with rules := [ringing, ticking] }

/-- The scope of a round on that engine. -/
def ringingScope : Scope Unit Unit where
  fine _ := True
  rules := [ringing, ticking]
  terminals := []
  ceiling := 4
  reentries := 0
  raises fault := fault = brokenDown
  id := "flow-1"
  serial := 0

/-- The broken adapter keeps to the scope. -/
theorem admits_brokenHandlers : ringingScope.Admits brokenHandlers where
  reentries := rfl
  perform _ _ _ := Scope.allows_of_local
    (fun engine _ => ⟨engine.world, engine.journal, trivial, rfl⟩) fun _ _ h => by cases h
  adapt _ _ _ _ _ _ _ := Scope.allows_of_local
    (fun engine _ => ⟨engine.world, engine.journal, trivial, rfl⟩) fun _ _ h => by cases h; rfl
  before := Scope.allows_of_local (fun engine _ => ⟨engine.world, engine.journal, trivial, rfl⟩)
    fun _ _ h => by cases h
  after := Scope.allows_of_local (fun engine _ => ⟨engine.world, engine.journal, trivial, rfl⟩)
    fun _ _ h => by cases h
  stops _ _ h := by rcases h with h | h <;> cases h
  filter := by simp [ringingScope, ringing, ticking]
  map := by simp [ringingScope, ringing, ticking]

/-- The engine with the flow of the round. -/
def ringingOpened : Engine Unit Unit := ((flowFor none).run ringingEngine).2

/-- The engine once the tick is recorded. -/
def ringingRecorded : Except Fault Event × Engine Unit Unit :=
  (perform brokenHandlers "Clock" "tick" (.object []) "flow-1").run ringingOpened

/-- The flow then. -/
def ringingFlow : Flow := (ringingRecorded.2.states[0]?).getD default

/-- The round as a whole. -/
def ringingRound : Except Fault Event × Engine Unit Unit :=
  (invoke brokenHandlers "Clock" "tick" (.object []) none).run ringingEngine

/-- The adapter does not work, the rule that asks it is the only one with a fault, and the tick is
followed by a tock. -/
theorem invoke_isolates_ringing :
    ringingRound.1.isOk = true ∧ ∃ after course,
      ringingRound.2.Hosts "flow-1" 0 after ∧ after.queue = [] ∧
      after.log.map Event.name = ["Clock.tick", "Clock.tock"] ∧
      (course : List (Evaluation Unit)).map Evaluation.subject = after.log ×ˢ [ringing, ticking] ∧
      (course.filterMap (Evaluation.report "flow-1")).Sublist after.faults ∧
      after.faults.map FlowFault.rule = ["ringing"] := by
  have hopened : (flowFor none).run ringingEngine = (.ok "flow-1", ringingOpened) := rfl
  have hok : ringingRecorded.1.isOk = true := by decide +kernel
  rcases hrecorded : ringingRecorded with ⟨_ | event, recorded⟩
  · rw [hrecorded] at hok
    cases hok
  have hstate : recorded = ringingRecorded.2 := by rw [hrecorded]
  have hbefore : ringingScope.Holds recorded ringingFlow := by
    rw [hstate]
    exact ⟨⟨⟨by decide +kernel, rfl, by decide +kernel⟩, trivial⟩, rfl, rfl, rfl⟩
  have hround : ringingRound.1.isOk = true := by decide +kernel
  have hrun : (invoke brokenHandlers "Clock" "tick" (.object []) none).run ringingEngine
      = (ringingRound.1, ringingRound.2) := (Prod.eta ringingRound).symm
  obtain ⟨after, hafter, -, hends⟩ :=
    (invoke_isolates admits_brokenHandlers hopened hrecorded hbefore hrun).2 (by decide +kernel)
  have hstate : (ringingRound.2.states[0]?).getD default = after :=
    congrArg (fun flow => flow.getD default) hafter.state
  rcases hends with ⟨fault, hfault, -⟩ | ⟨-, hempty, course, more, _, -, -, hlog, hsubjects, hreports⟩
  · have herror : ringingRound.1 = .error fault := hfault
    rw [herror] at hround
    cases hround
  refine ⟨hround, after, course, hafter.toHosts, hempty, ?_, hlog ▸ hsubjects, hreports, ?_⟩
  · rw [← hstate]
    decide +kernel
  · rw [← hstate]
    decide +kernel

/-- The rule by which a tick is followed by a ring that has a list to be told apart by. -/
def listing : Rule Unit :=
  { ticking with
    name := "listing"
    actions := [⟨"Clock", "ring", .object [("tags", .list [])]⟩] }

-- A list cannot tell responses apart, and that ends the round: no fault is recorded, and the second
-- rule is not evaluated.
example :
    let rules := [listing, ticking]
    let engine := { tickingEngine with
      rules := rules, terminals := [(("Clock", "ring"), .str "tags")] }
    let round := (invoke plainHandlers "Clock" "tick" (.object []) none).run engine
    let flow := (round.2.states[0]?).getD default
    round.1.isOk = false ∧ flow.faults.length = 0 ∧ flow.log.map Event.name = ["Clock.tick"] := by
  decide +kernel

end Engine

end HerdBook
