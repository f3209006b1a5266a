import HerdBook.Proofs.Ceilings
import HerdBook.Proofs.Isolation
import HerdBook.Proofs.Steps

/-!
# Rounds end

The functions that evaluate rules and work a queue off carry bounds, so that they end by their very
form. What they are bounded versions of is given here as relations without any bound: evaluating the
rules goes on as long as there is a rule at the next place, and working a queue off goes on as long
as there is an event in it. For handlers that stay aside, the bounded functions do just that. So the
bounds are never met, and every round ends.

What makes the loop end is a budget: the events in the queue, and those that the ceiling leaves room
for. An evaluation may add events to the queue, but each of them takes room away.

* `Engine.Passes`, `Engine.Works`, `Engine.Drains`, `Engine.Invokes`, `Engine.Reevaluates`: the
  rounds without bounds, with the events that they take off queues and the evaluations that they
  are made of.
* `Engine.budget`: the measure.
* `Engine.Life`: all that ever happens to an engine, with the events that are taken off queues.

## Main results

* `Engine.Works.deterministic`: there is one way in which a queue is worked off.
* `Engine.exists_works`: there is one, and it is what the bounded loop does.
* `Engine.rounds_terminate`: every round ends, each turn of the loop uses up budget, and no event is
  ever taken off a queue twice.
-/

namespace HerdBook

open Effect

variable {ω κ α : Type}

/-- A rule that is evaluated in a round: the engine at that time, the flow, and the event for which,
if it is for one. -/
structure Visit (ω κ : Type) where
  engine : Engine ω κ
  serial : Nat
  trigger : Option Nat
  rule : Rule κ

namespace Engine

/-! ### Rounds without bounds -/

section Relations

variable (handlers : Handlers ω κ)

/-- The rule of a visit is evaluated. -/
def runVisit (visit : Visit ω κ) : Except Fault Unit × Engine ω κ :=
  (evaluate handlers visit.serial visit.trigger visit.rule).run visit.engine

/-- The rules from the given place on are evaluated, one after the other, until there is none at the
next place or one ends in a fault. -/
inductive Passes (serial : Nat) (trigger : Option Nat) :
    Nat → Engine ω κ → List (Visit ω κ) → Except Fault Unit → Engine ω κ → Prop where
  | done {place : Nat} {engine : Engine ω κ} (h : engine.rules[place]? = none) :
      Passes serial trigger place engine [] (.ok ()) engine
  | ended {place : Nat} {engine engine' : Engine ω κ} {rule : Rule κ} {fault : Fault}
      (hr : engine.rules[place]? = some rule)
      (h : runVisit handlers ⟨engine, serial, trigger, rule⟩ = (.error fault, engine')) :
      Passes serial trigger place engine [⟨engine, serial, trigger, rule⟩] (.error fault) engine'
  | next {place : Nat} {engine engine₁ engine' : Engine ω κ} {rule : Rule κ}
      {visits : List (Visit ω κ)} {outcome : Except Fault Unit}
      (hr : engine.rules[place]? = some rule)
      (h : runVisit handlers ⟨engine, serial, trigger, rule⟩ = (.ok (), engine₁))
      (hrest : Passes serial trigger (place + 1) engine₁ visits outcome engine') :
      Passes serial trigger place engine (⟨engine, serial, trigger, rule⟩ :: visits) outcome engine'

/-- Events are taken off the queue of a flow, and for each of them the rules are evaluated, until
the queue is empty or an evaluation ends in a fault. -/
inductive Works (serial : Nat) :
    Engine ω κ → List Event → List (Visit ω κ) → Except Fault Unit → Engine ω κ → Prop where
  | done {engine engine' : Engine ω κ} (h : (dequeue serial).run engine = (.ok none, engine')) :
      Works serial engine [] [] (.ok ()) engine'
  | ended {engine engine₁ engine' : Engine ω κ} {event : Event} {visits : List (Visit ω κ)}
      {fault : Fault} (h : (dequeue serial).run engine = (.ok (some event), engine₁))
      (hp : Passes handlers serial (some event.number) 0 engine₁ visits (.error fault) engine') :
      Works serial engine [event] visits (.error fault) engine'
  | next {engine engine₁ engine₂ engine' : Engine ω κ} {event : Event} {taken : List Event}
      {visits more : List (Visit ω κ)} {outcome : Except Fault Unit}
      (h : (dequeue serial).run engine = (.ok (some event), engine₁))
      (hp : Passes handlers serial (some event.number) 0 engine₁ visits (.ok ()) engine₂)
      (hrest : Works serial engine₂ taken more outcome engine') :
      Works serial engine (event :: taken) (visits ++ more) outcome engine'

/-- The queue of the flow with the id is worked off, unless that is being done. Each event is taken
with the number of the flow that it is taken from. -/
inductive Drains (id : String) :
    Engine ω κ → List (Nat × Event) → List (Visit ω κ) → Except Fault Unit → Engine ω κ → Prop where
  | unknown {engine : Engine ω κ} (h : Table.get? id engine.retained = none) :
      Drains id engine [] [] (.error (.raised "LookupError" s!"unknown flow {id}")) engine
  | busy {engine : Engine ω κ} {serial : Nat} (h : Table.get? id engine.retained = some serial)
      (hb : ((engine.states[serial]?).getD default).draining = true) :
      Drains id engine [] [] (.ok ()) engine
  | idle {engine engine' : Engine ω κ} {serial : Nat} {taken : List Event}
      {visits : List (Visit ω κ)} {outcome : Except Fault Unit}
      (h : Table.get? id engine.retained = some serial)
      (hb : ((engine.states[serial]?).getD default).draining = false)
      (hw : Works handlers serial (engine.change serial fun flow => { flow with draining := true })
        taken visits outcome engine') :
      Drains id engine (taken.map (Prod.mk serial)) visits outcome
        (engine'.change serial fun flow => { flow with draining := false })

/-- A round begins with an action and works the queue off. -/
inductive Invokes (concept action : String) (input : Value) (flow : Option String) :
    Engine ω κ → List (Nat × Event) → List (Visit ω κ) → Except Fault Event → Engine ω κ →
      Prop where
  | unopened {engine engine' : Engine ω κ} {fault : Fault}
      (h : (flowFor flow).run engine = (.error fault, engine')) :
      Invokes concept action input flow engine [] [] (.error fault) engine'
  | failed {engine engine₁ engine' : Engine ω κ} {id : String} {fault : Fault}
      (ho : (flowFor flow).run engine = (.ok id, engine₁))
      (h : (perform handlers concept action input id).run engine₁ = (.error fault, engine')) :
      Invokes concept action input flow engine [] [] (.error fault) engine'
  | performed {engine engine₁ engine₂ engine' : Engine ω κ} {id : String} {event : Event}
      {taken : List (Nat × Event)} {visits : List (Visit ω κ)} {outcome : Except Fault Unit}
      (ho : (flowFor flow).run engine = (.ok id, engine₁))
      (h : (perform handlers concept action input id).run engine₁ = (.ok event, engine₂))
      (hd : Drains handlers id engine₂ taken visits outcome engine') :
      Invokes concept action input flow engine taken visits (outcome.map fun _ => event) engine'

/-- A round evaluates the rules on the whole log of a flow and works the queue off. -/
inductive Reevaluates (id : String) :
    Engine ω κ → List (Nat × Event) → List (Visit ω κ) → Except Fault Unit → Engine ω κ → Prop where
  | unknown {engine : Engine ω κ} (h : Table.get? id engine.retained = none) :
      Reevaluates id engine [] [] (.error (.raised "LookupError" s!"unknown flow {id}")) engine
  | failed {engine engine' : Engine ω κ} {serial : Nat} {visits : List (Visit ω κ)} {fault : Fault}
      (h : Table.get? id engine.retained = some serial)
      (hp : Passes handlers serial none 0 engine visits (.error fault) engine') :
      Reevaluates id engine [] visits (.error fault) engine'
  | passed {engine engine₁ engine' : Engine ω κ} {serial : Nat} {taken : List (Nat × Event)}
      {visits more : List (Visit ω κ)} {outcome : Except Fault Unit}
      (h : Table.get? id engine.retained = some serial)
      (hp : Passes handlers serial none 0 engine visits (.ok ()) engine₁)
      (hd : Drains handlers id engine₁ taken more outcome engine') :
      Reevaluates id engine taken (visits ++ more) outcome engine'

end Relations

variable {handlers : Handlers ω κ} {serial n : Nat} {engine engine' engine'' : Engine ω κ}

/-- There is one way in which the rules are evaluated. -/
theorem Passes.deterministic {trigger : Option Nat} {place : Nat}
    {visits visits' : List (Visit ω κ)}
    {outcome outcome' : Except Fault Unit}
    (h : Passes handlers serial trigger place engine visits outcome engine')
    (h' : Passes handlers serial trigger place engine visits' outcome' engine'') :
    visits = visits' ∧ outcome = outcome' ∧ engine' = engine'' := by
  induction h generalizing visits' outcome' engine'' with
  | done hr =>
    cases h' with
    | done _ => exact ⟨rfl, rfl, rfl⟩
    | ended hr' _ => exact absurd (hr.symm.trans hr') (by simp)
    | next hr' _ _ => exact absurd (hr.symm.trans hr') (by simp)
  | ended hr hv =>
    cases h' with
    | done hr' => exact absurd (hr'.symm.trans hr) (by simp)
    | ended hr' hv' =>
      obtain rfl := Option.some.inj (hr.symm.trans hr')
      obtain ⟨hfault, rfl⟩ := Prod.mk.inj (hv.symm.trans hv')
      exact ⟨rfl, hfault, rfl⟩
    | next hr' hv' _ =>
      obtain rfl := Option.some.inj (hr.symm.trans hr')
      exact absurd (congrArg Prod.fst (hv.symm.trans hv')) (by simp)
  | next hr hv _ ih =>
    cases h' with
    | done hr' => exact absurd (hr'.symm.trans hr) (by simp)
    | ended hr' hv' =>
      obtain rfl := Option.some.inj (hr.symm.trans hr')
      exact absurd (congrArg Prod.fst (hv.symm.trans hv')) (by simp)
    | next hr' hv' hrest' =>
      obtain rfl := Option.some.inj (hr.symm.trans hr')
      obtain ⟨-, rfl⟩ := Prod.mk.inj (hv.symm.trans hv')
      obtain ⟨rfl, houtcome, hengine⟩ := ih hrest'
      exact ⟨rfl, houtcome, hengine⟩

/-- Evaluating rules respects what its handlers respect. -/
theorem Passes.moves {R : Engine ω κ → Engine ω κ → Prop} (hR : Follows R handlers)
    {trigger : Option Nat} {place : Nat} {visits : List (Visit ω κ)} {outcome : Except Fault Unit}
    (h : Passes handlers serial trigger place engine visits outcome engine') :
    R engine engine' := by
  have := hR.toIsPreorder
  induction h with
  | done _ => exact refl _
  | ended _ hv => exact (hR.moves_evaluate _ _).of_run hv
  | next _ hv _ ih => exact IsTrans.trans _ _ _ ((hR.moves_evaluate _ _).of_run hv) ih

/-- So does working a queue off. -/
theorem Works.moves {R : Engine ω κ → Engine ω κ → Prop} (hR : Follows R handlers)
    (hdequeue : Moves R (dequeue serial)) {taken : List Event} {visits : List (Visit ω κ)}
    {outcome : Except Fault Unit}
    (h : Works handlers serial engine taken visits outcome engine') : R engine engine' := by
  have := hR.toIsPreorder
  induction h with
  | done hd => exact hdequeue.of_run hd
  | ended hd hp => exact IsTrans.trans _ _ _ (hdequeue.of_run hd) (hp.moves hR)
  | next hd hp _ ih =>
    exact IsTrans.trans _ _ _ (hdequeue.of_run hd) (IsTrans.trans _ _ _ (hp.moves hR) ih)

/-- There is one way in which a queue is worked off. -/
theorem Works.deterministic {taken taken' : List Event} {visits visits' : List (Visit ω κ)}
    {outcome outcome' : Except Fault Unit}
    (h : Works handlers serial engine taken visits outcome engine')
    (h' : Works handlers serial engine taken' visits' outcome' engine'') :
    taken = taken' ∧ visits = visits' ∧ outcome = outcome' ∧ engine' = engine'' := by
  induction h generalizing taken' visits' outcome' engine'' with
  | done hd =>
    cases h' with
    | done hd' => exact ⟨rfl, rfl, rfl, congrArg Prod.snd (hd.symm.trans hd')⟩
    | ended hd' _ => exact absurd (congrArg Prod.fst (hd.symm.trans hd')) (by simp)
    | next hd' _ _ => exact absurd (congrArg Prod.fst (hd.symm.trans hd')) (by simp)
  | ended hd hp =>
    cases h' with
    | done hd' => exact absurd (congrArg Prod.fst (hd.symm.trans hd')) (by simp)
    | ended hd' hp' =>
      obtain ⟨hevent, rfl⟩ := Prod.mk.inj (hd.symm.trans hd')
      obtain rfl := Option.some.inj (Except.ok.inj hevent)
      obtain ⟨rfl, houtcome, hengine⟩ := hp.deterministic hp'
      exact ⟨rfl, rfl, houtcome, hengine⟩
    | next hd' hp' _ =>
      obtain ⟨hevent, rfl⟩ := Prod.mk.inj (hd.symm.trans hd')
      obtain rfl := Option.some.inj (Except.ok.inj hevent)
      exact absurd (hp.deterministic hp').2.1 (by simp)
  | next hd hp _ ih =>
    cases h' with
    | done hd' => exact absurd (congrArg Prod.fst (hd.symm.trans hd')) (by simp)
    | ended hd' hp' =>
      obtain ⟨hevent, rfl⟩ := Prod.mk.inj (hd.symm.trans hd')
      obtain rfl := Option.some.inj (Except.ok.inj hevent)
      exact absurd (hp.deterministic hp').2.1 (by simp)
    | next hd' hp' hrest' =>
      obtain ⟨hevent, rfl⟩ := Prod.mk.inj (hd.symm.trans hd')
      obtain rfl := Option.some.inj (Except.ok.inj hevent)
      obtain ⟨rfl, -, rfl⟩ := hp.deterministic hp'
      obtain ⟨rfl, rfl, houtcome, hengine⟩ := ih hrest'
      exact ⟨rfl, rfl, houtcome, hengine⟩

/-! ### What evaluations leave as it is -/

/-- The rules and the ceiling are the same, and every flow is still there, with its id and with the
faults that were recorded in it. -/
structure Stays (engine engine' : Engine ω κ) : Prop where
  rules : engine'.rules = engine.rules
  maxFlowEvents : engine'.maxFlowEvents = engine.maxFlowEvents
  located : engine.IsLocated → engine'.IsLocated
  flows : ∀ (n : Nat) (flow : Flow), engine.states[n]? = some flow →
    ∃ flow', engine'.states[n]? = some flow' ∧ flow'.id = flow.id ∧ flow.faults <+: flow'.faults

instance : IsPreorder (Engine ω κ) Stays where
  refl _ := ⟨rfl, rfl, id, fun _ flow h => ⟨flow, h, rfl, List.prefix_refl _⟩⟩
  trans _ _ _ h h' := by
    refine ⟨h'.rules.trans h.rules, h'.maxFlowEvents.trans h.maxFlowEvents,
      h'.located ∘ h.located, fun n flow hf => ?_⟩
    obtain ⟨flow₁, hf₁, hi₁, hp₁⟩ := h.flows n flow hf
    obtain ⟨flow₂, hf₂, hi₂, hp₂⟩ := h'.flows n flow₁ hf₁
    exact ⟨flow₂, hf₂, hi₂.trans hi₁, hp₁.trans hp₂⟩

/-- A change of a flow that leaves its id and its faults. -/
theorem moves_stays_update {f : Flow → Flow} (hid : ∀ flow, (f flow).id = flow.id)
    (hfaults : ∀ flow, flow.faults <+: (f flow).faults) :
    Moves (Stays (ω := ω) (κ := κ)) (update serial f) := by
  intro engine
  have hflows : ∀ (n : Nat) (flow : Flow), engine.states[n]? = some flow →
      ∃ flow', (engine.change serial f).states[n]? = some flow' ∧ flow'.id = flow.id ∧
        flow.faults <+: flow'.faults := by
    intro n flow hf
    refine ⟨if serial = n then f flow else flow, ?_, ?_⟩
    · change (engine.states.modify serial f)[n]? = _
      rw [List.getElem?_modify, hf]
      rfl
    · split
      · exact ⟨hid flow, hfaults flow⟩
      · exact ⟨rfl, List.prefix_refl _⟩
  refine ⟨rfl, rfl, fun hl => hl.of_states (List.Subset.refl _) fun n flow hf => ?_, hflows⟩
  obtain ⟨flow', hf', hi, -⟩ := hflows n flow hf
  exact ⟨flow', hf', hi⟩

/-- Most steps of evaluating rules stay so. -/
theorem isRoutine_stays : IsRoutine (Stays (ω := ω) (κ := κ)) where
  refl := Std.Refl.refl
  trans := IsTrans.trans
  aside h := by
    have hsame : ∀ (n : Nat) (flow : Flow), _ = some flow → _ = some flow :=
      fun n flow hf => (congrArg (fun states : List Flow => states[n]?) h.states).trans hf
    exact ⟨h.rules, h.maxFlowEvents, fun hl => hl.of_states (h.retained ▸ List.Subset.refl _)
      fun n flow hf => ⟨flow, hsame n flow hf, rfl⟩,
      fun n flow hf => ⟨flow, hsame n flow hf, rfl, List.prefix_refl _⟩⟩
  books _ _ hf := moves_stays_update hf.id hf.faults

/-- So does opening a flow. -/
theorem stays_openFlow (id : String) (started : Nat) (engine : Engine ω κ) :
    Stays engine (openFlow id { engine with started := started }) :=
  ⟨rfl, rfl, (steady_openFlow engine started).located, fun _ flow hf =>
    ⟨flow, (List.getElem?_append_left (List.getElem?_eq_some_iff.mp hf).1).trans hf, rfl,
      List.prefix_refl _⟩⟩

/-- And so does evaluating rules for handlers that stay aside. -/
theorem follows_stays (hh : handlers.StayAside) : Follows Stays handlers :=
  isRoutine_stays.follows hh (fun id engine _ => stays_openFlow id engine.started engine)
    fun _ _ _ _ _ => Moves.bind isRoutine_stays.moves_state fun _ =>
      Moves.bind (moves_stays_update (fun _ => rfl) fun _ => List.prefix_refl _) fun _ =>
        Moves.pure _

/-- Taking an event off a queue. -/
theorem moves_stays_dequeue : Moves (Stays (ω := ω) (κ := κ)) (dequeue serial) :=
  Moves.bind isRoutine_stays.moves_state fun _ =>
    Moves.bind (moves_stays_update (fun _ => rfl) fun _ => List.prefix_refl _) fun _ => Moves.pure _

/-- Finding or starting the flow of a round. -/
theorem moves_stays_flowFor (flow : Option String) :
    Moves (Stays (ω := ω) (κ := κ)) (flowFor flow) := by
  cases flow with
  | some id => exact Moves.pure id
  | none =>
    exact moves_startFlow (fun engine => stays_openFlow _ _ engine)
      (evict_of_endFlow fun id engine => ⟨rfl, rfl, (steady_endFlow engine).located,
        fun _ flow hf => ⟨flow, hf, rfl, List.prefix_refl _⟩⟩)

/-! ### Events that are taken -/

/-- The log of the flow with the number. -/
def logOf (engine : Engine ω κ) (n : Nat) : List Event := ((engine.states[n]?).getD default).log

/-- Its queue. -/
def queueOf (engine : Engine ω κ) (n : Nat) : List Event := ((engine.states[n]?).getD default).queue

/-- More events are added to the log of the flow with the number and to its queue, each with the
number of its place, and the given ones are taken off its queue. -/
def Spends (n : Nat) (taken : List Event) (engine engine' : Engine ω κ) : Prop :=
  ∃ more, engine'.logOf n = engine.logOf n ++ more ∧
    engine.queueOf n ++ more = taken ++ engine'.queueOf n ∧
    more.map Event.number = List.range' (engine.logOf n).length more.length

/-- What is taken first comes first. -/
theorem Spends.trans {taken taken' : List Event} (h : Spends n taken engine engine')
    (h' : Spends n taken' engine' engine'') : Spends n (taken ++ taken') engine engine'' := by
  obtain ⟨more, hlog, hqueue, hnumbers⟩ := h
  obtain ⟨more', hlog', hqueue', hnumbers'⟩ := h'
  refine ⟨more ++ more', ?_, ?_, ?_⟩
  · rw [hlog', hlog, List.append_assoc]
  · rw [← List.append_assoc, hqueue, List.append_assoc, hqueue', List.append_assoc]
  · rw [List.map_append, hnumbers, hnumbers', hlog, List.length_append, List.length_append,
      List.range'_append_1]

/-- Nothing is taken where the flow has the same log and the same queue. -/
theorem spends_of_eq (hlog : engine'.logOf n = engine.logOf n)
    (hqueue : engine'.queueOf n = engine.queueOf n) : Spends n [] engine engine' :=
  ⟨[], by rw [hlog, List.append_nil], by rw [hqueue, List.append_nil, List.nil_append], rfl⟩

instance : IsPreorder (Engine ω κ) (Spends n []) where
  refl _ := spends_of_eq rfl rfl
  trans _ _ _ h h' := h.trans h'

/-- What a change of flows makes of the flow with the number. -/
theorem getD_change (serial n : Nat) (f : Flow → Flow) (engine : Engine ω κ) :
    ((engine.change serial f).states[n]?).getD default =
      if serial = n ∧ n < engine.states.length then f ((engine.states[n]?).getD default)
      else (engine.states[n]?).getD default := by
  change ((engine.states.modify serial f)[n]?).getD default = _
  rw [List.getElem?_modify]
  by_cases hlt : n < engine.states.length
  · rw [List.getElem?_eq_getElem hlt]
    by_cases hn : serial = n
    · rw [if_pos ⟨hn, hlt⟩]
      exact if_pos hn
    · rw [if_neg fun h => hn h.1]
      exact if_neg hn
  · rw [List.getElem?_eq_none (Nat.le_of_not_lt hlt), if_neg fun h => hlt h.2]
    rfl

/-- A change of flows that leaves their logs and queues. -/
theorem moves_spends_update {f : Flow → Flow} (hlog : ∀ flow, (f flow).log = flow.log)
    (hqueue : ∀ flow, (f flow).queue = flow.queue) :
    Moves (Spends (ω := ω) (κ := κ) n []) (update serial f) := by
  intro engine
  have h := getD_change serial n f engine
  split at h
  · exact spends_of_eq ((congrArg Flow.log h).trans (hlog _))
      ((congrArg Flow.queue h).trans (hqueue _))
  · exact spends_of_eq (congrArg Flow.log h) (congrArg Flow.queue h)

/-- Nothing is taken where the flows are the same. -/
theorem spends_of_states (h : engine'.states = engine.states) : Spends n [] engine engine' :=
  spends_of_eq (by unfold logOf; rw [h]) (by unfold queueOf; rw [h])

/-- Most steps of evaluating rules take nothing. -/
theorem isRoutine_spends : IsRoutine (Spends (ω := ω) (κ := κ) n []) where
  refl := Std.Refl.refl
  trans := IsTrans.trans
  aside h := spends_of_states h.states
  books _ _ hf := moves_spends_update hf.log hf.queue

/-- Opening a flow takes nothing. -/
theorem spends_openFlow (id : String) (started : Nat) (engine : Engine ω κ) :
    Spends n [] engine (openFlow id { engine with started := started }) := by
  have hsame : ((engine.states ++ [Flow.start id])[n]?).getD default
      = (engine.states[n]?).getD default ∨
      ((engine.states ++ [Flow.start id])[n]?).getD default = Flow.start id ∧
        (engine.states[n]?).getD default = default := by
    rcases Nat.lt_trichotomy n engine.states.length with hlt | rfl | hgt
    · exact .inl (by rw [List.getElem?_append_left hlt])
    · exact .inr ⟨by rw [List.getElem?_concat_length]; rfl,
        by rw [List.getElem?_eq_none (Nat.le_refl _)]; rfl⟩
    · refine .inl ?_
      rw [List.getElem?_eq_none (Nat.le_of_lt hgt),
        List.getElem?_eq_none (by rw [List.length_append]; exact hgt)]
  rcases hsame with h | ⟨h, h'⟩
  · exact spends_of_eq (congrArg Flow.log h) (congrArg Flow.queue h)
  · exact spends_of_eq ((congrArg Flow.log h).trans (congrArg Flow.log h').symm)
      ((congrArg Flow.queue h).trans (congrArg Flow.queue h').symm)

/-- Recording an action adds an event. -/
theorem moves_spends_record (concept action : String) (input : Fields) (output : Value) :
    Moves (Spends (ω := ω) (κ := κ) n []) (record serial concept action input output) := by
  intro engine
  have h := getD_change serial n
    (fun flow => (flow.record concept action input output).1) engine
  split at h
  · exact ⟨[((engine.states[n]?).getD default).record concept action input output |>.2],
      congrArg Flow.log h, (congrArg Flow.queue h).symm, rfl⟩
  · exact spends_of_eq (congrArg Flow.log h) (congrArg Flow.queue h)

/-- Evaluating rules takes nothing for handlers that stay aside. -/
theorem follows_spends (hh : handlers.StayAside) : Follows (Spends n []) handlers :=
  isRoutine_spends.follows hh (fun id engine _ => spends_openFlow id engine.started engine)
    fun _ => moves_spends_record

/-- What taking an event off a queue does. -/
theorem run_dequeue (serial : Nat) (engine : Engine ω κ) :
    (dequeue serial).run engine = (.ok (engine.queueOf serial).head?,
      engine.change serial fun flow => { flow with queue := flow.queue.tail }) := rfl

/-- An event is taken off the queue of its own flow. -/
theorem spends_dequeue {event : Option Event}
    (h : (dequeue serial).run engine = (.ok event, engine')) :
    Spends n (if serial = n then event.toList else []) engine engine' := by
  rw [run_dequeue] at h
  obtain ⟨hevent, rfl⟩ := Prod.mk.inj h
  obtain rfl := Except.ok.inj hevent
  have hflow := getD_change serial n
    (fun flow => { flow with queue := flow.queue.tail }) engine
  by_cases hn : serial = n
  · subst hn
    rw [if_pos rfl]
    by_cases hlt : serial < engine.states.length
    · rw [if_pos ⟨rfl, hlt⟩] at hflow
      have hqueue : (engine.change serial _).queueOf serial = (engine.queueOf serial).tail :=
        congrArg Flow.queue hflow
      refine ⟨[], (congrArg Flow.log hflow).trans (List.append_nil _).symm, ?_, rfl⟩
      rw [hqueue, List.append_nil]
      cases engine.queueOf serial <;> rfl
    · have hempty : engine.queueOf serial = [] := by
        unfold queueOf
        rw [List.getElem?_eq_none (Nat.le_of_not_lt hlt)]
        rfl
      rw [if_neg fun h => hlt h.2] at hflow
      rw [hempty]
      exact spends_of_eq (congrArg Flow.log hflow) (congrArg Flow.queue hflow)
  · rw [if_neg fun h => hn h.1] at hflow
    rw [if_neg hn]
    exact spends_of_eq (congrArg Flow.log hflow) (congrArg Flow.queue hflow)

/-- Working a queue off takes the events off it. -/
theorem Works.spends (hh : handlers.StayAside) {taken : List Event} {visits : List (Visit ω κ)}
    {outcome : Except Fault Unit}
    (h : Works handlers serial engine taken visits outcome engine') :
    Spends n (if serial = n then taken else []) engine engine' := by
  induction h with
  | done hd => exact spends_dequeue hd
  | ended hd hp =>
    have hspends := (spends_dequeue (n := n) hd).trans (hp.moves (follows_spends hh))
    rwa [List.append_nil] at hspends
  | next hd hp _ ih =>
    have hspends := ((spends_dequeue (n := n) hd).trans (hp.moves (follows_spends hh))).trans ih
    rw [List.append_nil] at hspends
    split at hspends
    · next hn => rwa [if_pos hn]
    · next hn => rwa [if_neg hn]

/-- The events that were taken from the flow with the number. -/
def takenFrom (n : Nat) (taken : List (Nat × Event)) : List Event :=
  taken.filterMap fun entry => if entry.1 = n then some entry.2 else none

/-- Of what is taken from one flow nothing is taken from another. -/
theorem takenFrom_map (serial : Nat) (events : List Event) :
    takenFrom n (events.map (Prod.mk serial)) = if serial = n then events else [] := by
  unfold takenFrom
  rw [List.filterMap_map]
  by_cases hn : serial = n
  · have hkept : ((fun entry : Nat × Event => if entry.1 = n then some entry.2 else none) ∘
        Prod.mk serial) = some := funext fun _ => if_pos hn
    rw [if_pos hn, hkept, List.filterMap_some]
  · simp [hn]

/-- Working on a flow takes the events that it says. -/
theorem Drains.spends (hh : handlers.StayAside) {id : String} {taken : List (Nat × Event)}
    {visits : List (Visit ω κ)} {outcome : Except Fault Unit}
    (h : Drains handlers id engine taken visits outcome engine') :
    Spends n (takenFrom n taken) engine engine' := by
  cases h with
  | unknown _ => exact spends_of_states rfl
  | busy _ _ => exact spends_of_states rfl
  | @idle _ serial _ _ _ _ _ hw =>
    have hset : ∀ draining, Moves (Spends (ω := ω) (κ := κ) n [])
        (update serial fun flow => { flow with draining := draining }) :=
      fun _ => moves_spends_update (fun _ => rfl) fun _ => rfl
    have hspends := ((hset true engine).trans (hw.spends hh)).trans (hset false _)
    rw [List.append_nil, List.nil_append] at hspends
    rwa [takenFrom_map]

/-- Starting a flow takes nothing. -/
theorem moves_spends_flowFor (flow : Option String) :
    Moves (Spends (ω := ω) (κ := κ) n []) (flowFor flow) := by
  cases flow with
  | some id => exact Moves.pure id
  | none =>
    exact moves_startFlow (fun engine => spends_openFlow _ _ engine)
      (evict_of_endFlow fun _ _ => spends_of_states rfl)

/-- A round that begins with an action takes the events that it says. -/
theorem Invokes.spends (hh : handlers.StayAside) {concept action : String} {input : Value}
    {flow : Option String} {taken : List (Nat × Event)} {visits : List (Visit ω κ)}
    {outcome : Except Fault Event}
    (h : Invokes handlers concept action input flow engine taken visits outcome engine') :
    Spends n (takenFrom n taken) engine engine' := by
  have hperform := (follows_spends (n := n) hh).perform concept action input
  cases h with
  | unopened ho => exact (moves_spends_flowFor flow).of_run ho
  | failed ho h => exact ((moves_spends_flowFor flow).of_run ho).trans ((hperform _).of_run h)
  | performed ho h hd =>
    exact (((moves_spends_flowFor flow).of_run ho).trans ((hperform _).of_run h)).trans
      (hd.spends hh)

/-- So does a round that evaluates the rules again. -/
theorem Reevaluates.spends (hh : handlers.StayAside) {id : String} {taken : List (Nat × Event)}
    {visits : List (Visit ω κ)} {outcome : Except Fault Unit}
    (h : Reevaluates handlers id engine taken visits outcome engine') :
    Spends n (takenFrom n taken) engine engine' := by
  cases h with
  | unknown _ => exact spends_of_states rfl
  | failed _ hp => exact hp.moves (follows_spends hh)
  | passed _ hp hd => exact (hp.moves (follows_spends hh)).trans (hd.spends hh)

/-! ### The life of an engine -/

variable (handlers) in
/-- All that ever happens to an engine without flows, with the events that are taken off queues:
rounds, flows that are started and ended, and whatever else is done to the world and the journal and
to the rules and responses. -/
inductive Life : List (Nat × Event) → Engine ω κ → Prop where
  | start (world : ω) (maxFlowEvents maxRetained : Limit) :
      Life [] (start world maxFlowEvents maxRetained)
  | invoked {taken now : List (Nat × Event)} {engine engine' : Engine ω κ} {concept action : String}
      {input : Value} {flow : Option String} {visits : List (Visit ω κ)}
      {outcome : Except Fault Event}
      (h : Life taken engine)
      (hr : Invokes handlers concept action input flow engine now visits outcome engine') :
      Life (taken ++ now) engine'
  | reevaluated {taken now : List (Nat × Event)} {engine engine' : Engine ω κ} {id : String}
      {visits : List (Visit ω κ)} {outcome : Except Fault Unit} (h : Life taken engine)
      (hr : Reevaluates handlers id engine now visits outcome engine') : Life (taken ++ now) engine'
  | started {taken : List (Nat × Event)} {engine : Engine ω κ} (h : Life taken engine) :
      Life taken (startFlow.run engine).2
  | ended {taken : List (Nat × Event)} {engine : Engine ω κ} (id : String) (h : Life taken engine) :
      Life taken (engine.endFlow id)
  | changed {taken : List (Nat × Event)} {engine : Engine ω κ} (world : ω) (journal : Array Note)
      (rules : List (Rule κ)) (terminals : List ((String × String) × Value))
      (h : Life taken engine) :
      Life taken { engine with
        world := world, journal := journal, rules := rules, terminals := terminals }

/-- The log of a flow is what was taken from its queue and what is in it still, each event with the
number of its place. -/
def IsLedger (n : Nat) (taken : List Event) (engine : Engine ω κ) : Prop :=
  engine.logOf n = taken ++ engine.queueOf n ∧
    (engine.logOf n).map Event.number = List.range (engine.logOf n).length

/-- It stays so when events are taken. -/
theorem IsLedger.spends {taken now : List Event} (h : IsLedger n taken engine)
    (hs : Spends n now engine engine') : IsLedger n (taken ++ now) engine' := by
  obtain ⟨hlog, hnumbers⟩ := h
  obtain ⟨more, hlog', hqueue', hmore⟩ := hs
  constructor
  · rw [hlog', hlog, List.append_assoc, hqueue', List.append_assoc]
  · have hrange := List.range'_append_1 (s := 0) (m := (engine.logOf n).length) (n := more.length)
    rw [Nat.zero_add] at hrange
    rw [hlog', List.map_append, hnumbers, hmore, List.length_append, List.range_eq_range',
      List.range_eq_range', hrange]

/-- All through the life of an engine. -/
theorem Life.isLedger (hh : handlers.StayAside) {taken : List (Nat × Event)}
    (h : Life handlers taken engine) (n : Nat) : IsLedger n (takenFrom n taken) engine := by
  have hsame : ∀ {taken : List Event} {engine engine' : Engine ω κ}, IsLedger n taken engine →
      Spends n [] engine engine' → IsLedger n taken engine' := by
    intro taken engine engine' h hs
    have hnext := h.spends hs
    rwa [List.append_nil] at hnext
  have happend : ∀ taken now : List (Nat × Event),
      takenFrom n (taken ++ now) = takenFrom n taken ++ takenFrom n now :=
    fun taken now => List.filterMap_append
  induction h with
  | start world maxFlowEvents maxRetained => exact ⟨rfl, rfl⟩
  | invoked _ hr ih => exact happend _ _ ▸ ih.spends (hr.spends hh)
  | reevaluated _ hr ih => exact happend _ _ ▸ ih.spends (hr.spends hh)
  | started _ ih => exact hsame ih (moves_spends_flowFor none _)
  | ended id _ ih => exact hsame ih (spends_of_states rfl)
  | changed _ _ _ _ _ ih => exact hsame ih (spends_of_states rfl)

/-- No event is taken off a queue twice: the events that are taken are told apart by the flow and
their numbers. -/
theorem Life.nodup_taken (hh : handlers.StayAside) {taken : List (Nat × Event)}
    (h : Life handlers taken engine) :
    (taken.map fun entry => (entry.1, entry.2.number)).Nodup := by
  have heach : ∀ n, ((takenFrom n taken).map Event.number).Nodup := by
    intro n
    obtain ⟨hlog, hnumbers⟩ := h.isLedger hh n
    have hall : ((takenFrom n taken ++ engine.queueOf n).map Event.number).Nodup := by
      rw [← hlog, hnumbers]
      exact List.nodup_range
    rw [List.map_append] at hall
    exact (List.nodup_append.mp hall).1
  clear h
  induction taken with
  | nil => exact .nil
  | cons first rest ih =>
    have hfirst : ∀ n, (takenFrom n (first :: rest)).map Event.number
        = (if first.1 = n then [first.2.number] else [])
          ++ (takenFrom n rest).map Event.number := by
      intro n
      unfold takenFrom
      by_cases hn : first.1 = n <;> simp [hn]
    refine List.nodup_cons.mpr ⟨fun hmem => ?_, ih fun n => ?_⟩
    · -- another event of the same flow would have the same number
      obtain ⟨other, hother, hsame⟩ := List.mem_map.mp hmem
      obtain ⟨hserial, hnumber⟩ := Prod.mk.inj hsame
      have hdistinct := heach first.1
      rw [hfirst, if_pos rfl] at hdistinct
      refine (List.nodup_cons.mp hdistinct).1 (hnumber ▸ List.mem_map_of_mem ?_)
      exact List.mem_filterMap.mpr ⟨other, hother, if_pos hserial⟩
    · have hdistinct := heach n
      rw [hfirst] at hdistinct
      exact (List.nodup_append.mp hdistinct).2.1

/-! ### The budget -/

/-- The events that can still be taken off the queue of the flow with the number: those in it, and
those that the ceiling leaves room for. -/
def budget (ceiling : Int) (n : Nat) (engine : Engine ω κ) : Nat :=
  (engine.queueOf n).length + (ceiling - (engine.logOf n).length).toNat

section Budget

variable {ceiling : Int}

/-- Handlers that stay aside perform actions that do not nest. -/
theorem follows_fills_of_aside (hh : handlers.StayAside) : Follows (Fills ceiling n 1) handlers :=
  follows_fills (fun concept action input => isRoutine_fills.moves_aside
    (hh.perform concept action input)) fun adapter args => isRoutine_fills.moves_aside
    (hh.adapt adapter args)

/-- An event that is added to the queue takes the room of one. -/
theorem budget_le (hs : Spends n [] engine engine') (hf : Fills ceiling n 1 engine engine')
    (hc : engine.maxFlowEvents = .count ceiling) :
    budget ceiling n engine' ≤ budget ceiling n engine := by
  obtain ⟨more, hlog, hqueue, -⟩ := hs
  obtain ⟨-, hsize⟩ := hf hc
  change (engine'.logOf n).length + 1 ≤ max ((engine.logOf n).length + 1) _ at hsize
  have hlogs := congrArg List.length hlog
  have hqueues := congrArg List.length hqueue
  rw [List.length_append] at hlogs hqueues
  rw [List.nil_append] at hqueues
  unfold budget
  omega

/-- An event that is taken off the queue was part of the budget. -/
theorem budget_dequeue {event : Event}
    (h : (dequeue serial).run engine = (.ok (some event), engine')) :
    budget ceiling serial engine' + 1 = budget ceiling serial engine := by
  have hsize : engine'.logSize serial = engine.logSize serial := by
    obtain rfl : engine.change serial _ = engine' := congrArg Prod.snd h
    exact logSize_change (f := fun flow => { flow with queue := flow.queue.tail }) (fun _ => rfl)
      serial engine
  obtain ⟨more, hlog, hqueue, -⟩ := spends_dequeue (n := serial) h
  change (engine'.logOf serial).length = (engine.logOf serial).length at hsize
  have hlogs := congrArg List.length hlog
  have hqueues := congrArg List.length hqueue
  rw [List.length_append] at hlogs hqueues
  rw [if_pos rfl, List.length_append, Option.toList_some, List.length_singleton] at hqueues
  unfold budget
  omega

/-- Each turn of the loop, whatever its evaluations come to, uses up budget. -/
theorem Passes.budget_lt (hh : handlers.StayAside) (hc : engine.maxFlowEvents = .count ceiling)
    {event : Event} {visits : List (Visit ω κ)} {outcome : Except Fault Unit}
    (h : (dequeue serial).run engine = (.ok (some event), engine'))
    (hp : Passes handlers serial (some event.number) 0 engine' visits outcome engine'') :
    budget ceiling serial engine'' < budget ceiling serial engine := by
  have hc' := (moves_stays_dequeue.of_run h).maxFlowEvents.trans hc
  calc budget ceiling serial engine''
    _ ≤ budget ceiling serial engine' :=
      budget_le (hp.moves (follows_spends hh)) (hp.moves (follows_fills_of_aside hh)) hc'
    _ < budget ceiling serial engine' + 1 := Nat.lt_succ_self _
    _ = budget ceiling serial engine := budget_dequeue h

end Budget

/-! ### The bounds are never met -/

section Bounds

/-- Evaluating rules in order is evaluating the rules from their place on. -/
theorem exists_passes (hh : handlers.StayAside) (trigger : Option Nat) {rules : List (Rule κ)}
    {place : Nat} (hr : engine.rules.drop place = rules) :
    ∃ visits, Passes handlers serial trigger place engine visits
      ((evaluateEach handlers serial trigger rules).run engine).1
      ((evaluateEach handlers serial trigger rules).run engine).2 := by
  induction rules generalizing engine place with
  | nil => exact ⟨[], .done (List.getElem?_eq_none (List.drop_eq_nil_iff.mp hr))⟩
  | cons rule rest ih =>
    have hrule : engine.rules[place]? = some rule := by
      rw [← List.head?_drop, hr, List.head?_cons]
    unfold evaluateEach
    rw [run_bind]
    rcases hrun : (evaluate handlers serial trigger rule).run engine with ⟨fault | _, engine₁⟩
    · exact ⟨_, .ended hrule hrun⟩
    · have hstays := ((follows_stays hh).moves_evaluate trigger rule).of_run hrun
      have hrest : engine₁.rules.drop (place + 1) = rest := by
        rw [hstays.rules, ← List.tail_drop, hr, List.tail_cons]
      obtain ⟨visits, hvisits⟩ := ih hrest
      exact ⟨_, .next hrule hrun hvisits⟩

/-- All rules are evaluated when each has been, as none is added meanwhile. -/
theorem run_evaluateAll (hh : handlers.StayAside) (trigger : Option Nat) (engine : Engine ω κ) :
    (evaluateAll handlers serial trigger).run engine
      = (evaluateEach handlers serial trigger engine.rules).run engine := by
  unfold evaluateAll evaluateFrom
  rw [run_bind_ok (run_get engine), List.drop_zero]
  dsimp only
  by_cases hempty : engine.rules.isEmpty = true
  · rw [if_pos hempty, List.isEmpty_iff.mp hempty]
    rfl
  rw [if_neg hempty, run_bind]
  rcases hrun : (evaluateEach handlers serial trigger engine.rules).run engine
    with ⟨fault | _, engine₁⟩
  · rfl
  have hstays := ((follows_stays hh).moves_evaluateEach trigger engine.rules).of_run hrun
  have hdrop : engine₁.rules.drop (0 + engine.rules.length) = [] := by
    rw [hstays.rules, Nat.zero_add, List.drop_length]
  dsimp only
  unfold evaluateFrom
  rw [run_bind_ok (run_get engine₁), hdrop]
  rfl

/-- Evaluating all rules is evaluating the rules from the first place on. -/
theorem exists_passes_evaluateAll (serial : Nat) (hh : handlers.StayAside)
    (trigger : Option Nat) (engine : Engine ω κ) : ∃ visits,
    Passes handlers serial trigger 0 engine visits
      ((evaluateAll handlers serial trigger).run engine).1
      ((evaluateAll handlers serial trigger).run engine).2 := by
  rw [run_evaluateAll hh]
  exact exists_passes hh trigger List.drop_zero

variable {ceiling : Int}

/-- When the bound allows for the budget, the loop works the queue off. -/
theorem exists_works (hh : handlers.StayAside) (hc : engine.maxFlowEvents = .count ceiling)
    {times : Nat} (hb : budget ceiling serial engine ≤ times) :
    ∃ taken visits, Works handlers serial engine taken visits
      ((drainLoop handlers serial times).run engine).1
      ((drainLoop handlers serial times).run engine).2 := by
  induction times generalizing engine with
  | zero =>
    have hempty : engine.queueOf serial = [] := List.length_eq_zero_iff.mp (by
      unfold budget at hb
      omega)
    have hd := run_dequeue serial engine
    rw [hempty, List.head?_nil] at hd
    unfold drainLoop
    rw [run_bind_ok hd]
    exact ⟨[], [], .done hd⟩
  | succ times ih =>
    have hd := run_dequeue serial engine
    unfold drainLoop
    rw [run_bind_ok hd]
    rcases hevent : (engine.queueOf serial).head? with _ | event <;> rw [hevent] at hd
    · exact ⟨[], [], .done hd⟩
    obtain ⟨visits, hp⟩ := exists_passes_evaluateAll serial hh (some event.number)
      (engine.change serial fun flow => { flow with queue := flow.queue.tail })
    dsimp only
    rw [run_bind]
    rcases hrun : (evaluateAll handlers serial (some event.number)).run
      (engine.change serial fun flow => { flow with queue := flow.queue.tail })
      with ⟨fault | _, engine₁⟩ <;> rw [hrun] at hp
    · exact ⟨[event], visits, .ended hd hp⟩
    · have hless : budget ceiling serial engine₁ < budget ceiling serial engine :=
        hp.budget_lt hh hc hd
      have hc₁ : engine₁.maxFlowEvents = .count ceiling :=
        ((hp.moves (follows_stays hh)).maxFlowEvents.trans
          (moves_stays_dequeue.of_run hd).maxFlowEvents).trans hc
      obtain ⟨taken, more, hrest⟩ := ih hc₁ (by omega)
      exact ⟨event :: taken, visits ++ more, .next hd hp hrest⟩

/-- Working on a flow works its queue off. -/
theorem exists_drains (hh : handlers.StayAside) (hc : engine.maxFlowEvents = .count ceiling)
    (id : String) : ∃ taken visits, Drains handlers id engine taken visits
      ((drain handlers id).run engine).1 ((drain handlers id).run engine).2 := by
  unfold drain Engine.serial
  rw [run_bind, run_bind_ok (run_get engine)]
  rcases hget : Table.get? id engine.retained with _ | serial
  · exact ⟨[], [], .unknown hget⟩
  have hstate : (state serial).run engine = (.ok ((engine.states[serial]?).getD default), engine) :=
    rfl
  dsimp only [run_pure]
  rw [run_bind_ok hstate]
  by_cases hb : ((engine.states[serial]?).getD default).draining = true
  · rw [if_pos hb]
    exact ⟨[], [], .busy hget hb⟩
  rw [if_neg hb]
  have hc₁ : (engine.change serial fun flow => { flow with draining := true }).maxFlowEvents
      = .count ceiling := hc
  have henough : budget ceiling serial
        (engine.change serial fun flow => { flow with draining := true })
      ≤ remaining handlers (engine.change serial fun flow => { flow with draining := true })
        serial := by
    unfold budget remaining Flow.room
    rw [hc₁]
    exact Nat.le_add_right _ _
  obtain ⟨taken, visits, hw⟩ := exists_works hh hc₁ henough
  exact ⟨_, _, .idle hget (by simpa using hb) hw⟩

/-- A round that begins with an action. -/
theorem exists_invokes (hh : handlers.StayAside) (hc : engine.maxFlowEvents = .count ceiling)
    (concept action : String) (input : Value) (flow : Option String) :
    ∃ taken visits, Invokes handlers concept action input flow engine taken visits
      ((invoke handlers concept action input flow).run engine).1
      ((invoke handlers concept action input flow).run engine).2 := by
  rw [invoke_eq, run_bind]
  rcases ho : (flowFor flow).run engine with ⟨fault | id, engine₁⟩
  · exact ⟨[], [], .unopened ho⟩
  dsimp only
  rw [run_bind]
  rcases h : (perform handlers concept action input id).run engine₁ with ⟨fault | event, engine₂⟩
  · exact ⟨[], [], .failed ho h⟩
  have hc₂ : engine₂.maxFlowEvents = .count ceiling :=
    ((((follows_stays hh).perform concept action input id).of_run h).maxFlowEvents.trans
      ((moves_stays_flowFor flow).of_run ho).maxFlowEvents).trans hc
  obtain ⟨taken, visits, hd⟩ := exists_drains hh hc₂ id
  dsimp only
  rw [run_bind]
  have hround := Invokes.performed ho h hd
  rcases hrun : (drain handlers id).run engine₂ with ⟨fault | _, engine'⟩ <;>
    rw [hrun] at hround <;> exact ⟨taken, visits, hround⟩

/-- A round that evaluates the rules again. -/
theorem exists_reevaluates (hh : handlers.StayAside) (hc : engine.maxFlowEvents = .count ceiling)
    (id : String) : ∃ taken visits, Reevaluates handlers id engine taken visits
      ((reevaluate handlers id).run engine).1 ((reevaluate handlers id).run engine).2 := by
  unfold reevaluate Engine.serial
  rw [run_bind, run_bind_ok (run_get engine)]
  rcases hget : Table.get? id engine.retained with _ | serial
  · exact ⟨[], [], .unknown hget⟩
  dsimp only [run_pure]
  obtain ⟨visits, hp⟩ := exists_passes_evaluateAll serial hh none engine
  rw [run_bind]
  rcases hrun : (evaluateAll handlers serial none).run engine with ⟨fault | _, engine₁⟩ <;>
    rw [hrun] at hp
  · exact ⟨[], visits, .failed hget hp⟩
  · have hc₁ := (hp.moves (follows_stays hh)).maxFlowEvents.trans hc
    obtain ⟨taken, more, hd⟩ := exists_drains hh hc₁ id
    exact ⟨taken, visits ++ more, .passed hget hp hd⟩

end Bounds

/-- Every round ends, whatever rules there are, whatever the ceiling is and whatever has become of
the flow, when the handlers stay aside: the rounds that have no bound come to what the bounded ones
come to. Each turn of the loop that works a queue off uses up budget, also when its evaluations add
no event or end in a fault. And in the life of an engine no event is taken off a queue twice. -/
theorem rounds_terminate (hh : handlers.StayAside) :
    (∀ (engine : Engine ω κ) (ceiling : Int), engine.maxFlowEvents = .count ceiling →
      (∀ concept action input flow, ∃ taken visits,
        Invokes handlers concept action input flow engine taken visits
          ((invoke handlers concept action input flow).run engine).1
          ((invoke handlers concept action input flow).run engine).2) ∧
      (∀ id, ∃ taken visits, Reevaluates handlers id engine taken visits
        ((reevaluate handlers id).run engine).1 ((reevaluate handlers id).run engine).2) ∧
      ∀ serial event engine₁ visits outcome engine₂,
        (dequeue serial).run engine = (.ok (some event), engine₁) →
        Passes handlers serial (some event.number) 0 engine₁ visits outcome engine₂ →
        budget ceiling serial engine₂ < budget ceiling serial engine) ∧
    ∀ (taken : List (Nat × Event)) (engine : Engine ω κ), Life handlers taken engine →
      (taken.map fun entry => (entry.1, entry.2.number)).Nodup :=
  ⟨fun _ _ hc => ⟨exists_invokes hh hc, exists_reevaluates hh hc,
    fun _ _ _ _ _ _ hd hp => hp.budget_lt hh hc hd⟩, fun _ _ h => h.nodup_taken hh⟩

/-- The flow that an outcome says is full, and its ceiling. -/
def fullFlow : Except Fault α → Option (String × Limit)
  | .error (.flowLimit id limit) => some (id, limit)
  | _ => none

/-- An outcome that says so is a fault of that kind. -/
theorem eq_of_fullFlow {outcome : Except Fault α} {id : String} {limit : Limit}
    (h : fullFlow outcome = some (id, limit)) : outcome = .error (.flowLimit id limit) := by
  unfold fullFlow at h
  split at h
  · obtain ⟨rfl, rfl⟩ := Prod.mk.inj (Option.some.inj h)
    rfl
  · cases h

/-- A rule by which a tick is followed by a tick. -/
def endless : Rule Unit :=
  { ticking with name := "endless", actions := [⟨"Clock", "tick", .object []⟩] }

/-- An engine with that rule. -/
def endlessEngine : Engine Unit Unit :=
  { (start () (.count 3) (.count 4) : Engine Unit Unit) with rules := [endless] }

/-- A clock that would tick forever is stopped at the ceiling. -/
theorem rounds_terminate_endless : ∃ taken visits engine',
    Invokes plainHandlers "Clock" "tick" (.object []) none endlessEngine taken visits
        (.error (.flowLimit "flow-1" (.count 3))) engine' ∧
      (taken.map fun entry => (entry.1, entry.2.number)).Nodup := by
  have hh : plainHandlers.StayAside :=
    ⟨fun _ _ _ _ => ⟨rfl, rfl, rfl, rfl, rfl, rfl, rfl⟩,
      fun _ _ _ => ⟨rfl, rfl, rfl, rfl, rfl, rfl, rfl⟩⟩
  have hended : ((invoke plainHandlers "Clock" "tick" (.object []) none).run endlessEngine).1
      = .error (.flowLimit "flow-1" (.count 3)) := eq_of_fullFlow (by decide +kernel)
  obtain ⟨hrounds, hlife⟩ := rounds_terminate hh
  obtain ⟨taken, visits, hround⟩ :=
    (hrounds endlessEngine 3 rfl).1 "Clock" "tick" (.object []) none
  rw [hended] at hround
  have hborn : Life plainHandlers [] endlessEngine :=
    .changed () #[] [endless] [] (.start () (.count 3) (.count 4))
  exact ⟨taken, visits, _, hround, hlife taken _ (.invoked hborn hround)⟩

end Engine

end HerdBook
