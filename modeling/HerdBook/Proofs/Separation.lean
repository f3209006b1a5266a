import HerdBook.Proofs.Causes
import HerdBook.Proofs.Growth
import HerdBook.Proofs.Mirrors

/-!
# Flows do not see each other

All flows of an engine are held in one table, next to the rules and the world that they share. Work
on one of them leaves the others as they are, and it goes the same way whatever they are. This holds
when actions and adapters do not go back to the engine, except to have an action performed or a
query asked that is not recorded.

An id stands for a state that carries it, as it does on every engine that arises
(`Engine.Arises.isLocated`), so no two ids share one. Two engines with the same flow may hold it
under different numbers. So the work on the one is compared with that on the other, number for
number (`Pairing`), and what holds in the pair is that the flow has the same state in both, and that
the first engine differs in nothing but this state from what it was.

## Main definitions

* `Engine.found`: the state that an id stands for.
* `Engine.AgreesOn`: two engines that agree on everything that the work on a flow goes by.
* `Host.StaysOut`: what a call and the rules may ask of a host does not go back to the engine.

## Main results

* `Pairing.mirrors_evaluateAll`, `Pairing.mirrors_drain`: evaluating all rules, and emptying the
  queue.
* `Engine.answer_separates`: whatever is done on a flow leaves the other flows alone, and comes to
  the same on all engines that agree on it.
-/

namespace HerdBook

open Effect

variable {ω κ α β : Type}

/-- Work on the flow with the id. -/
def EngineCall.IsOn (id : String) : EngineCall κ → Prop
  | .invoke _ _ _ flow => flow = some id
  | .reevaluate flow => flow = id
  | _ => False

/-- The action that the call has performed, those that the rules perform, and the adapters that they
ask do not go back to the engine but for calls of the class, which record nothing. -/
structure Host.StaysOut (host : Host ω κ) (may : EngineCall κ → Prop) (call : EngineCall κ)
    (rules : List (Rule κ)) : Prop extends host.Withdraws may where
  invoked : ∀ concept action input flow, call = .invoke concept action input flow →
    ∀ args, may (.call concept action args)
  performed : ∀ rule ∈ rules, ∀ concept action, rule.Performs concept action →
    ∀ args, may (.call concept action args)
  asked : ∀ rule ∈ rules, ∀ adapter inputs outputs, .query adapter inputs outputs ∈ rule.stages →
    ∀ args, (host.adapt adapter args).Places may

/-- The actions that the rules perform and the adapters that they ask are computations on the
world. -/
structure Handlers.StayOut (handlers : Handlers ω κ) (rules : List (Rule κ)) : Prop where
  perform : ∀ rule ∈ rules, ∀ concept action, rule.Performs concept action →
    ∀ input, IsOnWorld (handlers.perform concept action input)
  adapt : ∀ rule ∈ rules, ∀ adapter inputs outputs, .query adapter inputs outputs ∈ rule.stages →
    ∀ args, IsOnWorld (handlers.adapt adapter args)

namespace Engine

/-- The state that an id stands for. -/
def found (id : String) (engine : Engine ω κ) : Option Flow :=
  (Table.get? id engine.retained).bind fun serial => engine.states[serial]?

/-- Two engines that agree on the world, the rules, the responses, the ceiling of actions and the
flow with the id. Their other flows are up to each. -/
structure AgreesOn (id : String) (engine engine' : Engine ω κ) : Prop where
  world : engine'.world = engine.world
  rules : engine'.rules = engine.rules
  terminals : engine'.terminals = engine.terminals
  maxFlowEvents : engine'.maxFlowEvents = engine.maxFlowEvents
  flow : engine'.found id = engine.found id

variable {id other : String} {serial : Nat} {flow : Flow} {engine engine' : Engine ω κ}

/-- An engine agrees with itself. -/
theorem AgreesOn.refl (id : String) (engine : Engine ω κ) : AgreesOn id engine engine :=
  ⟨rfl, rfl, rfl, rfl, rfl⟩

/-- The state that an engine hosts under an id is the one that the id stands for. -/
theorem Hosts.found (h : engine.Hosts id serial flow) : engine.found id = some flow := by
  rw [Engine.found, h.retained]
  exact h.state

/-- The state that an id stands for is hosted under some number. -/
theorem IsLocated.exists_hosts (hl : engine.IsLocated) (h : engine.found id = some flow) :
    ∃ serial, engine.Hosts id serial flow := by
  obtain ⟨serial, hget, hstate⟩ := Option.bind_eq_some_iff.mp h
  obtain ⟨flow', hf⟩ := hl.hosts hget
  obtain rfl : flow' = flow := Option.some.inj (hf.state.symm.trans hstate)
  exact ⟨serial, hf⟩

/-- An id that stands for no state is not retained. -/
theorem IsLocated.get?_eq_none (hl : engine.IsLocated) (h : engine.found id = none) :
    Table.get? id engine.retained = none := by
  cases hget : Table.get? id engine.retained with
  | none => rfl
  | some serial =>
    obtain ⟨flow, hf⟩ := hl.hosts hget
    exact absurd (hf.found.symm.trans h) (by simp)

/-- What only changes the state of one flow leaves the states of all others. -/
theorem SameBut.found_eq (hs : SameBut serial engine engine') (hl : engine.IsLocated)
    (hf : engine.Hosts id serial flow) (hne : other ≠ id) :
    engine'.found other = engine.found other := by
  unfold Engine.found
  rw [hs.retained]
  cases hget : Table.get? other engine.retained with
  | none => rfl
  | some n =>
    refine hs.others n fun hn => hne ?_
    obtain ⟨flow', hf'⟩ := hl.hosts hget
    -- one state carries one id, so two ids do not share one
    obtain rfl : flow' = flow := Option.some.inj (hf'.state.symm.trans (hn ▸ hf.state))
    exact hf'.named.symm.trans hf.named

end Engine

/-! ### Two engines with one flow -/

/-- A flow that two engines hold: its id, the number of its state in each of them, and the first
engine as it was in the beginning. -/
structure Pairing (ω κ : Type) where
  id : String
  left : Nat
  right : Nat
  first : Engine ω κ

namespace Pairing

variable {pair : Pairing ω κ} {engine engine' : Engine ω κ} {handlers : Handlers ω κ}
  {post : α → Prop}

/-- The engines agree, they host the flow in the same state, and the first one differs in nothing
else from what it was. -/
structure Holds (pair : Pairing ω κ) (engine engine' : Engine ω κ) : Prop where
  world : engine'.world = engine.world
  rules : engine'.rules = engine.rules
  terminals : engine'.terminals = engine.terminals
  maxFlowEvents : engine'.maxFlowEvents = engine.maxFlowEvents
  flow : ∃ flow, engine.Hosts pair.id pair.left flow ∧ engine'.Hosts pair.id pair.right flow
  others : Engine.SameBut pair.left pair.first engine

/-- The computations mirror each other on engines of which this holds. -/
abbrev Mirrors (pair : Pairing ω κ) (act act' : Effect (Engine ω κ) α) (post : α → Prop) : Prop :=
  Effect.Mirrors pair.Holds act act' post

/-- A change of the flow that leaves its id. -/
theorem Holds.change (h : pair.Holds engine engine') {f : Flow → Flow}
    (hid : ∀ flow, (f flow).id = flow.id) :
    pair.Holds (engine.change pair.left f) (engine'.change pair.right f) := by
  obtain ⟨flow, hf, hf'⟩ := h.flow
  obtain ⟨hchanged, hsame⟩ := hf.change (hid flow)
  exact ⟨h.world, h.rules, h.terminals, h.maxFlowEvents,
    ⟨f flow, hchanged, (hf'.change (hid flow)).1⟩, h.others.trans hsame⟩

/-- A computation on the world. -/
theorem mirrors_of_isOnWorld {act : Effect (Engine ω κ) α} (h : IsOnWorld act) :
    pair.Mirrors act act fun _ => True := by
  obtain ⟨inner, hinner⟩ := h
  intro engine engine' hs
  obtain ⟨journal, hrun⟩ := hinner engine
  obtain ⟨journal', hrun'⟩ := hinner engine'
  rw [hs.world] at hrun'
  obtain ⟨flow, hf, hf'⟩ := hs.flow
  refine ⟨by rw [hrun, hrun'], ?_, fun _ _ => trivial⟩
  rw [hrun, hrun']
  exact ⟨rfl, hs.rules, hs.terminals, hs.maxFlowEvents,
    ⟨flow, ⟨hf.retained, hf.state, hf.named⟩, ⟨hf'.retained, hf'.state, hf'.named⟩⟩,
    hs.others.trans ⟨rfl, rfl, rfl, rfl, rfl, rfl, fun _ _ => rfl⟩⟩

/-- A line that is written. -/
theorem mirrors_note (n : Note) : pair.Mirrors (Engine.note n) (Engine.note n) fun _ => True :=
  mirrors_of_isOnWorld ⟨pure (), fun engine => ⟨engine.journal.push n, rfl⟩⟩

/-- Going on from the state of the flow. -/
theorem mirrors_state_bind {next next' : Flow → Effect (Engine ω κ) α}
    (h : ∀ flow : Flow, flow.id = pair.id → pair.Mirrors (next flow) (next' flow) post) :
    pair.Mirrors (Engine.state pair.left >>= next) (Engine.state pair.right >>= next') post := by
  refine .read_bind fun engine engine' hs => ?_
  obtain ⟨flow, hf, hf'⟩ := hs.flow
  exact ⟨flow, flow, hf.run_state, hf'.run_state, h flow hf.named⟩

/-- Going on from a change of the flow that leaves its id. -/
theorem mirrors_update_bind {f : Flow → Flow} {next next' : Unit → Effect (Engine ω κ) α}
    (hid : ∀ flow, (f flow).id = flow.id) (h : pair.Mirrors (next ()) (next' ()) post) :
    pair.Mirrors (Engine.update pair.left f >>= next) (Engine.update pair.right f >>= next') post :=
  (Effect.Mirrors.modify fun _ _ hs => hs.change hid).bind fun _ _ => h

/-- Finding the flow by its id, where it is there. -/
theorem mirrors_serialOrNew_bind {next next' : Nat → Effect (Engine ω κ) α}
    (h : pair.Mirrors (next pair.left) (next' pair.right) post) :
    pair.Mirrors (Engine.serialOrNew pair.id >>= next) (Engine.serialOrNew pair.id >>= next')
      post := by
  refine .read_bind fun engine engine' hs => ?_
  obtain ⟨flow, hf, hf'⟩ := hs.flow
  exact ⟨pair.left, pair.right, hf.run_serialOrNew, hf'.run_serialOrNew, h⟩

/-- Finding the flow by its id. -/
theorem mirrors_serial_bind {next next' : Nat → Effect (Engine ω κ) α}
    (h : pair.Mirrors (next pair.left) (next' pair.right) post) :
    pair.Mirrors (Engine.serial pair.id >>= next) (Engine.serial pair.id >>= next') post := by
  refine .read_bind fun engine engine' hs => ?_
  obtain ⟨flow, hf, hf'⟩ := hs.flow
  exact ⟨pair.left, pair.right, hf.run_serial, hf'.run_serial, h⟩

/-! ### Actions -/

/-- Asking for room. -/
theorem mirrors_requireRoom : pair.Mirrors (Engine.requireRoom pair.id pair.left)
    (Engine.requireRoom pair.id pair.right) fun _ => True := by
  unfold Engine.requireRoom
  refine .get_bind fun engine engine' hs => ?_
  rw [hs.maxFlowEvents]
  refine mirrors_state_bind fun flow _ => ?_
  split
  · exact .throw _
  · split
    · exact .throw _
    · exact .pure trivial

/-- Recording an action. -/
theorem mirrors_record (concept action : String) (input : Fields) (output : Value) :
    pair.Mirrors (Engine.record pair.left concept action input output)
      (Engine.record pair.right concept action input output) fun _ => True := by
  unfold Engine.record
  exact mirrors_state_bind fun flow _ => mirrors_update_bind (fun _ => rfl) (.pure trivial)

/-- Performing an action that is a computation on the world. -/
theorem mirrors_perform {concept action : String}
    (h : ∀ input, IsOnWorld (handlers.perform concept action input)) (input : Value) :
    pair.Mirrors (Engine.perform handlers concept action input pair.id)
      (Engine.perform handlers concept action input pair.id) fun _ => True := by
  unfold Engine.perform
  refine (mirrors_of_isOnWorld (.requireConcept handlers concept)).bind fun _ _ =>
    mirrors_serialOrNew_bind (mirrors_requireRoom.bind fun _ _ => .ofExcept_bind fun fields _ => ?_)
  exact (mirrors_of_isOnWorld (h fields)).bind fun output _ =>
    mirrors_record concept action fields output

/-! ### Carrying a rule out -/

/-- Asking whether an action may be carried out. -/
theorem mirrors_permits (template : ActionTemplate) (args : Value) :
    pair.Mirrors (Engine.permits pair.left template args) (Engine.permits pair.right template args)
      fun _ => True := by
  unfold Engine.permits
  refine .get_bind fun engine engine' hs => ?_
  rw [hs.terminals]
  split
  · exact .pure trivial
  refine .ofExcept_bind fun value _ => ?_
  dsimp only
  split
  · exact .throw_bind _
  refine mirrors_state_bind fun flow _ =>
    mirrors_update_bind (fun flow => Flow.id_noteResponse flow _) ?_
  split
  · exact .ofExcept_bind fun _ _ => .ofExcept_bind fun _ _ =>
      (mirrors_note _).bind fun _ _ => .pure trivial
  · exact .pure trivial

/-- Carrying the actions of a frame out. -/
theorem mirrors_dispatch {calls : List Dispatch} (h : ∀ call ∈ calls,
      ∀ input, IsOnWorld (handlers.perform call.1.concept call.1.action input)) :
    pair.Mirrors (Engine.dispatch handlers pair.left calls)
      (Engine.dispatch handlers pair.right calls) fun _ => True := by
  induction calls with
  | nil => exact .pure trivial
  | cons call rest ih =>
    obtain ⟨template, args⟩ := call
    rw [List.forall_mem_cons] at h
    unfold Engine.dispatch
    refine (mirrors_permits template args).bind fun permitted _ => ?_
    split
    · refine mirrors_state_bind fun flow hid => ?_
      rw [hid]
      refine (mirrors_perform h.1 args).attempt.bind fun outcome _ => ?_
      split
      · exact ih h.2
      · exact .throw_bind _
    · exact ih h.2

/-- What happens before the engine waits. -/
theorem mirrors_before (handlers : Handlers ω κ) :
    pair.Mirrors handlers.waiting.before handlers.waiting.before fun _ => True :=
  mirrors_of_isOnWorld (.inWorld handlers.wait.before)

/-- What happens until it has waited. -/
theorem mirrors_after (handlers : Handlers ω κ) :
    pair.Mirrors handlers.waiting.after handlers.waiting.after fun _ => True :=
  mirrors_of_isOnWorld (.inWorld handlers.wait.after)

variable {rules : List (Rule κ)} {rule : Rule κ}

/-- Preparing the actions of a rule. -/
theorem mirrors_prepare (hh : handlers.StayOut rules) (hr : rule ∈ rules) (frames : List Frame) :
    pair.Mirrors (Engine.prepare handlers rule frames) (Engine.prepare handlers rule frames)
      fun calls => ∀ mine ∈ calls, ∀ call ∈ mine,
        rule.Performs call.1.concept call.1.action := by
  have hstages : pair.Mirrors (Stage.applyAll handlers.adapters rule.stages frames)
      (Stage.applyAll handlers.adapters rule.stages frames) fun _ => True :=
    .applyAll (fun adapter inputs outputs hmem args =>
      mirrors_of_isOnWorld (hh.adapt rule hr adapter inputs outputs hmem args))
      (mirrors_before handlers) (mirrors_after handlers) frames
  unfold Engine.prepare
  refine (hstages.bind fun kept _ => .ofExcept fun calls hcalls =>
    Rule.performs_of_mem_dispatches hcalls).attempt.bind fun outcome houtcome => ?_
  cases outcome with
  | ok calls => exact .pure (houtcome calls rfl)
  | error fault => exact .throw _

/-- Carrying a rule out. -/
theorem mirrors_carryOut (hh : handlers.StayOut rules) (hr : rule ∈ rules) (frames : List Frame) :
    pair.Mirrors (Engine.carryOut handlers pair.left rule frames)
      (Engine.carryOut handlers pair.right rule frames) fun _ => True := by
  unfold Engine.carryOut
  refine (mirrors_prepare hh hr frames).bind fun calls hcalls => ?_
  exact (Effect.Mirrors.gather (mirrors_before handlers) (mirrors_after handlers) fun mine hm =>
    mirrors_dispatch fun call hc => hh.perform rule hr _ _ (hcalls mine hm call hc)).bind
      fun _ _ => .pure trivial

/-- Recording a fault. -/
theorem mirrors_recordFault (rule : Rule κ) (fault : Fault) :
    pair.Mirrors (Engine.recordFault pair.left rule fault)
      (Engine.recordFault pair.right rule fault) fun _ => True := by
  unfold Engine.recordFault
  exact mirrors_state_bind fun flow _ => mirrors_update_bind (fun _ => rfl) (mirrors_note _)

/-- Evaluating a rule. -/
theorem mirrors_evaluate (hh : handlers.StayOut rules) (hr : rule ∈ rules)
    (trigger : Option Nat) : pair.Mirrors (Engine.evaluate handlers pair.left trigger rule)
      (Engine.evaluate handlers pair.right trigger rule) fun _ => True := by
  unfold Engine.evaluate
  refine mirrors_state_bind fun flow _ => .ofExcept_bind fun fresh _ => ?_
  split
  · exact .pure trivial
  refine mirrors_update_bind (fun _ => rfl) ((mirrors_note _).bind fun _ _ =>
    (mirrors_carryOut hh hr _).attempt.bind fun outcome _ => ?_)
  split
  · exact .pure trivial
  · split
    · exact mirrors_recordFault rule _
    · exact .throw _

/-- Evaluating rules one after the other. -/
theorem mirrors_evaluateEach (hh : handlers.StayOut rules) (trigger : Option Nat)
    {some : List (Rule κ)} (hr : some ⊆ rules) :
    pair.Mirrors (Engine.evaluateEach handlers pair.left trigger some)
      (Engine.evaluateEach handlers pair.right trigger some) fun _ => True := by
  induction some with
  | nil => exact .pure trivial
  | cons rule rest ih =>
    rw [List.cons_subset] at hr
    unfold Engine.evaluateEach
    exact (mirrors_evaluate hh hr.1 trigger).bind fun _ _ => ih hr.2

section Rounds

variable (hh : handlers.StayOut pair.first.rules)

include hh

/-- Evaluating all rules from a place on. -/
theorem mirrors_evaluateFrom (trigger : Option Nat) (times place : Nat) :
    pair.Mirrors (Engine.evaluateFrom handlers pair.left trigger times place)
      (Engine.evaluateFrom handlers pair.right trigger times place) fun _ => True := by
  induction times generalizing place with
  | zero => exact .throw _
  | succ times ih =>
    unfold Engine.evaluateFrom
    refine .get_bind fun engine engine' hs => ?_
    rw [hs.rules, hs.others.rules]
    dsimp only
    split
    · exact .pure trivial
    · exact (mirrors_evaluateEach hh trigger (List.drop_subset _ _)).bind fun _ _ => ih _

/-- Evaluating all rules. -/
theorem mirrors_evaluateAll (trigger : Option Nat) :
    pair.Mirrors (Engine.evaluateAll handlers pair.left trigger)
      (Engine.evaluateAll handlers pair.right trigger) fun _ => True :=
  mirrors_evaluateFrom hh trigger _ _

/-- Working the queue off. -/
theorem mirrors_drainLoop (n : Nat) : pair.Mirrors (Engine.drainLoop handlers pair.left n)
    (Engine.drainLoop handlers pair.right n) fun _ => True := by
  have hdequeue : pair.Mirrors (Engine.dequeue pair.left) (Engine.dequeue pair.right)
      fun _ => True := by
    unfold Engine.dequeue
    exact mirrors_state_bind fun _ _ => mirrors_update_bind (fun _ => rfl) (.pure trivial)
  induction n with
  | zero =>
    unfold Engine.drainLoop
    refine hdequeue.bind fun event _ => ?_
    split
    · exact .pure trivial
    · exact .throw _
  | succ n ih =>
    unfold Engine.drainLoop
    refine hdequeue.bind fun event _ => ?_
    split
    · exact .pure trivial
    · exact (mirrors_evaluateAll hh _).bind fun _ _ => ih

omit hh in
/-- As many events can be taken off the queue in both engines. -/
theorem Holds.remaining_eq (hs : pair.Holds engine engine') :
    Engine.remaining handlers engine' pair.right = Engine.remaining handlers engine pair.left := by
  obtain ⟨flow, hf, hf'⟩ := hs.flow
  unfold Engine.remaining
  rw [hf.state, hf'.state, hs.maxFlowEvents]

/-- Emptying the queue. -/
theorem mirrors_drain : pair.Mirrors (Engine.drain handlers pair.id)
    (Engine.drain handlers pair.id) fun _ => True := by
  unfold Engine.drain
  refine mirrors_serial_bind (mirrors_state_bind fun flow _ => ?_)
  split
  · exact .pure trivial
  refine mirrors_update_bind (fun _ => rfl) (.get_bind fun engine engine' hs => ?_)
  dsimp only
  rw [hs.remaining_eq]
  exact (mirrors_drainLoop hh _).ensuring fun _ _ hs => hs.change fun _ => rfl

/-- A round that begins with an action that is a computation on the world. -/
theorem mirrors_invoke {concept action : String}
    (h : ∀ input, IsOnWorld (handlers.perform concept action input)) (input : Value) :
    pair.Mirrors (Engine.invoke handlers concept action input (some pair.id))
      (Engine.invoke handlers concept action input (some pair.id)) fun _ => True := by
  unfold Engine.invoke
  exact (Effect.Mirrors.pure (Q := fun given => given = pair.id) rfl).bind fun given hgiven =>
    hgiven ▸ (mirrors_perform h input).bind fun _ _ => (mirrors_drain hh).bind fun _ _ =>
      .pure trivial

/-- A round that begins with the whole log. -/
theorem mirrors_reevaluate : pair.Mirrors (Engine.reevaluate handlers pair.id)
    (Engine.reevaluate handlers pair.id) fun _ => True := by
  unfold Engine.reevaluate
  exact mirrors_serial_bind ((mirrors_evaluateAll hh none).bind fun _ _ => mirrors_drain hh)

end Rounds

/-- Engines that make a pair agree on its flow. -/
theorem Holds.agreesOn (h : pair.Holds engine engine') : engine.AgreesOn pair.id engine' := by
  obtain ⟨flow, hf, hf'⟩ := h.flow
  exact ⟨h.world, h.rules, h.terminals, h.maxFlowEvents, hf'.found.trans hf.found.symm⟩

end Pairing

namespace Engine

variable {id other : String} {serial serial' : Nat} {flow : Flow} {engine engine' : Engine ω κ}
  {handlers : Handlers ω κ} {act : Effect (Engine ω κ) α}

/-- Engines that agree on a flow that both of them host make a pair. -/
theorem AgreesOn.holds (h : engine.AgreesOn id engine') (hf : engine.Hosts id serial flow)
    (hf' : engine'.Hosts id serial' flow) :
    Pairing.Holds ⟨id, serial, serial', engine⟩ engine engine' :=
  ⟨h.world, h.rules, h.terminals, h.maxFlowEvents, ⟨flow, hf, hf'⟩, .refl serial engine⟩

/-- On the first engine the computation leaves all flows but one alone. On both it comes to the
same, and it leaves engines that agree. -/
structure Separates (id : String) (act : Effect (Engine ω κ) α) (engine engine' : Engine ω κ) :
    Prop where
  others : ∀ other, other ≠ id → (act.run engine).2.found other = engine.found other
  same : (act.run engine').1 = (act.run engine).1
  agrees : (act.run engine).2.AgreesOn id (act.run engine').2

/-- A computation that changes neither engine. -/
theorem AgreesOn.separates (h : engine.AgreesOn id engine') {outcome : Except Fault α}
    (hrun : act.run engine = (outcome, engine)) (hrun' : act.run engine' = (outcome, engine')) :
    Separates id act engine engine' := by
  refine ⟨fun other _ => ?_, ?_, ?_⟩ <;> rw [hrun]
  · rw [hrun']
  · rwa [hrun']

/-- A computation that mirrors itself in every pair. -/
theorem AgreesOn.separates_of_mirrors (h : engine.AgreesOn id engine') (hl : engine.IsLocated)
    (hl' : engine'.IsLocated) (hf : engine.found id = some flow)
    (hact : ∀ serial serial', Pairing.Mirrors ⟨id, serial, serial', engine⟩ act act fun _ => True) :
    Separates id act engine engine' := by
  obtain ⟨serial, hosts⟩ := hl.exists_hosts hf
  obtain ⟨serial', hosts'⟩ := hl'.exists_hosts (h.flow.trans hf)
  obtain ⟨hsame, hkeeps, -⟩ := hact serial serial' engine engine' (h.holds hosts hosts')
  exact ⟨fun other hne => hkeeps.others.found_eq hl hosts hne, hsame, hkeeps.agreesOn⟩

/-! ### A flow that is opened -/

/-- The other flows are found as before. -/
theorem IsLocated.found_openFlow_of_ne (hl : engine.IsLocated) (hne : other ≠ id) :
    (openFlow id engine).found other = engine.found other := by
  change (Table.get? other (Table.set id engine.states.length engine.retained)).bind
    (fun serial => (engine.states ++ [.start id])[serial]?) = _
  rw [Table.get?_set, if_neg hne.symm, found]
  cases hget : Table.get? other engine.retained with
  | none => rfl
  | some serial =>
    obtain ⟨flow, hf⟩ := hl.hosts hget
    exact List.getElem?_append_left (List.getElem?_eq_some_iff.mp hf.state).1

/-- Engines that agree do so when the flow is opened in both. -/
theorem AgreesOn.opened (h : engine.AgreesOn id engine') :
    (openFlow id engine).AgreesOn id (openFlow id engine') :=
  ⟨h.world, h.rules, h.terminals, h.maxFlowEvents,
    (hosts_openFlow engine' id).found.trans (hosts_openFlow engine id).found.symm⟩

/-- Whether the concept is there goes by the world. -/
theorem run_requireConcept (handlers : Handlers ω κ) (concept : String) (engine : Engine ω κ) :
    (requireConcept handlers concept).run engine =
      (if handlers.isRegistered engine.world concept then .ok ()
        else .error (.unknownAction s!"concept {concept} not registered"), engine) := by
  unfold requireConcept
  rw [run_bind_ok (run_get engine)]
  cases handlers.isRegistered engine.world concept <;> rfl

/-- A round on a flow that is named begins with the action. -/
theorem run_invoke_some (concept action : String) (input : Value) (engine : Engine ω κ) :
    (invoke handlers concept action input (some id)).run engine
      = (perform handlers concept action input id >>= fun event =>
          drain handlers id >>= fun _ => pure event).run engine := rfl

/-- A round by an action of a concept that is not there is refused. -/
theorem run_invoke_of_not_registered {concept : String} (id action : String) (input : Value)
    (hreg : handlers.isRegistered engine.world concept = false) :
    (invoke handlers concept action input (some id)).run engine
      = (.error (.unknownAction s!"concept {concept} not registered"), engine) := by
  have hconcept := run_requireConcept handlers concept engine
  rw [hreg, if_neg Bool.false_ne_true] at hconcept
  rw [run_invoke_some]
  exact run_bind_error (run_bind_error hconcept)

/-- So is a round on the whole log of a flow that is not there. -/
theorem run_reevaluate_of_not_retained (handlers : Handlers ω κ)
    (hget : Table.get? id engine.retained = none) :
    (reevaluate handlers id).run engine
      = (.error (.raised "LookupError" s!"unknown flow {id}"), engine) := by
  have hserial : (Engine.serial id).run engine
      = (.error (.raised "LookupError" s!"unknown flow {id}"), engine) := by
    unfold Engine.serial
    rw [run_bind_ok (run_get engine), hget]
    rfl
  exact run_bind_error hserial

/-- A round on a flow that is not there, by an action of a concept that is, is one on the flow when
it is opened. -/
theorem run_invoke_openFlow {concept : String} (action : String) (input : Value)
    (hget : Table.get? id engine.retained = none)
    (hreg : handlers.isRegistered engine.world concept = true) :
    (invoke handlers concept action input (some id)).run engine
      = (invoke handlers concept action input (some id)).run (openFlow id engine) := by
  have hconcept : ∀ engine₀ : Engine ω κ, engine₀.world = engine.world →
      (requireConcept handlers concept).run engine₀ = (.ok (), engine₀) := fun engine₀ hworld => by
    rw [run_requireConcept, hworld, if_pos hreg]
  have hserial : (serialOrNew id).run engine = (.ok engine.states.length, openFlow id engine) := by
    unfold serialOrNew
    rw [run_bind_ok (run_get engine), hget]
    rfl
  have hperform : (perform handlers concept action input id).run engine
      = (perform handlers concept action input id).run (openFlow id engine) := by
    unfold perform
    rw [run_bind_ok (hconcept engine rfl), run_bind_ok (hconcept (openFlow id engine) rfl),
      run_bind_ok hserial, run_bind_ok (hosts_openFlow engine id).run_serialOrNew]
  rw [run_invoke_some, run_invoke_some, run_bind, run_bind, hperform]

/-! ### Rounds -/

/-- A round that begins with an action that is a computation on the world. -/
theorem AgreesOn.separates_invoke (h : engine.AgreesOn id engine') (hl : engine.IsLocated)
    (hl' : engine'.IsLocated) (hh : handlers.StayOut engine.rules) {concept action : String}
    (hact : ∀ input, IsOnWorld (handlers.perform concept action input)) (input : Value) :
    Separates id (invoke handlers concept action input (some id)) engine engine' := by
  cases hreg : handlers.isRegistered engine.world concept with
  | false =>
    exact h.separates (run_invoke_of_not_registered id action input hreg)
      (run_invoke_of_not_registered id action input (h.world ▸ hreg))
  | true =>
    have hmirrors : ∀ first : Engine ω κ, first.rules = engine.rules → ∀ serial serial',
        Pairing.Mirrors ⟨id, serial, serial', first⟩
          (invoke handlers concept action input (some id))
          (invoke handlers concept action input (some id)) fun _ => True :=
      fun first hrules serial serial' =>
        Pairing.mirrors_invoke (hrules ▸ hh) hact input
    cases hf : engine.found id with
    | some flow => exact h.separates_of_mirrors hl hl' hf (hmirrors engine rfl)
    | none =>
      -- the flow is opened in both engines, and the round goes on from there
      have hopen := run_invoke_openFlow action input (hl.get?_eq_none hf) hreg
      have hopen' := run_invoke_openFlow action input (hl'.get?_eq_none (h.flow.trans hf))
        (h.world ▸ hreg)
      obtain ⟨hothers, hsame, hagrees⟩ := h.opened.separates_of_mirrors
        ((steady_openFlow engine engine.started).located hl)
        ((steady_openFlow engine' engine'.started).located hl') (hosts_openFlow engine id).found
        (hmirrors (openFlow id engine) rfl)
      refine ⟨fun other hne => ?_, ?_, ?_⟩ <;> rw [hopen]
      · rw [hothers other hne, hl.found_openFlow_of_ne hne]
      · rw [hopen', hsame]
      · rwa [hopen']

/-- A round that begins with the whole log. -/
theorem AgreesOn.separates_reevaluate (h : engine.AgreesOn id engine') (hl : engine.IsLocated)
    (hl' : engine'.IsLocated) (hh : handlers.StayOut engine.rules) :
    Separates id (reevaluate handlers id) engine engine' := by
  cases hf : engine.found id with
  | some flow =>
    exact h.separates_of_mirrors hl hl' hf fun serial serial' =>
      Pairing.mirrors_reevaluate hh
  | none =>
    exact h.separates (run_reevaluate_of_not_retained handlers (hl.get?_eq_none hf))
      (run_reevaluate_of_not_retained handlers (hl'.get?_eq_none (h.flow.trans hf)))

/-- What may be asked of the host is answered by handlers that stay out. -/
theorem stayOut_handlers {host : Host ω κ} {may : EngineCall κ → Prop} {call : EngineCall κ}
    {rules : List (Rule κ)} (hh : host.StaysOut may call rules) (depth : Nat) :
    (host.handlers (answer host depth) depth).StayOut rules := by
  have hanswer : ∀ call, may call → IsOnWorld (answer host depth call) :=
    fun _ => isOnWorld_answer hh.toWithdraws depth
  exact ⟨fun rule hr concept action hp input => .program hanswer
      (hh.perform concept action _ (hh.performed rule hr concept action hp _)),
    fun rule hr adapter inputs outputs hmem args => .program hanswer
      (hh.asked rule hr adapter inputs outputs hmem args)⟩

/-- Whatever is done on a flow leaves the other flows as they are, with all that was recorded,
queued, fired, answered and aborted in them, and with who works on them. And wherever the world, the
rules, the responses, the ceiling and this flow are the same, it comes to the same result or fault,
and to the same world and the same state of the flow, whatever other flows there are. -/
theorem answer_separates {host : Host ω κ} {may : EngineCall κ → Prop} {call : EngineCall κ}
    (hc : call.IsOn id) (hh : host.StaysOut may call engine.rules) (hl : engine.IsLocated)
    (depth : Nat) :
    (∀ other, other ≠ id →
        ((answer host depth call).run engine).2.found other = engine.found other) ∧
      ∀ engine' : Engine ω κ, engine'.IsLocated → engine.AgreesOn id engine' →
        ((answer host depth call).run engine').1 = ((answer host depth call).run engine).1 ∧
          ((answer host depth call).run engine).2.AgreesOn id
            ((answer host depth call).run engine').2 := by
  have hall : ∀ engine' : Engine ω κ, engine'.IsLocated → engine.AgreesOn id engine' →
      Separates id (answer host depth call) engine engine' := by
    intro engine' hl' h
    cases depth with
    | zero => exact h.separates rfl rfl
    | succ depth =>
      have hstay := stayOut_handlers hh depth
      cases call with
      | invoke concept action input flow =>
        obtain rfl : flow = some id := hc
        exact h.separates_invoke hl hl' hstay (fun input => .program
          (fun _ => isOnWorld_answer hh.toWithdraws depth)
          (hh.perform concept action _ (hh.invoked concept action _ _ rfl _))) input
      | reevaluate flow =>
        obtain rfl : flow = id := hc
        exact h.separates_reevaluate hl hl' hstay
      | _ => exact hc.elim
  exact ⟨(hall engine hl (.refl id engine)).others,
    fun engine' hl' h => ⟨(hall engine' hl' h).same, (hall engine' hl' h).agrees⟩⟩

/-- A gate that counts who passes it, and says how many they are. -/
def gate : Host Nat Unit where
  isRegistered _ name := name == "Gate"
  perform _ _ _ := .read fun passed => .write (passed + 1) (.done (.ok (.object [])))
  query _ _ _ := .read fun passed => .done (.ok (.object [("passed", .int passed)]))
  adapterName _ := "counter"
  adapt _ _ := .request (.query "Gate" "passed" (.object [])) fun reply =>
    .done (reply.map fun counted => .list [counted])
  wait := ⟨pure (), pure ()⟩

/-- The rule by which the gate is closed after it was opened, with the number of those who
passed. -/
def closing : Rule Unit where
  name := "closing"
  patterns := [⟨"Gate", "open", .object [], .object []⟩]
  stages :=
    [.query () (.object []) (.object [("passed", .symbol (Symbol.plain "closing" "passed"))])]
  actions := [⟨"Gate", "close", .object [("passed", .symbol (Symbol.plain "closing" "passed"))]⟩]

/-- The gate with two flows, of which somebody works on the second one. -/
def gateWithSouth : Engine Nat Unit :=
  { (start 7 (.count 9) (.count 9) : Engine Nat Unit) with
    rules := [closing]
    retained := [("north", 0), ("south", 1)]
    states := [.start "north", { Flow.start "south" with draining := true }] }

/-- The gate with another second flow, which came first and in which something failed. -/
def gateWithWest : Engine Nat Unit :=
  { (start 7 (.count 9) (.count 1) : Engine Nat Unit) with
    rules := [closing]
    retained := [("west", 0), ("north", 1)]
    states := [(Flow.start "west").addFault "closing" (.raised "ValueError" "stuck"),
      .start "north"] }

/-- The gate is opened in the first flow. -/
def opening : EngineCall Unit := .invoke "Gate" "open" (.object []) (some "north")

/-- The gate is closed again, whatever the second flow is, and the second flow is left alone. -/
theorem answer_separates_gate :
    let ended := (answer gate 2 opening).run gateWithSouth
    let ended' := (answer gate 2 opening).run gateWithWest
    (ended.2.found "north").map (fun flow => flow.log.map Event.name)
        = some ["Gate.open", "Gate.close"] ∧
      ended.2.found "south" = some { Flow.start "south" with draining := true } ∧
      ended'.1 = ended.1 ∧ ended'.2.world = ended.2.world ∧
      ended'.2.found "north" = ended.2.found "north" := by
  have hon : opening.IsOn "north" := rfl
  have hstays : gate.StaysOut EngineCall.IsUnrecorded opening gateWithSouth.rules :=
    ⟨⟨fun _ h => h, fun _ _ _ _ => .read fun _ => .write (.done _),
      fun _ _ _ _ => .read fun _ => .done _⟩, fun _ _ _ _ _ _ => trivial,
      fun _ _ _ _ _ _ => trivial, fun _ _ _ _ _ _ _ => .request trivial fun _ => .done _⟩
  have hlocated : gateWithSouth.IsLocated := by
    simp [IsLocated, gateWithSouth, Flow.start]
  have hlocated' : gateWithWest.IsLocated := by
    simp [IsLocated, gateWithWest, Flow.start, Flow.addFault]
  have hagree : gateWithSouth.AgreesOn "north" gateWithWest := ⟨rfl, rfl, rfl, rfl, rfl⟩
  obtain ⟨hothers, hsame⟩ := answer_separates hon hstays hlocated 2
  obtain ⟨houtcome, hagrees⟩ := hsame gateWithWest hlocated' hagree
  exact ⟨by decide +kernel, hothers "south" (by decide), houtcome, hagrees.world, hagrees.flow⟩

end Engine

end HerdBook
