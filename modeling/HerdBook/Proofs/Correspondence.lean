import HerdBook.Proofs.Remembering
import HerdBook.Proofs.Retention
import HerdBook.Rules.Shape

/-!
# Hosts that keep requests

One of the concepts of a host is that of the requests; what the others are, and what the adapters
are that rules ask, is left open. No concept uses the engine. The adapters may use it, for flows
under ids that they may know. Whoever changes the requests does so by steps (`RequestStep`). So
whatever the engine is asked, the requests go through steps, and nothing else becomes of them.

Worlds are looked at through what they remember of the requests, which is nothing where a world is
not as it should be. Flows that are over stay over: an id that nobody but the transport knows is
not asked for, and the states that are left of such flows are not worked on any more.

* `Program.Minds`: the programs that change requests by steps only.
* `Host.KeepsRequests`: the hosts that are spoken of.
* `Engine.IsUnderway`: what is known of an engine while it is asked something.

## Main results

* `Requests.ComesFrom.run`: every action on the requests is a number of steps.
* `Host.KeepsRequests.keeps_answer`: whatever the engine is asked, this remains known of it.
* `Host.KeepsRequests.run_invoke_request`: what becomes of a request that is invoked in a flow.
* `Host.KeepsRequests.run_query_response`: what is answered when its response is asked for.
-/

namespace HerdBook

open Effect Requests

variable {ω κ α : Type}

/-! ### Actions on the requests -/

/-- After steps there may be more. -/
theorem Requests.play_append (first rest : List RequestStep) (state : Requests) :
    play (first ++ rest) state = play rest (play first state) := List.foldl_append

/-- The state comes from another one by steps. -/
def Requests.ComesFrom (state state' : Requests) : Prop := ∃ steps, state' = play steps state

/-- What is told of the response to a request: its body, or that there is none. -/
def Requests.told (id : String) (state : Requests) : Value :=
  match Table.get? id state.responses with
  | some body => .object [("body", .object body)]
  | none => .object [("error", .str s!"No response for request '{id}'.")]

namespace Requests.ComesFrom

variable {state state' : Requests}

/-- A state that is left as it is. -/
theorem refl (state : Requests) : state.ComesFrom state := ⟨[], rfl⟩

/-- There may be more steps after steps. -/
theorem play (h : state.ComesFrom state') (steps : List RequestStep) :
    state.ComesFrom (play steps state') := by
  obtain ⟨before, rfl⟩ := h
  exact ⟨before ++ steps, (play_append before steps state).symm⟩

/-- Who waits until the end has everybody have turns, and time pass. -/
theorem reach (h : state.ComesFrom state') (w : Waiter) : state.ComesFrom (reach w state') := by
  unfold Requests.reach
  cases turnsLeft? w with
  | some turns => exact h.play [.resume turns]
  | none =>
    cases w.deadline with
    | some deadline => exact h.play [.resume timeUpTurns, .expire deadline, .resume timeUpTurns]
    | none => exact h.play [.resume timeUpTurns]

/-- Every action is a number of steps. -/
theorem run (action : RequestAction) (state : Requests) :
    state.ComesFrom (action.run.run state).2 := by
  have hrefusal : ∀ (v : Value) (words : String → String), Keeps state.ComesFrom
      (textOf v >>= fun name => pure (Answer.refusal (words name))) :=
    fun _ _ => .bind (.ofExcept fun _ _ => trivial) fun _ (_ : True) => .pure trivial
  suffices h : Keeps state.ComesFrom action.run from (h state (refl state)).1
  cases action with
  | request fields => exact fun _ hs => ⟨hs.play [.request fields], fun _ _ => trivial⟩
  | respond request body => exact fun _ hs => ⟨hs.play [.respond request body], fun _ _ => trivial⟩
  | fields request =>
    refine .bind (.ofExcept fun _ _ => trivial) fun key (_ : True) => .bind .get fun state _ => ?_
    split
    · exact hrefusal request _
    · exact .pure trivial
  | response request =>
    refine .bind .get fun state _ => .bind (.ofExcept fun _ _ => trivial) fun found (_ : True) => ?_
    cases found with
    | none => exact hrefusal request _
    | some body => exact .pure trivial
  | await request timeout =>
    have hstart : Keeps state.ComesFrom (start request timeout) :=
      fun _ hs => ⟨hs.play [.wait request timeout], fun _ _ => trivial⟩
    exact hstart.bind fun w _ => .bind (.modify fun _ hs => hs.reach w) fun _ _ =>
      .bind .get fun _ _ => .ofExcept fun _ _ => trivial

end Requests.ComesFrom

/-! ### Programs and hosts -/

section Hosts

variable (memory : ω → Option Requests)

/-- On an engine that remembers requests, the program does to them what the computation does, and
answers what it answers. -/
def Program.CarriesOut (program : Program ω κ Value) (act : Effect Requests Answer) : Prop :=
  ∀ (answer : (call : EngineCall κ) → Effect (Engine ω κ) call.Answer) (engine : Engine ω κ)
    (state : Requests), memory engine.world = some state →
      (∀ a, (act.run state).1 = .ok a → ((program.run answer).run engine).1 = .ok a.value) ∧
        memory ((program.run answer).run engine).2.world = some (act.run state).2

/-- The requests of the first world have come by steps to those of the second one. -/
def Hands (world world' : ω) : Prop :=
  ∀ state, memory world = some state → ∃ state', state.ComesFrom state' ∧
    memory world' = some state'

/-- Nothing has become of the requests. -/
theorem Hands.refl (world : ω) : Hands memory world world :=
  fun state hm => ⟨state, .refl state, hm⟩

/-- More has become of them. -/
theorem Hands.trans {memory : ω → Option Requests} {first mid last : ω}
    (h : Hands memory first mid) (h' : Hands memory mid last) : Hands memory first last := by
  intro state hm
  obtain ⟨_, hcomes, hmid⟩ := h state hm
  obtain ⟨_, ⟨steps, rfl⟩, hlast⟩ := h' _ hmid
  exact ⟨_, hcomes.play steps, hlast⟩

/-- In the world, the program changes the requests by steps only, and it places no calls but those
that may be. -/
inductive Program.Minds (may : EngineCall κ → Prop) : ω → Program ω κ α → Prop where
  | done {world : ω} (outcome : Except Fault α) : Minds may world (.done outcome)
  | read {world : ω} {next : ω → Program ω κ α} (rest : Minds may world (next world)) :
      Minds may world (.read next)
  | write {world world' : ω} {next : Program ω κ α} (steps : Hands memory world world')
      (rest : Minds may world' next) : Minds may world (.write world' next)
  | note {world : ω} {n : Note} {next : Program ω κ α} (rest : Minds may world next) :
      Minds may world (.note n next)
  | request {world : ω} {call : EngineCall κ} {next : Except Fault call.Answer → Program ω κ α}
      (allowed : may call)
      (each : ∀ world' state reply, memory world' = some state → Minds may world' (next reply)) :
      Minds may world (.request call next)

/-- The rule asks no adapters but these. -/
def Rule.AsksOnly (asked : κ → Prop) (rule : Rule κ) : Prop :=
  ∀ adapter inputs outputs, .query adapter inputs outputs ∈ rule.stages → asked adapter

/-- A host with the concept of the requests, which does what the actions on them do. No concept uses
the engine. The adapters that are asked may use it, for flows under ids of theirs and with rules
that ask such adapters. Nobody changes the requests but by steps, nor do those who wait. -/
structure Host.KeepsRequests (asked : κ → Prop) (named : String → Prop) (host : Host ω κ) :
    Prop where
  registered : ∀ {world state}, memory world = some state →
    host.isRegistered world Rules.requesting = true
  performs : ∀ {name args reading}, RequestAction.ofCall? name args = some reading →
    (host.perform Rules.requesting name (.object args)).CarriesOut memory
      (Effect.ofExcept reading >>= RequestAction.run)
  queries : ∀ {name args reading}, name.startsWith "_" = true →
    RequestAction.ofCall? name args = some reading →
      (host.query Rules.requesting name (.object args)).CarriesOut memory
        (Effect.ofExcept reading >>= RequestAction.run)
  concepts : ∀ concept name args {world state}, memory world = some state →
    (host.perform concept name args).Minds memory (fun _ => False) world ∧
      (host.query concept name args).Minds memory (fun _ => False) world
  adapters : ∀ {adapter}, asked adapter → ∀ args {world state}, memory world = some state →
    (host.adapt adapter args).Minds memory (EngineCall.Observes named (Rule.AsksOnly asked)) world
  waits : ∀ world, Hands memory world (host.wait.before.run world).2 ∧
    Hands memory world (host.wait.after.run world).2

/-- What is known of an engine while it is asked something: what it was when this began, the
requests that were remembered then, and which flows were over. The ids that are retained stand for
states that are there, and none of them is the id of a flow that is over. States of such a flow may
be left from before, but there are no new ones. -/
structure Engine.IsUnderway (asked : κ → Prop) (closed : String → Prop) (origin : Engine ω κ)
    (state : Requests) (engine : Engine ω κ) : Prop where
  located : engine.IsLocated
  maxRetained : engine.maxRetained = origin.maxRetained
  started : origin.started ≤ engine.started
  rules : ∀ rule ∈ engine.rules, rule.AsksOnly asked
  remembered : ∃ state', memory engine.world = some state' ∧ state.ComesFrom state'
  older : ∀ (n : Nat) (flow : Flow), origin.states[n]? = some flow →
    ∃ flow', engine.states[n]? = some flow' ∧ flow'.id = flow.id
  newer : ∀ (n : Nat) (flow : Flow), engine.states[n]? = some flow → origin.states[n]? = none →
    ¬closed flow.id
  gone : ∀ id, closed id → Table.get? id engine.retained = none

end Hosts

/-- Flows are told apart by their numbers. -/
theorem Engine.flowId_inj {m n : Nat} (h : flowId m = flowId n) : m = n := toString_inj_of_append h

/-- No flow that is started has an id without letters. -/
theorem Engine.flowId_ne_empty (n : Nat) : flowId n ≠ "" := by
  intro h
  have hhead := congrArg String.toList h
  rw [flowId, String.toList_append] at hhead
  cases hhead

/-- Finding the number of a flow, or opening it, leaves the world alone. -/
theorem Engine.world_of_serialOrNew {engine engine' : Engine ω κ} {id : String}
    {outcome : Except Fault Nat} (h : (serialOrNew id).run engine = (outcome, engine')) :
    engine'.world = engine.world := by
  unfold serialOrNew at h
  rw [run_bind_ok (run_get engine)] at h
  cases hget : Table.get? id engine.retained <;> rw [hget] at h <;>
    exact congrArg (fun r => r.2.world) h.symm

namespace Program

variable {memory : ω → Option Requests} {P : Engine ω κ → Prop}
  {answer : (call : EngineCall κ) → Effect (Engine ω κ) call.Answer} {may : EngineCall κ → Prop}

/-- A program that changes the requests by steps keeps what does not depend on the rest of the world
and on the journal, when the answers to its calls do. -/
theorem Minds.keeps (hmemory : ∀ engine, P engine → ∃ state, memory engine.world = some state)
    (hjournal : ∀ engine journal, P engine → P { engine with journal := journal })
    (hworld : ∀ engine world, P engine → Hands memory engine.world world →
      P { engine with world := world })
    (ha : ∀ call, may call → Keeps P (answer call)) {world : ω} {program : Program ω κ α}
    (hp : program.Minds memory may world) (engine : Engine ω κ) (hw : engine.world = world)
    (he : P engine) : P ((program.run answer).run engine).2 := by
  induction hp generalizing engine with
  | done outcome => exact he
  | read _ ih =>
    subst hw
    exact ih engine rfl he
  | write steps _ ih =>
    subst hw
    exact ih _ rfl (hworld engine _ he steps)
  | note _ ih => exact ih _ hw (hjournal engine _ he)
  | @request _ call next allowed _ ih =>
    have hafter := (ha call allowed engine he).1
    obtain ⟨state, hstate⟩ := hmemory _ hafter
    exact ih _ state _ hstate _ rfl hafter

/-- Without calls it uses nothing of the engine but the world and the journal. -/
theorem Minds.aside {program : Program ω κ α} (engine : Engine ω κ)
    (hp : program.Minds memory (fun _ => False) engine.world) {state : Requests}
    (hm : memory engine.world = some state) :
    engine.Aside ((program.run answer).run engine).2 := by
  refine (hp.keeps (P := fun engine' => engine.Aside engine' ∧
    ∃ state, memory engine'.world = some state) (fun _ h => h.2) (fun _ _ h => ?_)
    (fun engine' world h hsteps => ?_) (fun _ => False.elim) engine rfl
    ⟨⟨rfl, rfl, rfl, rfl, rfl, rfl, rfl⟩, state, hm⟩).1
  · exact ⟨⟨h.1.rules, h.1.terminals, h.1.maxFlowEvents, h.1.maxRetained, h.1.retained, h.1.states,
      h.1.started⟩, h.2⟩
  · obtain ⟨before, hbefore⟩ := h.2
    obtain ⟨after, -, hafter⟩ := hsteps before hbefore
    exact ⟨⟨h.1.rules, h.1.terminals, h.1.maxFlowEvents, h.1.maxRetained, h.1.retained, h.1.states,
      h.1.started⟩, after, hafter⟩

end Program

namespace Engine.IsUnderway

variable {memory : ω → Option Requests} {asked : κ → Prop} {closed : String → Prop}
  {origin engine : Engine ω κ} {state : Requests}

/-- The numbers of states that no flow that is over has left. -/
def Ours (closed : String → Prop) (origin : Engine ω κ) (n : Nat) : Prop :=
  ∀ flow, origin.states[n]? = some flow → ¬closed flow.id

/-- What is known of the engine depends on what its world remembers of the requests, and not on the
journal. -/
theorem aside (h : IsUnderway memory asked closed origin state engine) {engine' : Engine ω κ}
    (ha : engine.Aside engine')
    (hm : ∃ state', memory engine'.world = some state' ∧ state.ComesFrom state') :
    IsUnderway memory asked closed origin state engine' where
  located := by
    have hlocated := h.located
    unfold IsLocated at hlocated ⊢
    rwa [ha.retained, ha.states]
  maxRetained := ha.maxRetained.trans h.maxRetained
  started := ha.started ▸ h.started
  rules := ha.rules ▸ h.rules
  remembered := hm
  older := ha.states ▸ h.older
  newer := ha.states ▸ h.newer
  gone := ha.retained ▸ h.gone

/-- It remains known when the requests have taken steps. -/
theorem steps (h : IsUnderway memory asked closed origin state engine) {engine' : Engine ω κ}
    (ha : engine.Aside engine') (hm : Hands memory engine.world engine'.world) :
    IsUnderway memory asked closed origin state engine' := by
  obtain ⟨before, hbefore, hcomes⟩ := h.remembered
  obtain ⟨after, ⟨steps, rfl⟩, hafter⟩ := hm before hbefore
  exact h.aside ha ⟨_, hafter, hcomes.play steps⟩

/-- What is known of an engine can be said of the requests as they are by now. -/
theorem rebased (h : IsUnderway memory asked closed origin state engine) {before : Requests}
    (hm : memory engine.world = some before) :
    IsUnderway memory asked closed origin before engine :=
  ⟨h.located, h.maxRetained, h.started, h.rules, ⟨before, hm, .refl before⟩, h.older, h.newer,
    h.gone⟩

/-- A state that is there when a flow is opened stands where it stood. -/
theorem states_openFlow {id : String} {n : Nat} {flow : Flow}
    (h : engine.states[n]? = some flow) : (openFlow id engine).states[n]? = some flow :=
  List.getElem?_append_left (List.getElem?_eq_some_iff.mp h).1 ▸ h

/-- It remains known when a flow is opened whose id is not that of a flow that is over. -/
theorem opened (h : IsUnderway memory asked closed origin state engine) {id : String}
    (hid : ¬closed id) {started : Nat} (hs : engine.started ≤ started) :
    IsUnderway memory asked closed origin state
      (openFlow id { engine with started := started }) where
  located := (steady_openFlow engine started).located h.located
  maxRetained := h.maxRetained
  started := Nat.le_trans h.started hs
  rules := h.rules
  remembered := h.remembered
  older n flow hn := by
    obtain ⟨flow', hflow', hsame⟩ := h.older n flow hn
    exact ⟨flow', states_openFlow hflow', hsame⟩
  newer n flow hflow hn := by
    change (engine.states ++ [Flow.start id])[n]? = some flow at hflow
    rw [List.getElem?_append] at hflow
    split at hflow
    · exact h.newer n flow hflow hn
    · obtain rfl := List.mem_singleton.mp (List.mem_of_getElem? hflow)
      exact hid
  gone other hother := by
    have hne : id ≠ other := by
      rintro rfl
      exact hid hother
    change Table.get? other (Table.set id _ engine.retained) = none
    rw [Table.get?_set, if_neg hne]
    exact h.gone other hother

/-- It remains known when a state is changed but for its id. -/
theorem change (h : IsUnderway memory asked closed origin state engine) (serial : Nat)
    {f : Flow → Flow} (hf : ∀ flow, (f flow).id = flow.id) :
    IsUnderway memory asked closed origin state (engine.change serial f) := by
  have hstates : ∀ n, (engine.change serial f).states[n]?
      = (engine.states[n]?).map fun flow => if serial = n then f flow else flow := fun n =>
    List.getElem?_modify ..
  have hid : ∀ n flow, (if serial = n then f flow else flow).id = flow.id := by
    intro n flow
    split
    · exact hf flow
    · rfl
  refine ⟨h.located.of_states (List.Subset.refl _) fun n flow hn =>
    ⟨_, by rw [hstates, hn]; rfl, hid n flow⟩, h.maxRetained, h.started, h.rules, h.remembered,
    fun n flow hn => ?_, fun n flow hflow hn => ?_, h.gone⟩
  · obtain ⟨flow', hflow', hsame⟩ := h.older n flow hn
    exact ⟨_, by rw [hstates, hflow']; rfl, (hid n flow').trans hsame⟩
  · rw [hstates] at hflow
    obtain ⟨flow', hflow', rfl⟩ := Option.map_eq_some_iff.mp hflow
    rw [hid]
    exact h.newer n flow' hflow' hn

/-- It remains known when a flow is let go. -/
theorem ended (h : IsUnderway memory asked closed origin state engine) (id : String) :
    IsUnderway memory asked closed origin state (endFlow id engine) := by
  refine ⟨(steady_endFlow engine).located h.located, h.maxRetained, h.started, h.rules,
    h.remembered, h.older, h.newer, fun other hother => Table.get?_eq_none _ fun hmem => ?_⟩
  have hother : other ∉ Table.keys engine.retained := fun hkey => by
    obtain ⟨entry, he, rfl⟩ := List.mem_map.mp hkey
    exact Table.ne_of_get?_eq_none (h.gone _ hother) entry he rfl
  exact hother (List.mem_of_mem_erase (Table.keys_erase id engine.retained ▸ hmem))

/-- It remains known when a rule is added that asks only what may be asked. -/
theorem ruled (h : IsUnderway memory asked closed origin state engine) {rule : Rule κ}
    (hrule : rule.AsksOnly asked) :
    IsUnderway memory asked closed origin state
      { engine with rules := engine.rules ++ [rule] } := by
  refine ⟨h.located, h.maxRetained, h.started, fun other hmem => ?_, h.remembered, h.older,
    h.newer, h.gone⟩
  rcases List.mem_append.mp hmem with hmem | hmem
  · exact h.rules other hmem
  · exact List.mem_singleton.mp hmem ▸ hrule

/-- The number that a flow is found under is not that of a state that a flow that is over has left. -/
theorem ours_of_retained (h : IsUnderway memory asked closed origin state engine) {id : String}
    {n : Nat} (hget : Table.get? id engine.retained = some n) : Ours closed origin n := by
  intro flow hflow hid
  obtain ⟨found, hfound, hsame⟩ := h.located _ (Table.mem_of_get? hget)
  obtain ⟨flow', hflow', hsame'⟩ := h.older n flow hflow
  obtain rfl : found = flow' := Option.some.inj (hfound.symm.trans hflow')
  rw [← hsame', hsame] at hid
  exact absurd (hget.symm.trans (h.gone id hid)) (by simp)

/-- A state that a flow that is over has not left has the id of none of these. -/
theorem not_closed_of_ours (h : IsUnderway memory asked closed origin state engine)
    {n : Nat} (hours : Ours closed origin n) {flow : Flow} (hflow : engine.states[n]? = some flow) :
    ¬closed flow.id := by
  intro hid
  cases hbefore : origin.states[n]? with
  | none => exact h.newer n flow hflow hbefore hid
  | some before =>
    obtain ⟨flow', hflow', hsame⟩ := h.older n before hbefore
    obtain rfl : flow = flow' := Option.some.inj (hflow.symm.trans hflow')
    exact hours before hbefore (hsame ▸ hid)

/-- All that an engine does by itself leaves this known of it: a number that is found is not that of
a state that a flow that is over has left. -/
theorem sustains (hclosed : ∀ id, closed id → ∃ k ≤ origin.started, id = flowId k) :
    Sustains (IsUnderway memory asked closed origin state) (Ours closed origin)
      (fun id => ¬closed id) (Rule.AsksOnly asked) where
  found h hget := h.ours_of_retained hget
  called {engine n} h hours hid := by
    cases hflow : engine.states[n]? with
    | none =>
      rw [hflow] at hid
      obtain ⟨k, -, hk⟩ := hclosed _ hid
      exact flowId_ne_empty k hk.symm
    | some flow =>
      rw [hflow] at hid
      exact h.not_closed_of_ours hours hflow hid
  rules h := h.rules
  journal _ h := ⟨h.located, h.maxRetained, h.started, h.rules, h.remembered, h.older, h.newer,
    h.gone⟩
  changed {engine serial f} _ hf h := h.change serial hf
  opened {engine id} hid _ h := by
    refine ⟨h.opened hid (Nat.le_refl _), fun flow hflow => ?_⟩
    obtain ⟨flow', hflow', -⟩ := h.older _ flow hflow
    rw [List.getElem?_eq_none (Nat.le_refl _)] at hflow'
    cases hflow'
  started {engine} h := by
    have hnew : ¬closed (flowId (engine.started + 1)) := by
      intro hid
      obtain ⟨k, hk, he⟩ := hclosed _ hid
      have := flowId_inj he
      have := h.started
      omega
    exact ⟨hnew, h.opened hnew (Nat.le_succ _)⟩
  ended id h := h.ended id
  ruled hrule h := h.ruled hrule
  terminal _ _ _ h := ⟨h.located, h.maxRetained, h.started, h.rules, h.remembered, h.older, h.newer,
    h.gone⟩

end Engine.IsUnderway

/-- A program that places no calls but those of a class places none but those of a larger one. -/
theorem Program.Minds.mono {memory : ω → Option Requests} {may may' : EngineCall κ → Prop}
    (hmay : ∀ call, may call → may' call) {world : ω} {program : Program ω κ α}
    (h : program.Minds memory may world) : program.Minds memory may' world := by
  induction h with
  | done outcome => exact .done outcome
  | read _ ih => exact .read ih
  | write steps _ ih => exact .write steps ih
  | note _ ih => exact .note ih
  | request allowed _ ih => exact .request (hmay _ allowed) ih

namespace Host.KeepsRequests

open Engine

/-- What is said of fewer ids is said of more. -/
theorem mono {memory : ω → Option Requests} {asked : κ → Prop} {named named' : String → Prop}
    {host : Host ω κ} (hnamed : ∀ id, named id → named' id)
    (h : host.KeepsRequests memory asked named) : host.KeepsRequests memory asked named' := by
  refine { h with adapters := fun ha args _ _ hm => (h.adapters ha args hm).mono fun call hc => ?_ }
  cases call with
  | invoke => exact fun id hid => hnamed id (hc id hid)
  | registerRule => exact hc
  | _ => exact trivial

variable {memory : ω → Option Requests} {asked : κ → Prop} {closed : String → Prop}
  {host : Host ω κ} {origin engine : Engine ω κ} {state : Requests}
  {inner : (call : EngineCall κ) → Effect (Engine ω κ) call.Answer} {depth : Nat}

/-- A program that changes the requests by steps leaves known what is, when the answers to its calls
do. -/
theorem keeps_minding {may : EngineCall κ → Prop}
    (ha : ∀ call, may call → Keeps (IsUnderway memory asked closed origin state) (inner call))
    {program : Program ω κ α}
    (hp : ∀ {world before}, memory world = some before → program.Minds memory may world) :
    Keeps (IsUnderway memory asked closed origin state) (program.run inner) := by
  refine fun engine h => ⟨?_, fun _ _ => trivial⟩
  obtain ⟨before, hbefore, -⟩ := h.remembered
  refine (hp hbefore).keeps (fun _ h => ?_) (fun _ _ h => ?_) (fun _ _ h hsteps => ?_) ha engine rfl
    h
  · obtain ⟨state', hstate, -⟩ := h.remembered
    exact ⟨state', hstate⟩
  · exact h.aside ⟨rfl, rfl, rfl, rfl, rfl, rfl, rfl⟩ h.remembered
  · exact h.steps ⟨rfl, rfl, rfl, rfl, rfl, rfl, rfl⟩ hsteps

variable (hhost : host.KeepsRequests memory asked fun id => ¬closed id)

include hhost

/-- So does whatever a concept is called by. -/
theorem keeps_concept (concept name : String) (args : Value) :
    Keeps (IsUnderway memory asked closed origin state)
        ((host.perform concept name args).run inner) ∧
      Keeps (IsUnderway memory asked closed origin state)
        ((host.query concept name args).run inner) :=
  ⟨keeps_minding (fun _ => False.elim) fun hm => (hhost.concepts concept name args hm).1,
    keeps_minding (fun _ => False.elim) fun hm => (hhost.concepts concept name args hm).2⟩

/-- So do those who wait. -/
theorem keeps_waiting :
    Keeps (IsUnderway memory asked closed origin state) (host.handlers inner depth).waiting.before ∧
      Keeps (IsUnderway memory asked closed origin state)
        (host.handlers inner depth).waiting.after := by
  constructor <;> refine fun engine h => ⟨?_, fun _ _ => trivial⟩
  · exact h.steps ⟨rfl, rfl, rfl, rfl, rfl, rfl, rfl⟩ (hhost.waits _).1
  · exact h.steps ⟨rfl, rfl, rfl, rfl, rfl, rfl, rfl⟩ (hhost.waits _).2

variable (hclosed : ∀ id, closed id → ∃ k ≤ origin.started, id = flowId k)

include hclosed

/-- So do rounds, when the answers to what is asked from inside do. -/
theorem upheld (ha : ∀ call : EngineCall κ,
      call.Observes (fun id => ¬closed id) (Rule.AsksOnly asked) →
        Keeps (IsUnderway memory asked closed origin state) (inner call)) :
    Upheld (IsUnderway memory asked closed origin state) (IsUnderway.Ours closed origin)
      (fun id => ¬closed id) (Rule.AsksOnly asked) (host.handlers inner depth) :=
  (IsUnderway.sustains hclosed).upheld (fun _ _ _ => (hhost.keeps_concept ..).1)
    (fun hrule hmem args => keeps_minding ha fun hm => hhost.adapters (hrule _ _ _ hmem) args hm)
    hhost.keeps_waiting.1 hhost.keeps_waiting.2

/-- Whatever the engine is asked, it remains known what was. -/
theorem keeps_answer (depth : Nat) {call : EngineCall κ}
    (hc : call.Observes (fun id => ¬closed id) (Rule.AsksOnly asked)) :
    Keeps (IsUnderway memory asked closed origin state) (answer host depth call) := by
  induction depth generalizing call with
  | zero => exact .throw _
  | succ depth ih =>
    exact (IsUnderway.sustains hclosed).answerWith (hhost.upheld hclosed fun call => ih)
      (fun _ _ _ => (hhost.keeps_concept ..).1) (fun _ _ _ => (hhost.keeps_concept ..).2) hc

/-- A request that is performed and does not fail is answered with the id that it gets, and the
requests are as they are with one more. -/
theorem run_perform_request (h : IsUnderway memory asked closed origin state engine)
    {before : Requests} (hm : memory engine.world = some before) {n : Int}
    (hl : before.limit = .count n) {id : String} (hid : ¬closed id) {input : Fields} {event : Event}
    {performed : Engine ω κ}
    (hrun : (Engine.perform (host.handlers inner depth) Rules.requesting "request" (.object input)
      id).run engine = (.ok event, performed)) :
    event.output = .object [("request", .str before.nextId)] ∧
      IsUnderway memory asked closed origin state performed ∧
      memory performed.world = some ((RequestStep.request input).after before) := by
  have hsustains : Sustains (IsUnderway memory asked closed origin state)
      (IsUnderway.Ours closed origin) (fun id => ¬closed id) (Rule.AsksOnly asked) :=
    IsUnderway.sustains hclosed
  -- until the action begins, the requests are left alone
  let P := fun e : Engine ω κ =>
    IsUnderway memory asked closed origin state e ∧ memory e.world = some before
  obtain ⟨_, e₁, hconcept, hrun⟩ := exists_of_run_bind hrun
  have h₁ : P e₁ := (keeps_requireConcept _).of_run ⟨h, hm⟩ hconcept
  obtain ⟨serial, e₂, hserial, hrun⟩ := exists_of_run_bind hrun
  have h₂ : P e₂ := by
    refine ⟨(hsustains.serialOrNew hid).of_run h₁.1 hserial, ?_⟩
    rw [world_of_serialOrNew hserial, h₁.2]
  obtain ⟨_, e₃, hroom, hrun⟩ := exists_of_run_bind hrun
  have h₃ : P e₃ := keeps_requireRoom.of_run h₂ hroom
  obtain ⟨fields, _, hfields, hrun⟩ := exists_of_run_bind hrun
  obtain ⟨rfl, rfl⟩ : input = fields ∧ e₃ = _ := by
    obtain ⟨hfields, he⟩ := Prod.mk.inj hfields
    exact ⟨Except.ok.inj hfields, he⟩
  obtain ⟨output, e₄, hact, hrun⟩ := exists_of_run_bind hrun
  have hasked : (Effect.ofExcept (.ok (.request input)) >>= RequestAction.run).run before
      = (request input).run before := rfl
  have hreading : RequestAction.ofCall? "request" input = some (.ok (.request input)) := rfl
  have hanswer := hhost.performs hreading inner e₃ before h₃.2
  rw [hasked, run_request before hl] at hanswer
  have hact' : ((host.perform Rules.requesting "request" (.object input)).run inner).run e₃
      = (.ok output, e₄) := hact
  rw [hact'] at hanswer
  obtain ⟨houtput, hafter⟩ := hanswer
  obtain rfl := Except.ok.inj (houtput _ rfl)
  have h₄ := ((hhost.keeps_concept ..).1).of_run h₃.1 hact'
  have hours : IsUnderway.Ours closed origin serial := by
    have hs := ((hsustains.serialOrNew hid) e₁ h₁.1).2
    rw [hserial] at hs
    exact hs serial rfl
  refine ⟨?_, (hsustains.record hours _ _ _ _).of_run h₄ hrun, ?_⟩
  · exact congrArg Event.output (Except.ok.inj (congrArg Prod.fst hrun)).symm
  · rw [RequestStep.after, run_request before hl, ← hafter]
    exact congrArg (fun r => memory r.2.world) hrun.symm

/-- A request that is invoked in a flow and does not fail is answered with the id that it gets. From
then on the requests take steps. -/
theorem run_invoke_request (h : IsUnderway memory asked closed origin state engine)
    {before : Requests} (hm : memory engine.world = some before) {n : Int}
    (hl : before.limit = .count n) {id : String} (hid : ¬closed id) {input : Fields} {event : Event}
    {worked : Engine ω κ}
    (hrun : (answer host (depth + 1) (.invoke Rules.requesting "request" (.object input)
      (some id))).run engine = (.ok event, worked)) :
    event.output = .object [("request", .str before.nextId)] ∧ ∃ after,
      memory worked.world = some after ∧
        ((RequestStep.request input).after before).ComesFrom after := by
  obtain ⟨_, _, hflow, hrun⟩ := exists_of_run_bind hrun
  obtain ⟨rfl, rfl⟩ : id = _ ∧ engine = _ := by
    obtain ⟨hflow, he⟩ := Prod.mk.inj hflow
    exact ⟨Except.ok.inj hflow, he⟩
  obtain ⟨performed, engine₁, hperform, hrun⟩ := exists_of_run_bind hrun
  obtain ⟨_, engine₂, hdrain, hrun⟩ := exists_of_run_bind hrun
  obtain ⟨rfl, rfl⟩ : performed = event ∧ engine₂ = worked := by
    obtain ⟨hevent, he⟩ := Prod.mk.inj hrun
    exact ⟨Except.ok.inj hevent, he⟩
  obtain ⟨houtput, h₁, hm₁⟩ := hhost.run_perform_request hclosed h hm hl hid hperform
  have hupheld : Upheld
      (IsUnderway memory asked closed origin ((RequestStep.request input).after before))
      (IsUnderway.Ours closed origin) (fun id => ¬closed id) (Rule.AsksOnly asked)
      (host.handlers (answer host depth) depth) :=
    hhost.upheld hclosed fun call => hhost.keeps_answer hclosed depth
  exact ⟨houtput, (((IsUnderway.sustains hclosed).drain hupheld _).of_run (h₁.rebased hm₁)
    hdrain).remembered⟩

omit hclosed in
variable (depth) in
/-- Who asks for the response to a request is told its body if there is one, and an error if not. -/
theorem run_query_response {state : Requests} (hm : memory engine.world = some state)
    (id : String) : ∃ queried,
      (answer host (depth + 1) (.query Rules.requesting "_getResponse"
        (.object [("request", .str id)]))).run engine
        = (.ok (state.told id), queried) ∧
      engine.Aside queried ∧ memory queried.world = some state := by
  have hrequire : (requireConcept (host.handlers (answer host depth) depth) Rules.requesting).run
      engine = (.ok (), engine) := by
    unfold requireConcept
    rw [run_bind_ok (run_get engine)]
    simp only [Host.handlers, hhost.registered hm, Bool.not_true, Bool.false_eq_true, if_false]
    rfl
  have hreading : RequestAction.ofCall? "_getResponse" [("request", .str id)]
      = some (.ok (.response (.str id))) := rfl
  have hasked : (Effect.ofExcept (.ok (.response (.str id))) >>= RequestAction.run).run state
      = (.ok ⟨state.told id, []⟩, state) := by
    change (response (.str id)).run state = _
    unfold response Requests.told
    rw [run_bind_ok (run_get state)]
    have hfound : responseTo (.str id) state = .ok (Table.get? id state.responses) := rfl
    rw [hfound]
    cases Table.get? id state.responses <;> rfl
  obtain ⟨houtcome, hafter⟩ :=
    hhost.queries (by decide +kernel) hreading (answer host depth) engine state hm
  rw [hasked] at houtcome hafter
  refine ⟨_, ?_, (hhost.concepts _ _ _ hm).2.aside engine hm, hafter⟩
  have hquery : answer host (depth + 1) (.query Rules.requesting "_getResponse"
      (.object [("request", .str id)])) = (do
        requireConcept (host.handlers (answer host depth) depth) Rules.requesting
        (host.query Rules.requesting "_getResponse" (.object [("request", .str id)])).run
          (answer host depth)) := rfl
  rw [hquery, run_bind_ok hrequire]
  exact Prod.ext (houtcome _ rfl) rfl

end Host.KeepsRequests

end HerdBook
