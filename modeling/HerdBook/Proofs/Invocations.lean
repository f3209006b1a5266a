import HerdBook.Proofs.Books
import HerdBook.Proofs.Strata

/-!
# Requests that come in

What it comes to when a request is invoked in a flow of its own: it is recorded as the first event
of the flow, one pass over the rules is made for it, and the queue is emptied to no effect.

## Main results

* `Rehearsal.exists_run_request`: the request is recorded, and the concepts are left as they are.
* `Rehearsal.exists_run_drain`: what working on the flow comes to is what a pass comes to.
* `Rehearsal.exists_run_invoke`: both together.
-/

namespace HerdBook

open Effect Rules

/-- The flow is a new one: it is started, or the id is free, or nothing has happened in the flow
that it stands for. -/
def Rehearsal.IsFresh (engine : Rehearsal) (flow : Option String) : Prop :=
  ∀ id ∈ flow, ∃ serial, engine.LeadsTo id serial (.start id)

/-- The flow after the request that it begins with. -/
def Venue.opening (venue : Venue) (input : Fields) (rid : String) : Flow :=
  ⟨venue.id, [venue.request input rid], [venue.request input rid], [], [], [], false⟩

/-- The scene of that flow. -/
def Ledger.opening (ledger : Ledger) (venue : Venue) (input : Fields) (rid : String) : Scene :=
  ⟨[venue.request input rid], [], [], [], ledger⟩

/-- The handlers of an engine of the herd book, where the calls of actions and adapters may nest to
the depth. At depth zero every such call is refused. -/
abbrev World.handlersWithin (depth reentries : Nat) : Handlers World AdapterCode :=
  World.host.handlers (Engine.answer World.host depth) reentries

/-- Where flows are counted, it is known how many of them are to be let go. -/
theorem Engine.exists_excess {ω κ : Type} (engine : Engine ω κ) {n : Int}
    (h : engine.maxRetained = .count n) : ∃ excess, engine.excess = some excess := by
  unfold Engine.excess
  rw [h]
  exact ⟨_, rfl⟩

/-! ### The rules as a whole -/

/-- The adapter that a stage asks, if it asks one. -/
def Stage.adapter? {κ : Type} : Stage κ → Option κ
  | .query adapter _ _ => some adapter
  | _ => none

/-- The adapters that the rules ask are lookups. -/
theorem Rules.exists_lookup : ∀ rule ∈ all AdapterCode.lookup, ∀ adapter inputs outputs,
    .query adapter inputs outputs ∈ rule.stages → ∃ question, adapter = .lookup question := by
  have hall : ∀ rule ∈ all AdapterCode.lookup, ∀ stage ∈ rule.stages,
      (stage.adapter?.all fun adapter => adapter matches .lookup _) = true := by
    decide +kernel
  intro rule hr adapter inputs outputs hs
  have hlookup := hall rule hr _ hs
  cases adapter with
  | lookup question => exact ⟨question, rfl⟩
  | scripted | outcome => exact nomatch hlookup

/-- No rule performs an action that itself or a rule before it watches for. -/
theorem Rules.stratified_all : Rule.Stratified (all AdapterCode.lookup) := by decide +kernel

/-- All rules begin with a request, and none of them makes one. -/
theorem Rules.isRooted_all : ∀ rule ∈ all AdapterCode.lookup, rule.IsRooted requesting "request" :=
    by
  have hstays : ∀ rule ∈ all AdapterCode.lookup, (requesting, "request") ∉ rule.performed := by
    decide +kernel
  intro rule hr
  refine ⟨?_, hstays rule hr⟩
  rw [all_eq] at hr
  obtain ⟨⟨path, rules⟩, hf, hrule⟩ := List.mem_flatMap.mp hr
  obtain ⟨inputs, rest, hpatterns⟩ := isFor_of_mem_families hf rule hrule
  exact ⟨_, _, hpatterns, rfl, rfl⟩

/-! ### The first event -/

namespace Rehearsal

variable {settings : Settings} {engine : Rehearsal} {depth reentries : Nat} {input : Fields}
  {answer : (call : EngineCall AdapterCode) → Effect Rehearsal call.Answer}

/-- An engine of the herd book stays one while its flows change. -/
theorem IsBook.of_sameSetup {engine' : Rehearsal} (h : engine.IsBook settings)
    (hs : engine.SameSetup engine') : engine'.IsBook settings :=
  ⟨hs.rules.trans h.rules, hs.terminals.trans h.terminals, hs.maxFlowEvents.trans h.maxFlowEvents,
    hs.maxRetained.trans h.maxRetained, hs.world ▸ h.world⟩

/-- It stays one, too, when its world remains that of a herd book. -/
theorem IsBook.of_world (hb : engine.IsBook settings) {world : World}
    (hw : world.IsBook (.count settings.maxRetainedRequests)) (journal : Array Note) :
    Rehearsal.IsBook settings { engine with world := world, journal := journal } :=
  ⟨hb.rules, hb.terminals, hb.maxFlowEvents, hb.maxRetained, hw⟩

/-- The flow of a request is found or started. -/
theorem exists_run_flow (hb : engine.IsBook settings) {flow : Option String}
    (hf : engine.IsFresh flow) : ∃ id serial engine₁,
      (match flow with
        | some id => pure id
        | none => Engine.startFlow : Effect Rehearsal String).run engine = (.ok id, engine₁) ∧
      (∀ given ∈ flow, given = id) ∧ engine₁.LeadsTo id serial (.start id) ∧
      engine.SameSetup engine₁ := by
  cases flow with
  | some id =>
    obtain ⟨serial, hlead⟩ := hf id rfl
    exact ⟨id, serial, engine, rfl, fun given hg => (Option.some.inj hg).symm, hlead, rfl, rfl, rfl,
      rfl, rfl⟩
  | none =>
    obtain ⟨excess, hexcess⟩ := Engine.exists_excess (Engine.openFlow
      (Engine.flowId (engine.started + 1)) { engine with started := engine.started + 1 } :
        Rehearsal)
      hb.maxRetained
    have hrun : ∃ id engine₁, (Engine.startFlow : Effect Rehearsal String).run engine
        = (.ok id, engine₁) := by
      refine ⟨Engine.flowId (engine.started + 1), Engine.evict (Engine.flowId (engine.started + 1))
        excess (Engine.openFlow (Engine.flowId (engine.started + 1))
          { engine with started := engine.started + 1 }), ?_⟩
      unfold Engine.startFlow
      rw [run_bind_ok (run_get _), run_bind_ok (run_modify ..), run_bind_ok (run_get _), hexcess]
      rfl
    obtain ⟨id, engine₁, hrun⟩ := hrun
    obtain ⟨serial, hhosts, hs⟩ := Engine.run_startFlow_hosts hrun
    exact ⟨id, serial, engine₁, hrun, nofun, .inl hhosts, hs⟩

/-- The concept of the requests is one that can be called. -/
theorem IsBook.run_requireConcept (hb : engine.IsBook settings) :
    (Engine.requireConcept (World.host.handlers answer reentries) requesting).run engine
      = (.ok (), engine) := by
  have hregistered : (World.host.handlers answer reentries).isRegistered engine.world requesting
      = true := hb.world.registered .requests
  unfold Engine.requireConcept
  rw [run_bind_ok (run_get _), hregistered]
  rfl

/-- A flow in which nothing has happened has room for an event. -/
theorem IsBook.run_requireRoom (hb : engine.IsBook settings) (hroom : 0 < settings.maxFlowEvents)
    {id : String} {serial : Nat} (hf : engine.Hosts id serial (.start id)) :
    (Engine.requireRoom id serial).run engine = (.ok (), engine) := by
  have hreached : (Limit.count settings.maxFlowEvents).isReached (Flow.start id).log.length
      = some false := congrArg some (decide_eq_false (by simpa [Flow.start] using hroom))
  unfold Engine.requireRoom
  rw [run_bind_ok (run_get _), run_bind_ok hf.run_state, hb.maxFlowEvents, hreached]
  rfl

/-- A request that is recorded in such a flow begins it. -/
theorem exists_run_recordRequest {id : String} {serial : Nat}
    (hf : engine.Hosts id serial (.start id)) (ceiling : Int) (input : Fields) (rid : String) :
    ∃ engine₁, (Engine.record serial requesting "request" input
        (.object [("request", .str rid)])).run engine
          = (.ok (Venue.request ⟨id, serial, ceiling⟩ input rid), engine₁) ∧
      Engine.Hosts engine₁ id serial (Venue.opening ⟨id, serial, ceiling⟩ input rid) ∧
      engine.SameSetup engine₁ := by
  refine ⟨engine.change serial fun flow =>
    (flow.record requesting "request" input (.object [("request", .str rid)])).1, ?_,
    (hf.change (f := fun flow =>
      (flow.record requesting "request" input (.object [("request", .str rid)])).1) rfl).1,
    rfl, rfl, rfl, rfl, rfl⟩
  unfold Engine.record
  rw [run_bind_ok hf.run_state]
  rfl

/-- A request is recorded as the first event of its flow; of the concepts, only that of the requests
is concerned. -/
theorem exists_run_request (hb : engine.IsBook settings) (hroom : 0 < settings.maxFlowEvents)
    {id : String} {serial : Nat} (hf : engine.LeadsTo id serial (.start id)) (input : Fields) :
    ∃ rid, ∃ engine₁ : Rehearsal, (Engine.perform (World.host.handlers answer reentries) requesting
        "request" (.object input) id).run engine
          = (.ok (Venue.request ⟨id, serial, settings.maxFlowEvents⟩ input rid), engine₁) ∧
      engine₁.IsBook settings ∧
      engine₁.Hosts id serial (Venue.opening ⟨id, serial, settings.maxFlowEvents⟩ input rid) ∧
      (∀ kind : Concept.Kind, kind ≠ .requests →
        engine₁.world.member? kind.name = engine.world.member? kind.name) ∧
      engine₁.world.issued
        = { engine.world.issued with requests := engine.world.issued.requests + 1 } := by
  obtain ⟨engine₀, hrun₀, hhosts₀, hs₀⟩ := hf.run_serialOrNew
  have hb₀ : Rehearsal.IsBook settings engine₀ := hb.of_sameSetup hs₀
  obtain ⟨concept, hm, hkind, hr⟩ := hb₀.world.exists_member .requests
  cases concept with
  | accounts | herds | animals => exact nomatch hkind
  | requests state =>
  obtain ⟨rid, turn, hturn, hout, hissued⟩ := Concept.exists_turn_request
    (hr.limit?_eq _ rfl) input engine₀.world.issued
  have hreply : turn.reply = .ok (.object [("request", .str rid)]) :=
    Concept.Turn.reply_of_ok hout
  obtain ⟨journal, hperform⟩ := World.run_performOf hm hturn ⟨by decide, by decide +kernel⟩
    (Concept.Turn.answersFields_of_ok hout)
  rw [hreply] at hperform
  -- the concept has been called, and nothing has been recorded
  obtain ⟨engine₁, hengine₁⟩ : ∃ engine₁ : Rehearsal, engine₁ = { engine₀ with
    world := engine₀.world.afterTurn requesting turn, journal := journal } := ⟨_, rfl⟩
  have hworld₁ : engine₁.world = engine₀.world.afterTurn requesting turn := by rw [hengine₁]
  have hb₁ : engine₁.IsBook settings :=
    hengine₁ ▸ hb₀.of_world (hb₀.world.afterTurn hr hturn) journal
  have hhosts₁ : Engine.Hosts engine₁ id serial (.start id) := by
    rw [hengine₁]
    exact ⟨hhosts₀.retained, hhosts₀.state, rfl⟩
  obtain ⟨engine₂, hrecord, hhosts₂, hs₂⟩ := exists_run_recordRequest hhosts₁
    settings.maxFlowEvents input rid
  refine ⟨rid, engine₂, ?_, hb₁.of_sameSetup hs₂, hhosts₂, fun kind hk => ?_, ?_⟩
  · unfold Engine.perform
    rw [run_bind_ok hb.run_requireConcept, run_bind_ok hrun₀,
      run_bind_ok (hb₀.run_requireRoom hroom hhosts₀)]
    exact (run_bind_ok rfl).trans ((run_bind_ok (hengine₁ ▸ hperform)).trans hrecord)
  · rw [hs₂.world, hworld₁, ← hs₀.world]
    change Table.get? kind.name (Table.set Concept.Kind.requests.name _ engine₀.world.members) = _
    rw [Table.get?_set, if_neg fun he => hk (Concept.Kind.name_inj.mp he).symm]
    rfl
  · rw [hs₂.world, hworld₁, ← hs₀.world]
    exact hissued

/-! ### The round -/

variable (depth reentries) in
/-- The handlers of an engine of the herd book leave the engine alone. -/
theorem IsBook.isLocal (hb : engine.IsBook settings) :
    (World.handlersWithin depth reentries).IsLocal World.IsPlain engine.rules := by
  rw [hb.rules]
  exact World.isLocal_handlers depth reentries exists_lookup

/-- Working on the flow of a request comes to what a pass over the rules comes to. -/
theorem exists_run_drain {venue : Venue} {rid : String} {ledger : Ledger} {after : Scene}
    {more : List Event} (hb : engine.IsBook settings)
    (hf : engine.Hosts venue.id venue.serial (venue.opening input rid))
    (hceiling : venue.ceiling = settings.maxFlowEvents) (hw : engine.world.Shows ledger)
    (hplays : Scene.PlaysRules venue (World.handlersWithin depth reentries) (all AdapterCode.lookup)
      (ledger.opening venue input rid) after)
    (hafter : after.Begun venue input rid more)
    (hroom : (more.length : Int) + 1 ≤ settings.maxFlowEvents) :
    ∃ engine₁, (Engine.drain (World.handlersWithin depth reentries) venue.id).run engine
      = (.ok (), engine₁) ∧ Rehearsal.Shows venue engine₁ after := by
  obtain ⟨hf₀, hs₀⟩ := hf.change (f := fun flow => { flow with queue := [], draining := true }) rfl
  have hshows : Rehearsal.Shows venue (engine.change venue.serial fun flow =>
      { flow with queue := [], draining := true }) (ledger.opening venue input rid) :=
    ⟨⟨_, hf₀, rfl, rfl, rfl, nofun⟩, hb.terminals, by rw [hceiling]; exact hb.maxFlowEvents, hw⟩
  obtain ⟨engine₁, hpass, hshows₁⟩ := hplays _ hshows
  rw [← hb.rules] at hpass
  obtain ⟨flow₁, hf₁, hlog₁, hfaults₁, hgiven₁, hfired₁⟩ := hshows₁.flow
  have honly : (venue.opening input rid).HasOnly requesting "request" 0 := by
    intro event he _ _
    rw [List.mem_singleton.mp he]
    rfl
  have hrooted : ∀ rule ∈ engine.rules, rule.IsRooted requesting "request" :=
    hb.rules ▸ isRooted_all
  have hstratified : Rule.Stratified engine.rules := hb.rules ▸ stratified_all
  have hlocal := hb.isLocal depth reentries
  -- the queue grows as the log does
  obtain ⟨flow₂, hf₂, hgrows, -, -⟩ := Engine.evaluateEach_hasFired hlocal (fun _ hr => hr)
    hstratified hrooted ⟨hf₀, hb.world.isPlain⟩ honly hpass
  obtain rfl : flow₂ = flow₁ := Option.some.inj (hf₂.state.symm.trans hf₁.state)
  obtain ⟨events, hlog, hqueue, -⟩ := hgrows.events
  have hlength : events.length = more.length := by
    have := congrArg List.length (hlog₁.symm.trans hlog)
    rw [hafter.log] at this
    simpa [Venue.opening] using this.symm
  have hdrain := Engine.drain_of_pass hlocal hstratified hrooted
    ⟨hf, hb.world.isPlain⟩ rfl rfl honly hpass hf₁ (by
      rw [hqueue, hb.maxFlowEvents]
      simp only [Venue.opening, Flow.room, Limit.room, List.nil_append, List.length_cons,
        List.length_nil, hlength]
      omega)
  obtain ⟨hf₃, -⟩ := hf₁.change (f := fun flow => { flow with queue := [], draining := false }) rfl
  exact ⟨_, hdrain, ⟨_, hf₃, hlog₁, hfaults₁, hgiven₁, hfired₁⟩, hshows₁.terminals,
    hshows₁.maxFlowEvents, hshows₁.world⟩

/-- Invoking a request in a flow of its own comes to what a pass over the rules comes to, on the
concepts as they are. -/
theorem exists_run_invoke (hb : engine.IsBook settings) (hroom : 4 ≤ settings.maxFlowEvents)
    {flow : Option String} (hf : engine.IsFresh flow) {path : String}
    (hj : Value.FieldsAreJson input) (hp : Table.get? "path" input = some (.str path)) :
    ∃ (venue : Venue) (rid : String) (ledger : Ledger), (∀ given ∈ flow, given = venue.id) ∧
      (ledger.opening venue input rid).Opens venue input rid path ∧
      (∀ kind concept, ledger.concept? kind = some concept →
        engine.world.member? kind.name = some (.book concept) ∧
          concept.IsReachable (.count settings.maxRetainedRequests)) ∧
      ledger.issued
        = { engine.world.issued with requests := engine.world.issued.requests + 1 } ∧
      ∀ {after : Scene}, Scene.PlaysRules venue (World.handlersWithin depth reentries)
          (all AdapterCode.lookup) (ledger.opening venue input rid) after →
        after.Closes venue input rid →
        ∃ engine₁, (Engine.invoke (World.handlersWithin depth reentries) requesting "request"
            (.object input) flow).run engine = (.ok (venue.request input rid), engine₁) ∧
          Rehearsal.Shows venue engine₁ after := by
  obtain ⟨id, serial, engine₀, hflow, hgiven, hlead, hs₀⟩ := exists_run_flow hb hf
  have hb₀ : Rehearsal.IsBook settings engine₀ := hb.of_sameSetup hs₀
  obtain ⟨rid, engine₁, hrequest, hb₁, hhosts, hmembers, hissued⟩ := exists_run_request hb₀
    (by omega) hlead input
  obtain ⟨ledger, hshows, hkept⟩ := hb₁.world.exists_shows
  rw [hs₀.world] at hmembers hissued
  refine ⟨⟨id, serial, settings.maxFlowEvents⟩, rid, ledger, hgiven,
    ⟨⟨rfl, nofun⟩, rfl, rfl, rfl, hj, hp, hroom⟩, fun kind concept hc => ?_,
    hshows.issued.symm.trans hissued, fun {after} hplays hcloses => ?_⟩
  · obtain ⟨hm, hr⟩ := hkept kind concept hc
    rw [hmembers kind (Ledger.kind_of_concept? hc).2] at hm
    exact ⟨hm, hr⟩
  · obtain ⟨more, hafter, hsize⟩ := hcloses.begun
    obtain ⟨engine₂, hdrain, hshows₂⟩ := exists_run_drain hb₁ hhosts rfl hshows hplays hafter
      (by omega)
    refine ⟨engine₂, ?_, hshows₂⟩
    have hbegin : (Engine.invoke (World.handlersWithin depth reentries) requesting "request"
        (.object input) flow).run engine = ((do
          let event ← Engine.perform (World.handlersWithin depth reentries) requesting "request"
            (.object input) id
          Engine.drain (World.handlersWithin depth reentries) id
          return event : Effect Rehearsal Event).run engine₀) := by
      unfold Engine.invoke
      cases flow <;> exact run_bind_ok hflow
    exact hbegin.trans ((run_bind_ok hrequest).trans (run_bind_ok hdrain))

end Rehearsal

end HerdBook
