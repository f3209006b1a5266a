import HerdBook.Proofs.Invocations

/-!
# Requests are concluded

A request for a path that is wired, in a flow of its own, is answered exactly once, or it is left
unanswered and a fault is recorded. Invoking it never fails. This is so whatever the request holds
and whatever has happened to the concepts before, also when the store of one of them is ordered to
fail meanwhile.

## Main results

* `Rehearsal.run_stepWithin_invoke`: what a step shows that invokes a request.
* `Rehearsal.request_concludes`: every request is concluded.
-/

namespace HerdBook

open Effect Rules

/-- A program that asks the engine once comes to what the engine answers. -/
theorem Program.run_ask_bind {ω κ α : Type} {call : EngineCall κ} {engine engine' : Engine ω κ}
    {answer : (call : EngineCall κ) → Effect (Engine ω κ) call.Answer} {a : call.Answer}
    (h : (answer call).run engine = (.ok a, engine')) (next : call.Answer → Program ω κ α) :
    ((ask call >>= next : Program ω κ α).run answer).run engine
      = ((next a).run answer).run engine' := by
  refine (run_attemptThen (ask call) _ engine).trans ?_
  have hask : ((ask call : Program ω κ call.Answer).run answer).run engine = (.ok a, engine') := by
    change (((answer call).run engine).1, ((answer call).run engine).2) = _
    rw [h]
  rw [hask]

/-- The path is one of those that some rule is for. -/
def Rules.IsWired (path : String) : Prop := ∃ rule ∈ all AdapterCode.lookup, rule.IsFor path

/-- A rule is for one path at most. -/
theorem Rule.IsFor.eq {rule : Rule AdapterCode} {path other : String} (h : rule.IsFor path)
    (h' : rule.IsFor other) : path = other := by
  obtain ⟨inputs, rest, hpatterns⟩ := h
  obtain ⟨inputs', rest', hpatterns'⟩ := h'
  have hfirst := (List.cons.inj (hpatterns.symm.trans hpatterns')).1
  have hinputs := (Pattern.mk.inj hfirst).2.2.1
  simp only [Value.object.injEq, List.cons.injEq, Prod.mk.injEq, Value.str.injEq, true_and]
    at hinputs
  exact hinputs.1

/-- The paths that are wired are those of the routes. -/
theorem Rules.isWired_iff_mem_paths {path : String} : IsWired path ↔ path ∈ paths := by
  constructor
  · rintro ⟨rule, hr, hfor⟩
    rw [all_eq] at hr
    obtain ⟨family, hf, hrule⟩ := List.mem_flatMap.mp hr
    rw [hfor.eq (isFor_of_mem_families hf rule hrule)]
    exact List.mem_map_of_mem hf
  · intro hp
    obtain ⟨⟨path, rules⟩, hf, rfl⟩ := List.mem_map.mp hp
    have hsome : ∀ family ∈ families, family.2.isEmpty = false := by decide +kernel
    cases rules with
    | nil => exact nomatch hsome _ hf
    | cons rule rest =>
      exact ⟨rule, all_eq ▸ List.mem_flatMap.mpr ⟨_, hf, List.mem_cons_self⟩,
        isFor_of_mem_families hf rule List.mem_cons_self⟩

namespace Rehearsal

variable {settings : Settings} {engine engine' : Rehearsal} {input : Fields} {venue : Venue}
  {scene : Scene} {rid : String} {flow : Option String}

/-- What a flow holds to look at is what its scene holds. -/
theorem Shows.run_history (h : Rehearsal.Shows venue engine scene) (depth : Nat) :
    ((Step.history venue.id).run (Engine.answer World.host (depth + 1))).run engine
      = (.ok ⟨scene.log, scene.faults⟩, engine) := by
  obtain ⟨state, hhosts, hlog, hfaults, -⟩ := h.flow
  have hstate : (Engine.flow venue.id).run engine = (.ok state, engine) :=
    (run_bind_ok hhosts.run_serial).trans hhosts.run_state
  have hasks : (Engine.answer World.host (depth + 1) (.log venue.id)).run engine
      = (.ok scene.log, engine) := (run_bind_ok hstate).trans (by rw [hlog]; rfl)
  have hasks' : (Engine.answer World.host (depth + 1) (.faults venue.id)).run engine
      = (.ok scene.faults, engine) := (run_bind_ok hstate).trans (by rw [hfaults]; rfl)
  exact (Program.run_ask_bind hasks _).trans (Program.run_ask_bind hasks' _)

/-- Carries a step out where calls may nest to the depth. -/
def stepWithin (depth : Nat) (s : Step) : Effect Rehearsal Reply :=
  s.program.run (Engine.answer World.host depth)

/-- A step that invokes a request shows the request, the log and the faults. -/
theorem run_stepWithin_invoke {depth : Nat}
    (hrun : (Engine.invoke (World.handlersWithin depth depth) requesting "request"
      (.object input) flow).run engine = (.ok (venue.request input rid), engine'))
    (hshows : Rehearsal.Shows venue engine' scene) :
    (stepWithin (depth + 1) (.invoke requesting "request" (.object input) flow)).run engine
      = (.ok (.invoked (venue.request input rid) ⟨scene.log, scene.faults⟩), engine') := by
  have hanswer : (Engine.answer World.host (depth + 1) (.invoke requesting "request"
      (.object input) flow)).run engine = (.ok (venue.request input rid), engine') := hrun
  refine (Program.run_ask_bind hanswer _).trans ?_
  refine (Program.run_attemptThen (Step.history venue.id) _ engine').trans ?_
  rw [hshows.run_history depth]
  rfl

/-- So does one that is carried out as steps are. -/
theorem run_step_invoke (hrun : (Engine.invoke (World.handlersAt 998 999) requesting "request"
      (.object input) flow).run engine = (.ok (venue.request input rid), engine'))
    (hshows : Rehearsal.Shows venue engine' scene) :
    (step (.invoke requesting "request" (.object input) flow)).run engine
      = (.ok (.invoked (venue.request input rid) ⟨scene.log, scene.faults⟩), engine') :=
  run_stepWithin_invoke hrun hshows

/-- A request for a path that is wired, in a flow of its own, is concluded: there is exactly one
response, and it is to the request, or there is none, and a fault is recorded. -/
theorem request_concludes (hb : engine.IsBook settings) (hroom : 4 ≤ settings.maxFlowEvents)
    (hf : engine.IsFresh flow) {path : String} (hwired : IsWired path)
    (hj : Value.FieldsAreJson input) (hp : Table.get? "path" input = some (.str path)) :
    ∃ event history engine',
      (step (.invoke requesting "request" (.object input) flow)).run engine
        = (.ok (.invoked event history), engine') ∧
      (∀ id ∈ flow, event.flow = id) ∧
      ∃ rid, event.output = .object [("request", .str rid)] ∧
        Concludes history.log history.faults rid := by
  obtain ⟨venue, rid, ledger, hid, hopens, hkept, -, hinvoke⟩ := exists_run_invoke hb hroom hf hj hp
  obtain ⟨after, hplays, hcloses⟩ := exists_plays_all
    (isWired_iff_mem_paths.mp hwired) hopens fun kind concept hc => (hkept kind concept hc).2.sound
  obtain ⟨engine', hrun, hshows⟩ := hinvoke hplays hcloses
  exact ⟨_, _, engine', run_step_invoke hrun hshows, fun id h => (hid id h).symm, rid, rfl,
    hcloses.concludes⟩

/-- A request to create a herd, with a token that cannot even be looked up, on an engine that has
just been set up. -/
theorem request_concludes_createHerd : ∃ engine, Rehearsal.ofBook .standard [] none = .ok engine ∧
    engine.IsBook .standard ∧ IsWired "/HerdGrouping/createHerd" ∧
    ∃ event history engine', (step (.invoke requesting "request"
        (.object [("path", .str "/HerdGrouping/createHerd"), ("token", .list [])])
        none)).run engine = (.ok (.invoked event history), engine') ∧
      (∀ id ∈ (none : Option String), event.flow = id) ∧
      ∃ rid, event.output = .object [("request", .str rid)] ∧
        Concludes history.log history.faults rid :=
  have hb := isBook_of_ofBook none rfl nofun
  have hwired := isWired_iff_mem_paths.mpr (by decide +kernel)
  ⟨_, rfl, hb, hwired, request_concludes hb (by decide) nofun hwired
    ⟨trivial, trivial, trivial⟩ rfl⟩

end Rehearsal

end HerdBook
