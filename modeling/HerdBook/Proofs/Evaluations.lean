import HerdBook.Proofs.Bindings
import HerdBook.Proofs.Calls
import HerdBook.Proofs.Settled

/-!
# Evaluating a rule in a scene

In the flow of one request a rule finds one combination at most. What its evaluation does to a scene
is put together here from what each of its stages does to the one frame, and from what the one
action comes to that the rule carries out.

## Main results

* `Scene.plays_keep`, `Scene.plays_drop`, `Scene.plays_map`, `Scene.plays_lookup`: the stages.
* `Scene.plays_dispatch`, `Scene.plays_dispatch_respond`: the actions.
* `Scene.plays_evaluate_of_combinations_nil`, `Scene.plays_evaluate`, `Scene.plays_evaluate_error`:
  the rule as a whole.
-/

namespace HerdBook

open Effect

/-- The event is a response to the request, with the body. -/
def Event.IsResponse (event : Event) (rid : String) (body : Fields) : Prop :=
  event.concept = Rules.requesting ∧ event.action = "respond" ∧
    event.input = .object (("request", .str rid) :: body)

/-- The event is a response. -/
def Event.isResponse (event : Event) : Bool :=
  event.concept == Rules.requesting && event.action == "respond"

/-- There is exactly one response, and it is to the request; or there is none, and a fault is
recorded. -/
def Concludes (log : List Event) (faults : List FlowFault) (rid : String) : Prop :=
  (∃ body response, response.IsResponse rid body ∧ log.filter Event.isResponse = [response]) ∨
    (log.filter Event.isResponse = [] ∧ faults ≠ [])

/-- A response, after events that are none, concludes. -/
theorem concludes_of_response {log : List Event} {faults : List FlowFault} {rid : String}
    {body : Fields} {response : Event} (hr : response.IsResponse rid body)
    (hlog : ∀ event ∈ log, event.isResponse = false) :
    Concludes (log ++ [response]) faults rid := by
  have hnone : log.filter Event.isResponse = [] := by
    rw [List.filter_eq_nil_iff]
    exact fun event he => by simp [hlog event he]
  have hsome : response.isResponse = true := by simp [Event.isResponse, hr.1, hr.2.1]
  refine .inl ⟨body, response, hr, ?_⟩
  rw [List.filter_append, hnone, List.filter_cons_of_pos hsome]
  rfl

/-- A fault without any response does too. -/
theorem concludes_of_fault {log : List Event} {faults : List FlowFault} (rid : String)
    (hlog : ∀ event ∈ log, event.isResponse = false) (hf : faults ≠ []) :
    Concludes log faults rid :=
  .inr ⟨by rw [List.filter_eq_nil_iff]; exact fun event he => by simp [hlog event he], hf⟩

namespace Scene

variable {venue : Venue} {scene after : Scene} {frame : Frame} {depth reentries : Nat}
  {answer : (call : EngineCall AdapterCode) → Effect Rehearsal call.Answer}
  {handlers : Handlers World AdapterCode} {stages : List (Stage AdapterCode)}
  {outcome : Except Fault (List Frame)}

/-! ### Stages -/

/-- From the one frame the stages make the outcome, and the scene becomes the second one. -/
abbrev PlaysStages (venue : Venue) (handlers : Handlers World AdapterCode)
    (stages : List (Stage AdapterCode)) (frame : Frame) (scene : Scene)
    (outcome : Except Fault (List Frame)) (after : Scene) : Prop :=
  Plays venue (Stage.applyAll handlers.adapters stages [frame]) scene outcome after

/-- Without stages the frame is left as it is. -/
theorem plays_no_stages (frame : Frame) (scene : Scene) :
    PlaysStages venue handlers [] frame scene (.ok [frame]) scene :=
  Yields.ofExcept (.ok [frame]) scene

/-- Without frames nothing is done. -/
theorem plays_no_frames (stages : List (Stage AdapterCode)) (scene : Scene) :
    Plays venue (Stage.applyAll handlers.adapters stages []) scene (.ok []) scene := by
  cases stages <;> exact Yields.ofExcept (.ok []) scene

/-- A frame that passes a test goes on. -/
theorem plays_keep {test : Frame → Except Fault Bool} (ht : test frame = .ok true)
    (h : PlaysStages venue handlers stages frame scene outcome after) :
    PlaysStages venue handlers (.filter test :: stages) frame scene outcome after := by
  refine Yields.bind (a := [frame]) ?_ h
  change Plays venue (Effect.ofExcept ((Stage.keep test [frame]).mapError _)) _ _ _
  rw [Stage.keep, ht]
  exact Yields.ofExcept (.ok [frame]) scene

/-- A frame that does not is dropped. -/
theorem plays_drop {test : Frame → Except Fault Bool} (ht : test frame = .ok false)
    (scene : Scene) :
    PlaysStages venue handlers (.filter test :: stages) frame scene (.ok []) scene := by
  refine Yields.bind (a := []) ?_ (plays_no_frames stages scene)
  change Plays venue (Effect.ofExcept ((Stage.keep test [frame]).mapError _)) _ _ _
  rw [Stage.keep, ht]
  exact Yields.ofExcept (.ok []) scene

/-- A frame with one more symbol bound goes on. -/
theorem plays_map {s : Symbol} {value : Frame → Value}
    (h : PlaysStages venue handlers stages (frame.bind s (value frame)) scene outcome after) :
    PlaysStages venue handlers (.map (fun frame => .ok (frame.bind s (value frame))) :: stages)
      frame scene outcome after := by
  refine Yields.bind (a := [frame.bind s (value frame)]) ?_ h
  change Plays venue (Effect.ofExcept ((Stage.changeAll _ [frame]).mapError _)) _ _ _
  rw [Stage.changeAll, Frame.changeOne_bind]
  exact Yields.ofExcept (.ok _) scene

/-- A lookup answers with one row, and the frame goes on if the row matches. -/
theorem plays_lookup {question : Lookup} {inputs outputs args row : Fields} {next : Frame}
    {mid : Scene} (hargs : Value.fillFields frame inputs = .ok args)
    (hrow : Plays venue ((question.program (.object args) : ScriptProgram Value).run answer) scene
      (.ok (.list [.object row])) mid)
    (hnext : frame.unify? .optional outputs row = some next)
    (h : PlaysStages venue (World.host.handlers answer reentries) stages next mid outcome after) :
    PlaysStages venue (World.host.handlers answer reentries)
      (Rules.ask (.lookup question) inputs outputs :: stages) frame scene outcome after := by
  refine Yields.bind (a := [next]) (Yields.bind (a := [[next]]) ?_
    (Yields.ofExcept (.ok [next]) mid)) h
  have hjoin : Plays venue (Stage.joinRows (World.host.handlers answer reentries).adapters
      (.lookup question) (.object inputs) (.object outputs) frame) scene (.ok [next]) mid := by
    unfold Stage.joinRows
    rw [Value.fill, hargs]
    refine Yields.bind (Yields.ofExcept (.ok (Value.object args)) scene)
      (Yields.bind (a := [row]) (Yields.bind hrow.attempt (Yields.ofExcept (.ok [row]) mid)) ?_)
    rw [Stage.matchRows, Frame.unifyValue?, hnext]
    exact Yields.ofExcept (.ok [next]) mid
  exact Yields.gather_one (plays_waiting _ _ scene).1 hjoin (plays_waiting _ _ mid).2

variable (reentries stages) in
/-- A lookup that fails ends the stages. -/
theorem plays_lookup_error {question : Lookup} {inputs : Fields} (outputs : Fields) {args : Fields}
  {fault : Fault}
    (hargs : Value.fillFields frame inputs = .ok args)
    (hrow : Plays venue ((question.program (.object args) : ScriptProgram Value).run answer) scene
      (.error fault) after) :
    PlaysStages venue (World.host.handlers answer reentries)
      (Rules.ask (.lookup question) inputs outputs :: stages) frame scene
      (.error (fault.wrappedBy .adapter (AdapterCode.lookup question).name)) after := by
  refine Yields.bind_error (Yields.bind_error ?_)
  have hjoin : Plays venue (Stage.joinRows (World.host.handlers answer reentries).adapters
      (.lookup question) (.object inputs) (.object outputs) frame) scene
      (.error (fault.wrappedBy .adapter (AdapterCode.lookup question).name)) after := by
    unfold Stage.joinRows
    rw [Value.fill, hargs]
    exact Yields.bind (Yields.ofExcept (.ok (Value.object args)) scene)
      (Yields.bind_error (Yields.bind hrow.attempt (Yields.ofExcept (.error _) after)))
  exact Yields.gather_one (plays_waiting _ _ scene).1 hjoin (plays_waiting _ _ after).2

/-! ### Actions -/

/-- The scene after a response to the request. -/
def reply (scene : Scene) (venue : Venue) (rid : String) (body : Fields) : Scene :=
  Scene.record
    { scene with
      given := scene.given ++ [⟨Rules.requesting, "respond", .str rid⟩]
      ledger := scene.ledger.respond rid body } venue Rules.requesting "respond"
      (("request", .str rid) :: body) (.object (scene.ledger.receipt rid))

/-- The event of that response. -/
def response (scene : Scene) (venue : Venue) (rid : String) (body : Fields) : Event :=
  ⟨scene.log.length, Rules.requesting, "respond", .object (("request", .str rid) :: body),
    .object (scene.ledger.receipt rid), venue.id⟩

/-- What is no response is always permitted. -/
theorem plays_permits {template : ActionTemplate} {args : Value}
    (h : (template.concept, template.action) ≠ (Rules.requesting, "respond")) (scene : Scene) :
    Plays venue (Engine.permits venue.serial template args) scene (.ok true) scene := by
  unfold Engine.permits
  refine Yields.get_bind fun engine hs => ?_
  have hkey : (Table.get? (template.concept, template.action) engine.terminals).getD .null
      = .null := by
    rw [hs.terminals, Table.get?, if_neg (Ne.symm h)]
    rfl
  rw [hkey]
  exact Yields.ofExcept (.ok true) scene

/-- The first response is permitted and noted. -/
theorem plays_permits_respond {template : ActionTemplate} {body : Fields} {rid : String}
    (hc : template.concept = Rules.requesting) (ha : template.action = "respond")
    (hgiven : scene.given = []) :
    Plays venue (Engine.permits venue.serial template (.object (("request", .str rid) :: body)))
      scene (.ok true)
      { scene with given := scene.given ++ [⟨Rules.requesting, "respond", .str rid⟩] } := by
  unfold Engine.permits
  refine Yields.get_bind fun engine hs => ?_
  have hkey : (Table.get? (template.concept, template.action) engine.terminals).getD .null
      = .str "request" := by
    rw [hs.terminals, hc, ha, Table.get?, if_pos rfl]
    rfl
  rw [hkey]
  refine Yields.bind (Yields.ofExcept (.ok (Value.str rid)) scene) ?_
  have hnew : ∀ flow : Flow, flow.responses = scene.given →
      flow.hasResponded ⟨template.concept, template.action, .str rid⟩ = false := by
    intro flow hflow
    rw [Flow.hasResponded, hflow, hgiven]
    rfl
  refine plays_state_bind fun flow _ _ hflow _ => ?_
  rw [hnew flow hflow]
  refine Yields.bind (plays_update { scene with
    given := scene.given ++ [⟨Rules.requesting, "respond", .str rid⟩] } (fun other => ?_) rfl ?_)
    (Yields.ofExcept (.ok true) _)
  · unfold Flow.noteResponse
    split <;> rfl
  · intro other _ hlog hfaults hother hfired
    rw [Flow.noteResponse, hnew other hother, ← hother, hc, ha]
    exact ⟨hlog, hfaults, rfl, hfired⟩

/-- An action of a concept that is answered. -/
theorem plays_dispatch {template : ActionTemplate} {args : Value} {mid : Scene} {event : Event}
    (hp : Plays venue (Engine.permits venue.serial template args) scene (.ok true) mid)
    (h : Plays venue (Engine.perform handlers template.concept template.action args venue.id) mid
      (.ok event) after) :
    Plays venue (Engine.dispatch handlers venue.serial [(template, args)]) scene (.ok ()) after :=
      by
  refine Yields.bind hp ?_
  rw [if_pos rfl]
  refine plays_state_bind fun flow hid _ _ _ => ?_
  rw [hid]
  exact Yields.bind h.attempt (Yields.ofExcept (.ok ()) after)

/-- An action of a concept that fails. -/
theorem plays_dispatch_error (template : ActionTemplate) {args : Value} {mid : Scene}
    {fault : Fault}
    (hp : Plays venue (Engine.permits venue.serial template args) scene (.ok true) mid)
    (h : Plays venue (Engine.perform handlers template.concept template.action args venue.id) mid
      (.error fault) after) :
    Plays venue (Engine.dispatch handlers venue.serial [(template, args)]) scene
      (.error (fault.wrappedBy .action template.name)) after := by
  refine Yields.bind hp ?_
  rw [if_pos rfl]
  refine plays_state_bind fun flow hid _ _ _ => ?_
  rw [hid]
  exact Yields.bind h.attempt (Yields.ofExcept (.error _) after)

/-- The response to the request is always given. -/
theorem plays_dispatch_respond {rule rid : String} {template body : Fields}
    (hgiven : scene.given = []) (hroom : (scene.log.length : Int) < venue.ceiling) :
    Plays venue (Engine.dispatch (World.host.handlers answer reentries) venue.serial
        [(Rules.respond rule template, .object (("request", .str rid) :: body))])
      scene (.ok ()) (scene.reply venue rid body) := by
  have hperform := (plays_perform_of_performOf { scene with
      given := scene.given ++ [⟨Rules.requesting, "respond", .str rid⟩] } .requests answer reentries
        hroom
    (plays_performOf_respond rid body _) rfl).1 _ rfl
  exact plays_dispatch (plays_permits_respond rfl rfl hgiven) hperform

/-! ### Rules -/

/-- The scene in which a rule has fired. -/
def fire (scene : Scene) (name : String) : Scene := { scene with done := scene.done ++ [name] }

/-- The scene in which a fault has aborted a rule. -/
def fail (scene : Scene) (venue : Venue) (name : String) (fault : Fault) : Scene :=
  { scene with
    faults := scene.faults ++ [⟨name, venue.id, fault.attributedTo ⟨name, venue.id⟩⟩] }

variable {rule : Rule AdapterCode} {numbers : List Nat} {trigger : Nat} {fault : Fault}

/-- When the stages leave no frame, nothing is carried out. -/
theorem plays_carryOut_none
    (h : PlaysStages venue handlers rule.stages frame scene (.ok []) after) :
    Plays venue (Engine.carryOut handlers venue.serial rule [frame]) scene (.ok ()) after := by
  have hprepare : Plays venue (Engine.prepare handlers rule [frame]) scene (.ok []) after :=
    Yields.bind (Yields.attempt (Yields.bind h (Yields.ofExcept (.ok []) after)))
      (Yields.ofExcept (.ok []) after)
  exact Yields.bind hprepare (Yields.bind (Yields.gather_nil _ _ after)
    (Yields.ofExcept (.ok ()) after))

variable (fault) in
/-- When the stages fail, nothing is carried out. -/
theorem plays_carryOut_error
    (h : PlaysStages venue handlers rule.stages frame scene (.error fault) after) :
    Plays venue (Engine.carryOut handlers venue.serial rule [frame]) scene
      (.error (fault.wrappedBy .stage rule.name)) after := by
  have hprepare : Plays venue (Engine.prepare handlers rule [frame]) scene
      (.error (fault.wrappedBy .stage rule.name)) after :=
    Yields.bind (Yields.attempt (Yields.bind_error h)) (Yields.ofExcept (.error _) after)
  exact Yields.bind_error hprepare

/-- When the stages leave a frame, the action of the rule is carried out with the arguments that the
frame gives it. -/
theorem plays_carryOut {template : ActionTemplate} {next : Frame} {args : Value} {mid : Scene}
    {done : Except Fault Unit} (hactions : rule.actions = [template])
    (h : PlaysStages venue (World.host.handlers answer reentries) rule.stages frame scene
      (.ok [next]) mid)
    (hargs : template.args.fill next = .ok args)
    (hdispatch : Plays venue (Engine.dispatch (World.host.handlers answer reentries) venue.serial
      [(template, args)]) mid done after) :
    Plays venue (Engine.carryOut (World.host.handlers answer reentries) venue.serial rule [frame])
      scene done after := by
  have hcalls : rule.dispatches [next] = .ok [[(template, args)]] := by
    rw [Rule.dispatches, hactions, Rule.fillActions, hargs]
    rfl
  have hprepare : Plays venue (Engine.prepare (World.host.handlers answer reentries) rule [frame])
      scene (.ok [[(template, args)]]) mid := by
    refine Yields.bind (a := .ok [[(template, args)]]) (Yields.attempt (Yields.bind h ?_))
      (Yields.ofExcept (.ok _) mid)
    rw [hcalls]
    exact Yields.ofExcept (.ok _) mid
  have hgather := Yields.gather_one (plays_waiting _ _ mid).1 hdispatch
    (plays_waiting answer reentries after).2
  refine Yields.bind hprepare ?_
  cases done with
  | ok _ => exact Yields.bind hgather (Yields.ofExcept (.ok ()) after)
  | error fault => exact Yields.bind_error hgather

/-- A rule that finds nothing does nothing. -/
theorem plays_evaluate_of_combinations_nil
    (hfound : Pattern.combinations rule.patterns scene.log = .ok []) :
    Plays venue (Engine.evaluate handlers venue.serial (some trigger) rule) scene (.ok ()) scene :=
      by
  unfold Engine.evaluate
  refine plays_state_bind fun flow _ hlog _ _ => ?_
  rw [Flow.fresh, hlog, hfound]
  exact Yields.bind (Yields.ofExcept (.ok []) scene) (Yields.ofExcept (.ok ()) scene)

/-- What remains of an evaluation once the combination is found is the work on its frame. -/
theorem plays_evaluate_begin {last : Scene}
    (hfound : Pattern.combinations rule.patterns scene.log = .ok [(frame, numbers)])
    (ht : trigger ∈ numbers) (hname : rule.name ∉ scene.done)
    (h : Plays venue (do
      match ← Effect.attempt (Engine.carryOut handlers venue.serial rule [frame]) with
      | .ok () => return
      | .error fault =>
        if fault.abortsRule then Engine.recordFault venue.serial rule fault else throw fault)
      (scene.fire rule.name) (.ok ()) last) :
    Plays venue (Engine.evaluate handlers venue.serial (some trigger) rule) scene (.ok ()) last :=
      by
  unfold Engine.evaluate
  refine plays_state_bind fun flow _ hlog _ hfired => ?_
  have hfresh : flow.fresh rule (some trigger) = .ok [(frame, numbers)] := by
    have hnot : (rule.name, numbers) ∉ flow.fired := fun hmem => hname (hfired _ hmem)
    rw [Flow.fresh_eq_ok_iff]
    refine ⟨[(frame, numbers)], by rw [hlog]; exact hfound, ?_⟩
    simp [ht, hnot]
  rw [hfresh]
  refine Yields.bind (Yields.ofExcept (.ok _) scene) ?_
  refine Yields.bind (plays_update (scene.fire rule.name) (fun _ => rfl) rfl ?_)
    (Yields.bind (plays_note _ _) h)
  intro other _ holog hfaults hgiven hofired
  refine ⟨holog, hfaults, hgiven, fun entry he => ?_⟩
  rcases List.mem_append.mp he with he | he
  · exact List.mem_append_left _ (hofired entry he)
  · exact List.mem_append_right _ (by simpa using congrArg Prod.fst (List.mem_singleton.mp he))

/-- A rule that is carried out for the one combination it finds. -/
theorem plays_evaluate
    (hfound : Pattern.combinations rule.patterns scene.log = .ok [(frame, numbers)])
    (ht : trigger ∈ numbers) (hname : rule.name ∉ scene.done)
    (h : Plays venue (Engine.carryOut handlers venue.serial rule [frame]) (scene.fire rule.name)
      (.ok ()) after) :
    Plays venue (Engine.evaluate handlers venue.serial (some trigger) rule) scene (.ok ()) after :=
  plays_evaluate_begin hfound ht hname (Yields.bind h.attempt (Yields.ofExcept (.ok ()) after))

/-- A rule that is aborted by a fault. -/
theorem plays_evaluate_error
    (hfound : Pattern.combinations rule.patterns scene.log = .ok [(frame, numbers)])
    (ht : trigger ∈ numbers) (hname : rule.name ∉ scene.done) (hf : fault.abortsRule = true)
    (h : Plays venue (Engine.carryOut handlers venue.serial rule [frame]) (scene.fire rule.name)
      (.error fault) after) :
    Plays venue (Engine.evaluate handlers venue.serial (some trigger) rule) scene (.ok ())
      (after.fail venue rule.name fault) := by
  refine plays_evaluate_begin hfound ht hname (Yields.bind h.attempt ?_)
  dsimp only
  rw [if_pos hf]
  unfold Engine.recordFault
  refine plays_state_bind fun flow hid _ _ _ => ?_
  refine Yields.bind (plays_update (after.fail venue rule.name fault) (fun _ => rfl) rfl ?_)
    (plays_note _ _)
  intro other hoid hlog hfaults hgiven hfired
  refine ⟨hlog, ?_, hgiven, hfired⟩
  rw [Flow.addFault, hfaults, hoid, hid]
  rfl

end Scene

end HerdBook
