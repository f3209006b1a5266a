import HerdBook.Proofs.Rounds

/-!
# Where refusals go

An action for which a flow has no room is refused, and the refusal ends the round. There is one
exception. The frames of an evaluation are carried out side by side, each to its end, and of several
faults the first one counts. So a refusal in one frame is passed over when an earlier frame ended in
a fault of its own; if that is a fault that aborts the rule, the round goes on.

* `Engine.Refuses`: the action that is begun next is refused.
* `Engine.RefusedIn`: an action of a frame is refused.
* `Engine.fanOut`: the frames of an evaluation.
* `Engine.Surfaces`: what becomes of the refusals in the evaluations of a round.

## Main results

* `Engine.run_dispatch_of_refused`: a frame with an action that is refused ends with the refusal.
* `Engine.run_carryOutFresh_of_fanOut`: an evaluation comes to what its frames come to.
* `Engine.refusals_surface`: a round with an action that is refused ends with the refusal, or with
  the fault of an earlier frame, or that fault is recorded.
-/

namespace HerdBook

open Effect

variable {ω κ α β σ : Type}

namespace Effect

/-- The outcomes of several computations are those of the first ones and those of the others. -/
theorem run_attemptAll_append (act : β → Effect σ α) (first rest : List β) (s : σ) :
    ∃ outcomes others s₁ s₂, (attemptAll act first).run s = (.ok outcomes, s₁) ∧
      (attemptAll act rest).run s₁ = (.ok others, s₂) ∧
      (attemptAll act (first ++ rest)).run s = (.ok (outcomes ++ others), s₂) := by
  induction first generalizing s with
  | nil =>
    have hall : ∀ (items : List β) (s : σ), ∃ others s₂,
        (attemptAll act items).run s = (.ok others, s₂) := by
      intro items
      induction items with
      | nil => exact fun s => ⟨[], s, rfl⟩
      | cons b bs ih =>
        intro s
        obtain ⟨others, s₂, hothers⟩ := ih ((act b).run s).2
        refine ⟨((act b).run s).1 :: others, s₂, ?_⟩
        unfold attemptAll
        rw [run_bind_ok (run_attempt ..), run_bind_ok hothers]
        rfl
    obtain ⟨others, s₂, hothers⟩ := hall rest s
    exact ⟨[], others, s, s₂, rfl, hothers, hothers⟩
  | cons b bs ih =>
    obtain ⟨outcomes, others, s₁, s₂, hfirst, hrest, hboth⟩ := ih ((act b).run s).2
    refine ⟨((act b).run s).1 :: outcomes, others, s₁, s₂, ?_, hrest, ?_⟩
    · unfold attemptAll
      rw [run_bind_ok (run_attempt ..), run_bind_ok hfirst]
      rfl
    · rw [List.cons_append]
      unfold attemptAll
      rw [run_bind_ok (run_attempt ..), run_bind_ok hboth]
      rfl

/-- The first fault of several outcomes is that of the first ones, if they have one. -/
theorem allOrFirstFault_append_of_error {outcomes : List (Except Fault α)} {fault : Fault}
    (h : allOrFirstFault outcomes = .error fault) (others : List (Except Fault α)) :
    allOrFirstFault (outcomes ++ others) = .error fault := by
  induction outcomes with
  | nil => cases h
  | cons outcome rest ih =>
    cases outcome with
    | error _ => exact h
    | ok a =>
      rw [allOrFirstFault] at h
      rcases hrest : allOrFirstFault rest with first | results <;> rw [hrest] at h
      · rw [List.cons_append, allOrFirstFault, ih (hrest.trans h)]
        rfl
      · cases h

/-- If not, it is that of the others. -/
theorem allOrFirstFault_append_of_ok {outcomes : List (Except Fault α)} {results : List α}
    (h : allOrFirstFault outcomes = .ok results) (others : List (Except Fault α)) :
    allOrFirstFault (outcomes ++ others) = (allOrFirstFault others).map (results ++ ·) := by
  induction outcomes generalizing results with
  | nil =>
    obtain rfl : [] = results := Except.ok.inj h
    rw [List.nil_append]
    cases allOrFirstFault others <;> rfl
  | cons outcome rest ih =>
    cases outcome with
    | error _ => cases h
    | ok a =>
      rw [allOrFirstFault] at h
      rcases hrest : allOrFirstFault rest with first | kept <;> rw [hrest] at h
      · cases h
      · obtain rfl : a :: kept = results := Except.ok.inj h
        rw [List.cons_append, allOrFirstFault, ih hrest]
        cases allOrFirstFault others <;> rfl

end Effect

namespace Engine

variable {handlers : Handlers ω κ} {serial : Nat} {engine engine' engine₁ engine₂ : Engine ω κ}

/-! ### Frames -/

/-- The number of events in the log that an id leads to. -/
def sizeFor (id : String) (engine : Engine ω κ) : Nat :=
  ((Table.get? id engine.retained).map engine.logSize).getD 0

/-- An action of the concept would be refused in the flow with the id: there is such a concept, and
the log of the flow has reached the ceiling. -/
structure Refuses (handlers : Handlers ω κ) (concept id : String) (engine : Engine ω κ) : Prop where
  registered : handlers.isRegistered engine.world concept = true
  full : engine.maxFlowEvents.isReached (engine.sizeFor id) = some true

/-- What is refused ends so. -/
theorem Refuses.run_perform {concept id : String} (h : Refuses handlers concept id engine)
    (action : String) (input : Value) : ((perform handlers concept action input id).run engine).1
      = .error (.flowLimit id engine.maxFlowEvents) := by
  have hconcept : (requireConcept handlers concept).run engine = (.ok (), engine) := by
    unfold requireConcept
    rw [run_bind_ok (run_get engine), h.registered]
    rfl
  -- the id leads to a flow with as many events, in an engine with the same ceiling
  obtain ⟨serial, engine₁, hserial, hsize, hlimit⟩ : ∃ serial engine₁,
      (serialOrNew id).run engine = (.ok serial, engine₁) ∧
        engine₁.logSize serial = engine.sizeFor id ∧
        engine₁.maxFlowEvents = engine.maxFlowEvents := by
    unfold serialOrNew sizeFor
    rw [run_bind_ok (run_get engine)]
    rcases Table.get? id engine.retained with _ | serial
    · refine ⟨engine.states.length, openFlow id engine, rfl, ?_, rfl⟩
      rw [logSize_openFlow]
      unfold logSize
      rw [List.getElem?_eq_none (Nat.le_refl _)]
      rfl
    · exact ⟨serial, engine, rfl, rfl, rfl⟩
  have hfull : engine₁.maxFlowEvents.isReached (engine₁.logSize serial) = some true := by
    rw [hsize, hlimit, h.full]
  have hroom : (requireRoom id serial).run engine₁
      = (.error (.flowLimit id engine.maxFlowEvents), engine₁) := by
    have hstate : (state serial).run engine₁
        = (.ok ((engine₁.states[serial]?).getD default), engine₁) := rfl
    unfold requireRoom
    rw [run_bind_ok (run_get engine₁)]
    dsimp only
    rw [run_bind_ok hstate, ← hlimit]
    rw [logSize] at hfull
    rw [hfull]
    rfl
  unfold perform
  rw [run_bind_ok hconcept, run_bind_ok hserial, run_bind_error hroom]

variable (handlers serial) in
/-- An action of the frame is refused, the ones before it having been carried out. -/
inductive RefusedIn : List Dispatch → Engine ω κ → Prop where
  | here {template : ActionTemplate} {args : Value} {rest : List Dispatch}
      {engine engine₁ : Engine ω κ}
      (hp : (permits serial template args).run engine = (.ok true, engine₁))
      (hr : Refuses handlers template.concept ((engine₁.states[serial]?).getD default).id engine₁) :
      RefusedIn ((template, args) :: rest) engine
  | skipped {template : ActionTemplate} {args : Value} {rest : List Dispatch}
      {engine engine₁ : Engine ω κ}
      (hp : (permits serial template args).run engine = (.ok false, engine₁))
      (h : RefusedIn rest engine₁) : RefusedIn ((template, args) :: rest) engine
  | performed {template : ActionTemplate} {args : Value} {rest : List Dispatch} {event : Event}
      {engine engine₁ engine₂ : Engine ω κ}
      (hp : (permits serial template args).run engine = (.ok true, engine₁))
      (hd : (perform handlers template.concept template.action args
        ((engine₁.states[serial]?).getD default).id).run engine₁ = (.ok event, engine₂))
      (h : RefusedIn rest engine₂) : RefusedIn ((template, args) :: rest) engine

/-- After an action that may be carried out and is, the rest of the frame is carried out; its fault
ends the frame. -/
theorem run_dispatch_permitted {template : ActionTemplate} {args : Value}
    (hp : (permits serial template args).run engine = (.ok true, engine₁)) (rest : List Dispatch) :
    (dispatch handlers serial ((template, args) :: rest)).run engine
      = match (perform handlers template.concept template.action args
          ((engine₁.states[serial]?).getD default).id).run engine₁ with
        | (.ok _, engine₂) => (dispatch handlers serial rest).run engine₂
        | (.error fault, engine₂) => (.error (fault.wrappedBy .action template.name), engine₂) := by
  have hstate : (state serial).run engine₁
      = (.ok ((engine₁.states[serial]?).getD default), engine₁) := rfl
  rw [dispatch, run_bind_ok hp, if_pos rfl, run_bind_ok hstate]
  dsimp only
  rw [run_bind_ok (run_attempt ..)]
  rcases (perform handlers template.concept template.action args
    ((engine₁.states[serial]?).getD default).id).run engine₁ with ⟨_ | _, _⟩ <;> rfl

/-- A frame with an action that is refused ends with the refusal. -/
theorem run_dispatch_of_refused (hh : handlers.StayAside) {calls : List Dispatch} {flow : Flow}
    (h : RefusedIn handlers serial calls engine) (hf : engine.states[serial]? = some flow) :
    ((dispatch handlers serial calls).run engine).1
      = .error (.flowLimit flow.id engine.maxFlowEvents) := by
  induction h generalizing flow with
  | @here template args rest engine engine₁ hp hr =>
    have hstays := (isRoutine_stays.moves_permits template args).of_run hp
    obtain ⟨flow₁, hf₁, hid, -⟩ := hstays.flows serial flow hf
    have hrefused := hr.run_perform template.action args
    rw [hf₁, Option.getD_some, hid, hstays.maxFlowEvents] at hrefused
    rw [run_dispatch_permitted hp, hf₁, Option.getD_some, hid]
    generalize (perform handlers template.concept template.action args flow.id).run engine₁ = ended
      at hrefused
    obtain ⟨outcome, engine₂⟩ := ended
    obtain rfl : outcome = _ := hrefused
    rfl
  | @skipped template args rest engine engine₁ hp _ ih =>
    have hstays := (isRoutine_stays.moves_permits template args).of_run hp
    obtain ⟨flow₁, hf₁, hid, -⟩ := hstays.flows serial flow hf
    unfold dispatch
    rw [run_bind_ok hp, ← hid, ← hstays.maxFlowEvents]
    exact ih hf₁
  | @performed template args rest event engine engine₁ engine₂ hp hd _ ih =>
    have hstays := (isRoutine_stays.moves_permits template args).of_run hp
    have hstays' := ((follows_stays hh).perform _ _ _ _).of_run hd
    obtain ⟨flow₁, hf₁, hid₁, -⟩ := hstays.flows serial flow hf
    obtain ⟨flow₂, hf₂, hid₂, -⟩ := hstays'.flows serial flow₁ hf₁
    rw [run_dispatch_permitted hp, hd, ← hid₁, ← hid₂, ← hstays.maxFlowEvents,
      ← hstays'.maxFlowEvents]
    exact ih hf₂

/-! ### Evaluations -/

variable (handlers serial) in
/-- The evaluation of a rule as far as its first frame: it yields the actions of all frames. -/
def fanOut (trigger : Option Nat) (rule : Rule κ) : Effect (Engine ω κ) (List (List Dispatch)) := do
  let fresh ← Effect.ofExcept (((← state serial).fresh rule trigger).mapError Fault.misuse)
  if fresh.isEmpty then return []
  update serial fun flow => flow.fire rule fresh
  note (.engine .debug s!"sync {rule.name} matched {fresh.length} frame(s)")
  let calls ← prepare handlers rule (fresh.map (·.1))
  if calls.isEmpty then return []
  handlers.waiting.before
  return calls

/-- The waits of a round go by. -/
def WaitsPass (handlers : Handlers ω κ) : Prop :=
  ∀ world, (handlers.wait.after.run world).1 = .ok ()

/-- An evaluation comes to what its frames come to. -/
theorem run_carryOutFresh_of_fanOut (hw : WaitsPass handlers) {trigger : Option Nat} {rule : Rule κ}
    {calls : List (List Dispatch)} (hne : calls ≠ [])
    (h : (fanOut handlers serial trigger rule).run engine = (.ok calls, engine₁))
    {outcomes : List (Except Fault Unit)}
    (ho : (attemptAll (dispatch handlers serial) calls).run engine₁ = (.ok outcomes, engine₂)) :
    ∃ engine₃, engine₃.states = engine₂.states ∧
      (carryOutFresh handlers serial trigger rule).run engine
        = ((allOrFirstFault outcomes).map fun _ => (), engine₃) := by
  have hstate : (state serial).run engine = (.ok ((engine.states[serial]?).getD default), engine) :=
    rfl
  have hnote : ∀ n (e : Engine ω κ), (note n).run e
      = (.ok (), { e with journal := e.journal.push n }) := fun _ _ => rfl
  have hafter : ∀ e : Engine ω κ, handlers.waiting.after.run e
      = (.ok (), e.withWorld (handlers.wait.after.run e.world).2) :=
    fun e => Prod.ext (hw e.world) rfl
  unfold fanOut at h
  unfold carryOutFresh
  rw [run_bind_ok hstate] at h ⊢
  cases hfresh : ((engine.states[serial]?).getD default).fresh rule trigger with
  | error kind =>
    rw [hfresh] at h
    exact absurd (congrArg Prod.fst h) (by simp [Except.mapError, run_bind])
  | ok fresh =>
    rw [hfresh] at h
    dsimp only [Except.mapError] at h ⊢
    rw [run_bind_ok (run_ofExcept ..)] at h ⊢
    by_cases hempty : fresh.isEmpty = true
    · rw [if_pos hempty] at h
      exact absurd (Except.ok.inj (congrArg Prod.fst h)).symm hne
    rw [if_neg hempty, run_bind_ok (run_update ..), run_bind_ok (hnote ..)] at h ⊢
    obtain ⟨prepared, engine₀, hprepared, h⟩ := exists_of_run_bind h
    by_cases hnone : prepared.isEmpty = true
    · rw [if_pos hnone] at h
      exact absurd (Except.ok.inj (congrArg Prod.fst h)).symm hne
    rw [if_neg hnone] at h
    obtain ⟨_, engine₁', hbefore, h⟩ := exists_of_run_bind h
    obtain ⟨hcalls, rfl⟩ := Prod.mk.inj h
    obtain rfl := Except.ok.inj hcalls
    unfold carryOut
    rw [run_bind_ok hprepared]
    unfold gather
    rw [if_neg hnone, run_bind, run_bind_ok hbefore, run_bind_ok ho, run_bind_ok (hafter _),
      run_ofExcept]
    exact ⟨engine₂.withWorld (handlers.wait.after.run engine₂.world).2, rfl,
      by cases allOrFirstFault outcomes <;> rfl⟩

/-! ### Rounds -/

/-- The visit is part of a round with the outcome, which leaves an engine: it is a visit of the flow
with the id, under the limit, and a fault that it ends in is the outcome. -/
structure IsPartOf (handlers : Handlers ω κ) (id : String) (limit : Limit)
    (outcome : Except Fault α) (engine' : Engine ω κ) (visit : Visit ω κ) : Prop where
  flow : ∃ flow, visit.engine.states[visit.serial]? = some flow ∧ flow.id = id
  limit : visit.engine.maxFlowEvents = limit
  after : Stays (runVisit handlers visit).2 engine'
  ends : ∀ fault, (runVisit handlers visit).1 = .error fault → outcome = .error fault

/-- What becomes of the refusals in a round. When an action of a frame is refused in one of the
visits, then the refusal is the outcome of the round; or a frame before it ended in a fault, and the
first such fault is the outcome of the round, or it aborts the rule and is recorded with the flow.
-/
def Surfaces (handlers : Handlers ω κ) (id : String) (limit : Limit) (visits : List (Visit ω κ))
    (outcome : Except Fault α) (engine' : Engine ω κ) : Prop :=
  ∀ visit ∈ visits, ∀ calls engine₁,
    (fanOut handlers visit.serial visit.trigger visit.rule).run visit.engine
      = (.ok calls, engine₁) →
    ∀ earlier mine later, calls = earlier ++ mine :: later → ∀ outcomes engine₂,
      (attemptAll (dispatch handlers visit.serial) earlier).run engine₁ = (.ok outcomes, engine₂) →
      RefusedIn handlers visit.serial mine engine₂ →
        outcome = .error (.flowLimit id limit) ∨
        ∃ fault, allOrFirstFault outcomes = .error fault ∧
          (outcome = .error fault ∨ fault.abortsRule = true ∧
            ∃ flow, engine'.states[visit.serial]? = some flow ∧
              ⟨visit.rule.name, id, fault.attributedTo ⟨visit.rule.name, id⟩⟩ ∈ flow.faults)

section Parts

variable {id : String} {limit : Limit} {visits : List (Visit ω κ)} {visit : Visit ω κ}

/-- A visit that ends well is part of whatever comes after. -/
theorem IsPartOf.of_ok {a : α} (h : IsPartOf handlers id limit (.ok a) engine visit)
    (hs : Stays engine engine') (outcome : Except Fault β) :
    IsPartOf handlers id limit outcome engine' visit :=
  ⟨h.flow, h.limit, IsTrans.trans _ _ _ h.after hs, fun fault hfault => nomatch h.ends fault hfault⟩

/-- Flows that stay keep their ids. -/
theorem Stays.named (hs : Stays engine engine')
    (hf : ∃ flow, engine.states[serial]? = some flow ∧ flow.id = id) :
    ∃ flow, engine'.states[serial]? = some flow ∧ flow.id = id := by
  obtain ⟨flow, hflow, hid⟩ := hf
  obtain ⟨flow', hflow', hid', -⟩ := hs.flows _ flow hflow
  exact ⟨flow', hflow', hid'.trans hid⟩

/-- The evaluations of rules are parts of what evaluating them comes to. -/
theorem Passes.isPartOf (hh : handlers.StayAside) {trigger : Option Nat} {place : Nat}
    {outcome : Except Fault Unit}
    (h : Passes handlers serial trigger place engine visits outcome engine')
    (hf : ∃ flow, engine.states[serial]? = some flow ∧ flow.id = id)
    (hc : engine.maxFlowEvents = limit) :
    ∀ visit ∈ visits, IsPartOf handlers id limit outcome engine' visit := by
  induction h with
  | done _ => simp
  | ended _ hv =>
    exact List.forall_mem_singleton.mpr ⟨hf, hc, by rw [hv]; exact refl _,
      fun fault hfault => by rw [hv] at hfault; exact hfault⟩
  | next _ hv hrest ih =>
    have hstays := ((follows_stays hh).moves_evaluate _ _).of_run hv
    have hafter := hrest.moves (follows_stays hh)
    refine List.forall_mem_cons.mpr ⟨⟨hf, hc, by rw [hv]; exact hafter,
      fun fault hfault => by rw [hv] at hfault; cases hfault⟩, ?_⟩
    exact ih (hstays.named hf) (hstays.maxFlowEvents.trans hc)

/-- So they are of what working a queue off comes to. -/
theorem Works.isPartOf (hh : handlers.StayAside) {taken : List Event} {outcome : Except Fault Unit}
    (h : Works handlers serial engine taken visits outcome engine')
    (hf : ∃ flow, engine.states[serial]? = some flow ∧ flow.id = id)
    (hc : engine.maxFlowEvents = limit) :
    ∀ visit ∈ visits, IsPartOf handlers id limit outcome engine' visit := by
  induction h with
  | done _ => simp
  | ended hd hp =>
    have hstays := moves_stays_dequeue.of_run hd
    exact hp.isPartOf hh (hstays.named hf) (hstays.maxFlowEvents.trans hc)
  | next hd hp hrest ih =>
    have hstays := moves_stays_dequeue.of_run hd
    have hstays' := hp.moves (follows_stays hh)
    have hafter := hrest.moves (follows_stays hh) moves_stays_dequeue
    refine List.forall_mem_append.mpr ⟨fun visit hvisit => ?_, ?_⟩
    · exact (hp.isPartOf hh (hstays.named hf) (hstays.maxFlowEvents.trans hc) visit hvisit).of_ok
        hafter _
    · exact ih (hstays'.named (hstays.named hf))
        (hstays'.maxFlowEvents.trans (hstays.maxFlowEvents.trans hc))

/-- An id leads to the flow that carries it. -/
theorem IsLocated.named (hl : engine.IsLocated) (h : Table.get? id engine.retained = some serial) :
    ∃ flow, engine.states[serial]? = some flow ∧ flow.id = id :=
  hl _ (Table.mem_of_get? h)

/-- Beginning and ending to work on a flow. -/
theorem moves_stays_draining (serial : Nat) (draining : Bool) : Moves (Stays (ω := ω) (κ := κ))
    (update serial fun flow => { flow with draining := draining }) :=
  moves_stays_update (fun _ => rfl) fun _ => List.prefix_refl _

/-- Working on a flow. -/
theorem Drains.stays (hh : handlers.StayAside) {taken : List (Nat × Event)}
    {outcome : Except Fault Unit} (h : Drains handlers id engine taken visits outcome engine') :
    Stays engine engine' := by
  cases h with
  | unknown _ => exact refl _
  | busy _ _ => exact refl _
  | @idle _ serial _ _ _ _ _ hw =>
    exact IsTrans.trans _ _ _ (moves_stays_draining serial true engine) (IsTrans.trans _ _ _
      (hw.moves (follows_stays hh) moves_stays_dequeue) (moves_stays_draining serial false _))

/-- So they are of what working on a flow comes to. -/
theorem Drains.isPartOf (hh : handlers.StayAside) {taken : List (Nat × Event)}
    {outcome : Except Fault Unit} (h : Drains handlers id engine taken visits outcome engine')
    (hl : engine.IsLocated) (hc : engine.maxFlowEvents = limit) :
    ∀ visit ∈ visits, IsPartOf handlers id limit outcome engine' visit := by
  cases h with
  | unknown _ => simp
  | busy _ _ => simp
  | @idle _ serial _ _ _ hget _ hw =>
    intro visit hvisit
    have hpart := hw.isPartOf hh ((moves_stays_draining serial true engine).named (hl.named hget))
      hc visit hvisit
    exact ⟨hpart.flow, hpart.limit,
      IsTrans.trans _ _ _ hpart.after (moves_stays_draining serial false _), hpart.ends⟩

/-! ### What becomes of refusals -/

/-- Reaching the first frame of an evaluation. -/
theorem moves_stays_fanOut (hh : handlers.StayAside) (trigger : Option Nat) (rule : Rule κ) :
    Moves Stays (fanOut handlers serial trigger rule) := by
  have h := follows_stays hh
  refine Moves.bind h.moves_state fun flow => Moves.bind (Moves.ofExcept _) fun fresh => ?_
  split
  · exact Moves.pure _
  refine Moves.bind (h.books serial (Flow.bookkeeps_fire ..)) fun _ =>
    Moves.bind (h.moves_note _) fun _ => Moves.bind (h.moves_prepare rule _) fun calls => ?_
  split
  · exact Moves.pure _
  · exact Moves.bind h.moves_waiting.1 fun _ => Moves.pure _

/-- A fault that is recorded is among those of the flow. -/
theorem exists_recorded {flow : Flow} (hf : engine.states[serial]? = some flow) (hid : flow.id = id)
    (rule : Rule κ) (fault : Fault) :
    ∃ flow', ((recordFault serial rule fault).run engine).2.states[serial]? = some flow' ∧
      ⟨rule.name, id, fault.attributedTo ⟨rule.name, id⟩⟩ ∈ flow'.faults := by
  have hstate : (state serial).run engine = (.ok flow, engine) := by
    change (Except.ok ((engine.states[serial]?).getD default), engine) = _
    rw [hf, Option.getD_some]
  unfold recordFault
  rw [run_bind_ok hstate, hid]
  refine ⟨flow.addFault rule.name (fault.attributedTo ⟨rule.name, id⟩), ?_, ?_⟩
  · change (engine.states.modify serial _)[serial]? = _
    rw [List.getElem?_modify_eq, hf]
    rfl
  · rw [Flow.addFault, hid]
    exact List.mem_append_right _ (List.mem_singleton_self _)

/-- The frames of an evaluation one of which ends in a refusal, after the earlier ones: of those that
come next, the first fault is the refusal. -/
theorem exists_outcomes_of_refused (hh : handlers.StayAside) {earlier : List (List Dispatch)}
    (later : List (List Dispatch)) {mine : List Dispatch} {outcomes : List (Except Fault Unit)}
    (hearlier : (attemptAll (dispatch handlers serial) earlier).run engine₁
      = (.ok outcomes, engine₂))
    (hrefused : RefusedIn handlers serial mine engine₂) {flow : Flow}
    (hf : engine₂.states[serial]? = some flow) :
    ∃ others engine₃, allOrFirstFault others = .error (.flowLimit flow.id engine₂.maxFlowEvents) ∧
      (attemptAll (dispatch handlers serial) (earlier ++ mine :: later)).run engine₁
        = (.ok (outcomes ++ others), engine₃) := by
  obtain ⟨outcomes', others, s₁, engine₃, hearlier', hothers, hall⟩ :=
    run_attemptAll_append (dispatch handlers serial) earlier (mine :: later) engine₁
  obtain ⟨hsame, rfl⟩ := Prod.mk.inj (hearlier.symm.trans hearlier')
  obtain rfl := Except.ok.inj hsame
  refine ⟨others, engine₃, ?_, hall⟩
  unfold attemptAll at hothers
  rw [run_bind_ok (run_attempt ..), run_dispatch_of_refused hh hrefused hf] at hothers
  obtain ⟨more, _, -, hothers⟩ := exists_of_run_bind hothers
  obtain rfl := Except.ok.inj (congrArg Prod.fst hothers)
  rfl

/-- A fault that a rule ends in is recorded, or it ends the evaluation as well. -/
theorem conclude_error {flow : Flow} (hf : engine.states[serial]? = some flow) (hid : flow.id = id)
    (rule : Rule κ) (fault : Fault) :
    ((conclude serial rule (.error fault)).run engine).1 = .error fault ∨
      fault.abortsRule = true ∧
        ∃ flow', ((conclude serial rule (.error fault)).run engine).2.states[serial]? = some flow' ∧
          ⟨rule.name, id, fault.attributedTo ⟨rule.name, id⟩⟩ ∈ flow'.faults := by
  unfold conclude
  dsimp only
  by_cases haborts : fault.abortsRule = true
  · rw [if_pos haborts]
    exact .inr ⟨haborts, exists_recorded hf hid rule fault⟩
  · rw [if_neg haborts]
    exact .inl rfl

/-- What becomes of refusals in one visit of a round. -/
theorem IsPartOf.surfaces (hh : handlers.StayAside) (hw : WaitsPass handlers)
    {outcome : Except Fault α} (h : IsPartOf handlers id limit outcome engine' visit) :
    Surfaces handlers id limit [visit] outcome engine' := by
  refine List.forall_mem_singleton.mpr fun calls engine₁ hfan earlier mine later hcalls outcomes
    engine₂ hearlier hrefused => ?_
  have hfanned := (moves_stays_fanOut hh visit.trigger visit.rule).of_run hfan
  have hdispatched : ∀ frames, Moves Stays (attemptAll (dispatch handlers visit.serial) frames) :=
    fun _ => Moves.attemptAll fun calls _ => (follows_stays hh).moves_dispatch calls
  have hstays : Stays visit.engine engine₂ :=
    IsTrans.trans _ _ _ hfanned ((hdispatched _).of_run hearlier)
  obtain ⟨flow₂, hflow₂, hid₂⟩ := hstays.named h.flow
  obtain ⟨others, engine₃, hfirst, hall⟩ := exists_outcomes_of_refused hh later hearlier hrefused
    hflow₂
  rw [hid₂, hstays.maxFlowEvents, h.limit] at hfirst
  rw [← hcalls] at hall
  have hne : calls ≠ [] := by simp [hcalls]
  obtain ⟨engine₄, hstates, hrun⟩ := run_carryOutFresh_of_fanOut hw hne hfan hall
  have hvisit : runVisit handlers visit = (conclude visit.serial visit.rule
      ((allOrFirstFault (outcomes ++ others)).map fun _ => ())).run engine₄ := by
    unfold runVisit
    rw [run_evaluate, hrun]
  rcases hfault : allOrFirstFault outcomes with fault | results
  · -- an earlier frame ended in a fault, and so does the rule
    rw [allOrFirstFault_append_of_error hfault] at hvisit
    refine .inr ⟨fault, rfl, ?_⟩
    have hstays₃ : Stays visit.engine engine₃ :=
      IsTrans.trans _ _ _ hfanned ((hdispatched _).of_run hall)
    obtain ⟨flow₃, hflow₃, hid₃⟩ := hstays₃.named h.flow
    have hconcluded := conclude_error (hstates ▸ hflow₃) hid₃ visit.rule fault
    change runVisit handlers visit
      = (conclude visit.serial visit.rule (.error fault)).run engine₄ at hvisit
    rw [← hvisit] at hconcluded
    rcases hconcluded with hended | ⟨haborts, flow, hflow, hmem⟩
    · exact .inl (h.ends fault hended)
    · obtain ⟨flow', hflow', -, hprefix⟩ := h.after.flows _ flow hflow
      exact .inr ⟨haborts, flow', hflow', hprefix.subset hmem⟩
  · -- a refusal aborts no rule, so it ends the evaluation
    rw [allOrFirstFault_append_of_ok hfault, hfirst] at hvisit
    exact .inl (h.ends _ (congrArg Prod.fst hvisit))

/-- Refusals surface in a round when they do in each visit. -/
theorem surfaces_of_isPartOf (hh : handlers.StayAside) (hw : WaitsPass handlers)
    {outcome : Except Fault α}
    (h : ∀ visit ∈ visits, IsPartOf handlers id limit outcome engine' visit) :
    Surfaces handlers id limit visits outcome engine' :=
  fun visit hvisit => (h visit hvisit).surfaces hh hw visit (List.mem_singleton_self visit)

end Parts

/-- What becomes of the refusals in a round that begins with an action of its own. -/
theorem Invokes.surfaces (hh : handlers.StayAside) (hw : WaitsPass handlers)
    (hl : engine.IsLocated) {concept action : String} {input : Value} {flow : Option String}
    {taken : List (Nat × Event)} {visits : List (Visit ω κ)} {outcome : Except Fault Event}
    (h : Invokes handlers concept action input flow engine taken visits outcome engine')
    {id : String} {engine₁ : Engine ω κ} (hid : (flowFor flow).run engine = (.ok id, engine₁)) :
    (Refuses handlers concept id engine₁ →
        outcome = .error (.flowLimit id engine.maxFlowEvents)) ∧
      Surfaces handlers id engine.maxFlowEvents visits outcome engine' := by
  have hopened := (moves_stays_flowFor flow).of_run hid
  have hrefused : Refuses handlers concept id engine₁ →
      ((perform handlers concept action input id).run engine₁).1
        = .error (.flowLimit id engine.maxFlowEvents) := by
    intro hr
    rw [hr.run_perform, hopened.maxFlowEvents]
  cases h with
  | unopened ho => exact absurd (congrArg Prod.fst (hid.symm.trans ho)) (by simp)
  | failed ho hp =>
    obtain ⟨hsame, rfl⟩ := Prod.mk.inj (hid.symm.trans ho)
    obtain rfl := Except.ok.inj hsame
    refine ⟨fun hr => ?_, fun visit hvisit => nomatch hvisit⟩
    rw [← hrefused hr, hp]
  | performed ho hp hd =>
    obtain ⟨hsame, rfl⟩ := Prod.mk.inj (hid.symm.trans ho)
    obtain rfl := Except.ok.inj hsame
    have hperformed := ((follows_stays hh).perform _ _ _ _).of_run hp
    refine ⟨fun hr => ?_, surfaces_of_isPartOf hh hw fun visit hvisit => ?_⟩
    · have hnone := hrefused hr
      rw [hp] at hnone
      cases hnone
    · have hpart := hd.isPartOf hh (hperformed.located (hopened.located hl))
        (hperformed.maxFlowEvents.trans hopened.maxFlowEvents) visit hvisit
      exact ⟨hpart.flow, hpart.limit, hpart.after, fun fault hfault => by
        rw [hpart.ends fault hfault]
        rfl⟩

/-- What becomes of them when all rules are evaluated again. -/
theorem Reevaluates.surfaces (hh : handlers.StayAside) (hw : WaitsPass handlers)
    (hl : engine.IsLocated) {id : String} {taken : List (Nat × Event)}
    {visits : List (Visit ω κ)} {outcome : Except Fault Unit}
    (h : Reevaluates handlers id engine taken visits outcome engine') :
    Surfaces handlers id engine.maxFlowEvents visits outcome engine' := by
  refine surfaces_of_isPartOf hh hw ?_
  cases h with
  | unknown _ => simp
  | failed hget hp => exact hp.isPartOf hh (hl.named hget) rfl
  | passed hget hp hd =>
    have hstays := hp.moves (follows_stays hh)
    refine List.forall_mem_append.mpr ⟨fun visit hvisit => ?_, ?_⟩
    · exact (hp.isPartOf hh (hl.named hget) rfl visit hvisit).of_ok (hd.stays hh) _
    · exact hd.isPartOf hh (hstays.located hl) hstays.maxFlowEvents

/-- Refusals are not passed over, but for faults of earlier frames. When handlers stay aside and
waits go by, a round whose own action is refused ends with the refusal. When an action of a rule is
refused in a round, the refusal ends the round as well, or an earlier frame of the same evaluation
ended in a fault; then the first such fault ends the round, or it is one that aborts the rule and is
recorded with the flow. -/
theorem refusals_surface (hh : handlers.StayAside) (hw : WaitsPass handlers)
    (hl : engine.IsLocated) :
    (∀ concept action input flow taken visits outcome engine',
      Invokes handlers concept action input flow engine taken visits outcome engine' →
      ∀ id engine₁, (flowFor flow).run engine = (.ok id, engine₁) →
        (Refuses handlers concept id engine₁ →
          outcome = .error (.flowLimit id engine.maxFlowEvents)) ∧
        Surfaces handlers id engine.maxFlowEvents visits outcome engine') ∧
    ∀ id taken visits outcome engine', Reevaluates handlers id engine taken visits outcome engine' →
      Surfaces handlers id engine.maxFlowEvents visits outcome engine' := by
  exact ⟨fun _ _ _ _ _ _ _ _ h _ _ hid => h.surfaces hh hw hl hid,
    fun _ _ _ _ _ h => h.surfaces hh hw hl⟩

/-- An engine where a clock has ticked once and there is room for no other action, with a rule by
which a tick is followed by a tick. -/
def fullClock : Engine Unit Unit :=
  ((invoke plainHandlers "Clock" "tick" (.object []) none).run (start () (.count 1) (.count 4))).2

/-- The evaluation of the rule on the whole log. -/
def secondTick : Visit Unit Unit := ⟨{ fullClock with rules := [endless] }, 0, none, endless⟩

/-- The frames of that evaluation: there is one, with one action. -/
def secondFrames : List (List Dispatch) := [[(⟨"Clock", "tick", .object []⟩, .object [])]]

/-- The engine as the frame begins. -/
def secondBegun : Engine Unit Unit :=
  ((fanOut plainHandlers 0 none endless).run secondTick.engine).2

/-- The second tick is refused, and no earlier frame ends in a fault; so the round ends with the
refusal, and so does a round that begins with a tick. -/
theorem refusals_surface_fullClock :
    (∃ engine', Reevaluates plainHandlers "flow-1" secondTick.engine [] [secondTick]
      (.error (.flowLimit "flow-1" (.count 1))) engine') ∧
    ∃ taken visits engine', Invokes plainHandlers "Clock" "tick" (.object []) (some "flow-1")
      secondTick.engine taken visits (.error (.flowLimit "flow-1" (.count 1))) engine' := by
  have hh : plainHandlers.StayAside :=
    ⟨fun _ _ _ _ => ⟨rfl, rfl, rfl, rfl, rfl, rfl, rfl⟩,
      fun _ _ _ => ⟨rfl, rfl, rfl, rfl, rfl, rfl, rfl⟩⟩
  have hget : Table.get? "flow-1" secondTick.engine.retained = some 0 := by decide +kernel
  have hl : secondTick.engine.IsLocated := by
    have hids : secondTick.engine.retained = [("flow-1", 0)] ∧
        secondTick.engine.states[0]?.map Flow.id = some "flow-1" := by
      decide +kernel
    intro entry he
    rw [hids.1, List.mem_singleton] at he
    obtain ⟨flow, hflow, hid⟩ := Option.map_eq_some_iff.mp hids.2
    exact he ▸ ⟨flow, hflow, hid⟩
  obtain ⟨hinvokes, hreevaluates⟩ := refusals_surface hh (fun _ => rfl) hl
  have hrefuses : Refuses plainHandlers "Clock" "flow-1" secondTick.engine :=
    ⟨rfl, by decide +kernel⟩
  constructor
  · rcases hrun : runVisit plainHandlers secondTick with ⟨fault | _, engine'⟩
    · have hround : Reevaluates plainHandlers "flow-1" secondTick.engine [] [secondTick]
          (.error fault) engine' := .failed hget (.ended rfl hrun)
      have hfan : (fanOut plainHandlers 0 none endless).run secondTick.engine
          = (.ok secondFrames, secondBegun) := rfl
      have hrefused : RefusedIn plainHandlers 0 [(⟨"Clock", "tick", .object []⟩, .object [])]
          secondBegun := .here rfl ⟨rfl, by decide +kernel⟩
      rcases hreevaluates _ _ _ _ _ hround secondTick (List.mem_singleton_self _) secondFrames
        secondBegun hfan [] _ [] rfl [] secondBegun rfl hrefused with hlimit | ⟨_, hnone, -⟩
      · rw [hlimit] at hround
        exact ⟨engine', hround⟩
      · cases hnone
    · have hfails : (runVisit plainHandlers secondTick).1.isOk = false := by decide +kernel
      rw [hrun] at hfails
      cases hfails
  · obtain ⟨taken, visits, hround⟩ := exists_invokes hh (show secondTick.engine.maxFlowEvents
      = .count 1 from rfl) "Clock" "tick" (.object []) (some "flow-1")
    have hended := (hinvokes _ _ _ _ _ _ _ _ hround "flow-1" secondTick.engine rfl).1 hrefuses
    rw [hended] at hround
    exact ⟨taken, visits, _, hround⟩

end Engine

end HerdBook
