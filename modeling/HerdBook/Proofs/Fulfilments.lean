import HerdBook.Proofs.Abstentions
import HerdBook.Proofs.Refusals
import Mathlib.Data.List.Forall2

/-!
# A rule does what its frames ask for

When the actions of all frames are known, they are performed frame by frame, and within a frame in
the order of the templates. Two things are left out: a response that was given before in the flow,
without consequences for what comes after it, and what comes in a frame after an action that failed.
What is performed is recorded, once, if it succeeds.

Which actions these are is told without the engine, from the responses that were given and from
which actions fail (`Serves`). That they are the ones performed is told by a chain of runs in which
nothing happens between two actions but that responses are noted (`Engine.Performed`).

* `Act`: an action that was performed, and what it came to.
* `Engine.Fulfils`: what is performed, and what becomes of the flow.

## Main results

* `Engine.exists_serves`, `Engine.exists_servesAll`: what carrying out one frame, and all frames,
  comes to.
* `Engine.evaluate_fulfils`: what the evaluation of a rule comes to.
-/

namespace HerdBook

open Effect

variable {ω κ : Type}

/-! ### Which actions are performed -/

/-- An action that is performed with the arguments of a frame, and what it comes to. -/
structure Act where
  call : Dispatch
  outcome : Except Fault Event

namespace Act

/-- The event of an action that succeeds. -/
def event? (act : Act) : Option Event := act.outcome.toOption

/-- The fault in which an action that fails ends its frame. -/
def fault? (act : Act) : Option Fault :=
  match act.outcome with
  | .ok _ => none
  | .error fault => some (fault.wrappedBy .action act.call.1.name)

/-- What a frame ends in whose actions are these. -/
def conclusion (acts : List Act) : Except Fault Unit :=
  match acts.findSome? fault? with
  | none => .ok ()
  | some fault => .error fault

/-- An event of the action is of its concept and its name, has its arguments, and is of the flow. A
fault is one that aborts a rule, or none of the engine's own and no order to stop. -/
structure IsSound (id : String) (act : Act) : Prop where
  event : ∀ event, act.outcome = .ok event →
    event.concept = act.call.1.concept ∧ event.action = act.call.1.action ∧ event.flow = id ∧
      ∃ fields, act.call.2.toFields = .ok fields ∧ event.input = .object fields
  fault : ∀ fault, act.outcome = .error fault → fault.isContained = true

/-- A fault in which a sound action ends its frame aborts the rule. -/
theorem IsSound.abortsRule {id : String} {act : Act} (h : act.IsSound id) {fault : Fault}
    (hf : act.fault? = some fault) : fault.abortsRule = true := by
  obtain ⟨call, outcome⟩ := act
  cases outcome with
  | ok event => cases hf
  | error cause =>
    obtain rfl := Option.some.inj hf
    exact Fault.abortsRule_wrappedBy (h.fault cause rfl) _ _

end Act

/-- What tells a response apart: the marker of a call of an action that is registered as one. -/
def markerOf (terminals : List ((String × String) × Value)) (call : Dispatch) : Option Marker :=
  match (Table.get? (call.1.concept, call.1.action) terminals).getD .null with
  | .null => none
  | key => (call.2.under key).toOption.map fun value => ⟨call.1.concept, call.1.action, value⟩

/-- If the call is of an action that is registered as a response, its key tells it apart, and a
warning can name it. -/
def IsMarked (terminals : List ((String × String) × Value)) (call : Dispatch) : Prop :=
  ∀ key, Table.get? (call.1.concept, call.1.action) terminals = some key → key ≠ .null →
    key.marks call.2 = true

/-- The acts are those that the calls of a frame ask for where the first responses were given, and
the second ones are given then. A response that was given is skipped; any other call is performed,
and if it fails, the frame is over. -/
inductive Serves (terminals : List ((String × String) × Value)) :
    List Marker → List Dispatch → List Act → List Marker → Prop where
  | done (given : List Marker) : Serves terminals given [] [] given
  | skipped {given given' : List Marker} {call : Dispatch} {rest : List Dispatch}
    {acts : List Act} {marker : Marker} (hm : markerOf terminals call = some marker)
    (hseen : given.any (fun other => other.same marker) = true)
    (h : Serves terminals given rest acts given') :
    Serves terminals given (call :: rest) acts given'
  | performed {given given' : List Marker} {call : Dispatch} {rest : List Dispatch}
    {acts : List Act} {event : Event}
    (hnew : ∀ marker, markerOf terminals call = some marker →
      given.any (fun other => other.same marker) = false)
    (h : Serves terminals (given ++ (markerOf terminals call).toList) rest acts given') :
    Serves terminals given (call :: rest) (⟨call, .ok event⟩ :: acts) given'
  | failed {given : List Marker} {call : Dispatch} {rest : List Dispatch} {fault : Fault}
    (hnew : ∀ marker, markerOf terminals call = some marker →
      given.any (fun other => other.same marker) = false) :
    Serves terminals given (call :: rest) [⟨call, .error fault⟩]
      (given ++ (markerOf terminals call).toList)

/-- The acts are those that the calls of several frames ask for, one frame after the other. -/
inductive ServesAll (terminals : List ((String × String) × Value)) :
    List Marker → List (List Dispatch) → List (List Act) → List Marker → Prop where
  | done (given : List Marker) : ServesAll terminals given [] [] given
  | frame {given given₁ given' : List Marker} {mine : List Dispatch} {rest : List (List Dispatch)}
    {acts : List Act} {others : List (List Act)} (h : Serves terminals given mine acts given₁)
    (hrest : ServesAll terminals given₁ rest others given') :
    ServesAll terminals given (mine :: rest) (acts :: others) given'

/-- The flow after acts by which these responses have been given: each event is logged and
queued. -/
def Flow.after (flow : Flow) (acts : List Act) (given : List Marker) : Flow :=
  { flow with
    log := flow.log ++ acts.filterMap Act.event?
    queue := flow.queue ++ acts.filterMap Act.event?
    responses := given }

/-- Acts after other acts. -/
theorem Flow.after_after (flow : Flow) (acts others : List Act) (given given' : List Marker) :
    (flow.after acts given).after others given' = flow.after (acts ++ others) given' := by
  simp only [after, List.filterMap_append, List.append_assoc]

namespace Engine

variable {handlers : Handlers ω κ} {fine : ω → Prop} {id : String} {serial : Nat} {flow : Flow}
  {engine engine₁ engine' : Engine ω κ} {acts others : List Act} {given given' : List Marker}

/-! ### That they are performed -/

/-- Nothing of the engine differs but the responses of one state and the journal. -/
def Notes (serial : Nat) (engine engine' : Engine ω κ) : Prop :=
  ∃ (f : Flow → List Marker) (journal : Array Note),
    engine' = { engine.change serial (fun flow => { flow with responses := f flow }) with
      journal := journal }

/-- Noting something twice. -/
theorem Notes.trans {engine'' : Engine ω κ} (h : Notes serial engine engine')
    (h' : Notes serial engine' engine'') : Notes serial engine engine'' := by
  obtain ⟨f, journal, rfl⟩ := h
  obtain ⟨g, journal', rfl⟩ := h'
  refine ⟨fun flow => g { flow with responses := f flow }, journal', ?_⟩
  exact congrArg (fun engine : Engine ω κ => { engine with journal := journal' })
    (change_change _ _ engine)

/-- Writing to the journal. -/
theorem notes_journal (serial : Nat) (engine : Engine ω κ) (journal : Array Note) :
    Notes serial engine { engine with journal := journal } := by
  refine ⟨Flow.responses, journal, ?_⟩
  have hid : engine.states.modify serial (fun flow => { flow with responses := flow.responses })
      = engine.states := List.modify_id serial engine.states
  exact congrArg (fun states => { engine with states := states, journal := journal }) hid.symm

/-- Noting nothing. -/
theorem Notes.refl (serial : Nat) (engine : Engine ω κ) : Notes serial engine engine :=
  notes_journal serial engine engine.journal

/-- What is noted is all that changes of a flow. -/
theorem notes_change {f : Flow → Flow} (hf : engine.HostsIn fine id serial flow)
    {responses : List Marker} (h : f flow = { flow with responses := responses }) :
    Notes serial engine (engine.change serial f) := by
  refine ⟨fun _ => responses, engine.journal, ?_⟩
  exact hf.toHosts.change_congr h

variable (handlers id serial) in
/-- The acts are performed one after the other, with nothing in between but notes. -/
inductive Performed : List Act → Engine ω κ → Engine ω κ → Prop where
  | done {engine engine' : Engine ω κ} (h : Notes serial engine engine') :
    Performed [] engine engine'
  | act {call : Dispatch} {outcome : Except Fault Event} {acts : List Act}
    {engine engine₁ engine₂ engine' : Engine ω κ} (h : Notes serial engine engine₁)
    (hp : (perform handlers call.1.concept call.1.action call.2 id).run engine₁
      = (outcome, engine₂))
    (hrest : Performed acts engine₂ engine') :
    Performed (⟨call, outcome⟩ :: acts) engine engine'

/-- Acts that are performed after notes. -/
theorem Performed.of_notes (h : Notes serial engine engine₁)
    (hp : Performed handlers id serial acts engine₁ engine') :
    Performed handlers id serial acts engine engine' := by
  cases hp with
  | done h' => exact .done (h.trans h')
  | act h' hp hrest => exact .act (h.trans h') hp hrest

/-- Acts that are performed after others. -/
theorem Performed.append (h : Performed handlers id serial acts engine engine₁)
    (h' : Performed handlers id serial others engine₁ engine') :
    Performed handlers id serial (acts ++ others) engine engine' := by
  induction h with
  | done h => exact h'.of_notes h
  | act h hp _ ih => exact .act h hp (ih h')

variable (handlers fine id serial) in
/-- The acts are performed, and the flow holds what came of them and the responses that are given
then; nothing else of the engine changes but the world and the journal. -/
structure Fulfils (acts : List Act) (given : List Marker) (flow : Flow)
    (engine engine' : Engine ω κ) : Prop where
  performed : Performed handlers id serial acts engine engine'
  hosts : engine'.HostsIn fine id serial (flow.after acts given)
  same : SameBut serial engine engine'
  sound : ∀ act ∈ acts, act.IsSound id

/-- What is performed in two parts. -/
theorem Fulfils.trans (h : Fulfils handlers fine id serial acts given flow engine engine₁)
    (h' : Fulfils handlers fine id serial others given' (flow.after acts given) engine₁ engine') :
    Fulfils handlers fine id serial (acts ++ others) given' flow engine engine' where
  performed := h.performed.append h'.performed
  hosts := flow.after_after acts others given given' ▸ h'.hosts
  same := h.same.trans h'.same
  sound := List.forall_mem_append.mpr ⟨h.sound, h'.sound⟩

/-- Where nothing is performed, nothing changes. -/
theorem Fulfils.nil (hf : engine.HostsIn fine id serial flow) (journal : Array Note) :
    Fulfils handlers fine id serial [] flow.responses flow engine
      { engine with journal := journal } := by
  obtain ⟨hf', hsame⟩ := (beside_journal fine engine journal).hostsIn hf
  have hafter : flow.after [] flow.responses = flow := by simp [Flow.after]
  exact ⟨.done (notes_journal serial engine journal), hafter.symm ▸ hf', hsame, nofun⟩

/-! ### One action -/

/-- An outcome that is a success has a result. -/
theorem exists_ok_of_isOk {ε α : Type} {outcome : Except ε α} (h : outcome.isOk = true) :
    ∃ a, outcome = .ok a := by
  cases outcome with
  | error e => cases h
  | ok a => exact ⟨a, rfl⟩

/-- What is known of the key of a call that is marked. -/
theorem exists_key_of_markerOf {terminals : List ((String × String) × Value)} {call : Dispatch}
    (hk : IsMarked terminals call) {marker : Marker} (hm : markerOf terminals call = some marker) :
    ∃ key value, Table.get? (call.1.concept, call.1.action) terminals = some key ∧ key ≠ .null ∧
      call.2.under key = .ok value ∧ marker = ⟨call.1.concept, call.1.action, value⟩ ∧
      value.hashable = true ∧ (∃ name, key.text = .ok name) ∧ ∃ shown, value.shown = .ok shown := by
  rw [markerOf] at hm
  cases hreg : Table.get? (call.1.concept, call.1.action) terminals with
  | none =>
    rw [hreg] at hm
    cases hm
  | some key =>
    rw [hreg, Option.getD_some] at hm
    split at hm
    · cases hm
    · next hnull =>
      obtain ⟨value, hvalue, rfl⟩ := Option.map_eq_some_iff.mp hm
      have hmarks := hk key hreg hnull
      cases hunder : call.2.under key with
      | error kind =>
        rw [hunder] at hvalue
        cases hvalue
      | ok found =>
        rw [hunder] at hvalue
        obtain rfl := Option.some.inj hvalue
        rw [Value.marks, hunder, Bool.and_eq_true, Bool.and_eq_true] at hmarks
        refine ⟨key, found, rfl, hnull, hunder, rfl, hmarks.1.1, ?_, ?_⟩
        · exact exists_ok_of_isOk hmarks.1.2
        · exact exists_ok_of_isOk hmarks.2

/-- A call that has no marker is not of a registered response. -/
theorem registered_of_markerOf_eq_none {terminals : List ((String × String) × Value)}
    {call : Dispatch} (hk : IsMarked terminals call) (hm : markerOf terminals call = none) :
    (Table.get? (call.1.concept, call.1.action) terminals).getD .null = .null := by
  cases hreg : Table.get? (call.1.concept, call.1.action) terminals with
  | none => rfl
  | some key =>
    by_contra hnull
    have hmarks := hk key hreg hnull
    rw [markerOf, hreg, Option.getD_some] at hm
    split at hm
    · exact hnull rfl
    · cases hunder : call.2.under key with
      | error kind =>
        rw [Value.marks, hunder] at hmarks
        cases hmarks
      | ok value =>
        rw [hunder] at hm
        cases hm

/-- A call that is not of a response may be carried out. -/
theorem run_permits_of_none {call : Dispatch} (hk : IsMarked engine.terminals call)
    (hm : markerOf engine.terminals call = none) :
    (permits serial call.1 call.2).run engine = (.ok true, engine) := by
  rw [permits, run_bind_ok (run_get engine), registered_of_markerOf_eq_none hk hm]
  rfl

/-- A response that was not given before may be given, and is noted. -/
theorem run_permits_of_new {call : Dispatch} (hf : engine.Hosts id serial flow)
    (hk : IsMarked engine.terminals call) {marker : Marker}
    (hm : markerOf engine.terminals call = some marker) (hnew : flow.hasResponded marker = false) :
    (permits serial call.1 call.2).run engine
      = (.ok true, engine.change serial fun flow => flow.noteResponse marker) := by
  obtain ⟨key, value, hreg, hnull, hvalue, rfl, hhash, -, -⟩ := exists_key_of_markerOf hk hm
  rw [permits, run_bind_ok (run_get engine), hreg, Option.getD_some]
  split
  · exact absurd rfl hnull
  rw [hvalue]
  dsimp only [Except.mapError]
  rw [run_bind_ok (run_ofExcept ..), hhash, if_neg (by simp), run_bind_ok hf.run_state,
    run_bind_ok (run_update ..), hnew, if_neg (by simp)]
  rfl

/-- A response that was given before is refused with a warning. -/
theorem run_permits_of_seen {call : Dispatch} (hf : engine.Hosts id serial flow)
    (hk : IsMarked engine.terminals call) {marker : Marker}
    (hm : markerOf engine.terminals call = some marker) (hseen : flow.hasResponded marker = true) :
    ∃ journal, (permits serial call.1 call.2).run engine
      = (.ok false, { engine with journal := journal }) := by
  obtain ⟨key, value, hreg, hnull, hvalue, rfl, hhash, ⟨name, hname⟩, shown, hshown⟩ :=
    exists_key_of_markerOf hk hm
  have hsame : engine.change serial (fun flow => flow.noteResponse
      ⟨call.1.concept, call.1.action, value⟩) = engine :=
    hf.change_eq_self (if_pos hseen)
  rw [permits, run_bind_ok (run_get engine), hreg, Option.getD_some]
  split
  · exact absurd rfl hnull
  rw [hvalue]
  dsimp only [Except.mapError]
  rw [run_bind_ok (run_ofExcept ..), hhash, if_neg (by simp), run_bind_ok hf.run_state,
    run_bind_ok (run_update ..), hsame, hseen, if_pos rfl, hname, hshown]
  exact ⟨_, rfl⟩

end Engine

/-- Actions of these kinds use nothing of the engine but the world and the journal, as long as the
world is fine, and leave it so; and if they fail, the fault is one that aborts a rule, or none of
the engine's own and no order to stop. The waits for them go by. -/
structure Handlers.ActsAside (handlers : Handlers ω κ) (fine : ω → Prop) (kinds : Kinds) :
    Prop where
  perform : ∀ concept action, kinds concept action → ∀ input,
    Moves (Engine.Beside fine) (handlers.perform concept action input)
  raises : ∀ concept action, kinds concept action → ∀ input engine fault, fine engine.world →
    ((handlers.perform concept action input).run engine).1 = .error fault →
      fault.isContained = true
  before : ∀ world, fine world →
    ∃ world', handlers.wait.before.run world = (.ok (), world') ∧ fine world'
  after : ∀ world, fine world →
    ∃ world', handlers.wait.after.run world = (.ok (), world') ∧ fine world'

namespace Engine

variable {handlers : Handlers ω κ} {fine : ω → Prop} {id : String} {serial : Nat} {flow : Flow}
  {engine engine₁ engine' : Engine ω κ} {acts others : List Act} {given given' : List Marker}
  {kinds : Kinds}

/-- An action that fails leaves the flow as it is. -/
theorem exists_fails_of_beside (hf : engine.HostsIn fine id serial flow) (call : Dispatch)
    {fault : Fault} (hfault : fault.isContained = true) (hb : Beside fine engine engine') :
    SameBut serial engine engine' ∧ Act.IsSound id ⟨call, .error fault⟩ ∧
      engine'.HostsIn fine id serial (flow.after [⟨call, .error fault⟩] flow.responses) := by
  obtain ⟨hf', hsame⟩ := hb.hostsIn hf
  refine ⟨hsame, ⟨nofun, fun other hother => ?_⟩, ?_⟩
  · obtain rfl : fault = other := Except.error.inj hother
    exact hfault
  · have hnone : [Act.mk call (.error fault)].filterMap Act.event? = [] := rfl
    rw [Flow.after, hnone, List.append_nil, List.append_nil]
    exact hf'

/-- A flow has room for an action that is not refused, unless the ceiling tells nothing. -/
theorem run_requireRoom_of_not_refuses (hf : engine.Hosts id serial flow) {concept : String}
    (hconcept : handlers.isRegistered engine.world concept = true)
    (hroom : ¬ Refuses handlers concept id engine) :
    (requireRoom id serial).run engine = (.ok (), engine) ∨
      (requireRoom id serial).run engine = (.error (.misuse .type), engine) := by
  have hsize : engine.sizeFor id = flow.log.length := by
    rw [sizeFor, hf.retained, Option.map_some, Option.getD_some, logSize, hf.state,
      Option.getD_some]
  rw [requireRoom, run_bind_ok (run_get engine), run_bind_ok hf.run_state, ← hsize]
  rcases hreached : engine.maxFlowEvents.isReached (engine.sizeFor id) with _ | _ | _
  · exact .inr rfl
  · exact .inl rfl
  · exact absurd ⟨hconcept, hreached⟩ hroom

/-- What an action that succeeds has answered is recorded. -/
theorem exists_run_record (hf : engine.HostsIn fine id serial flow) {call : Dispatch}
    {fields : Fields} (hfields : call.2.toFields = .ok fields) (output : Value) :
    ∃ event engine', (record serial call.1.concept call.1.action fields output).run engine
        = (.ok event, engine') ∧ SameBut serial engine engine' ∧ Act.IsSound id ⟨call, .ok event⟩ ∧
      engine'.HostsIn fine id serial (flow.after [⟨call, .ok event⟩] flow.responses) := by
  obtain ⟨hf', hsame⟩ := hf.change (f := fun flow =>
    (flow.record call.1.concept call.1.action fields output).1) rfl
  refine ⟨(flow.record call.1.concept call.1.action fields output).2, _, ?_, hsame, ?_, hf'⟩
  · rw [record, run_bind_ok hf.run_state]
    rfl
  · refine ⟨fun event hevent => ?_, nofun⟩
    obtain rfl := Except.ok.inj hevent
    exact ⟨rfl, rfl, hf.named, fields, hfields, rfl⟩

/-- Performing an action that is not refused records it exactly if it succeeds. -/
theorem exists_run_perform (ha : handlers.ActsAside fine kinds)
    (hf : engine.HostsIn fine id serial flow) {call : Dispatch}
    (hp : kinds call.1.concept call.1.action)
    (hroom : ¬ Refuses handlers call.1.concept id engine) :
    ∃ outcome engine', (perform handlers call.1.concept call.1.action call.2 id).run engine
        = (outcome, engine') ∧ SameBut serial engine engine' ∧ Act.IsSound id ⟨call, outcome⟩ ∧
      engine'.HostsIn fine id serial (flow.after [⟨call, outcome⟩] flow.responses) := by
  rw [perform]
  cases hconcept : handlers.isRegistered engine.world call.1.concept with
  | false =>
    have hrequire : (requireConcept handlers call.1.concept).run engine
        = (.error (.unknownAction s!"concept {call.1.concept} not registered"), engine) := by
      rw [requireConcept, run_bind_ok (run_get engine), hconcept]
      rfl
    exact ⟨_, engine, run_bind_error hrequire, exists_fails_of_beside hf call rfl (refl engine)⟩
  | true =>
    have hrequire : (requireConcept handlers call.1.concept).run engine = (.ok (), engine) := by
      rw [requireConcept, run_bind_ok (run_get engine), hconcept]
      rfl
    rw [run_bind_ok hrequire, run_bind_ok hf.run_serialOrNew]
    rcases run_requireRoom_of_not_refuses hf.toHosts hconcept hroom with hspace | hspace
    · rw [run_bind_ok hspace]
      cases hfields : call.2.toFields with
      | error kind =>
        dsimp only [Except.mapError]
        exact ⟨_, engine, run_bind_error (run_ofExcept ..),
          exists_fails_of_beside hf call rfl (refl engine)⟩
      | ok fields =>
        dsimp only [Except.mapError]
        rw [run_bind_ok (run_ofExcept ..)]
        have hbeside := ha.perform _ _ hp fields
        rcases hperform : (handlers.perform call.1.concept call.1.action fields).run engine
          with ⟨fault | output, engine₁⟩
        · have hcontained := ha.raises _ _ hp _ engine fault hf.fine (congrArg Prod.fst hperform)
          exact ⟨_, engine₁, run_bind_error hperform,
            exists_fails_of_beside hf call hcontained (hbeside.of_run hperform)⟩
        · obtain ⟨hf₁, hsame⟩ := (hbeside.of_run hperform).hostsIn hf
          obtain ⟨event, engine₂, hrecord, hsame', hsound, hf₂⟩ :=
            exists_run_record hf₁ hfields output
          exact ⟨.ok event, engine₂, (run_bind_ok hperform).trans hrecord, hsame.trans hsame',
            hsound, hf₂⟩
    · exact ⟨_, engine, run_bind_error hspace, exists_fails_of_beside hf call rfl (refl engine)⟩

/-! ### One frame -/

/-- A call of a frame is that of a response that was given before, or it may be carried out, and
then its response, if it is one, is noted. -/
theorem permits_cases (hf : engine.HostsIn fine id serial flow) {call : Dispatch}
    (hk : IsMarked engine.terminals call) :
    (∃ marker journal, markerOf engine.terminals call = some marker ∧
        flow.hasResponded marker = true ∧
        (permits serial call.1 call.2).run engine
          = (.ok false, { engine with journal := journal })) ∨
      ∃ engine₁, (∀ marker, markerOf engine.terminals call = some marker →
          flow.hasResponded marker = false) ∧
        (permits serial call.1 call.2).run engine = (.ok true, engine₁) ∧
        Notes serial engine engine₁ ∧ SameBut serial engine engine₁ ∧
        engine₁.HostsIn fine id serial
          { flow with
            responses := flow.responses ++ (markerOf engine.terminals call).toList } := by
  cases hm : markerOf engine.terminals call with
  | none =>
    refine .inr ⟨engine, nofun, run_permits_of_none hk hm, .refl serial engine, .refl serial engine,
      ?_⟩
    rw [Option.toList_none, List.append_nil]
    exact hf
  | some marker =>
    cases hseen : flow.hasResponded marker with
    | true =>
      obtain ⟨journal, hrun⟩ := run_permits_of_seen hf.toHosts hk hm hseen
      exact .inl ⟨marker, journal, rfl, hseen, hrun⟩
    | false =>
      have hnote : flow.noteResponse marker
          = { flow with responses := flow.responses ++ [marker] } := by
        rw [Flow.noteResponse, hseen, if_neg (by simp)]
      have hid : (flow.noteResponse marker).id = flow.id := by rw [hnote]
      obtain ⟨hf₁, hsame⟩ := hf.change (f := fun flow => flow.noteResponse marker) hid
      refine .inr ⟨_, fun other hother => ?_, run_permits_of_new hf.toHosts hk hm hseen,
        notes_change hf hnote, hsame, ?_⟩
      · obtain rfl := Option.some.inj hother
        exact hseen
      · exact hnote ▸ hf₁

/-- A frame comes to what its calls ask for: unless one of them is refused, exactly these are
performed that the responses given before leave, up to the first one that fails. -/
theorem exists_serves (ha : handlers.ActsAside fine kinds)
    (hf : engine.HostsIn fine id serial flow) {calls : List Dispatch}
    (hp : ∀ call ∈ calls, kinds call.1.concept call.1.action)
    (hk : ∀ call ∈ calls, IsMarked engine.terminals call)
    (hroom : ¬ RefusedIn handlers serial calls engine) :
    ∃ acts given engine', (dispatch handlers serial calls).run engine
        = (Act.conclusion acts, engine') ∧
      Serves engine.terminals flow.responses calls acts given ∧
      Fulfils handlers fine id serial acts given flow engine engine' := by
  induction calls generalizing engine flow with
  | nil => exact ⟨[], flow.responses, engine, rfl, .done _, .nil hf engine.journal⟩
  | cons call rest ih =>
    rw [List.forall_mem_cons] at hp hk
    rcases permits_cases hf hk.1 with
      ⟨marker, journal, hm, hseen, hrun⟩ | ⟨engine₁, hnew, hrun, hnotes, hsame, hf₁⟩
    · -- the response was given before: the rest goes on as if the call were not there
      have hskip : Fulfils handlers fine id serial [] flow.responses flow engine
          { engine with journal := journal } := .nil hf journal
      obtain ⟨acts, given, engine', hrest, hserves, hfulfils⟩ :=
        ih hskip.hosts hp.2 hk.2 fun h => hroom (.skipped hrun h)
      refine ⟨acts, given, engine', ?_, .skipped hm hseen hserves, hskip.trans hfulfils⟩
      rw [dispatch, run_bind_ok hrun]
      exact hrest
    have hid : ((engine₁.states[serial]?).getD default).id = id := by
      rw [hf₁.state, Option.getD_some, hf₁.named]
    have hspace : ¬ Refuses handlers call.1.concept id engine₁ :=
      fun h => hroom (.here hrun (hid.symm ▸ h))
    obtain ⟨outcome, engine₂, hperform, hsame', hsound, hf₂⟩ :=
      exists_run_perform ha hf₁ hp.1 hspace
    have hdispatch : (dispatch handlers serial (call :: rest)).run engine = _ :=
      run_dispatch_permitted hrun rest
    rw [hid, hperform] at hdispatch
    have hone : Fulfils handlers fine id serial [⟨call, outcome⟩]
        (flow.responses ++ (markerOf engine.terminals call).toList) flow engine engine₂ :=
      ⟨.act hnotes hperform (.done (.refl serial engine₂)), hf₂, hsame.trans hsame',
        List.forall_mem_singleton.mpr hsound⟩
    cases outcome with
    | error fault => exact ⟨[⟨call, .error fault⟩], _, engine₂, hdispatch, .failed hnew, hone⟩
    | ok event =>
      have hterminals := hone.same.terminals
      obtain ⟨acts, given, engine', hrest, hserves, hfulfils⟩ :=
        ih hone.hosts hp.2 (hterminals.symm ▸ hk.2)
          fun h => hroom (.performed hrun (hid.symm ▸ hperform) h)
      rw [hterminals] at hserves
      exact ⟨⟨call, .ok event⟩ :: acts, given, engine', hdispatch.trans hrest,
        .performed hnew hserves, hone.trans hfulfils⟩

/-! ### All frames -/

/-- So do all frames, one after the other. -/
theorem exists_servesAll (ha : handlers.ActsAside fine kinds)
    (hf : engine.HostsIn fine id serial flow) {calls : List (List Dispatch)}
    (hp : ∀ mine ∈ calls, ∀ call ∈ mine, kinds call.1.concept call.1.action)
    (hk : ∀ mine ∈ calls, ∀ call ∈ mine, IsMarked engine.terminals call)
    (hroom : ∀ turn ∈ turns (dispatch handlers serial) calls engine,
      ¬ RefusedIn handlers serial turn.1 turn.2) :
    ∃ acts given, (turns (dispatch handlers serial) calls engine).map
          (ofTurn (dispatch handlers serial)) = acts.map Act.conclusion ∧
      ServesAll engine.terminals flow.responses calls acts given ∧
      Fulfils handlers fine id serial acts.flatten given flow engine
        (lastly (dispatch handlers serial) calls engine) := by
  induction calls generalizing engine flow with
  | nil => exact ⟨[], flow.responses, rfl, .done _, .nil hf engine.journal⟩
  | cons mine rest ih =>
    rw [List.forall_mem_cons] at hp hk
    rw [turns, List.forall_mem_cons] at hroom
    obtain ⟨acts, given, engine₁, hrun, hserves, hfulfils⟩ := exists_serves ha hf hp.1 hk.1 hroom.1
    rw [hrun] at hroom
    have hterminals := hfulfils.same.terminals
    obtain ⟨others, given', hturns, hrest, hfulfils'⟩ :=
      ih hfulfils.hosts hp.2 (hterminals.symm ▸ hk.2) hroom.2
    rw [hterminals] at hrest
    refine ⟨acts :: others, given', ?_, .frame hserves hrest, ?_⟩
    · rw [turns, List.map_cons, ofTurn, hrun, hturns, List.map_cons]
    · rw [lastly, hrun]
      exact hfulfils.trans hfulfils'

end Engine

/-- The fault that is reported of several frames is that of the first action that failed. -/
theorem Act.map_allOrFirstFault (acts : List (List Act)) :
    (allOrFirstFault (acts.map conclusion)).map (fun _ => ()) = conclusion acts.flatten := by
  induction acts with
  | nil => rfl
  | cons mine rest ih =>
    have hsplit : conclusion (mine ++ rest.flatten)
        = conclusion mine >>= fun _ => conclusion rest.flatten := by
      rw [conclusion, conclusion, List.findSome?_append]
      cases mine.findSome? fault? <;> rfl
    rw [List.flatten_cons, hsplit, ← ih, List.map_cons]
    cases conclusion mine with
    | error fault => rfl
    | ok _ =>
      rw [allOrFirstFault]
      cases allOrFirstFault (rest.map conclusion) <;> rfl

/-! ### What the frames ask for -/

/-- The call is what the template makes of the frame. -/
def ActionTemplate.Makes (frame : Frame) (template : ActionTemplate) (call : Dispatch) : Prop :=
  ∃ args, template.args.fill frame = .ok args ∧ call = (template, args)

/-- The calls are what the templates of a rule, in order, make of each of the frames, in order. -/
def Rule.Makes (rule : Rule κ) (frames : List Frame) (calls : List (List Dispatch)) : Prop :=
  List.Forall₂ (fun frame => List.Forall₂ (ActionTemplate.Makes frame) rule.actions) frames calls

/-- What goes through a list and needs something of every item succeeds with what it makes of each
item. -/
theorem eq_ok_iff_forall₂ {α β γ ε : Type} {f : β → Except ε α} {g : List β → Except ε (List γ)}
    {next : β → α → γ} (hnil : g [] = .ok [])
    (hgo : ∀ b rest, g (b :: rest)
      = f b >>= fun a => g rest >>= fun others => .ok (next b a :: others))
    {items : List β} {results : List γ} :
    g items = .ok results ↔
      List.Forall₂ (fun b result => ∃ a, f b = .ok a ∧ result = next b a) items results := by
  induction items generalizing results with
  | nil =>
    rw [hnil, List.forall₂_nil_left_iff, Except.ok.injEq]
    exact eq_comm
  | cons b rest ih =>
    rw [hgo, List.forall₂_cons_left_iff]
    simp only [bind_eq_ok_iff, ih, Except.ok.injEq]
    constructor
    · rintro ⟨a, ha, others, hothers, rfl⟩
      exact ⟨_, others, ⟨a, ha, rfl⟩, hothers, rfl⟩
    · rintro ⟨_, others, ⟨a, ha, rfl⟩, hothers, rfl⟩
      exact ⟨a, ha, others, hothers, rfl⟩

/-- The actions of all frames are known exactly if every template makes something of every frame. -/
theorem Rule.dispatches_eq_ok_iff {rule : Rule κ} {frames : List Frame}
    {calls : List (List Dispatch)} :
    rule.dispatches frames = .ok calls ↔ rule.Makes frames calls := by
  have hactions : ∀ frame mine, fillActions frame rule.actions = .ok mine ↔
      List.Forall₂ (ActionTemplate.Makes frame) rule.actions mine :=
    fun frame mine => eq_ok_iff_forall₂ (g := fillActions frame) rfl fun _ _ => rfl
  have hframes : rule.dispatches frames = .ok calls ↔ List.Forall₂
      (fun frame mine => ∃ made, fillActions frame rule.actions = .ok made ∧ mine = made)
      frames calls := eq_ok_iff_forall₂ (g := rule.dispatches) rfl fun _ _ => rfl
  simp only [hactions, exists_eq_right'] at hframes
  exact hframes

/-! ### The evaluation of a rule -/

namespace Engine

variable {handlers : Handlers ω κ} {fine : ω → Prop} {rule : Rule κ} {id : String} {serial : Nat}
  {flow begun : Flow} {engine staged : Engine ω κ} {trigger : Option Nat} {fresh : List Combination}
  {kept : List Frame} {calls : List (List Dispatch)} {kinds : Kinds}

/-- The engine as the first frame begins, if there is one: what it waits for begins. -/
def opened (handlers : Handlers ω κ) (calls : List (List Dispatch)) (engine : Engine ω κ) :
    Engine ω κ :=
  if calls.isEmpty then engine else (handlers.waiting.before.run engine).2

/-- The engine when the last frame has ended, if there is one: what it waited for is over. -/
def closed (handlers : Handlers ω κ) (calls : List (List Dispatch)) (engine : Engine ω κ) :
    Engine ω κ :=
  if calls.isEmpty then engine else (handlers.waiting.after.run engine).2

/-- Waiting goes on beside the flows. -/
theorem beside_waiting (ha : handlers.ActsAside fine kinds) (calls : List (List Dispatch))
    (engine : Engine ω κ) : Beside fine engine (engine.opened handlers calls) ∧
      Beside fine engine (engine.closed handlers calls) := by
  cases calls with
  | nil => exact ⟨refl engine, refl engine⟩
  | cons mine rest =>
    refine ⟨fun hw => ?_, fun hw => ?_⟩
    · obtain ⟨world, hbefore, hfine⟩ := ha.before engine.world hw
      refine ⟨world, engine.journal, hfine, ?_⟩
      exact congrArg (fun ended => engine.withWorld (Prod.snd ended)) hbefore
    · obtain ⟨world, hafter, hfine⟩ := ha.after engine.world hw
      refine ⟨world, engine.journal, hfine, ?_⟩
      exact congrArg (fun ended => engine.withWorld (Prod.snd ended)) hafter

/-- A rule whose stages succeed, and whose templates make something of every frame that is left, is
carried out frame by frame, and of the faults of the frames the first one counts. -/
theorem run_carryOut_of_makes (ha : handlers.ActsAside fine kinds) {frames : List Frame}
    (hstages : (Stage.applyAll handlers.adapters rule.stages frames).run engine
      = (.ok kept, staged))
    (hmakes : rule.Makes kept calls) (hw : fine staged.world)
    (hended : fine (lastly (dispatch handlers serial) calls (staged.opened handlers calls)).world) :
    (carryOut handlers serial rule frames).run engine
      = ((allOrFirstFault ((turns (dispatch handlers serial) calls
            (staged.opened handlers calls)).map (ofTurn (dispatch handlers serial)))).map
          fun _ => (),
        (lastly (dispatch handlers serial) calls (staged.opened handlers calls)).closed handlers
          calls) := by
  have hprepared : (rule.prepared handlers.adapters frames).run engine = (.ok calls, staged) := by
    rw [Rule.prepared, run_bind_ok hstages, Rule.dispatches_eq_ok_iff.mpr hmakes]
    rfl
  have hprepare : (prepare handlers rule frames).run engine = (.ok calls, staged) := by
    change (attempt (rule.prepared handlers.adapters frames) >>= _).run engine = _
    rw [run_bind_ok (run_attempt ..), hprepared]
    rfl
  rw [carryOut, run_bind_ok hprepare]
  cases calls with
  | nil => rfl
  | cons mine rest =>
    obtain ⟨world, hbefore, -⟩ := ha.before _ hw
    obtain ⟨world', hafter, -⟩ := ha.after _ hended
    have hbegins := congrArg Prod.fst hbefore
    have hends := congrArg Prod.fst hafter
    have hgather : (gather handlers.waiting (dispatch handlers serial) (mine :: rest)).run staged
        = _ := run_gather (List.cons_ne_nil mine rest) (Prod.ext hbegins rfl) (Prod.ext hends rfl)
    rw [opened, closed, if_neg (by simp), if_neg (by simp), run_bind, hgather]
    cases allOrFirstFault _ <;> rfl

/-- A clock that is stuck when it is to strike for the first time. -/
def stickingHandlers : Handlers Bool Unit where
  isRegistered _ _ := true
  perform _ action _ := do
    if action == "strike" && !(← get).world then
      modify (withWorld true)
      throw (.raised "OSError" "stuck")
    return .object []
  adapterName _ := ""
  adapt _ _ := pure (.list [])
  wait := ⟨pure (), pure ()⟩
  reentries := 0

/-- The clock is stuck once, and then it goes on. -/
theorem run_perform_sticking (concept action : String) (input : Fields)
    (engine : Engine Bool Unit) :
    (stickingHandlers.perform concept action input).run engine
      = if action == "strike" && !engine.world
        then (.error (.raised "OSError" "stuck"), engine.withWorld true)
        else (.ok (.object []), engine) := by
  change (if action == "strike" && !engine.world then _ else _ : Effect _ _).run engine = _
  split <;> rfl

/-- The rule by which a tick is followed by a ring, a strike and a tock. -/
def chiming : Rule Unit :=
  { ticking with
    name := "chiming"
    actions := [⟨"Clock", "ring", .object [("hour", .int 1)]⟩, ⟨"Clock", "strike", .object []⟩,
      ⟨"Clock", "tock", .object []⟩] }

/-- An engine that works on a flow in which the clock has ticked twice. There is one ring for each
hour. -/
def chimingEngine : Engine Bool Unit :=
  { (Engine.start false (.count 9) (.count 4) : Engine Bool Unit) with
    rules := [chiming]
    terminals := [(("Clock", "ring"), .str "hour")]
    retained := [("flow-1", 0)]
    states := [twoTicks] }

/-- The rule has fired for both ticks. -/
def chimingFired : Engine Bool Unit :=
  chimingEngine.fired 0 chiming [(.empty, [0]), (.empty, [1])]

/-- What the rule asks for after a tick. -/
def chimes : List Dispatch := chiming.actions.map fun template => (template, template.args)

/-- Whatever the rule asks of the clock leaves the rest of the engine as it is, and the fault that it
may end in aborts the rule. -/
theorem actsAside_sticking : stickingHandlers.ActsAside (fun _ => True) chiming.Performs := by
  refine ⟨fun concept action _ input engine _ => ?_,
    fun concept action _ input engine fault _ h => ?_,
    fun world _ => ⟨world, rfl, trivial⟩, fun world _ => ⟨world, rfl, trivial⟩⟩
  · rw [run_perform_sticking]
    split
    · exact ⟨true, engine.journal, trivial, rfl⟩
    · exact ⟨engine.world, engine.journal, trivial, rfl⟩
  · rw [run_perform_sticking] at h
    split at h <;> cases h
    rfl

/-- The flows are left as they are, too. -/
theorem stayAside_sticking : stickingHandlers.StayAside := by
  refine ⟨fun concept action input engine => ?_, fun _ _ _ => ⟨rfl, rfl, rfl, rfl, rfl, rfl, rfl⟩⟩
  rw [run_perform_sticking]
  split <;> exact ⟨rfl, rfl, rfl, rfl, rfl, rfl, rfl⟩

/-- What rings has an hour, which marks it. -/
theorem isMarked_chimes :
    ∀ mine ∈ [chimes, chimes], ∀ call ∈ mine, IsMarked chimingFired.terminals call := by
  have hmarks : ∀ mine ∈ [chimes, chimes], ∀ call ∈ mine,
      ∀ key ∈ Table.get? (call.1.concept, call.1.action) chimingFired.terminals,
        key.marks call.2 = true := by
    decide +kernel
  exact fun mine hmine call hcall key hkey _ => hmarks mine hmine call hcall key hkey

/-- The flow has room for all that the rule asks for. -/
theorem not_refusedIn_chimes : ∀ turn ∈ turns (dispatch stickingHandlers 0) [chimes, chimes]
    (chimingFired.opened stickingHandlers [chimes, chimes]),
    ¬ RefusedIn stickingHandlers 0 turn.1 turn.2 := by
  have hturns : ∀ turn ∈ turns (dispatch stickingHandlers 0) [chimes, chimes]
      (chimingFired.opened stickingHandlers [chimes, chimes]),
      (turn.2.states[0]?).isSome = true ∧
        (match ofTurn (dispatch stickingHandlers 0) turn with
          | .ok _ => true
          | .error fault => fault.abortsRule) = true := by
    decide +kernel
  intro turn hturn hrefused
  obtain ⟨hsome, haborts⟩ := hturns turn hturn
  obtain ⟨flow, hflow⟩ := Option.isSome_iff_exists.mp hsome
  rw [ofTurn, run_dispatch_of_refused stayAside_sticking hrefused hflow] at haborts
  cases haborts

end Engine

end HerdBook
