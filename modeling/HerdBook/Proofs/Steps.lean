import HerdBook.Engine.Answer
import HerdBook.Proofs.Outcomes

/-!
# States stay where they are

The work on a flow goes by the number of its state. Whatever the engine does, a state stays under
its number, the responses that were given in it stay given, and the ids of the flows that are
retained stand for states that are there.

* `Engine.IsLocated`: each id that is retained stands for a state that is there.
* `Engine.Steady`: the relation between an engine and a later one that no step leaves, except the
  registration of a response.

## Main results

* `Engine.steady_openFlow`, `Engine.steady_evict`, `Engine.steady_permits` and the other lemmas of
  that form: one for each step of the engine that is no work of handlers.
* `Engine.exists_marked_of_permits`: a response is permitted only where it is not marked, and it is
  marked then.
-/

namespace HerdBook

open Effect

variable {ω κ α : Type}

namespace Flow

/-- Noting a response takes none away. -/
theorem responses_subset_noteResponse (flow : Flow) (marker : Marker) :
    flow.responses ⊆ (flow.noteResponse marker).responses := by
  unfold noteResponse
  split
  · exact List.Subset.refl _
  · exact List.subset_append_left _ _

/-- It leaves the id. -/
theorem id_noteResponse (flow : Flow) (marker : Marker) :
    (flow.noteResponse marker).id = flow.id := by
  unfold noteResponse
  split <;> rfl

end Flow

namespace Engine

/-- The ids of flows stand for states that are there and carry them. -/
def IsLocated (engine : Engine ω κ) : Prop :=
  ∀ entry ∈ engine.retained, ∃ flow, engine.states[entry.2]? = some flow ∧ flow.id = entry.1

/-- Responses are registered as before, and each state is still there with its id and the responses
that were given in it. -/
structure Steady (engine engine' : Engine ω κ) : Prop where
  terminals : engine'.terminals = engine.terminals
  located : engine.IsLocated → engine'.IsLocated
  states : ∀ (n : Nat) (flow : Flow), engine.states[n]? = some flow →
    ∃ flow', engine'.states[n]? = some flow' ∧ flow'.id = flow.id ∧
      flow.responses ⊆ flow'.responses

instance : IsPreorder (Engine ω κ) Steady where
  refl _ := ⟨rfl, id, fun _ flow h => ⟨flow, h, rfl, List.Subset.refl _⟩⟩
  trans _ _ _ h h' := by
    refine ⟨h'.terminals.trans h.terminals, h'.located ∘ h.located, fun n flow hf => ?_⟩
    obtain ⟨flow₁, hf₁, hi₁, hr₁⟩ := h.states n flow hf
    obtain ⟨flow₂, hf₂, hi₂, hr₂⟩ := h'.states n flow₁ hf₁
    exact ⟨flow₂, hf₂, hi₂.trans hi₁, List.Subset.trans hr₁ hr₂⟩

/-- Ids that are retained still stand for their states. -/
theorem IsLocated.of_states {engine engine' : Engine ω κ} (h : engine.IsLocated)
    (hr : engine'.retained ⊆ engine.retained)
    (hs : ∀ (n : Nat) (flow : Flow), engine.states[n]? = some flow →
      ∃ flow', engine'.states[n]? = some flow' ∧ flow'.id = flow.id) : engine'.IsLocated := by
  intro entry he
  obtain ⟨flow, hf, hi⟩ := h entry (hr he)
  obtain ⟨flow', hf', hi'⟩ := hs entry.2 flow hf
  exact ⟨flow', hf', hi'.trans hi⟩

/-- No state is taken away. -/
theorem Steady.length_le {engine engine' : Engine ω κ} (h : Steady engine engine') :
    engine.states.length ≤ engine'.states.length := by
  refine Nat.le_of_not_lt fun hn => ?_
  obtain ⟨flow', hf', -⟩ := h.states _ _ (List.getElem?_eq_getElem hn)
  rw [List.getElem?_eq_none (Nat.le_refl _)] at hf'
  exact absurd hf' (by simp)

/-- An id leads to a state that is there, and finding its number changes nothing. -/
theorem IsLocated.of_serial {engine engine' : Engine ω κ} (h : engine.IsLocated) {id : String}
    {n : Nat} (hr : (serial id).run engine = (.ok n, engine')) :
    engine' = engine ∧ n < engine.states.length := by
  unfold serial at hr
  rw [run_bind_ok (run_get engine)] at hr
  cases hget : Table.get? id engine.retained with
  | none =>
    rw [hget] at hr
    exact absurd (congrArg Prod.fst hr) (by simp)
  | some m =>
    rw [hget] at hr
    obtain rfl : m = n := Except.ok.inj (congrArg Prod.fst hr)
    obtain ⟨flow, hf, -⟩ := h _ (Table.mem_of_get? hget)
    exact ⟨(congrArg Prod.snd hr).symm, (List.getElem?_eq_some_iff.mp hf).1⟩

section Steps

variable {serial : Nat} {id : String}

/-- What leaves the states, the ids and the responses alone is steady. -/
theorem steady_of_eq {engine engine' : Engine ω κ} (ht : engine'.terminals = engine.terminals)
    (hr : engine'.retained = engine.retained) (hs : engine'.states = engine.states) :
    Steady engine engine' := by
  have hsame : ∀ (n : Nat) (flow : Flow), engine.states[n]? = some flow →
      engine'.states[n]? = some flow := fun n flow hf => hs.symm ▸ hf
  exact ⟨ht, fun h => h.of_states (by rw [hr]; exact List.Subset.refl _)
    fun n flow hf => ⟨flow, hsame n flow hf, rfl⟩,
    fun n flow hf => ⟨flow, hsame n flow hf, rfl, List.Subset.refl _⟩⟩

/-- The engine is read. -/
theorem steady_get : Moves (Steady (ω := ω) (κ := κ)) get := fun engine => refl engine

/-- A change of a flow that takes no response away. -/
theorem steady_update {f : Flow → Flow} (hid : ∀ flow : Flow, (f flow).id = flow.id)
    (hf : ∀ flow : Flow, flow.responses ⊆ (f flow).responses) :
    Moves (Steady (ω := ω) (κ := κ)) (update serial f) := by
  intro engine
  change Steady engine (engine.change serial f)
  have hstates : ∀ (n : Nat) (flow : Flow), engine.states[n]? = some flow →
      ∃ flow', (engine.change serial f).states[n]? = some flow' ∧ flow'.id = flow.id ∧
        flow.responses ⊆ flow'.responses := by
    intro n flow hn
    change ∃ flow', (engine.states.modify serial f)[n]? = some flow' ∧ _
    rw [List.getElem?_modify, hn]
    by_cases hsn : serial = n
    · exact ⟨f flow, by simp [hsn], hid flow, hf flow⟩
    · exact ⟨flow, by simp [hsn], rfl, List.Subset.refl _⟩
  refine ⟨rfl, fun h => h.of_states (List.Subset.refl _) fun n flow hn => ?_, hstates⟩
  obtain ⟨flow', hf', hi, -⟩ := hstates n flow hn
  exact ⟨flow', hf', hi⟩

/-- The state with a number is read. -/
theorem steady_state : Moves (Steady (ω := ω) (κ := κ)) (state serial) :=
  fun engine => refl engine

/-- The number that an id leads to is read. -/
theorem steady_serial : Moves (Steady (ω := ω) (κ := κ)) (Engine.serial id) := by
  refine Moves.bind steady_get fun engine => ?_
  split
  · exact Moves.pure _
  · exact Moves.throw _

/-- A line that is written. -/
theorem steady_note (n : Note) : Moves (Steady (ω := ω) (κ := κ)) (note n) :=
  fun _ => steady_of_eq rfl rfl rfl

/-- A state that is added comes after all others. -/
theorem steady_openFlow (engine : Engine ω κ) (started : Nat) :
    Steady engine (openFlow id { engine with started := started }) := by
  have hsame : ∀ (n : Nat) (flow : Flow), engine.states[n]? = some flow →
      (engine.states ++ [Flow.start id])[n]? = some flow := fun n flow hf =>
    List.getElem?_append_left (List.getElem?_eq_some_iff.mp hf).1 ▸ hf
  refine ⟨rfl, fun h entry he => ?_, fun n flow hf =>
    ⟨flow, hsame n flow hf, rfl, List.Subset.refl _⟩⟩
  change ∃ flow, (engine.states ++ [Flow.start id])[entry.2]? = some flow ∧ _
  rcases Table.eq_or_mem_of_mem_set he with rfl | he
  · exact ⟨.start id, List.getElem?_concat_length .., rfl⟩
  · obtain ⟨flow, hf, hi⟩ := h entry he
    exact ⟨flow, hsame _ flow hf, hi⟩

/-- Forgetting the id of a flow leaves its state. -/
theorem steady_endFlow (engine : Engine ω κ) : Steady engine (endFlow id engine) :=
  ⟨rfl, fun h => h.of_states (fun _ he => Table.mem_of_mem_erase he) fun _ flow hf =>
    ⟨flow, hf, rfl⟩, fun _ flow hf => ⟨flow, hf, rfl, List.Subset.refl _⟩⟩

/-- So does letting flows go. -/
theorem steady_evict (excess : Nat) (engine : Engine ω κ) :
    Steady engine (evict id excess engine) := by
  unfold evict
  generalize (engine.idle id).take excess = ids
  induction ids generalizing engine with
  | nil => exact refl engine
  | cons other rest ih =>
    exact IsTrans.trans _ _ _ (steady_endFlow engine) (ih (endFlow other engine))

/-- The state of a flow is added when there is none. -/
theorem steady_serialOrNew : Moves (Steady (ω := ω) (κ := κ)) (serialOrNew id) := by
  refine Moves.bind steady_get fun engine => ?_
  split
  · exact Moves.pure _
  · refine Moves.bind steady_get fun _ => Moves.bind (fun engine => ?_) fun _ => Moves.pure _
    exact steady_openFlow engine engine.started

/-- Starting a flow adds its state. -/
theorem steady_startFlow : Moves (Steady (ω := ω) (κ := κ)) startFlow := by
  refine Moves.bind steady_get fun first => Moves.bind (fun engine => ?_) fun _ =>
    Moves.bind steady_get fun engine => ?_
  · exact steady_openFlow engine (engine.started + 1)
  · split
    · exact Moves.throw _
    · exact Moves.bind (fun engine => steady_evict _ engine) fun _ => Moves.pure _

variable {handlers : Handlers ω κ}

/-- Asking for a concept. -/
theorem steady_requireConcept (concept : String) :
    Moves Steady (requireConcept handlers concept) := by
  refine Moves.bind steady_get fun engine => ?_
  split
  · exact Moves.throw _
  · exact Moves.pure _

/-- Asking for room. -/
theorem steady_requireRoom : Moves (Steady (ω := ω) (κ := κ)) (requireRoom id serial) := by
  refine Moves.bind steady_get fun engine => Moves.bind steady_state fun flow => ?_
  split
  · exact Moves.throw _
  · split
    · exact Moves.throw _
    · exact Moves.pure _

/-- Recording an action. -/
theorem steady_record (concept action : String) (input : Fields) (output : Value) :
    Moves (Steady (ω := ω) (κ := κ)) (record serial concept action input output) := by
  exact Moves.bind steady_state fun flow => Moves.bind
    (steady_update (fun _ => rfl) fun _ => List.Subset.refl _) fun _ => Moves.pure _

/-- Asking whether an action may be carried out. -/
theorem steady_permits (template : ActionTemplate) (args : Value) :
    Moves (Steady (ω := ω) (κ := κ)) (permits serial template args) := by
  refine Moves.bind steady_get fun engine => ?_
  split
  · exact Moves.pure _
  · refine Moves.bind (Moves.ofExcept _) fun value => ?_
    dsimp only
    split
    · exact Moves.throw_bind _ _
    · refine Moves.bind steady_state fun flow => Moves.bind (steady_update
        (fun flow => Flow.id_noteResponse flow _)
        fun flow => Flow.responses_subset_noteResponse flow _) fun _ => ?_
      split
      · exact Moves.bind (Moves.ofExcept _) fun _ => Moves.bind (Moves.ofExcept _) fun _ =>
          Moves.bind (steady_note _) fun _ => Moves.pure _
      · exact Moves.pure _

/-- Recording a fault. -/
theorem steady_recordFault (rule : Rule κ) (fault : Fault) :
    Moves (Steady (ω := ω)) (recordFault serial rule fault) :=
  Moves.bind steady_state fun _ =>
    Moves.bind (steady_update (fun _ => rfl) fun _ => List.Subset.refl _) fun _ => steady_note _

/-- Taking an event off the queue. -/
theorem steady_dequeue : Moves (Steady (ω := ω) (κ := κ)) (dequeue serial) :=
  Moves.bind steady_state fun _ =>
    Moves.bind (steady_update (fun _ => rfl) fun _ => List.Subset.refl _) fun _ => Moves.pure _

/-- Adding a rule. -/
theorem steady_registerRule (rule : Rule κ) : Moves (Steady (ω := ω)) (registerRule rule) := by
  refine Moves.bind steady_get fun engine => ?_
  have hadd : Moves (Steady (ω := ω) (κ := κ))
      (modify fun engine => { engine with rules := engine.rules ++ [rule] }) :=
    fun _ => steady_of_eq rfl rfl rfl
  split
  · exact Moves.throw_bind _ _
  · exact hadd

/-- An action that is registered as a response is permitted only for a value that no response was
given for, and then its marker is noted. -/
theorem exists_noteResponse_of_permits {template : ActionTemplate} {args key : Value}
    {engine engine' : Engine ω κ} (hk : key ≠ .null)
    (hreg : Table.get? (template.concept, template.action) engine.terminals = some key)
    (h : (permits serial template args).run engine = (.ok true, engine')) :
    ∃ value, args.under key = .ok value ∧
      (engine.states[serial]?.getD default).hasResponded
        ⟨template.concept, template.action, value⟩ = false ∧
      engine' = engine.change serial fun flow =>
        flow.noteResponse ⟨template.concept, template.action, value⟩ := by
  unfold permits at h
  rw [run_bind_ok (run_get engine), hreg, Option.getD_some] at h
  split at h
  · exact absurd rfl hk
  obtain ⟨value, _, hread, h⟩ := exists_of_run_bind h
  obtain ⟨hvalue, rfl⟩ := Prod.mk.inj hread
  rw [mapError_eq_ok_iff] at hvalue
  refine ⟨value, hvalue, ?_⟩
  dsimp only at h
  split at h
  · exact absurd (congrArg Prod.fst (h.symm.trans (run_bind_error (run_throw ..)))) (by simp)
  obtain ⟨flow, _, hstate, h⟩ := exists_of_run_bind h
  obtain ⟨hflow, rfl⟩ := Prod.mk.inj hstate
  obtain rfl : engine.states[serial]?.getD default = flow := Except.ok.inj hflow
  obtain ⟨_, engine₁, hupdate, h⟩ := exists_of_run_bind h
  obtain rfl : engine.change serial _ = engine₁ := congrArg Prod.snd hupdate
  split at h
  · -- a response that was given before is refused
    next hseen =>
    obtain ⟨_, _, -, h⟩ := exists_of_run_bind h
    obtain ⟨_, _, -, h⟩ := exists_of_run_bind h
    obtain ⟨_, _, -, h⟩ := exists_of_run_bind h
    have hfalse := Except.ok.inj (congrArg Prod.fst h)
    exact absurd hseen (by simpa using hfalse)
  · next hseen => exact ⟨by simpa using hseen, (congrArg Prod.snd h).symm⟩

/-- So the state has no such response before, and has the marker afterwards. -/
theorem exists_marked_of_permits {template : ActionTemplate} {args key : Value}
    {engine engine' : Engine ω κ} (hk : key ≠ .null)
    (hreg : Table.get? (template.concept, template.action) engine.terminals = some key)
    (hn : serial < engine.states.length)
    (h : (permits serial template args).run engine = (.ok true, engine')) :
    ∃ value flow flow', args.under key = .ok value ∧
      engine.states[serial]? = some flow ∧ engine'.states[serial]? = some flow' ∧
      flow.hasResponded ⟨template.concept, template.action, value⟩ = false ∧
      ⟨template.concept, template.action, value⟩ ∈ flow'.responses := by
  obtain ⟨value, hvalue, hnew, rfl⟩ := exists_noteResponse_of_permits hk hreg h
  have hflow : engine.states[serial]? = some engine.states[serial] := List.getElem?_eq_getElem hn
  rw [hflow, Option.getD_some] at hnew
  have hflow' : (engine.change serial fun flow => flow.noteResponse
      ⟨template.concept, template.action, value⟩).states[serial]? = some
        (engine.states[serial].noteResponse ⟨template.concept, template.action, value⟩) := by
    change (engine.states.modify serial _)[serial]? = _
    rw [List.getElem?_modify_eq, hflow]
    rfl
  refine ⟨value, _, _, hvalue, hflow, hflow', hnew, ?_⟩
  rw [Flow.noteResponse, if_neg (Bool.eq_false_iff.mp hnew)]
  exact List.mem_append_right _ (List.mem_singleton_self _)

end Steps

end Engine

end HerdBook
