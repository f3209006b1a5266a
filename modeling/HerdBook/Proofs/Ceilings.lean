import HerdBook.Proofs.Motions

/-!
# How far a log outgrows the ceiling

The ceiling of actions is asked for before an action begins, and the action is recorded when it has
ended. What has been recorded in between, because the action used the engine on its own flow, does
not count against it. So the ceiling holds exactly as long as actions do not do that: with every
call of the engine that may nest in another one, a log may come to hold one event more.

* `Engine.logSize`: the number of events in the log of a flow.
* `Engine.Fills`: the relation between an engine and a later one in whose flow actions were
  performed that nest to a given depth.

## Main results

* `Engine.moves_perform_fills`: an action nests one deeper than what its handler does.
* `Engine.log_length_le`: no log of an engine holds more events than the ceiling and the depth to
  which calls nest allow for.
-/

namespace HerdBook

open Effect

variable {ω κ α β : Type}

namespace Engine

/-- The number of events in the log of the flow with the number. -/
def logSize (engine : Engine ω κ) (serial : Nat) : Nat :=
  ((engine.states[serial]?).getD default).log.length

variable {ceiling : Int} {n k serial : Nat} {handlers : Handlers ω κ} {engine engine' : Engine ω κ}

/-- A change that leaves the log of a flow leaves the numbers of events. -/
theorem logSize_change {f : Flow → Flow} (hf : ∀ flow, (f flow).log = flow.log) (serial : Nat)
    (engine : Engine ω κ) : (engine.change serial f).logSize n = engine.logSize n := by
  change (((engine.states.modify serial f)[n]?).getD default).log.length = _
  unfold logSize
  rw [List.getElem?_modify]
  cases engine.states[n]? with
  | none => rfl
  | some flow =>
    change (if serial = n then f flow else flow).log.length = flow.log.length
    split
    · rw [hf]
    · rfl

/-- A flow that is opened has an empty log. -/
theorem logSize_openFlow (id : String) (engine : Engine ω κ) :
    (openFlow id engine).logSize n = engine.logSize n := by
  change (((engine.states ++ [Flow.start id])[n]?).getD default).log.length = _
  unfold logSize
  rcases Nat.lt_trichotomy n engine.states.length with hlt | rfl | hgt
  · rw [List.getElem?_append_left hlt]
  · rw [List.getElem?_concat_length, List.getElem?_eq_none (Nat.le_refl _)]
    rfl
  · rw [List.getElem?_eq_none (Nat.le_of_lt hgt),
      List.getElem?_eq_none (by rw [List.length_append]; exact hgt)]

/-- Recording an action adds at most one event, and that to its own flow. -/
theorem logSize_record (serial : Nat) (concept action : String) (input : Fields) (output : Value)
    (engine : Engine ω κ) :
    ((record serial concept action input output).run engine).2.logSize n
      ≤ engine.logSize n + if serial = n then 1 else 0 := by
  change (((engine.states.modify serial _)[n]?).getD default).log.length ≤ _
  unfold logSize
  rw [List.getElem?_modify]
  cases engine.states[n]? with
  | none => exact Nat.le_add_right _ _
  | some flow =>
    change (if serial = n then (flow.record concept action input output).1 else flow).log.length
      ≤ flow.log.length + if serial = n then 1 else 0
    split
    · exact Nat.le_of_eq (List.length_append ..)
    · exact Nat.le_refl _

/-! ### Actions that nest -/

/-- The ceiling stays, and the log of the flow with the number grows by what actions record that
nest to the depth `k`: the outermost of them began below the ceiling. -/
def Fills (ceiling : Int) (n k : Nat) (engine engine' : Engine ω κ) : Prop :=
  engine.maxFlowEvents = .count ceiling → engine'.maxFlowEvents = .count ceiling ∧
    engine'.logSize n + 1 ≤ max (engine.logSize n + 1) (ceiling.toNat + k)

instance : IsPreorder (Engine ω κ) (Fills ceiling n k) where
  refl _ hc := ⟨hc, Nat.le_max_left _ _⟩
  trans _ _ _ h h' hc := by
    obtain ⟨hc₁, h₁⟩ := h hc
    obtain ⟨hc₂, h₂⟩ := h' hc₁
    exact ⟨hc₂, by omega⟩

/-- What nests less deep nests as deep. -/
theorem Fills.mono {m : Nat} (h : Fills ceiling n k engine engine') (hkm : k ≤ m) :
    Fills ceiling n m engine engine' := by
  intro hc
  obtain ⟨hc', h'⟩ := h hc
  exact ⟨hc', by omega⟩

/-- The same for all runs of a computation. -/
theorem moves_fills_mono {m : Nat} {act : Effect (Engine ω κ) α}
    (h : Moves (Fills ceiling n k) act) (hkm : k ≤ m) : Moves (Fills ceiling n m) act :=
  fun engine => (h engine).mono hkm

/-- Nothing is added where the log keeps its size. -/
theorem fills_of_logSize (hc : engine'.maxFlowEvents = engine.maxFlowEvents)
    (h : engine'.logSize n = engine.logSize n) : Fills ceiling n k engine engine' :=
  fun hcount => ⟨hc.trans hcount, h ▸ Nat.le_max_left _ _⟩

/-- Changes of a flow that leave its log. -/
theorem moves_update_fills {f : Flow → Flow} (hf : ∀ flow, (f flow).log = flow.log) :
    Moves (Fills (ω := ω) (κ := κ) ceiling n k) (update serial f) :=
  fun engine => fills_of_logSize rfl (logSize_change hf serial engine)

/-- Nothing is added where the states are the same. -/
theorem fills_of_states (hc : engine'.maxFlowEvents = engine.maxFlowEvents)
    (h : engine'.states = engine.states) : Fills ceiling n k engine engine' :=
  fills_of_logSize hc (by unfold logSize; rw [h])

/-- All steps of a round that are no actions leave the logs. -/
theorem isRoutine_fills : IsRoutine (Fills (ω := ω) (κ := κ) ceiling n k) where
  refl := Std.Refl.refl
  trans := IsTrans.trans
  aside h := fills_of_states h.maxFlowEvents h.states
  books _ _ hf := moves_update_fills hf.log

/-- Taking an event off a queue leaves the logs. -/
theorem moves_dequeue_fills : Moves (Fills (ω := ω) (κ := κ) ceiling n k) (dequeue serial) :=
  Moves.bind isRoutine_fills.moves_state fun _ =>
    Moves.bind (moves_update_fills fun _ => rfl) fun _ => Moves.pure _

/-- So does forgetting a flow. -/
theorem fills_endFlow (id : String) (engine : Engine ω κ) :
    Fills ceiling n k engine (endFlow id engine) := fills_of_states rfl rfl

/-- So does opening one. -/
theorem fills_openFlow (id : String) (started : Nat) (engine : Engine ω κ) :
    Fills ceiling n k engine (openFlow id { engine with started := started }) :=
  fills_of_logSize rfl (logSize_openFlow id { engine with started := started })

/-- So does the start of a flow. -/
theorem moves_startFlow_fills : Moves (Fills (ω := ω) (κ := κ) ceiling n k) startFlow :=
  moves_startFlow (fun engine => fills_openFlow _ _ engine) (evict_of_endFlow fills_endFlow)

/-- There is room in a flow exactly when its log is below the ceiling; asking changes nothing. -/
theorem run_requireRoom (serial : Nat) (id : String) (hc : engine.maxFlowEvents = .count ceiling) :
    (requireRoom id serial).run engine
      = (if ceiling ≤ engine.logSize serial then .error (.flowLimit id (.count ceiling))
          else .ok (), engine) := by
  have hstate : (state serial).run engine = (.ok (engine.states[serial]?.getD default), engine) :=
    rfl
  unfold requireRoom
  rw [run_bind_ok (run_get engine)]
  dsimp only
  rw [run_bind_ok hstate, hc]
  dsimp only [Limit.isReached]
  change (if decide (ceiling ≤ (engine.logSize serial : Int)) = true then _ else _ :
    Effect (Engine ω κ) Unit).run engine = _
  by_cases h : ceiling ≤ (engine.logSize serial : Int)
  · rw [if_pos h, if_pos (decide_eq_true h)]
    rfl
  · rw [if_neg h, if_neg (by simpa using h)]
    rfl

/-- An action nests one deeper than what its handler does. -/
theorem moves_perform_fills
    (hh : ∀ concept action input, Moves (Fills ceiling n k) (handlers.perform concept action input))
    (concept action : String) (input : Value) (id : String) :
    Moves (Fills ceiling n (k + 1)) (Engine.perform handlers concept action input id) := by
  refine Moves.bind (isRoutine_fills.moves_requireConcept concept) fun _ =>
    Moves.bind (isRoutine_fills.moves_serialOrNew fun engine _ =>
      fills_openFlow id engine.started engine) fun serial => ?_
  intro engine hc
  by_cases hfull : ceiling ≤ (engine.logSize serial : Int)
  · have hroom := run_requireRoom serial id hc
    rw [if_pos hfull] at hroom
    rw [run_bind_error hroom]
    exact ⟨hc, Nat.le_max_left _ _⟩
  · have hroom := run_requireRoom serial id hc
    rw [if_neg hfull] at hroom
    rw [run_bind_ok hroom, run_bind]
    rcases input.toFields.mapError Fault.misuse with fault | fields
    · exact ⟨hc, Nat.le_max_left _ _⟩
    rw [run_ofExcept]
    dsimp only
    rw [run_bind]
    obtain ⟨hc₁, hsize₁⟩ := hh concept action fields engine hc
    rcases hrun : (handlers.perform concept action fields).run engine with
      ⟨fault | output, engine₁⟩ <;> rw [hrun] at hc₁ hsize₁
    · dsimp only at hsize₁ ⊢
      exact ⟨hc₁, by omega⟩
    · refine ⟨hc₁, ?_⟩
      have hrecord := logSize_record (n := n) serial concept action fields output engine₁
      dsimp only at hsize₁ hrecord ⊢
      -- an action of this flow began below the ceiling, one of another flow adds nothing here
      split at hrecord
      · next hsame =>
        subst hsame
        omega
      · omega

/-- Rounds whose handlers nest to some depth nest one deeper. -/
theorem follows_fills
    (hperform : ∀ concept action input,
      Moves (Fills ceiling n k) (handlers.perform concept action input))
    (hadapt : ∀ adapter args, Moves (Fills ceiling n k) (handlers.adapt adapter args)) :
    Follows (Fills ceiling n (k + 1)) handlers where
  toIsRoutine := isRoutine_fills
  perform := moves_perform_fills hperform
  adapt adapter args := moves_fills_mono (hadapt adapter args) (Nat.le_succ k)

/-- Working on a flow adds what the actions of the rules record. -/
theorem moves_drain_fills (h : Follows (Fills ceiling n k) handlers) (id : String) :
    Moves (Fills ceiling n k) (drain handlers id) := by
  refine Moves.bind (h.moves_serial id) fun serial => Moves.bind h.moves_state fun flow => ?_
  split
  · exact Moves.pure _
  · refine Moves.bind (moves_update_fills fun _ => rfl) fun _ =>
      Moves.bind h.moves_get fun engine => ?_
    intro engine₁
    rw [run_ensuring]
    have hlast : Moves (Fills (ω := ω) (κ := κ) ceiling n k)
        (update serial fun flow => { flow with draining := false }) :=
      moves_update_fills fun _ => rfl
    exact IsTrans.trans _ _ _ (h.moves_drainLoop moves_dequeue_fills _ engine₁) (hlast _)

section Hosts

variable {host : Host ω κ} {inner : (call : EngineCall κ) → Effect (Engine ω κ) call.Answer}
  {depth : Nat}

/-- What the engine of a host answers nests one deeper than what the programs of the host do. -/
theorem moves_answerWith_fills
    (hperform : ∀ concept action args,
      Moves (Fills ceiling n k) ((host.perform concept action args).run inner))
    (hquery : ∀ concept name args,
      Moves (Fills ceiling n k) ((host.query concept name args).run inner))
    (hadapt : ∀ adapter args, Moves (Fills ceiling n k) ((host.adapt adapter args).run inner))
    (call : EngineCall κ) :
    Moves (Fills ceiling n (k + 1)) (answerWith host inner depth call) := by
  have hfollows : Follows (Fills ceiling n (k + 1)) (host.handlers inner depth) :=
    follows_fills (fun concept action input => hperform concept action (.object input)) hadapt
  exact hfollows.moves_answerWith
    (fun concept action args => moves_fills_mono (hperform concept action args) (Nat.le_succ k))
    (fun concept name args => moves_fills_mono (hquery concept name args) (Nat.le_succ k))
    moves_startFlow_fills (fun _ _ _ => fills_of_states rfl rfl) (moves_drain_fills hfollows) call
    fun id _ => fills_endFlow id

/-- When calls nest to some depth, so do the actions. -/
theorem moves_answer_fills (call : EngineCall κ) :
    Moves (Fills ceiling n depth) (answer host depth call) := by
  induction depth generalizing call with
  | zero => exact Moves.throw _
  | succ depth ih =>
    exact moves_answerWith_fills (fun _ _ _ => isRoutine_fills.moves_program_of_forall ih _)
      (fun _ _ _ => isRoutine_fills.moves_program_of_forall ih _)
      (fun _ _ => isRoutine_fills.moves_program_of_forall ih _) call

/-- A host that begins no rounds adds nothing to a log where no round is begun. -/
theorem moves_answer_fills_zero (hh : host.Places fun call => ¬ call.BeginsRound)
    (call : EngineCall κ) (hround : ¬ call.BeginsRound) :
    Moves (Fills ceiling n 0) (answer host depth call) := by
  induction depth generalizing call with
  | zero => exact Moves.throw _
  | succ depth ih =>
    exact isRoutine_fills.moves_answerWith
      (fun concept action args => isRoutine_fills.moves_program ih (hh.perform concept action args))
      (fun concept name args => isRoutine_fills.moves_program ih (hh.query concept name args))
      moves_startFlow_fills (fun _ _ _ => fills_of_states rfl rfl) call hround
      fun id _ => fills_endFlow id

/-- So its actions do not nest. -/
theorem moves_answer_fills_one (hh : host.Places fun call => ¬ call.BeginsRound)
    (call : EngineCall κ) : Moves (Fills ceiling n 1) (answer host depth call) := by
  cases depth with
  | zero => exact Moves.throw _
  | succ depth =>
    have hinner : ∀ call : EngineCall κ, ¬ call.BeginsRound →
        Moves (Fills ceiling n 0) (answer host depth call) := moves_answer_fills_zero hh
    exact moves_answerWith_fills
      (fun concept action args =>
        isRoutine_fills.moves_program hinner (hh.perform concept action args))
      (fun concept name args => isRoutine_fills.moves_program hinner (hh.query concept name args))
      (fun adapter args => isRoutine_fills.moves_program hinner (hh.adapt adapter args)) call

/-- What a program records that nests to some depth, on an engine that was empty. -/
theorem length_le_of_answer (ha : ∀ (n : Nat) (call : EngineCall κ),
      Moves (Fills ceiling n k) (answer host depth call))
    (hpos : 1 ≤ ceiling.toNat + k) (world : ω) (maxRetained : Limit) (program : Program ω κ α)
    {flow : Flow}
    (hf : flow ∈ ((program.run (answer host depth)).run
      (start world (.count ceiling) maxRetained)).2.states) :
    flow.log.length + 1 ≤ ceiling.toNat + k := by
  obtain ⟨n, hn⟩ := List.getElem?_of_mem hf
  have hfills := isRoutine_fills.moves_program_of_forall (ha n) program
    (start world (.count ceiling) maxRetained)
  obtain ⟨-, hsize⟩ := hfills rfl
  have hstart : (start (κ := κ) world (.count ceiling) maxRetained).logSize n = 0 := rfl
  have hlog : ((program.run (answer host depth)).run
      (start world (.count ceiling) maxRetained)).2.logSize n = flow.log.length := by
    unfold logSize
    rw [hn]
    rfl
  omega

end Hosts

/-- A clock that carries a program out when it ticks. -/
def clockThat (ticking : Program Unit Unit Value) : Host Unit Unit where
  isRegistered _ name := name == "Clock"
  perform _ action _ := if action = "tick" then ticking else .done (.ok (.object []))
  query _ _ args := .done (.ok args)
  adapterName _ := ""
  adapt _ args := .done (.ok args)
  wait := ⟨pure (), pure ()⟩

/-- The clock tocks in its own flow. -/
def tocking : Program Unit Unit Value :=
  .request (.invoke "Clock" "tock" (.object []) (some "flow-1")) fun _ => .done (.ok (.object []))

/-- The clock ticks twice. -/
def tickTwice : Program Unit Unit Unit :=
  .request (.invoke "Clock" "tick" (.object []) none) fun _ =>
  .request (.invoke "Clock" "tick" (.object []) (some "flow-1")) fun _ => .done (.ok ())

end Engine

end HerdBook
