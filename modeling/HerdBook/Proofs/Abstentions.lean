import HerdBook.Proofs.Isolation
import HerdBook.Proofs.Pipelines
import HerdBook.Proofs.Templates
import HerdBook.Proofs.Turns

/-!
# A rule that fails early does nothing

The arguments of all actions for all frames are known before the first action is carried out. So a
rule that fails in a stage, on whichever frame, or whose templates name a symbol that a frame cannot
fill in, has performed nothing: it abstains. What is left of it in the flow is that it fired, and
its fault.

* `Stage.Raises`: a stage meets a frame on which it fails.
* `Rule.Stalls`: a stage meets such a frame, or a template names a symbol that a frame that is left
  does not bind to a real value.
* `Engine.Beside`: nothing of the engine changes but the world and the journal.

## Main results

* `Rule.exists_error_of_stalls`: a rule that stalls fails before anything is carried out.
* `Engine.evaluate_abstains`: what its evaluation comes to.
-/

namespace HerdBook

open Effect

variable {ω κ α β γ ε σ : Type}

/-! ### Outcomes that are faults -/

/-- The outcome is a fault. -/
def Fails (outcome : Except ε α) : Prop := ∃ fault, outcome = .error fault

/-- A sequence fails when its first part does. -/
theorem Fails.bind {outcome : Except ε α} (h : Fails outcome) (next : α → Except ε β) :
    Fails (outcome >>= next) := by
  obtain ⟨fault, rfl⟩ := h
  exact ⟨fault, rfl⟩

/-- A sequence fails when its second part does in any case. -/
theorem fails_bind {next : α → Except ε β} (h : ∀ a, Fails (next a)) (outcome : Except ε α) :
    Fails (outcome >>= next) := by
  cases outcome with
  | error fault => exact ⟨fault, rfl⟩
  | ok a => exact h a

/-- What goes through a list and needs something of every item fails when it fails to get it of
one. -/
theorem fails_of_mem {f : β → Except ε α} {go : List β → Except ε γ}
    {next : β → α → γ → Except ε γ}
    (hgo : ∀ b rest, go (b :: rest) = f b >>= fun a => go rest >>= next b a) {items : List β}
    {b : β} (h : b ∈ items) (hb : Fails (f b)) : Fails (go items) := by
  induction items with
  | nil => cases h
  | cons first rest ih =>
    rw [hgo]
    rcases List.mem_cons.mp h with rfl | h
    · exact hb.bind _
    · exact fails_bind (fun a => (ih h).bind _) _

/-! ### Templates that cannot be filled in -/

namespace Value

/-- A template is not filled in when it names a symbol without a real value. -/
theorem fails_fill_of_names {frame : Frame} {s : Symbol} {template : Value} (h : Names s template)
    (hs : frame.get? s = none ∨ frame.get? s = some .notApplicable) :
    Fails (template.fill frame) := by
  have hitems : ∀ {items : List Value} {v : Value}, v ∈ items → Fails (v.fill frame) →
      Fails (fillItems frame items) := fun hmem hv => fails_of_mem (fun _ _ => rfl) hmem hv
  have hfields : ∀ {fields : Fields} {entry : String × Value}, entry ∈ fields →
      Fails (entry.2.fill frame) → Fails (fillFields frame fields) :=
    fun hmem hv => fails_of_mem (fun _ _ => rfl) hmem hv
  induction h with
  | symbol =>
    change Fails (frame.read s >>= _)
    rcases hs with hs | hs
    · exact Fails.bind ⟨_, by rw [Frame.read, hs]⟩ _
    · exact ⟨_, by rw [Frame.read, hs]; rfl⟩
  | list h _ ih =>
    obtain ⟨fault, hfails⟩ := hitems h ih
    exact ⟨fault, by rw [fill, hfails]; rfl⟩
  | tuple h _ ih =>
    obtain ⟨fault, hfails⟩ := hitems h ih
    exact ⟨fault, by rw [fill, hfails]; rfl⟩
  | object h _ ih =>
    obtain ⟨fault, hfails⟩ := hfields h ih
    exact ⟨fault, by rw [fill, hfails]; rfl⟩

end Value

/-- The actions of the frames are not all known when a template is not filled in for one frame. -/
theorem Rule.fails_dispatches {rule : Rule κ} {frames : List Frame} {frame : Frame}
    (h : frame ∈ frames) {template : ActionTemplate} (ht : template ∈ rule.actions)
    (hfill : Fails (template.args.fill frame)) : Fails (rule.dispatches frames) := by
  have hactions : Fails (fillActions frame rule.actions) := fails_of_mem (fun _ _ => rfl) ht hfill
  exact fails_of_mem (fun _ _ => rfl) h hactions

/-! ### Stages that fail -/

namespace Stage

variable (adapters : Adapters σ κ)

/-- The stage meets a frame on which it fails: its test or its change ends in a fault there, or the
turn of the frame does in a query. -/
inductive Raises (frames : List Frame) (s : σ) : Stage κ → Prop where
  | filter {test : Frame → Except Fault Bool} {frame : Frame} (h : frame ∈ frames)
    (hf : Fails (test frame)) : Raises frames s (.filter test)
  | map {change : Frame → Except Fault Frame} {frame : Frame} (h : frame ∈ frames)
    (hf : Fails (changeOne change frame)) : Raises frames s (.map change)
  | query {adapter : κ} {inputs outputs : Value} {turn : Frame × σ}
    (h : turn ∈ turns (joinRows adapters adapter inputs outputs) frames
      (adapters.wait.before.run s).2)
    (hf : Fails (ofTurn (joinRows adapters adapter inputs outputs) turn)) :
    Raises frames s (.query adapter inputs outputs)

/-- A stage that fails on a frame fails. -/
theorem fails_of_raises {frames : List Frame} {s : σ} {stage : Stage κ}
    (h : stage.Raises adapters frames s) : Fails ((stage.apply adapters frames).run s).1 := by
  cases h with
  | filter h hf =>
    obtain ⟨fault, hkeep⟩ : Fails (keep _ frames) := fails_of_mem (fun _ _ => rfl) h hf
    exact ⟨fault.onLeaving, by rw [apply, hkeep]; rfl⟩
  | map h hf =>
    obtain ⟨fault, hchange⟩ : Fails (changeAll _ frames) := fails_of_mem (fun _ _ => rfl) h hf
    exact ⟨fault.onLeaving, by rw [apply, hchange]; rfl⟩
  | query h hf =>
    obtain ⟨fault, hfault⟩ := hf
    obtain ⟨first, hfirst⟩ := exists_error_of_turn h hfault
    exact ⟨first, congrArg Prod.fst (run_bind_error (Prod.ext hfirst rfl))⟩

/-- One of the stages that come meets a frame on which it fails, after the ones before it have
succeeded. -/
inductive Stops : List (Stage κ) → List Frame → σ → Prop where
  | here {stage : Stage κ} {rest : List (Stage κ)} {frames : List Frame} {s : σ}
    (h : stage.Raises adapters frames s) : Stops (stage :: rest) frames s
  | later {stage : Stage κ} {rest : List (Stage κ)} {frames kept : List Frame} {s t : σ}
    (h : (stage.apply adapters frames).run s = (.ok kept, t)) (hrest : Stops rest kept t) :
    Stops (stage :: rest) frames s

/-- Stages one of which fails on a frame fail. -/
theorem Stops.fails {stages : List (Stage κ)} {frames : List Frame} {s : σ}
    (h : Stops adapters stages frames s) : Fails ((applyAll adapters stages frames).run s).1 := by
  rw [← run_applyEvery]
  induction h with
  | here h =>
    obtain ⟨fault, hfault⟩ := fails_of_raises adapters h
    exact ⟨fault, congrArg Prod.fst (run_bind_error (Prod.ext hfault rfl))⟩
  | later h _ ih =>
    rw [applyEvery, run_bind_ok h]
    exact ih

end Stage

/-! ### Rules that fail early -/

namespace Rule

variable (adapters : Adapters σ κ) (rule : Rule κ)

/-- What is done of a rule before its first action: the stages are run, and the arguments of all
actions are filled in. -/
def prepared (frames : List Frame) : Effect σ (List (List Dispatch)) := do
  let kept ← Stage.applyAll adapters rule.stages frames
  Effect.ofExcept (rule.dispatches kept)

/-- The rule fails before its first action: in a stage, on some frame, or because a template names a
symbol that some frame that is left does not bind, or binds to the placeholder. -/
inductive Stalls (frames : List Frame) (s : σ) : Prop where
  | stage (h : Stage.Stops adapters rule.stages frames s)
  | template {kept : List Frame} {t : σ} {frame : Frame} {template : ActionTemplate}
    {symbol : Symbol} (hrun : (Stage.applyAll adapters rule.stages frames).run s = (.ok kept, t))
    (hframe : frame ∈ kept) (htemplate : template ∈ rule.actions)
    (hnames : template.args.Names symbol)
    (hsymbol : frame.get? symbol = none ∨ frame.get? symbol = some .notApplicable)

variable {adapters rule}

/-- A rule that stalls fails before its first action. -/
theorem exists_error_of_stalls {frames : List Frame} {s : σ} (h : rule.Stalls adapters frames s) :
    ∃ fault t, (rule.prepared adapters frames).run s = (.error fault, t) := by
  cases h with
  | stage h =>
    obtain ⟨fault, hfault⟩ := h.fails
    exact ⟨fault, _, run_bind_error (Prod.ext hfault rfl)⟩
  | @template _ t _ _ _ hrun hframe htemplate hnames hsymbol =>
    obtain ⟨fault, hfault⟩ :=
      fails_dispatches hframe htemplate (Value.fails_fill_of_names hnames hsymbol)
    refine ⟨fault, t, (run_bind_ok hrun).trans ?_⟩
    rw [hfault]
    rfl

/-- A rule whose stages have succeeded fails with a fault that aborts it. -/
theorem isContained_of_prepared {frames kept : List Frame} {s t u : σ} {fault : Fault}
    (h : (rule.prepared adapters frames).run s = (.error fault, t))
    (hrun : (Stage.applyAll adapters rule.stages frames).run s = (.ok kept, u)) :
    fault.isContained = true := by
  rw [prepared, run_bind_ok hrun] at h
  rw [Fault.isContained, abortsRule_of_dispatches (congrArg Prod.fst h), Bool.true_or]

end Rule

namespace Engine

/-! ### Nothing but the world and the journal -/

/-- The engines differ in the world and the journal at most; of the first one only fine worlds
count, and the second one's is fine as well. -/
def Beside (fine : ω → Prop) (engine engine' : Engine ω κ) : Prop :=
  fine engine.world → ∃ world journal, fine world ∧
    engine' = { engine with world := world, journal := journal }

instance (fine : ω → Prop) : IsPreorder (Engine ω κ) (Beside fine) where
  refl engine h := ⟨engine.world, engine.journal, h, rfl⟩
  trans _ _ _ h h' hw := by
    obtain ⟨world, journal, hw, rfl⟩ := h hw
    obtain ⟨world', journal', hw, rfl⟩ := h' hw
    exact ⟨world', journal', hw, rfl⟩

variable {fine : ω → Prop} {id : String} {serial : Nat} {flow : Flow} {engine engine' : Engine ω κ}

/-- A state is where it was, and as it was. -/
theorem Beside.hostsIn (h : Beside fine engine engine') (hf : engine.HostsIn fine id serial flow) :
    engine'.HostsIn fine id serial flow ∧ SameBut serial engine engine' := by
  obtain ⟨world, journal, hw, rfl⟩ := h hf.fine
  exact ⟨⟨⟨hf.retained, hf.state, hf.named⟩, hw⟩, rfl, rfl, rfl, rfl, rfl, rfl, fun _ _ => rfl⟩

/-- What is written to the journal changes nothing else. -/
theorem beside_journal (fine : ω → Prop) (engine : Engine ω κ) (journal : Array Note) :
    Beside fine engine { engine with journal := journal } :=
  fun hw => ⟨engine.world, journal, hw, rfl⟩

end Engine

/-- The adapters that a rule asks, and the waits for them, use nothing of the engine but the world
and the journal, as long as the world is fine, and leave it so. -/
structure Handlers.ConsultsAside (handlers : Handlers ω κ) (fine : ω → Prop) (rule : Rule κ) :
    Prop where
  adapt : ∀ adapter inputs outputs, .query adapter inputs outputs ∈ rule.stages →
    ∀ args, Moves (Engine.Beside fine) (handlers.adapt adapter args)
  before : ∀ world, fine world → fine (handlers.wait.before.run world).2
  after : ∀ world, fine world → fine (handlers.wait.after.run world).2

namespace Engine

variable {handlers : Handlers ω κ} {fine : ω → Prop} {rule : Rule κ} {id : String} {serial : Nat}
  {flow : Flow} {engine engine' : Engine ω κ} {trigger : Option Nat} {fresh : List Combination}

/-- What is done of a rule before its first action goes on beside the flows. -/
theorem moves_prepared (h : handlers.ConsultsAside fine rule) (frames : List Frame) :
    Moves (Beside fine) (rule.prepared handlers.adapters frames) := by
  have hwait : Moves (Beside fine) handlers.waiting.before ∧
      Moves (Beside fine) handlers.waiting.after :=
    ⟨fun engine hw => ⟨_, engine.journal, h.before _ hw, rfl⟩,
      fun engine hw => ⟨_, engine.journal, h.after _ hw, rfl⟩⟩
  exact Moves.bind (Moves.applyAll _ _ h.adapt hwait.1 hwait.2 frames) fun _ => Moves.ofExcept _

/-! ### The evaluation of a rule -/

/-- The engine when a rule has fired for combinations. -/
def fired (serial : Nat) (rule : Rule κ) (fresh : List Combination) (engine : Engine ω κ) :
    Engine ω κ :=
  let note : Note := .engine .debug s!"sync {rule.name} matched {fresh.length} frame(s)"
  { engine.change serial (fun flow => flow.fire rule fresh) with
    journal := engine.journal.push note }

/-- A rule that has something new is fired, carried out and concluded. -/
theorem run_evaluate_fresh (hf : engine.Hosts id serial flow)
    (hfresh : flow.fresh rule trigger = .ok fresh) (hne : fresh ≠ []) :
    (evaluate handlers serial trigger rule).run engine
      = (conclude serial rule ((carryOut handlers serial rule (fresh.map (·.1))).run
          (engine.fired serial rule fresh)).1).run
        ((carryOut handlers serial rule (fresh.map (·.1))).run
          (engine.fired serial rule fresh)).2 := by
  rw [run_evaluate]
  have hcarry : (carryOutFresh handlers serial trigger rule).run engine
      = (carryOut handlers serial rule (fresh.map (·.1))).run (engine.fired serial rule fresh) := by
    rw [carryOutFresh, run_bind_ok hf.run_state, hfresh]
    dsimp only [Except.mapError]
    rw [run_bind_ok (run_ofExcept ..), if_neg (by rwa [List.isEmpty_iff]),
      run_bind_ok (run_update ..)]
    rfl
  rw [hcarry]

variable (handlers) in
/-- A rule that fails before its first action is over then. -/
theorem run_carryOut_of_prepared {frames : List Frame} {fault : Fault}
    (h : (rule.prepared handlers.adapters frames).run engine = (.error fault, engine')) :
    (carryOut handlers serial rule frames).run engine
      = (.error (fault.wrappedBy .stage rule.name), engine') := by
  have hprepare : (prepare handlers rule frames).run engine
      = (.error (fault.wrappedBy .stage rule.name), engine') := by
    change (attempt (rule.prepared handlers.adapters frames) >>= _).run engine = _
    rw [run_bind_ok (run_attempt ..), h]
    rfl
  exact run_bind_error hprepare

/-- The state of a flow after a rule has fired. -/
theorem hostsIn_fired (hf : engine.HostsIn fine id serial flow) (rule : Rule κ)
    (fresh : List Combination) :
    (engine.fired serial rule fresh).HostsIn fine id serial (flow.fire rule fresh) ∧
      SameBut serial engine (engine.fired serial rule fresh) := by
  obtain ⟨hfired, hsame⟩ := hf.change (f := fun flow => flow.fire rule fresh) rfl
  obtain ⟨hnoted, hsame'⟩ := (beside_journal fine _ _).hostsIn hfired
  exact ⟨hnoted, hsame.trans hsame'⟩

/-- Recording a fault adds it to the flow, with the names of the rule and of the flow. -/
theorem exists_run_recordFault (hf : engine.HostsIn fine id serial flow) (rule : Rule κ)
    (fault : Fault) :
    ∃ engine', (recordFault serial rule fault).run engine = (.ok (), engine') ∧
      engine'.HostsIn fine id serial
        (flow.addFault rule.name (fault.attributedTo ⟨rule.name, id⟩)) ∧
      SameBut serial engine engine' ∧ engine'.world = engine.world := by
  obtain ⟨hadded, hsame⟩ := hf.change (f := fun flow =>
    flow.addFault rule.name (fault.attributedTo ⟨rule.name, id⟩)) rfl
  obtain ⟨hnoted, hsame'⟩ := (beside_journal fine _ _).hostsIn hadded
  rw [recordFault, run_bind_ok hf.run_state, hf.named]
  exact ⟨_, rfl, hnoted, hsame.trans hsame', rfl⟩

/-- A rule without new combinations meets no frame to fail on. -/
theorem ne_nil_of_stalls {adapters : Adapters (Engine ω κ) κ}
    (h : rule.Stalls adapters (fresh.map (·.1)) engine) : fresh ≠ [] := by
  rintro rfl
  obtain ⟨fault, t, hrun⟩ := Rule.exists_error_of_stalls h
  have hnone : (rule.prepared adapters []).run engine = (.ok [], engine) := by
    have hstages : (Stage.applyAll adapters rule.stages []).run engine = (.ok [], engine) := by
      rw [← Stage.run_applyEvery, Stage.run_applyEvery_nil]
    exact (run_bind_ok hstages).trans rfl
  rw [List.map_nil, hnone] at hrun
  cases hrun

/-- A rule that fails before its first action abstains. When it has fired for what is new to it, and
a stage then fails on any frame or a template names a symbol that any frame does not bind to a real
value, the rule ends in a fault before it performs anything: whatever performing an action would do,
the run is the same. If the fault is one that aborts a rule, or none of the engine's own, nor an
order to stop, then the rule is marked as fired for all that was new, the fault is added to those of
the flow, wrapped unless it is one of the engine's own, nothing else of the flow changes, and the
rules that remain are evaluated. When the stages have succeeded, the fault is always one of
these. -/
theorem evaluate_abstains (hc : handlers.ConsultsAside fine rule)
    (hf : engine.HostsIn fine id serial flow) (hfresh : flow.fresh rule trigger = .ok fresh)
    (hs : rule.Stalls handlers.adapters (fresh.map (·.1)) (engine.fired serial rule fresh)) :
    ∃ fault staged,
      (rule.prepared handlers.adapters (fresh.map (·.1))).run (engine.fired serial rule fresh)
        = (.error fault, staged) ∧
      (∀ kept t, (Stage.applyAll handlers.adapters rule.stages (fresh.map (·.1))).run
          (engine.fired serial rule fresh) = (.ok kept, t) → fault.isContained = true) ∧
      (fault.isContained = true → ∃ told engine',
        told = (fault.wrappedBy .stage rule.name).attributedTo ⟨rule.name, id⟩ ∧
        (fault.isEngine = false → told = .wrapped .stage rule.name fault (some ⟨rule.name, id⟩)) ∧
        (∀ perform, (evaluate { handlers with perform := perform } serial trigger rule).run engine
          = (.ok (), engine')) ∧
        engine'.HostsIn fine id serial
          { flow with
            fired := flow.fired ++ fresh.map fun c => (rule.name, c.2)
            faults := flow.faults ++ [⟨rule.name, id, told⟩] } ∧
        SameBut serial engine engine' ∧
        ∀ rest, (evaluateEach handlers serial trigger (rule :: rest)).run engine
          = (evaluateEach handlers serial trigger rest).run engine') := by
  obtain rfl : flow.id = id := hf.named
  obtain ⟨hfired, hsameFired⟩ := hostsIn_fired hf rule fresh
  obtain ⟨fault, staged, hprepared⟩ := Rule.exists_error_of_stalls hs
  obtain ⟨hstaged, hsameStaged⟩ := ((moves_prepared hc _).of_run hprepared).hostsIn hfired
  refine ⟨fault, staged, hprepared, fun kept t hrun => Rule.isContained_of_prepared hprepared hrun,
    fun hcontained => ?_⟩
  obtain ⟨engine', hrecord, hended, hsame, -⟩ :=
    exists_run_recordFault hstaged rule (fault.wrappedBy .stage rule.name)
  have hevaluate : ∀ perform,
      (evaluate { handlers with perform := perform } serial trigger rule).run engine
        = (.ok (), engine') := by
    intro perform
    rw [run_evaluate_fresh hf.toHosts hfresh (ne_nil_of_stalls hs),
      run_carryOut_of_prepared { handlers with perform := perform } hprepared, conclude,
      if_pos (Fault.abortsRule_wrappedBy hcontained _ _), hrecord]
  refine ⟨_, engine', rfl, fun hengine => ?_, hevaluate, hended,
    (hsameFired.trans hsameStaged).trans hsame, fun rest => ?_⟩
  · have hstop : fault.isStop = false := by
      cases hstop : fault.isStop with
      | false => rfl
      | true =>
        rw [Fault.isContained_of_isStop hstop] at hcontained
        cases hcontained
    rw [Fault.wrappedBy, hengine, hstop]
    rfl
  · rw [evaluateEach, run_bind_ok (hevaluate handlers.perform)]

/-- The rule by which a tick is followed by a tock and by a strike at a time that nothing tells. -/
def striking : Rule Unit :=
  { ticking with
    name := "striking"
    actions := ticking.actions
      ++ [⟨"Clock", "strike", .object [("at", .symbol (.plain "striking" "at"))]⟩] }

/-- A flow in which the clock has ticked twice. -/
def twoTicks : Flow :=
  { Flow.start "flow-1" with
    log := [⟨0, "Clock", "tick", .object [], .object [], "flow-1"⟩,
      ⟨1, "Clock", "tick", .object [], .object [], "flow-1"⟩] }

/-- An engine that works on that flow. -/
def twiceTicked : Engine Unit Unit :=
  { tickingEngine with rules := [striking], retained := [("flow-1", 0)], states := [twoTicks] }

/-- The clock neither tocks nor strikes, and the flow holds that the rule has fired for both ticks
and the one fault. -/
theorem evaluate_abstains_striking :
    ∃ engine', (evaluate plainHandlers 0 none striking).run twiceTicked = (.ok (), engine') ∧
      engine'.HostsIn (fun _ => True) "flow-1" 0
        { twoTicks with
          fired := [("striking", [0]), ("striking", [1])]
          faults := [⟨"striking", "flow-1", .unbound "$at" []⟩] } := by
  have hc : plainHandlers.ConsultsAside (fun _ => True) striking :=
    ⟨fun _ _ _ _ _ engine _ => ⟨engine.world, engine.journal, trivial, rfl⟩, fun _ _ => trivial,
      fun _ _ => trivial⟩
  have hf : twiceTicked.HostsIn (fun _ => True) "flow-1" 0 twoTicks := ⟨⟨rfl, rfl, rfl⟩, trivial⟩
  have hfresh : twoTicks.fresh striking none = .ok [(.empty, [0]), (.empty, [1])] := by rfl
  have hs : striking.Stalls plainHandlers.adapters [.empty, .empty]
      (twiceTicked.fired 0 striking [(.empty, [0]), (.empty, [1])]) :=
    .template rfl List.mem_cons_self (List.mem_cons_of_mem _ List.mem_cons_self)
      (.object List.mem_cons_self .symbol) (.inl rfl)
  obtain ⟨fault, staged, hprepared, -, habstains⟩ := evaluate_abstains hc hf hfresh hs
  obtain rfl : .unbound "$at" [] = fault := Except.error.inj (congrArg Prod.fst hprepared)
  obtain ⟨_, engine', rfl, -, hrun, hhosts, -⟩ := habstains rfl
  exact ⟨engine', hrun plainHandlers.perform, hhosts⟩

end Engine

end HerdBook
