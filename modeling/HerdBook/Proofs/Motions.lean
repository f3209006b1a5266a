import HerdBook.Proofs.Upkeep

/-!
# Relations that rounds move along

A relation between engines that is respected by all the steps that a round is put together from is
respected by every part of it: to be related to the engine that one began with is a property that is
kept (`Engine.Upheld`).

* `Program.Places`, `Host.Places`: what programs and hosts ask an engine for is restricted.
* `Engine.IsRoutine`: relations that the steps respect that are no actions.
* `Engine.Follows`: the handlers respect the relation as well.

## Main results

* `Engine.Follows.moves_evaluateAll`, `Engine.Follows.moves_drainLoop`: evaluating all rules, and
  working a queue off.
* `Engine.Follows.moves_answerWith`, `Engine.IsRoutine.moves_program`: what an engine is asked, and
  the programs that ask.
-/

namespace HerdBook

open Effect

variable {ω κ α β : Type}

/-- A program that places no calls but those that may be. -/
inductive Program.Places (may : EngineCall κ → Prop) : Program ω κ α → Prop where
  | done (outcome : Except Fault α) : Places may (.done outcome)
  | read {next : ω → Program ω κ α} (each : ∀ world, Places may (next world)) :
      Places may (.read next)
  | write {world : ω} {next : Program ω κ α} (rest : Places may next) :
      Places may (.write world next)
  | note {n : Note} {next : Program ω κ α} (rest : Places may next) : Places may (.note n next)
  | request {call : EngineCall κ} {next : Except Fault call.Answer → Program ω κ α}
      (allowed : may call) (each : ∀ reply, Places may (next reply)) :
      Places may (.request call next)

/-- Where all calls may be placed, every program is such a one. -/
theorem Program.places_of_forall {may : EngineCall κ → Prop} (h : ∀ call, may call)
    (program : Program ω κ α) : program.Places may := by
  induction program with
  | done outcome => exact .done outcome
  | read next ih => exact .read ih
  | write world next ih => exact .write ih
  | note n next ih => exact .note ih
  | request call next ih => exact .request (h call) ih

/-- A host whose concepts and adapters place no calls but those that may be. -/
structure Host.Places (may : EngineCall κ → Prop) (host : Host ω κ) : Prop where
  perform : ∀ concept action args, (host.perform concept action args).Places may
  query : ∀ concept name args, (host.query concept name args).Places may
  adapt : ∀ adapter args, (host.adapt adapter args).Places may

/-- Where all calls may be placed, every host is such a one. -/
theorem Host.places_of_forall {may : EngineCall κ → Prop} (h : ∀ call, may call)
    (host : Host ω κ) : host.Places may :=
  ⟨fun _ _ _ => Program.places_of_forall h _, fun _ _ _ => Program.places_of_forall h _,
    fun _ _ => Program.places_of_forall h _⟩

/-- Calls that begin a round. -/
def EngineCall.BeginsRound : EngineCall κ → Prop
  | .invoke _ _ _ _ => True
  | .reevaluate _ => True
  | _ => False

namespace Engine

/-- The engine with another world and another journal. -/
structure Aside (engine engine' : Engine ω κ) : Prop where
  rules : engine'.rules = engine.rules
  terminals : engine'.terminals = engine.terminals
  maxFlowEvents : engine'.maxFlowEvents = engine.maxFlowEvents
  maxRetained : engine'.maxRetained = engine.maxRetained
  retained : engine'.retained = engine.retained
  states : engine'.states = engine.states
  started : engine'.started = engine.started

end Engine

/-- Handlers that use nothing of the engine but the world and the journal. -/
structure Handlers.StayAside (handlers : Handlers ω κ) : Prop where
  perform : ∀ concept action input engine,
    Engine.Aside engine ((handlers.perform concept action input).run engine).2
  adapt : ∀ adapter args engine, Engine.Aside engine ((handlers.adapt adapter args).run engine).2

namespace Engine

/-- The relation is respected by the steps of evaluating rules that are no actions. -/
structure IsRoutine (R : Engine ω κ → Engine ω κ → Prop) : Prop extends IsPreorder _ R where
  aside : ∀ {engine engine' : Engine ω κ}, engine.Aside engine' → R engine engine'
  books : ∀ (serial : Nat) {f : Flow → Flow}, Flow.Bookkeeps f → Moves R (update serial f)

/-- The handlers respect the relation, and so do the actions that rules ask them for. -/
structure Follows (R : Engine ω κ → Engine ω κ → Prop) (handlers : Handlers ω κ) : Prop
    extends IsRoutine R where
  perform : ∀ concept action input id, Moves R (Engine.perform handlers concept action input id)
  adapt : ∀ adapter args, Moves R (handlers.adapt adapter args)

section Routine

variable {R : Engine ω κ → Engine ω κ → Prop} {handlers : Handlers ω κ} {serial : Nat}
  (h : IsRoutine R)

include h

/-- What leaves the flows alone. -/
theorem IsRoutine.moves_aside {act : Effect (Engine ω κ) α}
    (ha : ∀ engine, Aside engine (act.run engine).2) : Moves R act :=
  fun engine => h.aside (ha engine)

/-- A line that is written. -/
theorem IsRoutine.moves_note (n : Note) : Moves R (note n) :=
  h.moves_aside fun _ => ⟨rfl, rfl, rfl, rfl, rfl, rfl, rfl⟩

/-- The engine is read. -/
theorem IsRoutine.moves_get : Moves R get :=
  h.moves_aside fun _ => ⟨rfl, rfl, rfl, rfl, rfl, rfl, rfl⟩

/-- The state with a number is read. -/
theorem IsRoutine.moves_state : Moves R (state serial) :=
  h.moves_aside fun _ => ⟨rfl, rfl, rfl, rfl, rfl, rfl, rfl⟩

/-- The number that an id leads to is read. -/
theorem IsRoutine.moves_serial (id : String) : Moves R (Engine.serial id) := by
  have := h.toIsPreorder
  refine Moves.bind h.moves_get fun engine => ?_
  split
  · exact Moves.pure _
  · exact Moves.throw _

/-- Asking for a concept. -/
theorem IsRoutine.moves_requireConcept (concept : String) :
    Moves R (requireConcept handlers concept) := by
  have := h.toIsPreorder
  refine Moves.bind h.moves_get fun engine => ?_
  split
  · exact Moves.throw _
  · exact Moves.pure _

/-- Asking for room. -/
theorem IsRoutine.moves_requireRoom (id : String) : Moves R (requireRoom id serial) := by
  have := h.toIsPreorder
  refine Moves.bind h.moves_get fun engine => Moves.bind h.moves_state fun flow => ?_
  split
  · exact Moves.throw _
  · split
    · exact Moves.throw _
    · exact Moves.pure _

/-- To be related to an engine is a property that is kept. -/
theorem IsRoutine.isUpheld (engine : Engine ω κ) : IsUpheld (R engine) fun _ => True := by
  have := h.toIsPreorder
  exact ⟨fun _ he => IsTrans.trans _ _ _ he (h.aside ⟨rfl, rfl, rfl, rfl, rfl, rfl, rfl⟩),
    fun _ hf he => IsTrans.trans _ _ _ he (h.books _ hf _)⟩

/-- Asking whether an action may be carried out. -/
theorem IsRoutine.moves_permits (template : ActionTemplate) (args : Value) :
    Moves R (permits serial template args) := by
  have := h.toIsPreorder
  exact Moves.iff_keeps.mpr fun engine => (h.isUpheld engine).permits trivial template args

/-- Adding a rule, when having other rules respects the relation. -/
theorem IsRoutine.moves_registerRule
    (hrules : ∀ (engine : Engine ω κ) rules, R engine { engine with rules := rules })
    (rule : Rule κ) : Moves R (registerRule rule) := by
  have := h.toIsPreorder
  refine Moves.bind h.moves_get fun engine => ?_
  have hadd : Moves R (modify fun engine => { engine with rules := engine.rules ++ [rule] }) :=
    fun engine => hrules engine _
  split
  · exact Moves.throw_bind _ _
  · exact hadd

end Routine

section Flows

variable {R : Engine ω κ → Engine ω κ → Prop} {handlers : Handlers ω κ} {id : String}

/-- A flow that is started is opened under an id of the engine's own, and then flows are let go. -/
theorem run_startFlow (engine : Engine ω κ) :
    startFlow.run engine =
      let opened := openFlow (flowId (engine.started + 1))
        { engine with started := engine.started + 1 }
      match opened.excess with
      | none => (.error (.misuse .type), opened)
      | some excess => (.ok (flowId (engine.started + 1)),
          evict (flowId (engine.started + 1)) excess opened) := by
  have hget : ∀ e : Engine ω κ, (get : Effect (Engine ω κ) (Engine ω κ)).run e = (.ok e, e) :=
    fun _ => rfl
  unfold startFlow
  rw [run_bind_ok (hget _), run_bind_ok (run_modify ..), run_bind_ok (hget _)]
  dsimp only
  cases (openFlow (flowId (engine.started + 1))
    { engine with started := engine.started + 1 }).excess <;> rfl

/-- Starting a flow, when opening one and letting some go respect the relation. -/
theorem moves_startFlow [IsPreorder _ R]
    (hopen : ∀ engine : Engine ω κ, R engine (openFlow (flowId (engine.started + 1))
      { engine with started := engine.started + 1 }))
    (hevict : ∀ keep excess (engine : Engine ω κ), R engine (evict keep excess engine)) :
    Moves R startFlow := by
  intro engine
  rw [run_startFlow]
  dsimp only
  split
  · exact hopen engine
  · exact IsTrans.trans _ _ _ (hopen engine) (hevict _ _ _)

/-- Letting flows go respects what forgetting one respects. -/
theorem evict_of_endFlow [IsPreorder _ R]
    (hend : ∀ id (engine : Engine ω κ), R engine (endFlow id engine)) (keep : String) (excess : Nat)
    (engine : Engine ω κ) : R engine (evict keep excess engine) := by
  unfold evict
  generalize (engine.idle keep).take excess = ids
  induction ids generalizing engine with
  | nil => exact refl engine
  | cons id rest ih => exact IsTrans.trans _ _ _ (hend id engine) (ih (endFlow id engine))

/-- Finding the number of a flow, or opening it. -/
theorem IsRoutine.moves_serialOrNew (h : IsRoutine R)
    (hopen : ∀ engine : Engine ω κ, Table.get? id engine.retained = none →
      R engine (openFlow id engine)) :
    Moves R (serialOrNew id) := by
  have := h.toIsPreorder
  intro engine
  unfold serialOrNew
  rw [run_bind_ok (run_get engine)]
  cases hget : Table.get? id engine.retained with
  | some serial => exact refl engine
  | none => exact hopen engine hget

/-- Performing an action, when the handlers respect the relation, and so does what is done before
and after. -/
theorem IsRoutine.moves_perform (h : IsRoutine R) (hopen : Moves R (serialOrNew id))
    (hh : ∀ concept action input, Moves R (handlers.perform concept action input))
    (hrecord : ∀ serial concept action input output,
      Moves R (record serial concept action input output))
    (concept action : String) (input : Value) :
    Moves R (Engine.perform handlers concept action input id) := by
  have := h.toIsPreorder
  exact Moves.bind (h.moves_requireConcept concept) fun _ => Moves.bind hopen fun serial =>
    Moves.bind (h.moves_requireRoom id) fun _ => Moves.bind (Moves.ofExcept _) fun fields =>
      Moves.bind (hh concept action fields) fun output => hrecord serial _ _ _ _

/-- Handlers that stay aside respect what the steps of the engine respect. -/
theorem IsRoutine.follows (h : IsRoutine R) (hh : handlers.StayAside)
    (hopen : ∀ id (engine : Engine ω κ), Table.get? id engine.retained = none →
      R engine (openFlow id engine))
    (hrecord : ∀ serial concept action input output,
      Moves R (record serial concept action input output)) : Follows R handlers where
  toIsRoutine := h
  perform concept action input id := h.moves_perform (h.moves_serialOrNew (hopen id))
    (fun concept action input => h.moves_aside (hh.perform concept action input)) hrecord concept
    action input
  adapt adapter args := h.moves_aside (hh.adapt adapter args)

end Flows

section Programs

variable {R : Engine ω κ → Engine ω κ → Prop}
  {answer : (call : EngineCall κ) → Effect (Engine ω κ) call.Answer} {may : EngineCall κ → Prop}

/-- A program, when the answers to the calls that it places respect the relation. -/
theorem IsRoutine.moves_program (h : IsRoutine R) (ha : ∀ call, may call → Moves R (answer call))
    {program : Program ω κ α} (hp : program.Places may) : Moves R (program.run answer) := by
  have := h.toIsPreorder
  induction hp with
  | done outcome => exact Moves.ofExcept outcome
  | read _ ih => exact Moves.bind h.moves_get fun engine => ih engine.world
  | write _ ih =>
    exact Moves.bind (h.moves_aside fun _ => ⟨rfl, rfl, rfl, rfl, rfl, rfl, rfl⟩) fun _ => ih
  | note _ ih => exact Moves.bind (h.moves_note _) fun _ => ih
  | request hmay _ ih => exact Moves.bind (ha _ hmay).attempt fun reply => ih reply

/-- Any program, when all answers do. -/
theorem IsRoutine.moves_program_of_forall (h : IsRoutine R) (ha : ∀ call, Moves R (answer call))
    (program : Program ω κ α) : Moves R (program.run answer) := by
  have hall : ∀ call : EngineCall κ, True → Moves R (answer call) := fun call _ => ha call
  exact h.moves_program hall (program.places_of_forall fun _ => trivial)

end Programs

section Rounds

variable {R : Engine ω κ → Engine ω κ → Prop} {handlers : Handlers ω κ} {serial : Nat}
  (h : Follows R handlers)

include h

/-- What happens while the engine waits happens to the world. -/
theorem Follows.moves_waiting :
    Moves R handlers.waiting.before ∧ Moves R handlers.waiting.after :=
  ⟨h.moves_aside fun _ => ⟨rfl, rfl, rfl, rfl, rfl, rfl, rfl⟩,
    h.moves_aside fun _ => ⟨rfl, rfl, rfl, rfl, rfl, rfl, rfl⟩⟩

/-- To be related to an engine is a property that rounds keep. -/
theorem Follows.upheld (engine : Engine ω κ) :
    Upheld (R engine) (fun _ => True) (fun _ => True) (fun _ => True) handlers := by
  have := h.toIsPreorder
  exact {
    toIsUpheld := h.isUpheld engine
    called := fun _ _ => trivial
    rules := fun _ _ _ => trivial
    perform := fun concept action input id _ =>
      Moves.iff_keeps.mp (h.perform concept action input id) engine
    adapt := fun _ _ args => Moves.iff_keeps.mp (h.adapt _ args) engine
    before := Moves.iff_keeps.mp h.moves_waiting.1 engine
    after := Moves.iff_keeps.mp h.moves_waiting.2 engine }

/-- Carrying out the actions of a frame. -/
theorem Follows.moves_dispatch (calls : List Dispatch) :
    Moves R (dispatch handlers serial calls) := by
  have := h.toIsPreorder
  exact Moves.iff_keeps.mpr fun engine => (h.upheld engine).dispatch trivial calls

/-- Preparing the actions of a rule. -/
theorem Follows.moves_prepare (rule : Rule κ) (frames : List Frame) :
    Moves R (prepare handlers rule frames) := by
  have := h.toIsPreorder
  exact Moves.iff_keeps.mpr fun engine => (h.upheld engine).prepare trivial frames

/-- Evaluating a rule. -/
theorem Follows.moves_evaluate (trigger : Option Nat) (rule : Rule κ) :
    Moves R (evaluate handlers serial trigger rule) := by
  have := h.toIsPreorder
  exact Moves.iff_keeps.mpr fun engine => (h.upheld engine).evaluate trivial trivial trigger

/-- Evaluating rules in order. -/
theorem Follows.moves_evaluateEach (trigger : Option Nat) (rules : List (Rule κ)) :
    Moves R (evaluateEach handlers serial trigger rules) := by
  have := h.toIsPreorder
  exact Moves.iff_keeps.mpr fun engine =>
    (h.upheld engine).evaluateEach trivial trigger fun _ _ => trivial

/-- Evaluating all rules. -/
theorem Follows.moves_evaluateAll (trigger : Option Nat) :
    Moves R (evaluateAll handlers serial trigger) := by
  have := h.toIsPreorder
  exact Moves.iff_keeps.mpr fun engine => (h.upheld engine).evaluateAll trivial trigger

/-- Working a queue off, when taking an event off it respects the relation. -/
theorem Follows.moves_drainLoop (hdequeue : Moves R (dequeue serial)) (n : Nat) :
    Moves R (drainLoop handlers serial n) := by
  have := h.toIsPreorder
  exact Moves.iff_keeps.mpr fun engine =>
    (h.upheld engine).drainLoop trivial (Moves.iff_keeps.mp hdequeue engine) n

/-- A round that begins with an action, when starting a flow and working on one respect the
relation. -/
theorem Follows.moves_invoke (hstart : Moves R startFlow)
    (hdrain : ∀ id, Moves R (drain handlers id)) (concept action : String) (input : Value)
    (flow : Option String) :
    Moves R (invoke handlers concept action input flow) := by
  have := h.toIsPreorder
  have hrest : ∀ id, Moves R (Engine.perform handlers concept action input id >>= fun event =>
      drain handlers id >>= fun _ => pure event) :=
    fun id => Moves.bind (h.perform concept action input id) fun event =>
      Moves.bind (hdrain id) fun _ => Moves.pure event
  cases flow with
  | some id => exact hrest id
  | none => exact Moves.bind hstart hrest

/-- A round that evaluates the rules again. -/
theorem Follows.moves_reevaluate (hdrain : ∀ id, Moves R (drain handlers id)) (id : String) :
    Moves R (reevaluate handlers id) := by
  have := h.toIsPreorder
  exact Moves.bind (h.moves_serial id) fun serial =>
    Moves.bind (h.moves_evaluateAll none) fun _ => hdrain id

end Rounds

section Answers

variable {R : Engine ω κ → Engine ω κ → Prop} {host : Host ω κ}
  {inner : (call : EngineCall κ) → Effect (Engine ω κ) call.Answer} {depth : Nat}

/-- What the engine of a host answers where no round is begun, when the programs that it runs
respect the relation. Other rules and responses, and starting and ending flows, have to be seen to
where they are asked for. -/
theorem IsRoutine.moves_answerWith (h : IsRoutine R)
    (hperform : ∀ concept action args, Moves R ((host.perform concept action args).run inner))
    (hquery : ∀ concept name args, Moves R ((host.query concept name args).run inner))
    (hstart : Moves R startFlow)
    (hset : ∀ (engine : Engine ω κ) rules terminals,
      R engine { engine with rules := rules, terminals := terminals })
    (call : EngineCall κ) (hround : ¬ call.BeginsRound)
    (hend : ∀ id, call = .endFlow id → ∀ engine, R engine (endFlow id engine)) :
    Moves R (answerWith host inner depth call) := by
  have := h.toIsPreorder
  have hflow : ∀ id, Moves R (Engine.flow id) :=
    fun id => Moves.bind (h.moves_serial id) fun _ => h.moves_state
  cases call with
  | invoke concept action input flow => exact absurd trivial hround
  | reevaluate flow => exact absurd trivial hround
  | call concept action args =>
    exact Moves.bind (h.moves_requireConcept concept) fun _ => hperform concept action args
  | query concept name args =>
    exact Moves.bind (h.moves_requireConcept concept) fun _ => hquery concept name args
  | startFlow => exact hstart
  | endFlow flow => exact hend flow rfl
  | log flow => exact Moves.bind (hflow flow) fun _ => Moves.pure _
  | faults flow => exact Moves.bind (hflow flow) fun _ => Moves.pure _
  | flows => exact Moves.bind h.moves_get fun _ => Moves.pure _
  | rules => exact Moves.bind h.moves_get fun _ => Moves.pure _
  | registerRule rule =>
    exact Moves.bind (Moves.ofExcept _) fun _ => h.moves_registerRule (fun _ _ => hset _ _ _) _
  | registerTerminal concept action key => exact fun engine => hset engine _ _

/-- So does what it answers where a round is begun, when rounds respect the relation as well. -/
theorem Follows.moves_answerWith (h : Follows R (host.handlers inner depth))
    (hperform : ∀ concept action args, Moves R ((host.perform concept action args).run inner))
    (hquery : ∀ concept name args, Moves R ((host.query concept name args).run inner))
    (hstart : Moves R startFlow)
    (hset : ∀ (engine : Engine ω κ) rules terminals,
      R engine { engine with rules := rules, terminals := terminals })
    (hdrain : ∀ id, Moves R (drain (host.handlers inner depth) id)) (call : EngineCall κ)
    (hend : ∀ id, call = .endFlow id → ∀ engine, R engine (endFlow id engine)) :
    Moves R (answerWith host inner depth call) := by
  by_cases hround : call.BeginsRound
  · cases call with
    | invoke concept action input flow =>
      exact h.moves_invoke hstart hdrain concept action input flow
    | reevaluate flow => exact h.moves_reevaluate hdrain flow
    | _ => exact hround.elim
  · exact h.toIsRoutine.moves_answerWith hperform hquery hstart hset call hround hend

end Answers

end Engine

end HerdBook
