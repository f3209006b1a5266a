import HerdBook.Engine.Answer
import HerdBook.Proofs.Outcomes

/-!
# Watching an engine

What an engine does cannot be told from the state that it leaves: an action that a rule began may
have failed, and nothing is kept of the frames that the stages of a rule left. So the engine is run
once more with somebody who writes down, in order, what happens (`Incident`). The watched engine
goes through the rounds step by step like the plain one; what is not noticed is done by the plain
one (`Watched.quietly`).

Watching changes nothing: a watched run ends in the outcome of the plain one and leaves the same
engine (`Watched.Erases`). So what is proved of the incidents of a watched run holds of the run
itself.

## Main results

* `Watcher.Erases.invoke`, `Watcher.Erases.reevaluate`: rounds are not changed by being watched.
* `Watched.erases_answer`, `Watched.Erases.program`: nor are the answers of a host's engine, to
  whatever depth they nest, and the programs that ask for them.
-/

namespace HerdBook

open Effect

/-- What is noticed of an engine at work; the numbers are those of the states that it works on. -/
inductive Incident (κ : Type) where
  /-- Combinations are handed to the stages of a rule. -/
  | handed (serial : Nat) (rule : Rule κ) (found : List Combination)
  /-- The stages of a rule are through with combinations and leave frames for its actions. -/
  | staged (serial : Nat) (rule : Rule κ) (found : List Combination) (kept : List Frame)
  /-- An action of a rule is begun. -/
  | attempt (serial : Nat) (concept action : String) (args : Value)
  /-- An action is completed and recorded, one that the round began with or one of a rule. -/
  | performed (serial : Nat) (direct : Bool) (event : Event)
  /-- An action is registered as a response. -/
  | registration (concept action : String) (key : Value)

/-- An engine and what was noticed of it so far. -/
abbrev Watched (ω κ : Type) := Engine ω κ × List (Incident κ)

variable {ω κ α β : Type}

namespace Watched

/-- What the engine does without anything being noticed. -/
def quietly (act : Effect (Engine ω κ) α) : Effect (Watched ω κ) α :=
  Effect.focus Prod.fst (fun engine watched => (engine, watched.2)) act

/-- Writes an incident down. -/
def notice (incident : Incident κ) : Effect (Watched ω κ) Unit :=
  modify fun watched => (watched.1, watched.2 ++ [incident])

/-- The engine as it is. -/
def engine : Effect (Watched ω κ) (Engine ω κ) := quietly get

/-- A quiet step is one of the engine. -/
@[simp] theorem run_quietly (act : Effect (Engine ω κ) α) (watched : Watched ω κ) :
    (quietly act).run watched
      = ((act.run watched.1).1, (act.run watched.1).2, watched.2) := rfl

/-- Reading the engine changes nothing. -/
theorem run_engine (watched : Watched ω κ) : engine.run watched = (.ok watched.1, watched) := rfl

end Watched

open Watched

/-! ### The watched rounds -/

/-- An engine's handlers, together with what acting and calling an adapter come to when they are
watched too. -/
structure Watcher (ω κ : Type) where
  handlers : Handlers ω κ
  act : String → String → Fields → Effect (Watched ω κ) Value
  adapt : κ → Value → Effect (Watched ω κ) Value

namespace Watcher

variable (watcher : Watcher ω κ)

/-- What happens while a watched engine waits. -/
def waiting : Effect.Wait (Watched ω κ) :=
  ⟨quietly watcher.handlers.waiting.before, quietly watcher.handlers.waiting.after⟩

/-- The adapters of a watched engine. -/
def adapters : Adapters (Watched ω κ) κ :=
  ⟨watcher.handlers.adapterName, watcher.adapt, watcher.waiting⟩

/-- Records a completed action in a flow. -/
def record (serial : Nat) (direct : Bool) (concept action : String) (input : Fields)
    (output : Value) : Effect (Watched ω κ) Event := do
  let event ← quietly (Engine.record serial concept action input output)
  notice (.performed serial direct event)
  return event

/-- Performs an action, one that a round begins with or one of a rule, and records it in the flow
with the number. -/
def performIn (direct : Bool) (concept action : String) (input : Value) (id : String)
    (serial : Nat) : Effect (Watched ω κ) Event := do
  quietly (Engine.requireRoom id serial)
  let input ← Effect.ofExcept (input.toFields.mapError Fault.misuse)
  let output ← watcher.act concept action input
  record serial direct concept action input output

/-- The same for the flow with the id. -/
def perform (direct : Bool) (concept action : String) (input : Value) (id : String) :
    Effect (Watched ω κ) Event := do
  quietly (Engine.requireConcept watcher.handlers concept)
  let serial ← quietly (Engine.serialOrNew id)
  performIn watcher direct concept action input id serial

/-- Carries out the actions of one frame, in order. Each one that is permitted is noticed before
anything is done about it. -/
def dispatch (serial : Nat) : List Dispatch → Effect (Watched ω κ) Unit
  | [] => pure ()
  | (template, args) :: rest => do
    if ← quietly (Engine.permits serial template args) then
      let id := (← quietly (Engine.state serial)).id
      notice (.attempt serial template.concept template.action args)
      match ← Effect.attempt (perform watcher false template.concept template.action args id) with
      | .ok _ => pure ()
      | .error fault => throw (fault.wrappedBy .action template.name)
    dispatch serial rest

/-- The actions that the stages and templates of a rule make of the combinations. What the stages
leave is noticed. -/
def prepare (serial : Nat) (rule : Rule κ) (found : List Combination) :
    Effect (Watched ω κ) (List (List Dispatch)) := do
  let prepared := do
    let kept ← Stage.applyAll watcher.adapters rule.stages (found.map (·.1))
    notice (.staged serial rule found kept)
    Effect.ofExcept (rule.dispatches kept)
  match ← Effect.attempt prepared with
  | .ok calls => return calls
  | .error fault => throw (fault.wrappedBy .stage rule.name)

/-- Carries a rule out for the combinations. -/
def carryOut (serial : Nat) (rule : Rule κ) (found : List Combination) :
    Effect (Watched ω κ) Unit := do
  let calls ← prepare watcher serial rule found
  let _ ← Effect.gather watcher.waiting (dispatch watcher serial) calls

/-- Marks the combinations as fired and hands them to the stages of the rule. -/
def hand (serial : Nat) (rule : Rule κ) (found : List Combination) :
    Effect (Watched ω κ) Unit := do
  quietly (Engine.update serial fun flow => flow.fire rule found)
  quietly (Engine.note
    (.engine .debug s!"sync {rule.name} matched {found.length} frame(s)"))
  notice (.handed serial rule found)

/-- A rule to which combinations are handed has fired for them. -/
theorem run_hand {serial : Nat} {rule : Rule κ} {found : List Combination} (engine : Engine ω κ)
    (seen : List (Incident κ)) :
    (hand serial rule found).run (engine, seen)
      = (.ok (), { (engine.change serial fun flow => flow.fire rule found) with
          journal := engine.journal.push
            (.engine .debug s!"sync {rule.name} matched {found.length} frame(s)") },
          seen ++ [.handed serial rule found]) := rfl

/-- Evaluates a rule on a flow. -/
def evaluate (serial : Nat) (trigger : Option Nat) (rule : Rule κ) :
    Effect (Watched ω κ) Unit := do
  let flow ← quietly (Engine.state serial)
  let fresh ← Effect.ofExcept ((flow.fresh rule trigger).mapError Fault.misuse)
  if fresh.isEmpty then return
  hand serial rule fresh
  match ← Effect.attempt (carryOut watcher serial rule fresh) with
  | .ok () => return
  | .error fault =>
    if fault.abortsRule then quietly (Engine.recordFault serial rule fault) else throw fault

/-- Evaluates the rules in order. -/
def evaluateEach (serial : Nat) (trigger : Option Nat) :
    List (Rule κ) → Effect (Watched ω κ) Unit
  | [] => pure ()
  | rule :: rest => do
    evaluate watcher serial trigger rule
    evaluateEach serial trigger rest

/-- Evaluates the rules from the given place on, then those added meanwhile, and so on for the
given number of times. -/
def evaluateFrom (serial : Nat) (trigger : Option Nat) : Nat → Nat → Effect (Watched ω κ) Unit
  | 0, _ => throw (.misuse .nesting)
  | times + 1, place => do
    let rules := (← engine).rules.drop place
    if rules.isEmpty then return
    evaluateEach watcher serial trigger rules
    evaluateFrom serial trigger times (place + rules.length)

/-- Evaluates every rule. -/
def evaluateAll (serial : Nat) (trigger : Option Nat) : Effect (Watched ω κ) Unit :=
  evaluateFrom watcher serial trigger (watcher.handlers.reentries + 2) 0

/-- Evaluates the rules for the events of the queue, at most the given number of them. -/
def drainLoop (serial : Nat) : Nat → Effect (Watched ω κ) Unit
  | 0 => do
    match ← quietly (Engine.dequeue serial) with
    | none => return
    | some _ => throw (.misuse .nesting)
  | n + 1 => do
    match ← quietly (Engine.dequeue serial) with
    | none => return
    | some event =>
      evaluateAll watcher serial (some event.number)
      drainLoop serial n

/-- Evaluates the rules until the queue of the flow is empty, unless that is being done. -/
def drain (id : String) : Effect (Watched ω κ) Unit := do
  let serial ← quietly (Engine.serial id)
  if (← quietly (Engine.state serial)).draining then return
  quietly (Engine.update serial fun flow => { flow with draining := true })
  let n := Engine.remaining watcher.handlers (← engine) serial
  Effect.ensuring (drainLoop watcher serial n) fun watched =>
    (watched.1.change serial fun flow => { flow with draining := false }, watched.2)

/-- Performs an action in a flow, a new one if none is named, and works on the flow. -/
def invoke (concept action : String) (input : Value) (flow : Option String) :
    Effect (Watched ω κ) Event := do
  let id ← match flow with
    | some id => pure id
    | none => quietly Engine.startFlow
  let event ← perform watcher true concept action input id
  drain watcher id
  return event

/-- Evaluates every rule on the whole log of a flow and works on the flow. -/
def reevaluate (id : String) : Effect (Watched ω κ) Unit := do
  let serial ← quietly (Engine.serial id)
  evaluateAll watcher serial none
  drain watcher id

end Watcher

/-! ### Watched programs -/

/-- Carries a program out on a watched engine, given how the engine answers. -/
def Program.watched (answer : (call : EngineCall κ) → Effect (Watched ω κ) call.Answer) :
    Program ω κ α → Effect (Watched ω κ) α
  | .done outcome => Effect.ofExcept outcome
  | .read next => do watched answer (next (← engine).world)
  | .write world next => do
    quietly (modify fun engine => { engine with world := world })
    watched answer next
  | .note n next => do
    quietly (Engine.note n)
    watched answer next
  | .request call next => do watched answer (next (← Effect.attempt (answer call)))

namespace Watched

/-- The watcher of an engine whose programs' calls are answered as given, when they are not watched
and when they are. -/
def watcher (host : Host ω κ) (plain : (call : EngineCall κ) → Effect (Engine ω κ) call.Answer)
    (inner : (call : EngineCall κ) → Effect (Watched ω κ) call.Answer) (depth : Nat) :
    Watcher ω κ where
  handlers := host.handlers plain depth
  act concept action input := (host.perform concept action (.object input)).watched inner
  adapt adapter args := (host.adapt adapter args).watched inner

/-- How a watched engine answers a call, given how the calls that are placed meanwhile are
answered. -/
def answerWith (host : Host ω κ) (plain : (call : EngineCall κ) → Effect (Engine ω κ) call.Answer)
    (inner : (call : EngineCall κ) → Effect (Watched ω κ) call.Answer) (depth : Nat) :
    (call : EngineCall κ) → Effect (Watched ω κ) call.Answer
  | .invoke concept action input flow =>
    (watcher host plain inner depth).invoke concept action input flow
  | .reevaluate flow => (watcher host plain inner depth).reevaluate flow
  | .call concept action args => do
    quietly (Engine.requireConcept (host.handlers plain depth) concept)
    (host.perform concept action args).watched inner
  | .query concept name args => do
    quietly (Engine.requireConcept (host.handlers plain depth) concept)
    (host.query concept name args).watched inner
  | .startFlow => quietly Engine.startFlow
  | .endFlow flow => quietly (modify (Engine.endFlow flow))
  | .log flow => quietly (do return (← Engine.flow flow).log)
  | .faults flow => quietly (do return (← Engine.flow flow).faults)
  | .flows => quietly (do return (← get).flowIds)
  | .rules => quietly (do return (← get).rules.map Rule.name)
  | .registerRule rule =>
    quietly (do Engine.registerRule (← Effect.ofExcept rule.checked))
  | .registerTerminal concept action key => do
    notice (.registration concept action key)
    quietly (modify (Engine.registerTerminal concept action key))

/-- How a watched engine answers a call when calls may nest to the given depth. -/
def answer (host : Host ω κ) : Nat → (call : EngineCall κ) → Effect (Watched ω κ) call.Answer
  | 0, _ => throw (.misuse .nesting)
  | depth + 1, call => answerWith host (Engine.answer host depth) (answer host depth) depth call

/-! ### Watching changes nothing -/

/-- The watched computation does what the plain one does, whatever was noticed before. -/
def Erases (watched : Effect (Watched ω κ) α) (act : Effect (Engine ω κ) α) : Prop :=
  ∀ engine seen, act.run engine = ((watched.run (engine, seen)).1, (watched.run (engine, seen)).2.1)

namespace Erases

variable {act' : Effect (Watched ω κ) α} {act : Effect (Engine ω κ) α}
  {next' : α → Effect (Watched ω κ) β} {next : α → Effect (Engine ω κ) β}

/-- What is done quietly is what the engine does. -/
theorem quietly (act : Effect (Engine ω κ) α) : Erases (Watched.quietly act) act :=
  fun _ _ => rfl

/-- An outcome is the same to everybody. -/
theorem ofExcept (outcome : Except Fault α) :
    Erases (ω := ω) (κ := κ) (Effect.ofExcept outcome) (Effect.ofExcept outcome) :=
  fun _ _ => rfl

/-- So is a result. -/
theorem pure (a : α) : Erases (ω := ω) (κ := κ) (Pure.pure a) (Pure.pure a) := fun _ _ => rfl

/-- So is a fault. -/
theorem throw (fault : Fault) :
    Erases (ω := ω) (κ := κ) (α := α) (MonadExcept.throw fault) (MonadExcept.throw fault) :=
  fun _ _ => rfl

/-- A sequence is watched part by part. -/
theorem bind (h : Erases act' act) (hn : ∀ a, Erases (next' a) (next a)) :
    Erases (act' >>= next') (act >>= next) := by
  intro engine seen
  rw [run_bind, run_bind, h engine seen]
  rcases act'.run (engine, seen) with ⟨_ | a, engine₁, seen₁⟩
  · rfl
  · exact hn a engine₁ seen₁

/-- What is noticed is nothing to the engine. -/
theorem notice_bind {incident : Incident κ} {rest' : Effect (Watched ω κ) β}
    {rest : Effect (Engine ω κ) β} (h : Erases rest' rest) :
    Erases (notice incident >>= fun _ => rest') rest :=
  fun engine seen => h engine (seen ++ [incident])

/-- What is read of a watched engine is read of the engine. -/
theorem engine_bind {next' : Engine ω κ → Effect (Watched ω κ) β}
    {next : Engine ω κ → Effect (Engine ω κ) β}
    (h : ∀ engine, Erases (next' engine) (next engine)) :
    Erases (engine >>= next') (get >>= next) := bind (quietly get) h

/-- A fault that is turned into a value. -/
theorem attempt (h : Erases act' act) : Erases (Effect.attempt act') (Effect.attempt act) := by
  intro engine seen
  rw [run_attempt, run_attempt, h engine seen]

/-- A list of computations. -/
theorem attemptAll {each' : β → Effect (Watched ω κ) α} {each : β → Effect (Engine ω κ) α}
    (h : ∀ b, Erases (each' b) (each b)) (items : List β) :
    Erases (Effect.attemptAll each' items) (Effect.attemptAll each items) := by
  induction items with
  | nil => exact pure []
  | cons b bs ih => exact bind (h b).attempt fun _ => bind ih fun _ => pure _

/-- A wait for computations. -/
theorem gather {wait' : Wait (Watched ω κ)} {wait : Wait (Engine ω κ)}
    (hb : Erases wait'.before wait.before) (ha : Erases wait'.after wait.after)
    {each' : β → Effect (Watched ω κ) α} {each : β → Effect (Engine ω κ) α}
    (h : ∀ b, Erases (each' b) (each b)) (items : List β) :
    Erases (Effect.gather wait' each' items) (Effect.gather wait each items) := by
  unfold Effect.gather
  split
  · exact pure []
  · exact bind hb fun _ => bind (attemptAll h items) fun _ => bind ha fun _ => ofExcept _

/-- The stages of a rule, when their adapters are watched. -/
theorem applyAll {adapters' : Adapters (Watched ω κ) κ} {adapters : Adapters (Engine ω κ) κ}
    (hname : adapters'.name = adapters.name)
    (hcall : ∀ adapter args, Erases (adapters'.call adapter args) (adapters.call adapter args))
    (hb : Erases adapters'.wait.before adapters.wait.before)
    (ha : Erases adapters'.wait.after adapters.wait.after) (stages : List (Stage κ))
    (frames : List Frame) :
    Erases (Stage.applyAll adapters' stages frames) (Stage.applyAll adapters stages frames) := by
  have hjoin : ∀ adapter inputs outputs frame,
      Erases (Stage.joinRows adapters' adapter inputs outputs frame)
        (Stage.joinRows adapters adapter inputs outputs frame) := by
    intro adapter inputs outputs frame
    refine bind (ofExcept _) fun args => bind ?_ fun rows => ofExcept _
    unfold Stage.callAdapter
    refine bind (hcall adapter args).attempt fun outcome => ?_
    rw [hname]
    cases outcome with
    | ok answer => exact ofExcept _
    | error fault => exact throw _
  induction stages generalizing frames with
  | nil => exact pure _
  | cons stage rest ih =>
    unfold Stage.applyAll
    split
    · exact pure _
    · refine bind ?_ fun kept => ih kept
      cases stage with
      | filter test => exact ofExcept _
      | map change => exact ofExcept _
      | query adapter inputs outputs =>
        exact bind (gather hb ha (hjoin adapter inputs outputs) frames) fun _ => pure _

end Erases

end Watched

/-- Handing combinations to a rule is firing it and writing a line. -/
theorem Watched.Erases.hand_bind {serial : Nat} {rule : Rule κ} {found : List Combination}
    {rest' : Effect (Watched ω κ) β} {rest : Effect (Engine ω κ) β} (h : Erases rest' rest) :
    Erases (Watcher.hand serial rule found >>= fun _ => rest')
      (Engine.update serial (fun flow => flow.fire rule found) >>= fun _ =>
        Engine.note (.engine .debug s!"sync {rule.name} matched {found.length} frame(s)") >>=
          fun _ => rest) := by
  intro engine seen
  rw [run_bind_ok (Watcher.run_hand engine seen)]
  exact h _ _

namespace Watcher

/-- Acting and calling an adapter are not changed by being watched. -/
structure Erases (watcher : Watcher ω κ) : Prop where
  act : ∀ concept action input, Watched.Erases (watcher.act concept action input)
    (watcher.handlers.perform concept action input)
  adapt : ∀ adapter args,
    Watched.Erases (watcher.adapt adapter args) (watcher.handlers.adapt adapter args)

namespace Erases

variable {watcher : Watcher ω κ} (h : watcher.Erases) (serial : Nat)

include h

/-- Performing an action. -/
theorem perform (direct : Bool) (concept action : String) (input : Value) (id : String) :
    Watched.Erases (watcher.perform direct concept action input id)
      (Engine.perform watcher.handlers concept action input id) := by
  refine .bind (.quietly _) fun _ => .bind (.quietly _) fun serial => .bind (.quietly _) fun _ => ?_
  refine .bind (.ofExcept _) fun input => .bind (h.act concept action input) fun output => ?_
  exact fun engine seen => rfl

/-- Carrying out the actions of a frame. -/
theorem dispatch (calls : List Dispatch) :
    Watched.Erases (watcher.dispatch serial calls)
      (Engine.dispatch watcher.handlers serial calls) := by
  induction calls with
  | nil => exact .pure ()
  | cons call rest ih =>
    obtain ⟨template, args⟩ := call
    unfold Watcher.dispatch Engine.dispatch
    refine .bind (.quietly _) fun permitted => ?_
    cases permitted with
    | false => exact ih
    | true =>
      refine .bind (.quietly _) fun flow => .notice_bind (.bind (h.perform _ _ _ _ _).attempt ?_)
      intro outcome
      cases outcome with
      | ok event => exact ih
      | error fault => exact .bind (.throw _) fun _ => ih

/-- Preparing the actions of a rule. -/
theorem prepare (rule : Rule κ) (found : List Combination) :
    Watched.Erases (watcher.prepare serial rule found)
      (Engine.prepare watcher.handlers rule (found.map (·.1))) := by
  have hstages : Watched.Erases
      (Stage.applyAll watcher.adapters rule.stages (found.map (·.1)))
      (Stage.applyAll watcher.handlers.adapters rule.stages (found.map (·.1))) :=
    .applyAll rfl h.adapt (.quietly _) (.quietly _) _ _
  refine .bind (.attempt (.bind hstages fun kept => .notice_bind (.ofExcept _))) fun outcome => ?_
  cases outcome with
  | ok calls => exact .pure calls
  | error fault => exact .throw _

/-- Carrying a rule out. -/
theorem carryOut (rule : Rule κ) (found : List Combination) :
    Watched.Erases (watcher.carryOut serial rule found)
      (Engine.carryOut watcher.handlers serial rule (found.map (·.1))) :=
  .bind (h.prepare serial rule found) fun calls =>
    .bind (.gather (.quietly _) (.quietly _) (h.dispatch serial) calls) fun _ => .pure ()

/-- Evaluating a rule. -/
theorem evaluate (trigger : Option Nat) (rule : Rule κ) :
    Watched.Erases (watcher.evaluate serial trigger rule)
      (Engine.evaluate watcher.handlers serial trigger rule) := by
  refine .bind (.quietly _) fun flow => .bind (.ofExcept _) fun fresh => ?_
  by_cases hempty : fresh.isEmpty = true
  · simp only [if_pos hempty]
    exact .pure ()
  · simp only [if_neg hempty]
    refine .hand_bind (.bind (h.carryOut serial rule fresh).attempt fun outcome => ?_)
    cases outcome with
    | ok done => exact .pure ()
    | error fault =>
      by_cases haborts : fault.abortsRule = true
      · simp only [if_pos haborts]
        exact .quietly _
      · simp only [if_neg haborts]
        exact .throw fault

/-- Evaluating rules in order. -/
theorem evaluateEach (trigger : Option Nat) (rules : List (Rule κ)) :
    Watched.Erases (watcher.evaluateEach serial trigger rules)
      (Engine.evaluateEach watcher.handlers serial trigger rules) := by
  induction rules with
  | nil => exact .pure ()
  | cons rule rest ih => exact .bind (h.evaluate serial trigger rule) fun _ => ih

/-- Evaluating the rules from a place on. -/
theorem evaluateFrom (trigger : Option Nat) (times place : Nat) :
    Watched.Erases (watcher.evaluateFrom serial trigger times place)
      (Engine.evaluateFrom watcher.handlers serial trigger times place) := by
  induction times generalizing place with
  | zero => exact .throw _
  | succ times ih =>
    refine .engine_bind fun engine => ?_
    by_cases hempty : (engine.rules.drop place).isEmpty = true
    · simp only [if_pos hempty]
      exact .pure ()
    · simp only [if_neg hempty]
      exact .bind (h.evaluateEach serial trigger _) fun _ => ih _

/-- Working a queue off. -/
theorem drainLoop (n : Nat) :
    Watched.Erases (watcher.drainLoop serial n)
      (Engine.drainLoop watcher.handlers serial n) := by
  induction n with
  | zero =>
    refine .bind (.quietly _) fun event => ?_
    cases event with
    | none => exact .pure ()
    | some event => exact .throw _
  | succ n ih =>
    refine .bind (.quietly _) fun event => ?_
    cases event with
    | none => exact .pure ()
    | some event => exact .bind (h.evaluateFrom serial _ _ 0) fun _ => ih

/-- Working on a flow. -/
theorem drain (id : String) :
    Watched.Erases (watcher.drain id) (Engine.drain watcher.handlers id) := by
  refine .bind (.quietly _) fun serial => .bind (.quietly _) fun flow => ?_
  by_cases hbusy : flow.draining = true
  · simp only [if_pos hbusy]
    exact .pure ()
  · simp only [if_neg hbusy]
    refine .bind (.quietly _) fun _ => .engine_bind fun engine => ?_
    intro engine₁ seen
    rw [run_ensuring, run_ensuring, h.drainLoop serial _ engine₁ seen]

/-- A round that begins with an action is not changed by being watched. -/
theorem invoke (concept action : String) (input : Value) (flow : Option String) :
    Watched.Erases (watcher.invoke concept action input flow)
      (Engine.invoke watcher.handlers concept action input flow) := by
  have hrest : ∀ id, Watched.Erases
      (watcher.perform true concept action input id >>= fun event => watcher.drain id >>= fun _ =>
        pure event)
      (Engine.perform watcher.handlers concept action input id >>= fun event =>
        Engine.drain watcher.handlers id >>= fun _ => pure event) :=
    fun id => .bind (h.perform true concept action input id) fun event =>
      .bind (h.drain id) fun _ => .pure event
  cases flow with
  | some id => exact hrest id
  | none => exact .bind (.quietly _) hrest

/-- Nor is one that evaluates the rules again. -/
theorem reevaluate (id : String) :
    Watched.Erases (watcher.reevaluate id) (Engine.reevaluate watcher.handlers id) :=
  .bind (.quietly _) fun serial => .bind (h.evaluateFrom serial none _ 0) fun _ => h.drain id

end Erases

end Watcher

namespace Watched

/-- A program whose calls are answered alike. -/
theorem Erases.program {answer' : (call : EngineCall κ) → Effect (Watched ω κ) call.Answer}
    {answer : (call : EngineCall κ) → Effect (Engine ω κ) call.Answer}
    (h : ∀ call, Erases (answer' call) (answer call)) (program : Program ω κ α) :
    Erases (program.watched answer') (program.run answer) := by
  induction program with
  | done outcome => exact .ofExcept outcome
  | read next ih => exact .engine_bind fun engine => ih engine.world
  | write world next ih => exact .bind (.quietly _) fun _ => ih
  | note n next ih => exact .bind (.quietly _) fun _ => ih
  | request call next ih => exact .bind (h call).attempt fun reply => ih reply

/-- An answer is not changed by being watched. -/
theorem erases_answer (host : Host ω κ) (depth : Nat) (call : EngineCall κ) :
    Erases (answer host depth call) (Engine.answer host depth call) := by
  induction depth generalizing call with
  | zero => exact .throw _
  | succ depth ih =>
    have hw : (watcher host (Engine.answer host depth) (answer host depth) depth).Erases :=
      ⟨fun _ _ _ => .program ih _, fun _ _ => .program ih _⟩
    cases call with
    | invoke concept action input flow => exact hw.invoke concept action input flow
    | reevaluate flow => exact hw.reevaluate flow
    | call concept action args => exact .bind (.quietly _) fun _ => .program ih _
    | query concept name args => exact .bind (.quietly _) fun _ => .program ih _
    | registerTerminal concept action key => exact .notice_bind (.quietly _)
    | startFlow => exact .quietly _
    | endFlow flow => exact .quietly _
    | log flow => exact .quietly _
    | faults flow => exact .quietly _
    | flows => exact .quietly _
    | rules => exact .quietly _
    | registerRule rule => exact .quietly _

end Watched

end HerdBook
