import HerdBook.Engine.Answer
import HerdBook.Proofs.Outcomes

/-!
# Properties that rounds keep

A round is put together from few kinds of steps. Some touch no flow at all; some keep books about a
rule that is carried out (it fired, a response was given, it failed); an event is taken off a queue;
and an action is performed. A property of engines that all of these keep is kept by every part of a
round, whatever the handlers do beyond it, and also when they use the engine.

Not every flow may be touched. The work on a flow goes by the number of its state, and a number is
only had from an id that is retained; so it is enough that the property is kept on the states with
certain numbers, if from a retained id one only ever comes to those (`Engine.Sustains.found`).

* `Flow.Bookkeeps`: changes of a flow that only keep books.
* `Engine.IsUpheld`: the steps that are no actions keep the property.
* `Engine.Upheld`: the handlers keep it as well.
* `Engine.Sustains`: so do finding, opening and ending flows.

## Main results

* `Engine.Upheld.evaluateAll`, `Engine.Upheld.drainLoop`: evaluating all rules, and working a queue
  off.
* `Engine.Sustains.invoke`, `Engine.Sustains.answerWith`: rounds, and whatever an engine is asked.
-/

namespace HerdBook

open Effect

variable {ω κ α β : Type}

/-- A change of a flow that leaves everything but what is noted about rules, responses and faults,
and takes no fault away. -/
structure Flow.Bookkeeps (f : Flow → Flow) : Prop where
  id : ∀ flow, (f flow).id = flow.id
  log : ∀ flow, (f flow).log = flow.log
  queue : ∀ flow, (f flow).queue = flow.queue
  draining : ∀ flow, (f flow).draining = flow.draining
  faults : ∀ flow, flow.faults <+: (f flow).faults

/-- Noting a response keeps books. -/
theorem Flow.bookkeeps_noteResponse (marker : Marker) :
    Flow.Bookkeeps fun flow => flow.noteResponse marker := by
  constructor <;>
  · intro flow
    unfold noteResponse
    split <;> simp

/-- So does a rule that fires. -/
theorem Flow.bookkeeps_fire (rule : Rule κ) (found : List Combination) :
    Flow.Bookkeeps fun flow => flow.fire rule found :=
  ⟨fun _ => rfl, fun _ => rfl, fun _ => rfl, fun _ => rfl, fun _ => List.prefix_refl _⟩

/-- So does a fault that is added. -/
theorem Flow.bookkeeps_addFault (rule : String) (fault : Fault) :
    Flow.Bookkeeps fun flow => flow.addFault rule fault :=
  ⟨fun _ => rfl, fun _ => rfl, fun _ => rfl, fun _ => rfl, fun _ => List.prefix_append _ _⟩

namespace Engine

variable {P : Engine ω κ → Prop} {ours : Nat → Prop} {named : String → Prop}
  {fits : Rule κ → Prop} {handlers : Handlers ω κ} {serial : Nat} {id : String}

/-! ### Steps that are no actions -/

/-- The property is kept by the steps of evaluating rules that are no actions, on the states with
numbers of ours. -/
structure IsUpheld (P : Engine ω κ → Prop) (ours : Nat → Prop) : Prop where
  journal : ∀ {engine : Engine ω κ} (journal : Array Note), P engine →
    P { engine with journal := journal }
  books : ∀ {engine : Engine ω κ} {serial : Nat} {f : Flow → Flow}, ours serial →
    Flow.Bookkeeps f → P engine → P (engine.change serial f)

/-- What is read of a state is said by the property. -/
theorem upholds_state {Q : Flow → Prop}
    (hQ : ∀ engine : Engine ω κ, P engine → Q ((engine.states[serial]?).getD default)) :
    Upholds P (state serial) Q :=
  fun engine he => ⟨he, fun _ ha => Except.ok.inj ha ▸ hQ engine he⟩

/-- A state is read. -/
theorem keeps_state : Keeps P (state serial) := upholds_state fun _ _ => trivial

/-- The number that an id leads to is one of those that the retained ids stand for. -/
theorem upholds_serial {Q : Nat → Prop}
    (hQ : ∀ (engine : Engine ω κ) n, P engine → Table.get? id engine.retained = some n → Q n) :
    Upholds P (Engine.serial id) Q := by
  intro engine he
  unfold Engine.serial
  rw [run_bind_ok (run_get engine)]
  cases hget : Table.get? id engine.retained with
  | none => exact ⟨he, nofun⟩
  | some n => exact ⟨he, fun _ ha => Except.ok.inj ha ▸ hQ engine n he hget⟩

/-- Asking for a concept. -/
theorem keeps_requireConcept (concept : String) : Keeps P (requireConcept handlers concept) := by
  refine .bind .get fun engine _ => ?_
  split
  · exact .throw _
  · exact .pure trivial

/-- Asking for room. -/
theorem keeps_requireRoom : Keeps P (requireRoom id serial) := by
  refine .bind .get fun engine _ => keeps_state.bind fun flow _ => ?_
  split
  · exact .throw _
  · split
    · exact .throw _
    · exact .pure trivial

section Steps

variable (h : IsUpheld P ours)

include h

/-- A line that is written. -/
theorem IsUpheld.note (n : Note) : Keeps P (note n) := .modify fun _ he => h.journal _ he

/-- Asking whether an action may be carried out. -/
theorem IsUpheld.permits (hs : ours serial) (template : ActionTemplate) (args : Value) :
    Keeps P (permits serial template args) := by
  refine .bind .get fun engine _ => ?_
  split
  · exact .pure trivial
  · refine .bind (.ofExcept fun _ _ => trivial) fun value (_ : True) => ?_
    dsimp only
    split
    · exact .throw_bind _ _
    · refine keeps_state.bind fun flow _ =>
        .bind (.modify fun _ => h.books hs (Flow.bookkeeps_noteResponse _)) fun _ _ => ?_
      split
      · exact .bind (.ofExcept fun _ _ => trivial) fun _ (_ : True) =>
          .bind (.ofExcept fun _ _ => trivial) fun _ (_ : True) =>
            (h.note _).bind fun _ _ => .pure trivial
      · exact .pure trivial

/-- Recording a fault. -/
theorem IsUpheld.recordFault (hs : ours serial) (rule : Rule κ) (fault : Fault) :
    Keeps P (recordFault serial rule fault) :=
  keeps_state.bind fun _ _ =>
    .bind (.modify fun _ => h.books hs (Flow.bookkeeps_addFault ..)) fun _ _ => h.note _

end Steps

/-! ### Carrying rules out -/

/-- The handlers keep the property, and so do the actions that rules ask them for. What is asked for
has an id of ours, and the rules that there are ask nothing but what they may. -/
structure Upheld (P : Engine ω κ → Prop) (ours : Nat → Prop) (named : String → Prop)
    (fits : Rule κ → Prop) (handlers : Handlers ω κ) : Prop extends IsUpheld P ours where
  called : ∀ {engine : Engine ω κ} {serial : Nat}, P engine → ours serial →
    named ((engine.states[serial]?).getD default).id
  rules : ∀ {engine : Engine ω κ}, P engine → ∀ rule ∈ engine.rules, fits rule
  perform : ∀ concept action input {id : String}, named id →
    Keeps P (Engine.perform handlers concept action input id)
  adapt : ∀ {rule : Rule κ} {adapter : κ} {inputs outputs : Value}, fits rule →
    .query adapter inputs outputs ∈ rule.stages → ∀ args, Keeps P (handlers.adapt adapter args)
  before : Keeps P handlers.waiting.before
  after : Keeps P handlers.waiting.after

namespace Upheld

variable (h : Upheld P ours named fits handlers)

include h

/-- Carrying out the actions of a frame. -/
theorem dispatch (hs : ours serial) (calls : List Dispatch) :
    Keeps P (dispatch handlers serial calls) := by
  induction calls with
  | nil => exact .pure trivial
  | cons call rest ih =>
    obtain ⟨template, args⟩ := call
    refine (h.permits hs template args).bind fun permitted _ => ?_
    cases permitted with
    | false => exact ih
    | true =>
      have hid : Upholds P (state serial) fun flow => named flow.id :=
        upholds_state fun _ he => h.called he hs
      refine hid.bind fun flow hflow =>
        (h.perform _ _ _ hflow).attempt.bind fun outcome _ => ?_
      cases outcome with
      | ok event => exact ih
      | error fault => exact .throw_bind _ _

variable {rule : Rule κ} (hrule : fits rule)

include hrule

/-- Preparing the actions of a rule. -/
theorem prepare (frames : List Frame) : Keeps P (prepare handlers rule frames) := by
  have hstages := Upholds.applyAll handlers.adapters rule.stages
    (fun _ _ _ hmem => h.adapt hrule hmem) h.before h.after frames
  refine (hstages.bind fun kept _ =>
    .ofExcept (Q := fun _ => True) fun _ _ => trivial).attempt.bind fun outcome _ => ?_
  cases outcome with
  | ok calls => exact .pure trivial
  | error fault => exact .throw _

/-- Carrying a rule out. -/
theorem carryOut (hs : ours serial) (frames : List Frame) :
    Keeps P (carryOut handlers serial rule frames) :=
  (h.prepare hrule frames).bind fun _ _ =>
    (Upholds.gather h.before h.after fun mine _ => h.dispatch hs mine).bind fun _ _ => .pure trivial

/-- Evaluating a rule. -/
theorem evaluate (hs : ours serial) (trigger : Option Nat) :
    Keeps P (evaluate handlers serial trigger rule) := by
  refine keeps_state.bind fun flow _ =>
    .bind (.ofExcept fun _ _ => trivial) fun fresh (_ : True) => ?_
  split
  · exact .pure trivial
  · refine .bind (.modify fun _ => h.books hs (Flow.bookkeeps_fire ..)) fun _ _ =>
      (h.note _).bind fun _ _ => (h.carryOut hrule hs _).attempt.bind fun outcome _ => ?_
    cases outcome with
    | ok done => exact .pure trivial
    | error fault =>
      dsimp only
      split
      · exact h.recordFault hs rule fault
      · exact .throw fault

omit hrule

/-- Evaluating rules in order. -/
theorem evaluateEach (hs : ours serial) (trigger : Option Nat) {rules : List (Rule κ)}
    (hrules : ∀ rule ∈ rules, fits rule) :
    Keeps P (evaluateEach handlers serial trigger rules) := by
  induction rules with
  | nil => exact .pure trivial
  | cons rule rest ih =>
    rw [List.forall_mem_cons] at hrules
    exact (h.evaluate hrules.1 hs trigger).bind fun _ _ => ih hrules.2

/-- Evaluating all rules from a place on. -/
theorem evaluateFrom (hs : ours serial) (trigger : Option Nat) (times place : Nat) :
    Keeps P (evaluateFrom handlers serial trigger times place) := by
  induction times generalizing place with
  | zero => exact .throw _
  | succ times ih =>
    refine .bind .get fun engine he => ?_
    dsimp only
    split
    · exact .pure trivial
    · exact (h.evaluateEach hs trigger fun rule hmem =>
        h.rules he rule (List.mem_of_mem_drop hmem)).bind fun _ _ => ih _

/-- Evaluating all rules. -/
theorem evaluateAll (hs : ours serial) (trigger : Option Nat) :
    Keeps P (evaluateAll handlers serial trigger) :=
  h.evaluateFrom hs trigger _ 0

/-- Working a queue off, when taking an event off it keeps the property. -/
theorem drainLoop (hs : ours serial) (hdequeue : Keeps P (dequeue serial)) (n : Nat) :
    Keeps P (drainLoop handlers serial n) := by
  induction n with
  | zero =>
    refine hdequeue.bind fun event _ => ?_
    cases event with
    | none => exact .pure trivial
    | some event => exact .throw _
  | succ n ih =>
    refine hdequeue.bind fun event _ => ?_
    cases event with
    | none => exact .pure trivial
    | some event => exact (h.evaluateAll hs _).bind fun _ _ => ih

end Upheld

/-! ### Finding, opening and ending flows -/

/-- The property is kept by all that an engine does by itself: on the states with numbers of ours,
and with flows under ids of ours. From an id that is retained one only comes to numbers of ours, and
from these only to ids of ours. -/
structure Sustains (P : Engine ω κ → Prop) (ours : Nat → Prop) (named : String → Prop)
    (fits : Rule κ → Prop) : Prop where
  found : ∀ {engine : Engine ω κ} {id : String} {serial : Nat}, P engine →
    Table.get? id engine.retained = some serial → ours serial
  called : ∀ {engine : Engine ω κ} {serial : Nat}, P engine → ours serial →
    named ((engine.states[serial]?).getD default).id
  rules : ∀ {engine : Engine ω κ}, P engine → ∀ rule ∈ engine.rules, fits rule
  journal : ∀ {engine : Engine ω κ} (journal : Array Note), P engine →
    P { engine with journal := journal }
  changed : ∀ {engine : Engine ω κ} {serial : Nat} {f : Flow → Flow}, ours serial →
    (∀ flow, (f flow).id = flow.id) → P engine → P (engine.change serial f)
  opened : ∀ {engine : Engine ω κ} {id : String}, named id →
    Table.get? id engine.retained = none → P engine →
      P (openFlow id engine) ∧ ours engine.states.length
  started : ∀ {engine : Engine ω κ}, P engine → named (flowId (engine.started + 1)) ∧
    P (openFlow (flowId (engine.started + 1)) { engine with started := engine.started + 1 })
  ended : ∀ {engine : Engine ω κ} (id : String), P engine → P (endFlow id engine)
  ruled : ∀ {engine : Engine ω κ} {rule : Rule κ}, fits rule → P engine →
    P { engine with rules := engine.rules ++ [rule] }
  terminal : ∀ {engine : Engine ω κ} (concept action : String) (key : Value), P engine →
    P (registerTerminal concept action key engine)

namespace Sustains

variable (h : Sustains P ours named fits)

include h

/-- Among that are the steps of evaluating rules that are no actions. -/
theorem isUpheld : IsUpheld P ours := ⟨h.journal, fun hs hf => h.changed hs hf.id⟩

/-- Finding the number of a flow, or opening it. -/
theorem serialOrNew (hid : named id) : Upholds P (serialOrNew id) ours := by
  intro engine he
  unfold Engine.serialOrNew
  rw [run_bind_ok (run_get engine)]
  cases hget : Table.get? id engine.retained with
  | some n => exact ⟨he, fun _ ha => Except.ok.inj ha ▸ h.found he hget⟩
  | none =>
    obtain ⟨hopen, hnew⟩ := h.opened hid hget he
    exact ⟨hopen, fun _ ha => Except.ok.inj ha ▸ hnew⟩

/-- Letting flows go. -/
theorem evict (keep : String) (excess : Nat) {engine : Engine ω κ} (he : P engine) :
    P (evict keep excess engine) := by
  unfold Engine.evict
  generalize (engine.idle keep).take excess = ids
  induction ids generalizing engine with
  | nil => exact he
  | cons id rest ih => exact ih (h.ended id he)

/-- Starting a flow. -/
theorem startFlow : Upholds P startFlow named := by
  unfold Engine.startFlow
  intro engine he
  obtain ⟨hnamed, hopen⟩ := h.started he
  rw [run_bind_ok (run_get engine), run_bind_ok (run_modify ..), run_bind_ok (run_get _)]
  cases (openFlow (flowId (engine.started + 1))
    { engine with started := engine.started + 1 }).excess with
  | none => exact ⟨hopen, nofun⟩
  | some excess => exact ⟨h.evict _ excess hopen, fun _ ha => Except.ok.inj ha ▸ hnamed⟩

/-- Recording an action. -/
theorem record (hs : ours serial) (concept action : String) (input : Fields) (output : Value) :
    Keeps P (record serial concept action input output) :=
  keeps_state.bind fun _ _ =>
    .bind (.modify fun _ => h.changed hs fun _ => rfl) fun _ _ => .pure trivial

/-- Taking an event off a queue. -/
theorem dequeue (hs : ours serial) : Keeps P (dequeue serial) :=
  keeps_state.bind fun _ _ =>
    .bind (.modify fun _ => h.changed hs fun _ => rfl) fun _ _ => .pure trivial

/-- Performing an action, when the handlers keep the property. -/
theorem perform (hh : ∀ concept action input, Keeps P (handlers.perform concept action input))
    (concept action : String) (input : Value) (hid : named id) :
    Keeps P (perform handlers concept action input id) :=
  (keeps_requireConcept concept).bind fun _ _ => (h.serialOrNew hid).bind fun _ hs =>
    keeps_requireRoom.bind fun _ _ => .bind (.ofExcept fun _ _ => trivial) fun fields (_ : True) =>
      (hh concept action fields).bind fun _ _ => h.record hs _ _ _ _

/-- Adding a rule that asks nothing but what it may. -/
theorem registerRule {rule : Rule κ} (hrule : fits rule) : Keeps P (registerRule rule) := by
  refine .bind .get fun engine _ => ?_
  split
  · exact .throw_bind _ _
  · exact .modify fun _ he => h.ruled hrule he

/-- Rules are carried out so when the handlers keep the property. -/
theorem upheld (hh : ∀ concept action input, Keeps P (handlers.perform concept action input))
    (hadapt : ∀ {rule : Rule κ} {adapter : κ} {inputs outputs : Value}, fits rule →
      .query adapter inputs outputs ∈ rule.stages → ∀ args, Keeps P (handlers.adapt adapter args))
    (hbefore : Keeps P handlers.waiting.before) (hafter : Keeps P handlers.waiting.after) :
    Upheld P ours named fits handlers where
  toIsUpheld := h.isUpheld
  called := h.called
  rules := h.rules
  perform concept action input _ hid := h.perform hh concept action input hid
  adapt := hadapt
  before := hbefore
  after := hafter

variable (hu : Upheld P ours named fits handlers)

include hu

/-- Working on a flow. -/
theorem drain (id : String) : Keeps P (drain handlers id) := by
  have hserial : Upholds P (Engine.serial id) ours := upholds_serial fun _ _ he => h.found he
  refine hserial.bind fun serial hs => keeps_state.bind fun flow _ => ?_
  split
  · exact .pure trivial
  · exact .bind (.modify fun _ => h.changed hs fun _ => rfl) fun _ _ => .bind .get fun _ _ =>
      .ensuring (hu.drainLoop hs (h.dequeue hs) _) fun _ => h.changed hs fun _ => rfl

/-- A round that begins with an action. -/
theorem invoke (concept action : String) (input : Value) {flow : Option String}
    (hflow : ∀ id, flow = some id → named id) :
    Keeps P (invoke handlers concept action input flow) := by
  have hrest : ∀ id, named id → Keeps P (Engine.perform handlers concept action input id >>=
      fun event => Engine.drain handlers id >>= fun _ => pure event) :=
    fun id hid => (hu.perform concept action input hid).bind fun _ _ =>
      (h.drain hu id).bind fun _ _ => .pure trivial
  cases flow with
  | some id => exact hrest id (hflow id rfl)
  | none => exact h.startFlow.bind hrest

/-- A round that evaluates the rules again. -/
theorem reevaluate (id : String) : Keeps P (reevaluate handlers id) := by
  have hserial : Upholds P (Engine.serial id) ours := upholds_serial fun _ _ he => h.found he
  exact hserial.bind fun _ hs => (hu.evaluateAll hs none).bind fun _ _ => h.drain hu id

end Sustains

end Engine

/-- A call that works on flows under ids of ours, and adds no rule but one that asks what it may. -/
def EngineCall.Observes (named : String → Prop) (fits : Rule κ → Prop) : EngineCall κ → Prop
  | .invoke _ _ _ flow => ∀ id, flow = some id → named id
  | .registerRule rule => fits rule
  | _ => True

/-- Whatever the engine of a host is asked, it keeps the property, when the programs that it runs
do. -/
theorem Engine.Sustains.answerWith {P : Engine ω κ → Prop} {ours : Nat → Prop}
    {named : String → Prop} {fits : Rule κ → Prop} (h : Sustains P ours named fits)
    {host : Host ω κ} {inner : (call : EngineCall κ) → Effect (Engine ω κ) call.Answer}
    {depth : Nat} (hu : Upheld P ours named fits (host.handlers inner depth))
    (hperform : ∀ concept action args, Keeps P ((host.perform concept action args).run inner))
    (hquery : ∀ concept name args, Keeps P ((host.query concept name args).run inner))
    {call : EngineCall κ} (hc : call.Observes named fits) :
    Keeps P (Engine.answerWith host inner depth call) := by
  have hflow : ∀ id, Keeps P (Engine.flow id) := fun id =>
    (upholds_serial (Q := fun _ => True) fun _ _ _ _ => trivial).bind fun _ _ => keeps_state
  cases call with
  | invoke concept action input flow => exact h.invoke hu concept action input hc
  | reevaluate flow => exact h.reevaluate hu flow
  | call concept action args =>
    exact (keeps_requireConcept concept).bind fun _ _ => hperform concept action args
  | query concept name args =>
    exact (keeps_requireConcept concept).bind fun _ _ => hquery concept name args
  | startFlow => exact h.startFlow.keeps
  | endFlow flow => exact .modify fun _ => h.ended flow
  | log flow => exact (hflow flow).bind fun _ _ => .pure trivial
  | faults flow => exact (hflow flow).bind fun _ _ => .pure trivial
  | flows => exact .bind .get fun _ _ => .pure trivial
  | rules => exact .bind .get fun _ _ => .pure trivial
  | registerRule rule =>
    have hchecked : ∀ checked, rule.checked = .ok checked → fits checked := by
      intro checked hr
      unfold Rule.checked at hr
      split at hr
      · cases hr
      · exact Except.ok.inj hr ▸ hc
    exact .bind (.ofExcept hchecked) fun _ => h.registerRule
  | registerTerminal concept action key => exact .modify fun _ => h.terminal concept action key

end HerdBook
