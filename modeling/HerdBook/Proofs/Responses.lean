import HerdBook.Proofs.Sameness
import HerdBook.Proofs.Steps
import HerdBook.Proofs.Watching

/-!
# A response is given once

An action that is registered as a response, with the argument that it is told apart by, is begun at
most once in a flow for each value of that argument, whichever rules, frames and templates compete
for it, whether or not it succeeds, and also when actions and adapters use the engine on the same
flow meanwhile.

The marker of a response is noted before the action begins, so that what matters is not what the
action does but that nothing ever takes a marker back. The work on a flow goes by the number of its
state, and states only grow (`Engine.Steady`); so an action that was begun is still marked whenever
the next one is considered (`Watched.Sound`).

## Main results

* `Watcher.Keeps.invoke`, `Watcher.Keeps.reevaluate`: rounds keep what is known of the responses.
* `Engine.responses_once`: of the actions that rules begin in a flow while a program is carried out,
  at most one is the response to a given value.
-/

namespace HerdBook

open Effect

variable {ω κ α β : Type}

/-! ### What was begun -/

/-- The value of the argument `key` with which an incident begins the action in the flow with the
number, if it does. -/
def Incident.response? (serial : Nat) (concept action : String) (key : Value) :
    Incident κ → Option Value
  | .attempt n c a args =>
    if n = serial ∧ c = concept ∧ a = action then (args.under key).toOption else none
  | _ => none

/-- The values of the argument `key` with which the action was begun in the flow with the number, in
order. -/
def Incident.responses (serial : Nat) (concept action : String) (key : Value)
    (seen : List (Incident κ)) : List Value :=
  seen.filterMap (Incident.response? serial concept action key)

/-- An action that is begun once more. -/
theorem Incident.responses_append_attempt (m serial : Nat) (concept action : String)
    {args key value : Value} (h : args.under key = .ok value) (seen : List (Incident κ)) :
    responses m concept action key (seen ++ [.attempt serial concept action args])
      = responses m concept action key seen ++ if serial = m then [value] else [] := by
  by_cases hm : serial = m <;>
    simp [responses, response?, List.filterMap_append, hm, h, Except.toOption]

/-- The action is not registered as a response that is told apart by another argument. -/
def Incident.KeyStays (concept action : String) (key : Value) (seen : List (Incident κ)) : Prop :=
  ∀ other, .registration concept action other ∈ seen → other = key

namespace Watched

variable (concept action : String) (key : Value)

/-- The action is registered as a response; each one that was begun is marked in its flow, and none
was begun twice for the same value. -/
structure IsGuarded (watched : Watched ω κ) : Prop where
  registered : Table.get? (concept, action) watched.1.terminals = some key
  marked : ∀ serial, ∀ value ∈ Incident.responses serial concept action key watched.2,
    ∃ flow, watched.1.states[serial]? = some flow ∧ ⟨concept, action, value⟩ ∈ flow.responses
  once : ∀ serial, (Incident.responses serial concept action key watched.2).Pairwise
    fun first second => first.sameItem second = false

/-- As long as the action is not registered in another way, it is guarded. -/
def Sound (watched : Watched ω κ) : Prop :=
  Incident.KeyStays concept action key watched.2 → IsGuarded concept action key watched

/-- From a watched engine that has `n` states, and whose ids stand for states, the second one is
reached: it is such an engine too, and the action stays guarded. -/
def Keeps (n : Nat) (watched watched' : Watched ω κ) : Prop :=
  n ≤ watched.1.states.length → watched.1.IsLocated →
    n ≤ watched'.1.states.length ∧ watched'.1.IsLocated ∧
      (Sound concept action key watched → Sound concept action key watched')

instance (n : Nat) : IsPreorder (Watched ω κ) (Keeps concept action key n) where
  refl _ hn hl := ⟨hn, hl, id⟩
  trans _ _ _ h h' hn hl := by
    obtain ⟨hn₁, hl₁, hs₁⟩ := h hn hl
    obtain ⟨hn₂, hl₂, hs₂⟩ := h' hn₁ hl₁
    exact ⟨hn₂, hl₂, hs₂ ∘ hs₁⟩

section Steps

variable {concept action key} {n serial : Nat}

/-- A steady step keeps the action guarded. -/
theorem IsGuarded.steady {engine engine' : Engine ω κ} {seen : List (Incident κ)}
    (h : IsGuarded concept action key (engine, seen)) (hs : engine.Steady engine') :
    IsGuarded concept action key (engine', seen) where
  registered := hs.terminals ▸ h.registered
  marked serial value hv := by
    obtain ⟨flow, hf, hm⟩ := h.marked serial value hv
    obtain ⟨flow', hf', -, hr⟩ := hs.states serial flow hf
    exact ⟨flow', hf', hr hm⟩
  once := h.once

/-- A steady step of which nothing is noticed. -/
theorem keeps_of_steady {watched : Watched ω κ} {engine' : Engine ω κ}
    (h : watched.1.Steady engine') :
    Keeps concept action key n watched (engine', watched.2) :=
  fun hn hl => ⟨Nat.le_trans hn h.length_le, h.located hl, fun hsound hkeep =>
    (hsound hkeep).steady h⟩

/-- What a watched engine does quietly is kept when it is steady. -/
theorem keeps_quietly {act : Effect (Engine ω κ) α} (h : Moves Engine.Steady act) :
    Moves (Keeps concept action key n) (quietly act) :=
  fun watched => keeps_of_steady (h watched.1)

/-- Reading the engine. -/
theorem keeps_engine : Moves (Keeps (ω := ω) (κ := κ) concept action key n) engine :=
  keeps_quietly Engine.steady_get

/-- An incident that begins nothing and registers nothing of the action. -/
theorem Sound.append {watched : Watched ω κ} (h : Sound concept action key watched)
    (incident : Incident κ)
    (hnone : ∀ serial, incident.response? serial concept action key = none) :
    Sound concept action key (watched.1, watched.2 ++ [incident]) := by
  intro hkeep
  have hg := h fun other ho => hkeep other (List.mem_append_left _ ho)
  have hsame : ∀ serial, Incident.responses serial concept action key (watched.2 ++ [incident])
      = Incident.responses serial concept action key watched.2 := by
    intro serial
    simp [Incident.responses, hnone]
  refine ⟨hg.registered, fun serial => ?_, fun serial => ?_⟩
  · rw [hsame]
    exact hg.marked serial
  · rw [hsame]
    exact hg.once serial

/-- A response that is marked in a flow is refused there for every value that is the same. -/
theorem sameItem_of_hasResponded {flow : Flow} {first second : Value}
    (hm : ⟨concept, action, first⟩ ∈ flow.responses)
    (hnew : flow.hasResponded ⟨concept, action, second⟩ = false) :
    first.sameItem second = false := by
  have hnot := List.any_eq_false.mp hnew _ hm
  simpa [Marker.same] using hnot

/-- Noticing such an incident. -/
theorem keeps_notice {incident : Incident κ}
    (hnone : ∀ serial, incident.response? serial concept action key = none) :
    Moves (Keeps (ω := ω) concept action key n) (notice incident) :=
  fun _ hn hl => ⟨hn, hl, fun h => h.append _ hnone⟩

/-- An action that is permitted and begun is guarded afterwards as before: it is marked, and the
ones that were begun before are marked with other values. -/
theorem Sound.attempt {template : ActionTemplate} {args : Value} {engine engine' : Engine ω κ}
    {seen : List (Incident κ)} (hk : key ≠ .null) (hn : serial < engine.states.length)
    (h : Sound concept action key (engine, seen))
    (hp : (Engine.permits serial template args).run engine = (.ok true, engine')) :
    Sound concept action key
      (engine', seen ++ [.attempt serial template.concept template.action args]) := by
  have hsteady : engine.Steady engine' := (Engine.steady_permits template args).of_run hp
  intro hkeep
  have hg := h fun other ho => hkeep other (List.mem_append_left _ ho)
  by_cases hkind : template.concept = concept ∧ template.action = action
  · obtain ⟨rfl, rfl⟩ := hkind
    obtain ⟨value, flow, flow', hvalue, hflow, hflow', hnew, hmarked⟩ :=
      Engine.exists_marked_of_permits hk hg.registered hn hp
    refine ⟨(hg.steady hsteady).registered, fun m v hv => ?_, fun m => ?_⟩
    · rw [Incident.responses_append_attempt m serial _ _ hvalue] at hv
      rcases List.mem_append.mp hv with hv | hv
      · exact (hg.steady hsteady).marked m v hv
      · by_cases hm : serial = m
        · rw [if_pos hm] at hv
          obtain rfl := List.mem_singleton.mp hv
          exact ⟨flow', hm ▸ hflow', hmarked⟩
        · exact absurd hv (by simp [hm])
    · rw [Incident.responses_append_attempt m serial _ _ hvalue, List.pairwise_append]
      refine ⟨hg.once m, by split <;> simp, fun first hfirst second hsecond => ?_⟩
      by_cases hm : serial = m
      · rw [if_pos hm] at hsecond
        obtain rfl := List.mem_singleton.mp hsecond
        obtain ⟨other, hother, hmem⟩ := hg.marked m first hfirst
        obtain rfl : flow = other := Option.some.inj (hflow.symm.trans (hm ▸ hother))
        exact sameItem_of_hasResponded hmem hnew
      · exact absurd hsecond (by simp [hm])
  · have hs : Sound concept action key (engine', seen) := fun _ => hg.steady hsteady
    refine hs.append _ ?_ hkeep
    intro other
    exact if_neg fun hsame => hkind hsame.2

/-- Whether an action may be carried out is asked, and if it may be, it is noticed that it is begun.
What comes after keeps the response guarded, either way. -/
theorem keeps_permits_bind {template : ActionTemplate} {args : Value}
    {next : Bool → Effect (Watched ω κ) β} (hk : key ≠ .null) (hn : serial < n)
    (rest : Flow → Effect (Watched ω κ) β)
    (hnext : next true = quietly (Engine.state serial) >>= fun flow =>
      notice (.attempt serial template.concept template.action args) >>= fun _ => rest flow)
    (htrue : ∀ flow, Moves (Keeps concept action key n) (rest flow))
    (hfalse : Moves (Keeps concept action key n) (next false)) :
    Moves (Keeps concept action key n)
      (quietly (Engine.permits serial template args) >>= next) := by
  intro watched
  rcases hrun : (Engine.permits serial template args).run watched.1 with
    ⟨fault | permitted, engine'⟩ <;> rw [run_bind, run_quietly, hrun]
  · exact keeps_of_steady ((Engine.steady_permits template args).of_run hrun)
  have hpermits : Keeps concept action key n watched (engine', watched.2) :=
    keeps_of_steady ((Engine.steady_permits template args).of_run hrun)
  cases permitted with
  | false => exact IsTrans.trans _ _ _ hpermits (hfalse _)
  | true =>
    have hbegun : Keeps concept action key n watched
        (engine', watched.2 ++ [.attempt serial template.concept template.action args]) := by
      intro hlen hl
      obtain ⟨hlen', hl', -⟩ := hpermits hlen hl
      exact ⟨hlen', hl', fun hs => hs.attempt hk (Nat.lt_of_lt_of_le hn hlen) hrun⟩
    dsimp only
    rw [hnext]
    exact IsTrans.trans _ _ _ hbegun (htrue _ _)

/-- Every watched computation keeps the action guarded, however many states there are. -/
def Safe (concept action : String) (key : Value) (act : Effect (Watched ω κ) α) : Prop :=
  ∀ n, Moves (Keeps concept action key n) act

/-- What keeps more states than are asked for keeps enough. -/
theorem Keeps.of_le {m : Nat} {watched watched' : Watched ω κ}
    (h : Keeps concept action key m watched watched') (hnm : n ≤ m)
    (hm : n ≤ watched.1.states.length → m ≤ watched.1.states.length) :
    Keeps concept action key n watched watched' := by
  intro hn hl
  obtain ⟨hm', hl', hs⟩ := h (hm hn) hl
  exact ⟨Nat.le_trans hnm hm', hl', hs⟩

/-- The state that an id leads to is there for all that comes after. -/
theorem keeps_serial_bind {id : String} {next : Nat → Effect (Watched ω κ) β}
    (h : ∀ serial m, serial < m → Moves (Keeps concept action key m) (next serial)) :
    Moves (Keeps concept action key n) (quietly (Engine.serial id) >>= next) := by
  intro watched hn hl
  rcases hr : (Engine.serial id).run watched.1 with ⟨_ | serial, engine'⟩
  · rw [run_bind, run_quietly, hr]
    exact keeps_of_steady (Engine.steady_serial.of_run hr) hn hl
  · obtain ⟨rfl, hlt⟩ := hl.of_serial hr
    rw [run_bind, run_quietly, hr]
    have hm := h serial (max n (serial + 1)) (Nat.le_max_right ..) watched
    exact hm.of_le (Nat.le_max_left ..) (fun hn => Nat.max_le.mpr ⟨hn, hlt⟩) hn hl

end Steps

end Watched

open Watched

/-! ### Rounds -/

namespace Watcher

/-- Whatever actions and adapters do, also by using the engine, keeps the response guarded. -/
structure Keeps (watcher : Watcher ω κ) (concept action : String) (key : Value) : Prop where
  act : ∀ name task input, Safe concept action key (watcher.act name task input)
  adapt : ∀ adapter args, Safe concept action key (watcher.adapt adapter args)

namespace Keeps

variable {watcher : Watcher ω κ} {concept action : String} {key : Value}
  (h : watcher.Keeps concept action key) {n serial : Nat}

/-- What happens while the engine waits happens to the world. -/
theorem waiting (watcher : Watcher ω κ) (concept action : String) (key : Value) (n : Nat) :
    Moves (Watched.Keeps concept action key n) watcher.waiting.before ∧
      Moves (Watched.Keeps concept action key n) watcher.waiting.after :=
  ⟨keeps_quietly fun _ => Engine.steady_of_eq rfl rfl rfl,
    keeps_quietly fun _ => Engine.steady_of_eq rfl rfl rfl⟩

include h

/-- Performing an action. -/
theorem perform (direct : Bool) (name task : String) (input : Value) (id : String) :
    Safe concept action key (watcher.perform direct name task input id) := by
  intro n
  refine Moves.bind (keeps_quietly (Engine.steady_requireConcept name)) fun _ =>
    Moves.bind (keeps_quietly Engine.steady_serialOrNew) fun serial =>
    Moves.bind (keeps_quietly Engine.steady_requireRoom) fun _ =>
    Moves.bind (Moves.ofExcept _) fun input => Moves.bind (h.act name task input n) fun output => ?_
  exact Moves.bind (keeps_quietly (Engine.steady_record name task input output)) fun event =>
    Moves.bind (keeps_notice fun _ => rfl) fun _ => Moves.pure event

/-- Carrying out the actions of a frame: each one that is begun is marked. -/
theorem dispatch (hk : key ≠ .null) (hn : serial < n) (calls : List Dispatch) :
    Moves (Watched.Keeps concept action key n) (watcher.dispatch serial calls) := by
  induction calls with
  | nil => exact Moves.pure ()
  | cons call rest ih =>
    obtain ⟨template, args⟩ := call
    refine keeps_permits_bind hk hn (fun flow => _) rfl (fun flow => ?_) ih
    refine Moves.bind (h.perform _ _ _ args flow.id n).attempt fun outcome => ?_
    cases outcome with
    | ok event => exact ih
    | error fault => exact Moves.throw_bind _ _

/-- Preparing the actions of a rule. -/
theorem prepare (rule : Rule κ) (found : List Combination) :
    Safe concept action key (watcher.prepare serial rule found) := by
  intro n
  obtain ⟨hb, ha⟩ := waiting watcher concept action key n
  have hstages := Moves.applyAll watcher.adapters rule.stages
    (fun adapter _ _ _ args => h.adapt adapter args n) hb ha (found.map (·.1))
  refine Moves.bind (Moves.bind hstages fun kept => ?_).attempt fun outcome => ?_
  · exact Moves.bind (keeps_notice fun _ => rfl) fun _ => Moves.ofExcept _
  · cases outcome with
    | ok calls => exact Moves.pure calls
    | error fault => exact Moves.throw _

/-- Carrying a rule out. -/
theorem carryOut (hk : key ≠ .null) (hn : serial < n) (rule : Rule κ)
    (found : List Combination) :
    Moves (Watched.Keeps concept action key n) (watcher.carryOut serial rule found) := by
  obtain ⟨hb, ha⟩ := waiting watcher concept action key n
  refine Moves.bind (h.prepare rule found n) fun calls => Moves.bind ?_ fun _ => Moves.pure ()
  exact Moves.gather hb ha fun mine _ => h.dispatch hk hn mine

/-- Evaluating a rule. -/
theorem evaluate (hk : key ≠ .null) (hn : serial < n) (trigger : Option Nat) (rule : Rule κ) :
    Moves (Watched.Keeps concept action key n) (watcher.evaluate serial trigger rule) := by
  have hhand : ∀ found, Moves (Watched.Keeps (ω := ω) concept action key n)
      (hand serial rule found) := fun found =>
    Moves.bind (keeps_quietly (Engine.steady_update (fun _ => rfl) fun _ => List.Subset.refl _))
      fun _ => Moves.bind (keeps_quietly (Engine.steady_note _)) fun _ => keeps_notice fun _ => rfl
  refine Moves.bind (keeps_quietly Engine.steady_state) fun flow =>
    Moves.bind (Moves.ofExcept _) fun fresh => ?_
  split
  · exact Moves.pure ()
  · refine Moves.bind (hhand fresh) fun _ =>
      Moves.bind (h.carryOut hk hn rule fresh).attempt fun outcome => ?_
    cases outcome with
    | ok done => exact Moves.pure ()
    | error fault =>
      dsimp only
      split
      · exact keeps_quietly (Engine.steady_recordFault rule fault)
      · exact Moves.throw fault

/-- Evaluating rules in order. -/
theorem evaluateEach (hk : key ≠ .null) (hn : serial < n) (trigger : Option Nat)
    (rules : List (Rule κ)) :
    Moves (Watched.Keeps concept action key n) (watcher.evaluateEach serial trigger rules) := by
  induction rules with
  | nil => exact Moves.pure ()
  | cons rule rest ih => exact Moves.bind (h.evaluate hk hn trigger rule) fun _ => ih

/-- Evaluating the rules from a place on. -/
theorem evaluateFrom (hk : key ≠ .null) (hn : serial < n) (trigger : Option Nat)
    (times place : Nat) :
    Moves (Watched.Keeps concept action key n)
      (watcher.evaluateFrom serial trigger times place) := by
  induction times generalizing place with
  | zero => exact Moves.throw _
  | succ times ih =>
    refine Moves.bind keeps_engine fun engine => ?_
    dsimp only
    split
    · exact Moves.pure ()
    · exact Moves.bind (h.evaluateEach hk hn trigger _) fun _ => ih _

/-- Working a queue off. -/
theorem drainLoop (hk : key ≠ .null) (hn : serial < n) (events : Nat) :
    Moves (Watched.Keeps concept action key n) (watcher.drainLoop serial events) := by
  induction events with
  | zero =>
    refine Moves.bind (keeps_quietly Engine.steady_dequeue) fun event => ?_
    cases event with
    | none => exact Moves.pure ()
    | some event => exact Moves.throw _
  | succ events ih =>
    refine Moves.bind (keeps_quietly Engine.steady_dequeue) fun event => ?_
    cases event with
    | none => exact Moves.pure ()
    | some event => exact Moves.bind (h.evaluateFrom hk hn _ _ 0) fun _ => ih

/-- Working on a flow. -/
theorem drain (hk : key ≠ .null) (id : String) :
    Safe concept action key (watcher.drain id) := by
  intro n
  refine keeps_serial_bind fun serial m hm =>
    Moves.bind (keeps_quietly Engine.steady_state) fun flow => ?_
  split
  · exact Moves.pure ()
  · have hidle : ∀ busy, Moves (Engine.Steady (ω := ω) (κ := κ))
        (Engine.update serial fun flow => { flow with draining := busy }) :=
      fun busy => Engine.steady_update (fun _ => rfl) fun _ => List.Subset.refl _
    refine Moves.bind (keeps_quietly (hidle true)) fun _ => Moves.bind keeps_engine fun engine => ?_
    intro watched
    rw [run_ensuring]
    exact IsTrans.trans _ _ _ (h.drainLoop hk hm _ watched) (keeps_of_steady (hidle false _))

/-- A round that begins with an action keeps the response guarded. -/
theorem invoke (hk : key ≠ .null) (name task : String) (input : Value) (flow : Option String) :
    Safe concept action key (watcher.invoke name task input flow) := by
  intro n
  have hrest : ∀ id, Moves (Watched.Keeps concept action key n)
      (watcher.perform true name task input id >>= fun event => watcher.drain id >>= fun _ =>
        pure event) :=
    fun id => Moves.bind (h.perform true name task input id n) fun event =>
      Moves.bind (h.drain hk id n) fun _ => Moves.pure event
  cases flow with
  | some id => exact hrest id
  | none => exact Moves.bind (keeps_quietly Engine.steady_startFlow) hrest

/-- So does one that evaluates the rules again. -/
theorem reevaluate (hk : key ≠ .null) (id : String) :
    Safe concept action key (watcher.reevaluate id) := by
  intro n
  refine keeps_serial_bind fun serial m hm => ?_
  exact Moves.bind (h.evaluateFrom hk hm none _ 0) fun _ => h.drain hk id m

end Keeps

end Watcher

namespace Watched

variable {concept action : String} {key : Value}

/-- A program keeps the response guarded when the answers to its calls do. -/
theorem Safe.program {answer : (call : EngineCall κ) → Effect (Watched ω κ) call.Answer}
    (h : ∀ call, Safe concept action key (answer call)) (program : Program ω κ α) :
    Safe concept action key (program.watched answer) := by
  intro n
  induction program with
  | done outcome => exact Moves.ofExcept outcome
  | read next ih => exact Moves.bind keeps_engine fun engine => ih engine.world
  | write world next ih =>
    exact Moves.bind (keeps_quietly fun _ => Engine.steady_of_eq rfl rfl rfl) fun _ => ih
  | note line next ih => exact Moves.bind (keeps_quietly (Engine.steady_note line)) fun _ => ih
  | request call next ih => exact Moves.bind (h call n).attempt fun reply => ih reply

/-- Registering a response keeps the action guarded, unless it is the same action with another
argument. -/
theorem keeps_register (n : Nat) (name task : String) (other : Value) :
    Moves (Keeps (ω := ω) (κ := κ) concept action key n) (do
      notice (.registration name task other)
      quietly (modify (Engine.registerTerminal name task other))) := by
  intro watched hn hl
  refine ⟨hn, hl, fun hs hkeep => ?_⟩
  have hg := hs.append (.registration name task other) (fun _ => rfl) hkeep
  refine ⟨?_, hg.marked, hg.once⟩
  change Table.get? (concept, action) (Table.set (name, task) other watched.1.terminals) = some key
  rw [Table.get?_set]
  split
  · next hsame =>
    obtain ⟨rfl, rfl⟩ := Prod.mk.inj hsame
    rw [hkeep other (List.mem_append_right _ (List.mem_singleton_self _))]
  · exact hg.registered

/-- What the engine of a host answers keeps the response guarded, to whatever depth calls nest. -/
theorem safe_answer (hk : key ≠ .null) (host : Host ω κ) (depth : Nat) (call : EngineCall κ) :
    Safe concept action key (answer host depth call) := by
  induction depth generalizing call with
  | zero => exact fun n => Moves.throw _
  | succ depth ih =>
    have hw : (watcher host (Engine.answer host depth) (answer host depth) depth).Keeps
        concept action key :=
      ⟨fun _ _ _ => .program ih _, fun _ _ => .program ih _⟩
    have hrequire : ∀ n name, Moves (Keeps concept action key n)
        (quietly (Engine.requireConcept (host.handlers (Engine.answer host depth) depth) name)) :=
      fun n name => keeps_quietly (Engine.steady_requireConcept name)
    have hflow : ∀ id, Moves (Engine.Steady (ω := ω) (κ := κ)) (Engine.flow id) :=
      fun id => Moves.bind Engine.steady_serial fun _ => Engine.steady_state
    intro n
    cases call with
    | invoke name task input flow => exact hw.invoke hk name task input flow n
    | reevaluate flow => exact hw.reevaluate hk flow n
    | call name task args => exact Moves.bind (hrequire n name) fun _ => Safe.program ih _ n
    | query name query args => exact Moves.bind (hrequire n name) fun _ => Safe.program ih _ n
    | registerTerminal name task other => exact keeps_register n name task other
    | startFlow => exact keeps_quietly Engine.steady_startFlow
    | endFlow flow => exact keeps_quietly fun engine => Engine.steady_endFlow engine
    | log flow => exact keeps_quietly (Moves.bind (hflow flow) fun _ => Moves.pure _)
    | faults flow => exact keeps_quietly (Moves.bind (hflow flow) fun _ => Moves.pure _)
    | flows => exact keeps_quietly (Moves.bind Engine.steady_get fun _ => Moves.pure _)
    | rules => exact keeps_quietly (Moves.bind Engine.steady_get fun _ => Moves.pure _)
    | registerRule rule =>
      exact keeps_quietly (Moves.bind (Moves.ofExcept _) fun rule =>
        Engine.steady_registerRule rule)

/-- What a program does keeps the response guarded. -/
theorem keeps_program (concept action : String) (hk : key ≠ .null) (host : Host ω κ) (depth : Nat)
    (program : Program ω κ α) (watched : Watched ω κ) :
    Keeps concept action key 0 watched ((program.watched (answer host depth)).run watched).2 :=
  Safe.program (safe_answer hk host depth) program 0 watched

/-- Of values of which no two count as the same item, at most one is the same as a hashable one. -/
theorem countP_same_le_one {values : List Value}
    (h : values.Pairwise fun first second => first.sameItem second = false) {value : Value}
    (hv : value.hashable = true) : values.countP (fun given => given.same value) ≤ 1 := by
  have hpairs := h.filter fun given => given.same value
  have hall : ∀ given ∈ values.filter fun given => given.same value, given.sameItem value = true :=
    fun given hg => Bool.or_eq_true_iff.mpr (.inr (List.mem_filter.mp hg).2)
  rw [List.countP_eq_length_filter]
  generalize values.filter (fun given => given.same value) = found at hpairs hall
  rcases found with _ | ⟨first, _ | ⟨second, rest⟩⟩
  · exact Nat.zero_le _
  · exact Nat.le_refl _
  · have hsame := Value.sameItem_of_sameItem value hv (hall first (by simp)) (hall second (by simp))
    have hother := List.rel_of_pairwise_cons hpairs (List.mem_cons_self (a := second) (l := rest))
    exact absurd (hsame.symm.trans hother) (by simp)

end Watched

namespace Engine

/-- The engine is what programs make of one without rules and flows. -/
def Arises (host : Host ω κ) (engine : Engine ω κ) : Prop :=
  ∃ (world : ω) (maxFlowEvents maxRetained : Limit) (depth : Nat) (program : Program ω κ Unit),
    ((program.run (answer host depth)).run (start world maxFlowEvents maxRetained)).2 = engine

/-- Ids stand for states on every engine that arises. -/
theorem Arises.isLocated {host : Host ω κ} {engine : Engine ω κ} (h : engine.Arises host) :
    engine.IsLocated := by
  obtain ⟨world, maxFlowEvents, maxRetained, depth, program, rfl⟩ := h
  rw [Watched.Erases.program (Watched.erases_answer host depth) program _ []]
  have hkeeps : Watched.Keeps "" "" (.str "") 0 (start world maxFlowEvents maxRetained, []) _ :=
    Watched.keeps_program "" "" (by simp) host depth program _
  exact (hkeeps (Nat.zero_le _) fun entry he => absurd he (by simp [start])).2.1

/-- While a program is carried out on an engine where an action is registered as a response that is
told apart by the argument `key`, and unless it is registered anew with another argument, rules
begin that action at most once in a flow for each hashable value of the argument. What is noticed is
noticed of the run of the program itself. -/
theorem responses_once {host : Host ω κ} {engine engine' : Engine ω κ} (h : engine.Arises host)
    {concept action : String} {key : Value} (hk : key ≠ .null)
    (hreg : Table.get? (concept, action) engine.terminals = some key) (depth : Nat)
    (program : Program ω κ α) {outcome : Except Fault α} {seen : List (Incident κ)}
    (hrun : (program.watched (Watched.answer host depth)).run (engine, [])
      = (outcome, engine', seen)) :
    (program.run (answer host depth)).run engine = (outcome, engine') ∧
      (Incident.KeyStays concept action key seen → ∀ serial value, value.hashable = true →
        (Incident.responses serial concept action key seen).countP (fun given => given.same value)
          ≤ 1) := by
  refine ⟨?_, fun hkeep serial value hv => ?_⟩
  · rw [Watched.Erases.program (Watched.erases_answer host depth) program engine [], hrun]
  have hstart : Watched.Sound concept action key (engine, []) :=
    fun _ => ⟨hreg, fun _ _ hv => absurd hv (by simp [Incident.responses]), fun _ => .nil⟩
  have hkeeps := Watched.keeps_program concept action hk host depth program (engine, [])
  rw [hrun] at hkeeps
  have hsound := (hkeeps (Nat.zero_le _) h.isLocated).2.2 hstart
  exact Watched.countP_same_le_one ((hsound hkeep).once serial) hv

/-- A desk where what is asked is replied to. A reply asks the desk again before it fails. -/
def desk : Host Unit Unit where
  isRegistered _ name := name == "Desk"
  perform _ action args :=
    if action = "reply" then
      .request (.invoke "Desk" "ask" args (some "flow-1")) fun _ => .fail (.misuse .value)
    else .done (.ok (.object []))
  query _ _ args := .done (.ok args)
  adapterName _ := ""
  adapt _ args := .done (.ok args)
  wait := ⟨pure (), pure ()⟩

/-- A rule that replies to what is asked. -/
def replying (name : String) : Rule Unit where
  name := name
  patterns :=
    [⟨"Desk", "ask", .object [("request", .symbol (Symbol.plain name "request"))], .object []⟩]
  stages := []
  actions := [⟨"Desk", "reply", .object [("request", .symbol (Symbol.plain name "request"))]⟩]

/-- Two such rules are registered, and a reply as a response. -/
def racing : Program Unit Unit Unit :=
  .request (.registerRule (replying "first")) fun _ =>
  .request (.registerRule (replying "second")) fun _ =>
  .request (.registerTerminal "Desk" "reply" (.str "request")) fun _ => .done (.ok ())

/-- The desk with these rules. -/
def racingEngine : Engine Unit Unit :=
  ((racing.run (answer desk 3)).run (start () (.count 9) (.count 9))).2

/-- The desk is asked once, and then the rules are evaluated again. -/
def asking : Program Unit Unit Unit :=
  .request (.invoke "Desk" "ask" (.object [("request", .int 1)]) none) fun _ =>
  .request (.reevaluate "flow-1") .done

/-- What is noticed meanwhile. -/
def noticed : List (Incident Unit) :=
  ((asking.watched (Watched.answer desk 3)).run (racingEngine, [])).2.2

/-- Whether an incident registers a response. -/
def registers : Incident Unit → Bool
  | .registration _ _ _ => true
  | _ => false

/-- Only one reply is begun, although two rules compete to reply, the reply asks the desk again
before it fails, and the rules are evaluated again. -/
theorem responses_once_racing :
    (Incident.responses 0 "Desk" "reply" (.str "request") noticed).length = 1 ∧
      (Incident.responses 0 "Desk" "reply" (.str "request") noticed).countP
        (fun given => given.same (.bool true)) ≤ 1 := by
  have hone : (Incident.responses 0 "Desk" "reply" (.str "request") noticed).length = 1 ∧
      noticed.any registers = false := by
    decide +kernel
  have harises : racingEngine.Arises desk := ⟨(), .count 9, .count 9, 3, racing, rfl⟩
  have hreg : Table.get? ("Desk", "reply") racingEngine.terminals = some (.str "request") := by
    change Table.get? _ (Table.set ("Desk", "reply") (Value.str "request") _) = _
    rw [Table.get?_set, if_pos rfl]
  have hkeep : Incident.KeyStays "Desk" "reply" (.str "request") noticed := by
    intro other hother
    exact absurd rfl (List.any_eq_false.mp hone.2 _ hother)
  rcases hrun : (asking.watched (Watched.answer desk 3)).run (racingEngine, [])
    with ⟨outcome, engine', seen⟩
  obtain rfl : noticed = seen := congrArg (fun watched => watched.2.2) hrun
  exact ⟨hone.1, (responses_once harises (by simp) hreg 3 asking hrun).2 hkeep 0 _ rfl⟩

end Engine

end HerdBook
