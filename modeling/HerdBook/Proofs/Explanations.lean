import HerdBook.Proofs.Joins
import HerdBook.Proofs.Settled
import HerdBook.Proofs.Watching
import Mathlib.Data.List.Nodup

/-!
# What happens in a flow can be explained

Where actions and adapters leave the flows of the engine alone, the log of a flow can be explained
by what is noticed of the work on it: an event is that of an action that a round began with, or a
rule caused it. A cause is a batch of combinations over a beginning of the log that ends before the
event, for which the rule has fired, together with a frame that the stages of the rule left of that
very batch; the event is what a template of the rule makes of the frame (`Flow.Caused`).

## Main definitions

* `Flow.IsExplained`: the events of the flow are numbered in order and have causes, and what was
  handed to rules was handed to them once and has fired.
* `Watched.Works`: work on one flow, under which it stays explained. What is known meanwhile, of a
  batch and of the actions that it warrants, is a `Fact`.

## Main results

* `Flow.IsExplained.hand`, `Flow.IsExplained.record`: the two steps that need an explanation.
* `Watcher.works_evaluate`, `Watcher.works_drain`, `Watcher.works_reevaluate`: evaluating a rule,
  and working on a flow.
-/

namespace HerdBook

open Effect

variable {ω κ α β : Type}

/-! ### Explanations -/

namespace Incident

/-- The number of the state that an incident is about. -/
def serial? : Incident κ → Option Nat
  | .handed serial _ _ => some serial
  | .staged serial _ _ _ => some serial
  | .attempt serial _ _ _ => some serial
  | .performed serial _ _ => some serial
  | .registration _ _ _ => none

/-- The combinations that an incident hands to a rule in the flow with the number, each with the
name of the rule. -/
def keys (serial : Nat) : Incident κ → List (String × List Nat)
  | .handed n rule found => if n = serial then found.map fun c => (rule.name, c.2) else []
  | _ => []

/-- The combinations that were handed to rules in the flow with the number, in order. -/
def handedIn (serial : Nat) (seen : List (Incident κ)) : List (String × List Nat) :=
  seen.flatMap (keys serial)

/-- What was handed to rules before and after. -/
theorem handedIn_append (serial : Nat) (seen more : List (Incident κ)) :
    handedIn serial (seen ++ more) = handedIn serial seen ++ handedIn serial more :=
  List.flatMap_append

/-- Incidents of one flow hand nothing to rules in another one. -/
theorem handedIn_of_ne {other : Nat} {seen : List (Incident κ)}
    (h : ∀ incident ∈ seen, incident.serial? ≠ some other) : handedIn other seen = [] := by
  refine List.flatMap_eq_nil_iff.mpr fun incident hi => ?_
  cases incident with
  | handed _ _ _ => exact if_neg fun hn => h _ hi (congrArg some hn)
  | staged _ _ _ _ => rfl
  | attempt _ _ _ _ => rfl
  | performed _ _ _ => rfl
  | registration _ _ _ => rfl

end Incident

namespace Flow

variable {rules : List (Rule κ)} {serial : Nat} {seen seen' : List (Incident κ)}
  {flow flow' : Flow} {before : List Event}

/-- A rule that has fired for combinations over a beginning of the log has a frame that its stages
left of them, and makes the action of it. -/
def Warrants (rules : List (Rule κ)) (serial : Nat) (before : List Event) (call : Dispatch)
    (flow : Flow) (seen : List (Incident κ)) : Prop :=
  before <+: flow.log ∧ ∃ rule ∈ rules, ∃ found kept,
    .staged serial rule found kept ∈ seen ∧
    (∃ all, Pattern.combinations rule.patterns before = .ok all ∧ ∀ c ∈ found, c ∈ all) ∧
    (∀ c ∈ found, (rule.name, c.2) ∈ flow.fired) ∧
    ∃ frame ∈ kept, call.1 ∈ rule.actions ∧ call.1.args.fill frame = .ok call.2

/-- The event is that of an action of a rule which comes of events before it. -/
def Caused (flow : Flow) (rules : List (Rule κ)) (serial : Nat) (seen : List (Incident κ))
    (event : Event) : Prop :=
  ∃ before call fields, Warrants rules serial before call flow seen ∧
    before.length ≤ event.number ∧ event.concept = call.1.concept ∧
    event.action = call.1.action ∧ call.2.toFields = .ok fields ∧ event.input = .object fields

/-- All that happened in a flow is explained: its events are numbered in order, what was handed to
rules was handed to them once and has fired, and each event has a cause unless a round began with
it. -/
structure IsExplained (rules : List (Rule κ)) (serial : Nat) (flow : Flow)
    (seen : List (Incident κ)) : Prop where
  numbered : ∀ (n : Nat) (event : Event), flow.log[n]? = some event → event.number = n
  once : (Incident.handedIn serial seen).Nodup
  fired : Incident.handedIn serial seen ⊆ flow.fired
  caused : ∀ event ∈ flow.log, .performed serial true event ∈ seen ∨
    Caused flow rules serial seen event

/-- The second flow is the first one with more in its log, in which more rules have fired. -/
structure Extends (flow flow' : Flow) : Prop where
  log : flow.log <+: flow'.log
  fired : flow.fired ⊆ flow'.fired

/-- A flow extends itself. -/
theorem Extends.refl (flow : Flow) : flow.Extends flow := ⟨List.prefix_refl _, List.Subset.refl _⟩

/-- Two extensions are one. -/
theorem Extends.trans {flow'' : Flow} (h : flow.Extends flow') (h' : flow'.Extends flow'') :
    flow.Extends flow'' := ⟨h.log.trans h'.log, List.Subset.trans h.fired h'.fired⟩

/-- A flow that grows extends what it was. -/
theorem Grows.extends {kinds : Kinds} (h : flow.Grows kinds flow') : flow.Extends flow' := by
  obtain ⟨more, hlog, -, -⟩ := h.events
  exact ⟨⟨more, hlog.symm⟩, h.fired.subset⟩

/-- A rule that fires extends the flow. -/
theorem extends_fire (flow : Flow) (rule : Rule κ) (found : List Combination) :
    flow.Extends (flow.fire rule found) :=
  ⟨List.prefix_refl _, List.subset_append_left _ _⟩

/-- An action that is recorded extends it. -/
theorem extends_record (flow : Flow) (concept action : String) (input : Fields) (output : Value) :
    flow.Extends (flow.record concept action input output).1 :=
  ⟨List.prefix_append _ _, List.Subset.refl _⟩

/-- What warrants an action goes on to do so. -/
theorem Warrants.extend {call : Dispatch} (h : Warrants rules serial before call flow seen)
    (hf : flow.Extends flow') (hs : seen ⊆ seen') :
    Warrants rules serial before call flow' seen' := by
  obtain ⟨hbefore, rule, hr, found, kept, hstaged, hall, hfired, hframe⟩ := h
  exact ⟨hbefore.trans hf.log, rule, hr, found, kept, hs hstaged, hall,
    fun c hc => hf.fired (hfired c hc), hframe⟩

/-- It does so when there are more rules. -/
theorem Warrants.rules_mono {more : List (Rule κ)} {call : Dispatch}
    (h : Warrants rules serial before call flow seen) (hr : rules ⊆ more) :
    Warrants more serial before call flow seen := by
  obtain ⟨hbefore, rule, hrule, hrest⟩ := h
  exact ⟨hbefore, rule, hr hrule, hrest⟩

/-- What causes an event goes on to do so. -/
theorem Caused.extend {event : Event} (h : Caused flow rules serial seen event)
    (hf : flow.Extends flow') (hs : seen ⊆ seen') : Caused flow' rules serial seen' event := by
  obtain ⟨before, call, fields, hwarrants, hrest⟩ := h
  exact ⟨before, call, fields, hwarrants.extend hf hs, hrest⟩

/-- A flow to whose log nothing is added stays explained while nothing is handed to rules in it. -/
theorem IsExplained.extend (h : IsExplained rules serial flow seen) (hf : flow.Extends flow')
    (hlog : flow'.log = flow.log) (more : List (Incident κ))
    (hmore : Incident.handedIn serial more = []) :
    IsExplained rules serial flow' (seen ++ more) where
  numbered := hlog ▸ h.numbered
  once := by
    rw [Incident.handedIn_append, hmore, List.append_nil]
    exact h.once
  fired := by
    rw [Incident.handedIn_append, hmore, List.append_nil]
    exact List.Subset.trans h.fired hf.fired
  caused event he := by
    rw [hlog] at he
    rcases h.caused event he with hdirect | hcaused
    · exact .inl (List.mem_append_left _ hdirect)
    · exact .inr (hcaused.extend hf (List.subset_append_left _ _))

/-- A flow stays explained when there are more rules. -/
theorem IsExplained.rules_mono {more : List (Rule κ)} (h : IsExplained rules serial flow seen)
    (hr : rules ⊆ more) : IsExplained more serial flow seen :=
  { h with
    caused := fun event he => (h.caused event he).imp_right fun hcaused => by
      obtain ⟨before, call, fields, hwarrants, hrest⟩ := hcaused
      exact ⟨before, call, fields, hwarrants.rules_mono hr, hrest⟩ }

/-- A flow in which nothing has happened has nothing to explain. -/
theorem isExplained_of_empty (hlog : flow.log = []) (hs : Incident.handedIn serial seen = []) :
    IsExplained rules serial flow seen where
  numbered n event hn := by simp [hlog] at hn
  once := by simp [hs]
  fired := by simp [hs]
  caused event he := by simp [hlog] at he

/-- The numbers of the events of a log that is numbered in order are different. -/
theorem nodup_numbers (h : ∀ (n : Nat) (event : Event), flow.log[n]? = some event →
    event.number = n) : (flow.log.map Event.number).Nodup := by
  have hrange : flow.log.map Event.number = List.range flow.log.length := by
    refine List.ext_getElem? fun n => ?_
    rw [List.getElem?_map]
    by_cases hn : n < flow.log.length
    · rw [List.getElem?_eq_getElem hn, Option.map_some, List.getElem?_range hn,
        h n _ (List.getElem?_eq_getElem hn)]
    · have hlen := Nat.le_of_not_lt hn
      rw [List.getElem?_eq_none hlen, List.getElem?_eq_none (by simpa using hlen), Option.map_none]
  rw [hrange]
  exact List.nodup_range

/-- What is new to a rule are combinations of the log for which it has not fired, each of them
once. -/
theorem nodup_of_fresh {rule : Rule κ} {trigger : Option Nat} {found : List Combination}
    (hlog : ∀ (n : Nat) (event : Event), flow.log[n]? = some event → event.number = n)
    (h : flow.fresh rule trigger = .ok found) :
    (∃ all, Pattern.combinations rule.patterns flow.log = .ok all ∧ ∀ c ∈ found, c ∈ all) ∧
      (∀ c ∈ found, (rule.name, c.2) ∉ flow.fired) ∧
      (found.map fun c => (rule.name, c.2)).Nodup := by
  obtain ⟨all, hall, rfl⟩ := fresh_eq_ok_iff.mp h
  refine ⟨⟨all, hall, fun c hc => (List.mem_filter.mp hc).1⟩, fun c hc hold => ?_, ?_⟩
  · have hnew := (List.mem_filter.mp hc).2
    simp [hold] at hnew
  · have hnumbers : ((all.filter fun c => trigger.all (fun n => c.2.contains n) &&
        !flow.fired.contains (rule.name, c.2)).map (·.2)).Nodup :=
      (Pattern.nodup_combinations (nodup_numbers hlog) hall).sublist
        (List.Sublist.map _ List.filter_sublist)
    have hkeys := hnumbers.map (f := fun numbers => (rule.name, numbers))
      fun _ _ hsame => (Prod.mk.inj hsame).2
    rwa [List.map_map] at hkeys

/-- Handing a rule what is new to it, which then has fired, leaves the flow explained. -/
theorem IsExplained.hand (h : IsExplained rules serial flow seen) {rule : Rule κ}
    {trigger : Option Nat} {found : List Combination}
    (hfresh : flow.fresh rule trigger = .ok found) :
    IsExplained rules serial (flow.fire rule found) (seen ++ [.handed serial rule found]) := by
  obtain ⟨-, hnew, hnodup⟩ := nodup_of_fresh h.numbered hfresh
  have hkeys : Incident.handedIn serial (seen ++ [.handed serial rule found])
      = Incident.handedIn serial seen ++ found.map fun c => (rule.name, c.2) := by
    simp [Incident.handedIn, Incident.keys]
  have hext := flow.extends_fire rule found
  refine ⟨h.numbered, ?_, ?_, fun event he => ?_⟩
  · rw [hkeys, List.nodup_append]
    refine ⟨h.once, hnodup, fun first hfirst second hsecond heq => ?_⟩
    obtain ⟨c, hc, rfl⟩ := List.mem_map.mp hsecond
    exact hnew c hc (heq ▸ h.fired hfirst)
  · rw [hkeys]
    exact List.append_subset.mpr ⟨List.Subset.trans h.fired hext.fired,
      List.subset_append_right _ _⟩
  · rcases h.caused event he with hdirect | hcaused
    · exact .inl (List.mem_append_left _ hdirect)
    · exact .inr (hcaused.extend hext (List.subset_append_left _ _))

/-- A recorded action leaves the flow explained, if a round began with it or it is warranted. -/
theorem IsExplained.record (h : IsExplained rules serial flow seen) (concept action : String)
    (input : Fields) (output : Value) {direct : Bool}
    (hcause : direct = false → ∃ before call, Warrants rules serial before call flow seen ∧
      concept = call.1.concept ∧ action = call.1.action ∧ call.2.toFields = .ok input) :
    IsExplained rules serial (flow.record concept action input output).1
      (seen ++ [.performed serial direct (flow.record concept action input output).2]) := by
  have hext := flow.extends_record concept action input output
  have hnone : Incident.handedIn serial
      [(.performed serial direct (flow.record concept action input output).2 : Incident κ)] = [] :=
    rfl
  refine ⟨fun n event hn => ?_, ?_, ?_, fun event he => ?_⟩
  · rw [log_record] at hn
    rcases Nat.lt_trichotomy n flow.log.length with hlt | rfl | hgt
    · rw [List.getElem?_append_left hlt] at hn
      exact h.numbered n event hn
    · rw [List.getElem?_concat_length] at hn
      rw [← Option.some.inj hn, number_record]
    · rw [List.getElem?_eq_none (by simpa using Nat.succ_le_of_lt hgt)] at hn
      exact absurd hn (by simp)
  · rw [Incident.handedIn_append, hnone, List.append_nil]
    exact h.once
  · rw [Incident.handedIn_append, hnone, List.append_nil]
    exact List.Subset.trans h.fired hext.fired
  · rw [log_record] at he
    rcases List.mem_append.mp he with he | he
    · rcases h.caused event he with hdirect | hcaused
      · exact .inl (List.mem_append_left _ hdirect)
      · exact .inr (hcaused.extend hext (List.subset_append_left _ _))
    · rw [List.mem_singleton] at he
      subst he
      cases direct with
      | true => exact .inl (List.mem_append_right _ (List.mem_singleton_self _))
      | false =>
        obtain ⟨before, call, hwarrants, hconcept, haction, hinput⟩ := hcause rfl
        refine .inr ⟨before, call, input, hwarrants.extend hext (List.subset_append_left _ _), ?_,
          hconcept, haction, hinput, rfl⟩
        rw [number_record]
        exact hwarrants.1.length_le

end Flow

/-! ### Work on one flow -/

/-- Something that goes on to hold of a flow and of what was noticed. -/
structure Fact (κ : Type) where
  holds : Flow → List (Incident κ) → Prop
  stable : ∀ {flow flow' : Flow} {seen : List (Incident κ)} (more : List (Incident κ)),
    flow.Extends flow' → holds flow seen → holds flow' (seen ++ more)

/-- What always holds. -/
def Fact.trivial : Fact κ := ⟨fun _ _ => True, fun _ _ _ => .intro⟩

/-- The rule has fired for the combinations, and the log begins with the given events. -/
def Fact.batch (rule : Rule κ) (found : List Combination) (before : List Event) : Fact κ where
  holds flow _ := before <+: flow.log ∧ ∀ c ∈ found, (rule.name, c.2) ∈ flow.fired
  stable _ hf h := ⟨h.1.trans hf.log, fun c hc => hf.fired (h.2 c hc)⟩

/-- All of the actions are warranted by combinations of the given events. -/
def Fact.warranted (rules : List (Rule κ)) (serial : Nat) (before : List Event)
    (calls : List (List Dispatch)) : Fact κ where
  holds flow seen := ∀ mine ∈ calls, ∀ call ∈ mine,
    flow.Warrants rules serial before call seen
  stable _ hf h mine hm call hc := (h mine hm call hc).extend hf (List.subset_append_left _ _)

namespace Watched

variable {rules : List (Rule κ)} {id : String} {serial : Nat} {fact : Fact κ}

/-- The id stands for the state with the number, which is the flow, and the flow is explained by
what was noticed. -/
structure Holds (rules : List (Rule κ)) (id : String) (serial : Nat) (watched : Watched ω κ)
    (flow : Flow) : Prop extends watched.1.Hosts id serial flow where
  setup : watched.1.rules = rules
  explained : flow.IsExplained rules serial watched.2

/-- From an explained flow the work on it leads to an explained flow; nothing else is changed, and
what is noticed is about the flow. -/
structure Leads (rules : List (Rule κ)) (id : String) (serial : Nat)
    (watched watched' : Watched ω κ) (flow flow' : Flow) : Prop where
  holds : Holds rules id serial watched' flow'
  same : Engine.SameBut serial watched.1 watched'.1
  extend : flow.Extends flow'
  seen : ∃ more, watched'.2 = watched.2 ++ more ∧
    ∀ incident ∈ more, incident.serial? = some serial

/-- Whenever the fact holds of an explained flow, the work on it leads to an explained flow. -/
def Works (rules : List (Rule κ)) (id : String) (serial : Nat) (fact : Fact κ)
    (watched watched' : Watched ω κ) : Prop :=
  ∀ flow, Holds rules id serial watched flow → fact.holds flow watched.2 →
    ∃ flow', Leads rules id serial watched watched' flow flow'

/-- The fact holds wherever the work leads. -/
theorem Leads.keeps {watched watched' : Watched ω κ} {flow flow' : Flow}
    (h : Leads rules id serial watched watched' flow flow') (hf : fact.holds flow watched.2) :
    fact.holds flow' watched'.2 := by
  obtain ⟨more, hmore, -⟩ := h.seen
  rw [hmore]
  exact fact.stable more h.extend hf

/-- Work that leads on from where work led. -/
theorem Leads.trans {first second third : Watched ω κ} {flow flow' flow'' : Flow}
    (h : Leads rules id serial first second flow flow')
    (h' : Leads rules id serial second third flow' flow'') :
    Leads rules id serial first third flow flow'' where
  holds := h'.holds
  same := h.same.trans h'.same
  extend := h.extend.trans h'.extend
  seen := by
    obtain ⟨more, hmore, hs⟩ := h.seen
    obtain ⟨more', hmore', hs'⟩ := h'.seen
    refine ⟨more ++ more', by rw [hmore', hmore, List.append_assoc], fun incident hi => ?_⟩
    rcases List.mem_append.mp hi with hi | hi
    · exact hs incident hi
    · exact hs' incident hi

instance : IsPreorder (Watched ω κ) (Works rules id serial fact) where
  refl watched flow h _ := ⟨flow, h, .refl serial watched.1, .refl flow, [], by simp, by simp⟩
  trans _ _ _ h h' flow hf hp := by
    obtain ⟨flow', hl⟩ := h flow hf hp
    obtain ⟨flow'', hl'⟩ := h' flow' hl.holds (hl.keeps hp)
    exact ⟨flow'', hl.trans hl'⟩

/-! ### Steps -/

/-- Kinds of no events. -/
def noKinds : Kinds := fun _ _ => False

/-- What the engine does quietly to the flow without recording an action in it. -/
theorem leads_of_worksOn {watched : Watched ω κ} {engine' : Engine ω κ} {flow : Flow}
    (h : Engine.WorksOn (fun _ => True) noKinds id serial watched.1 engine')
    (hf : Holds rules id serial watched flow) :
    ∃ flow', Leads rules id serial watched (engine', watched.2) flow flow' := by
  obtain ⟨flow', hf', hg, hs⟩ := h flow ⟨hf.toHosts, trivial⟩
  have hlog : flow'.log = flow.log := by
    obtain ⟨more, hlog, -, hmore⟩ := hg.events
    cases more with
    | nil => rwa [List.append_nil] at hlog
    | cons event rest => exact (hmore event List.mem_cons_self).elim
  have hexplained := hf.explained.extend hg.extends hlog [] rfl
  rw [List.append_nil] at hexplained
  exact ⟨flow', ⟨hf'.toHosts, hs.rules.trans hf.setup, hexplained⟩, hs, hg.extends, [], by simp,
    by simp⟩

/-- Quiet work on the flow. -/
theorem works_quietly {act : Effect (Engine ω κ) α}
    (h : Moves (Engine.WorksOn (fun _ => True) noKinds id serial) act) :
    Moves (Works rules id serial fact) (quietly act) :=
  fun watched _ hf _ => leads_of_worksOn (h watched.1) hf

/-- Work on the world and the journal. -/
def Still (watched watched' : Watched ω κ) : Prop :=
  ∃ world journal, watched' = ({ watched.1 with world := world, journal := journal }, watched.2)

instance : IsPreorder (Watched ω κ) Still where
  refl watched := ⟨watched.1.world, watched.1.journal, rfl⟩
  trans _ _ _ h h' := by
    obtain ⟨_, _, rfl⟩ := h
    obtain ⟨world, journal, rfl⟩ := h'
    exact ⟨world, journal, rfl⟩

/-- Work on the world and the journal leaves the flow alone. -/
theorem works_of_still {act : Effect (Watched ω κ) α} (h : Moves Still act) :
    Moves (Works rules id serial fact) act := by
  intro watched flow hf _
  obtain ⟨world, journal, hs⟩ := h watched
  rw [hs]
  have hworks : Engine.WorksOn (fun _ => True) noKinds id serial watched.1
      { watched.1 with world := world, journal := journal } := fun flow hf =>
    ⟨flow, ⟨⟨hf.retained, hf.state, hf.named⟩, True.intro⟩, .refl flow,
      rfl, rfl, rfl, rfl, rfl, rfl, fun _ _ => rfl⟩
  exact leads_of_worksOn hworks hf

/-- Noticing an incident of the flow by which nothing is handed to a rule. -/
theorem leads_notice {watched : Watched ω κ} {flow : Flow} (hf : Holds rules id serial watched flow)
    {incident : Incident κ} (hs : incident.serial? = some serial)
    (hk : incident.keys serial = []) :
    Leads rules id serial watched (watched.1, watched.2 ++ [incident]) flow flow where
  holds := ⟨hf.toHosts, hf.setup,
    hf.explained.extend (.refl flow) rfl _ (by simp [Incident.handedIn, hk])⟩
  same := .refl serial watched.1
  extend := .refl flow
  seen := ⟨[incident], rfl, by simpa using hs⟩

/-- The same as a step. -/
theorem works_notice {incident : Incident κ} (hs : incident.serial? = some serial)
    (hk : incident.keys serial = []) :
    Moves (Works (ω := ω) rules id serial fact) (notice incident) :=
  fun _ flow hf _ => ⟨flow, leads_notice hf hs hk⟩

/-- Handing a rule what is new to it. -/
theorem leads_hand {engine : Engine ω κ} {seen : List (Incident κ)} {flow : Flow}
    (hf : Holds rules id serial (engine, seen) flow) {rule : Rule κ} {trigger : Option Nat}
    {found : List Combination} (hfresh : flow.fresh rule trigger = .ok found) :
    Leads rules id serial (engine, seen) ((Watcher.hand serial rule found).run (engine, seen)).2
      flow (flow.fire rule found) := by
  obtain ⟨hf', hs'⟩ := hf.toHosts.change (f := fun flow => flow.fire rule found) rfl
  rw [Watcher.run_hand]
  exact {
    holds := ⟨⟨hf'.retained, hf'.state, hf'.named⟩, hs'.rules.trans hf.setup,
      hf.explained.hand hfresh⟩
    same := ⟨hs'.rules, hs'.terminals, hs'.maxFlowEvents, hs'.maxRetained, hs'.retained,
      hs'.started, hs'.others⟩
    extend := flow.extends_fire rule found
    seen := ⟨[.handed serial rule found], rfl, by simp [Incident.serial?]⟩ }

/-- A change of the flow that leaves its log and what has fired. -/
theorem leads_change {watched : Watched ω κ} {flow : Flow} (hf : Holds rules id serial watched flow)
    {f : Flow → Flow} (hid : (f flow).id = flow.id) (hlog : (f flow).log = flow.log)
    (hfired : (f flow).fired = flow.fired) :
    Leads rules id serial watched (watched.1.change serial f, watched.2) flow (f flow) := by
  obtain ⟨hf', hs'⟩ := hf.toHosts.change hid
  have hext : flow.Extends (f flow) :=
    ⟨⟨[], by rw [hlog, List.append_nil]⟩, fun _ hk => hfired.symm ▸ hk⟩
  have hexplained := hf.explained.extend hext hlog [] rfl
  rw [List.append_nil] at hexplained
  exact ⟨⟨hf', hs'.rules.trans hf.setup, hexplained⟩, hs', hext, [], by simp, by simp⟩

/-- Recording an action with which a round began or that is warranted. -/
theorem leads_record {engine : Engine ω κ} {seen : List (Incident κ)} {flow : Flow}
    (hf : Holds rules id serial (engine, seen) flow) {direct : Bool} (concept action : String)
    (input : Fields) (output : Value)
    (hcause : direct = false → ∃ before call,
      flow.Warrants rules serial before call seen ∧
      concept = call.1.concept ∧ action = call.1.action ∧ call.2.toFields = .ok input) :
    Leads rules id serial (engine, seen)
      ((Watcher.record serial direct concept action input output).run (engine, seen)).2
      flow (flow.record concept action input output).1 := by
  have hrun : (Engine.record serial concept action input output).run engine
      = (.ok (flow.record concept action input output).2,
        engine.change serial fun flow => (flow.record concept action input output).1) := by
    unfold Engine.record
    rw [run_bind_ok hf.run_state]
    rfl
  have hwatched : (Watcher.record serial direct concept action input output).run (engine, seen)
      = (.ok (flow.record concept action input output).2,
        engine.change serial (fun flow => (flow.record concept action input output).1),
        seen ++ [.performed serial direct (flow.record concept action input output).2]) := by
    unfold Watcher.record
    rw [run_bind, run_quietly, hrun]
    rfl
  obtain ⟨hf', hs'⟩ := hf.toHosts.change
    (f := fun flow => (flow.record concept action input output).1) rfl
  rw [hwatched]
  exact {
    holds := ⟨hf', hs'.rules.trans hf.setup, hf.explained.record concept action input output hcause⟩
    same := hs'
    extend := flow.extends_record concept action input output
    seen := ⟨_, rfl, by simp [Incident.serial?]⟩ }

end Watched

open Watched

/-! ### Rounds -/

namespace Watcher

/-- Acting and calling an adapter change nothing but the world and the journal. -/
structure IsPassive (watcher : Watcher ω κ) : Prop where
  act : ∀ concept action input, Moves Still (watcher.act concept action input)
  adapt : ∀ adapter args, Moves Still (watcher.adapt adapter args)

variable {watcher : Watcher ω κ} {rules : List (Rule κ)} {id : String} {serial : Nat}
  {fact : Fact κ}

/-- What happens while the engine waits happens to the world. -/
theorem works_waiting (watcher : Watcher ω κ) (rules : List (Rule κ)) (id : String) (serial : Nat)
    (fact : Fact κ) :
    Moves (Works rules id serial fact) watcher.waiting.before ∧
      Moves (Works rules id serial fact) watcher.waiting.after :=
  ⟨works_of_still fun watched => ⟨_, watched.1.journal, rfl⟩,
    works_of_still fun watched => ⟨_, watched.1.journal, rfl⟩⟩

/-- An action that a round begins with, or that is warranted, is recorded in the flow at most. -/
theorem works_performIn (h : watcher.IsPassive) {direct : Bool} {concept action : String}
    {input : Value}
    (hcause : direct = false → ∀ flow seen, fact.holds flow seen →
      ∃ before call, flow.Warrants rules serial before call seen ∧
        concept = call.1.concept ∧ action = call.1.action ∧ call.2 = input) :
    Moves (Works rules id serial fact)
      (watcher.performIn direct concept action input id serial) := by
  refine Moves.bind (works_quietly (Engine.moves_requireRoom noKinds id)) fun _ => ?_
  refine Moves.bind_of_ok (Moves.ofExcept _) fun watched₁ fields watched₂ hfields => ?_
  have hinput : input.toFields = .ok fields := mapError_eq_ok_iff.mp (congrArg Prod.fst hfields)
  refine Moves.bind (works_of_still (h.act concept action fields)) fun output => ?_
  rintro ⟨engine, seen⟩ flow hf hfact
  refine ⟨_, leads_record hf concept action fields output fun hdirect => ?_⟩
  obtain ⟨before, call, hwarrants, hconcept, haction, rfl⟩ := hcause hdirect flow seen hfact
  exact ⟨before, call, hwarrants, hconcept, haction, hinput⟩

/-- The same in the flow that the id stands for. -/
theorem works_perform (h : watcher.IsPassive) {direct : Bool} {concept action : String}
    {input : Value}
    (hcause : direct = false → ∀ flow seen, fact.holds flow seen →
      ∃ before call, flow.Warrants rules serial before call seen ∧
        concept = call.1.concept ∧ action = call.1.action ∧ call.2 = input) :
    Moves (Works rules id serial fact) (watcher.perform direct concept action input id) := by
  refine Moves.bind (works_quietly (Engine.moves_requireConcept concept)) fun _ => ?_
  intro watched flow hf hfact
  rw [run_bind, run_quietly, hf.run_serialOrNew]
  exact works_performIn h hcause watched flow hf hfact

/-- Warranted actions are begun, and recorded in the flow. -/
theorem works_dispatch (h : watcher.IsPassive) {before : List Event} {mine : List Dispatch}
    (hw : ∀ flow seen, fact.holds flow seen → ∀ call ∈ mine,
      flow.Warrants rules serial before call seen) :
    Moves (Works rules id serial fact) (watcher.dispatch serial mine) := by
  induction mine with
  | nil => exact Moves.pure ()
  | cons call rest ih =>
    have ih := ih fun flow seen hf other ho => hw flow seen hf other (List.mem_cons_of_mem _ ho)
    obtain ⟨template, args⟩ := call
    unfold dispatch
    refine Moves.bind (works_quietly (Engine.moves_permits template args)) fun permitted => ?_
    cases permitted with
    | false => exact ih
    | true =>
      intro watched flow hf
      rw [if_pos rfl, run_bind, run_quietly, hf.run_state]
      dsimp only
      rw [hf.named]
      revert flow
      change Works rules id serial fact watched _
      refine Moves.bind (works_notice rfl rfl) (fun _ => ?_) watched
      refine Moves.bind (works_perform h fun _ flow seen hf => ?_).attempt fun outcome => ?_
      · exact ⟨before, (template, args), hw flow seen hf _ List.mem_cons_self, rfl, rfl, rfl⟩
      · cases outcome with
        | ok event => exact ih
        | error fault => exact Moves.throw_bind _ _

variable {rule : Rule κ} {before : List Event} {found : List Combination}

/-- Preparing the actions of a rule. -/
theorem works_prepare (h : watcher.IsPassive) (rule : Rule κ) (found : List Combination) :
    Moves (Works rules id serial fact) (watcher.prepare serial rule found) := by
  obtain ⟨hb, ha⟩ := works_waiting watcher rules id serial fact
  have hstages := Moves.applyAll watcher.adapters rule.stages
    (fun adapter _ _ _ args => works_of_still (h.adapt adapter args)) hb ha (found.map (·.1))
  refine Moves.bind (Moves.bind hstages fun kept => ?_).attempt fun outcome => ?_
  · exact Moves.bind (works_notice rfl rfl) fun _ => Moves.ofExcept _
  · cases outcome with
    | ok calls => exact Moves.pure calls
    | error fault => exact Moves.throw _

/-- What is prepared is made of frames that the stages left, which was noticed. -/
theorem exists_kept_of_prepare {watched watched' : Watched ω κ} {calls : List (List Dispatch)}
    (h : (watcher.prepare serial rule found).run watched = (.ok calls, watched')) :
    ∃ kept, .staged serial rule found kept ∈ watched'.2 ∧ rule.dispatches kept = .ok calls := by
  obtain ⟨outcome, watched₁, hattempt, h⟩ := exists_of_run_bind h
  cases outcome with
  | error fault => exact absurd (congrArg Prod.fst h) (by simp)
  | ok made =>
    obtain rfl : made = calls := Except.ok.inj (congrArg Prod.fst h)
    obtain rfl : watched₁ = watched' := congrArg Prod.snd h
    obtain ⟨kept, watched₂, -, hrest⟩ := exists_of_run_bind (run_of_run_attempt hattempt)
    obtain ⟨_, watched₃, hnotice, hrest⟩ := exists_of_run_bind hrest
    obtain rfl : (watched₂.1, watched₂.2 ++ [Incident.staged serial rule found kept]) = watched₃ :=
      congrArg Prod.snd hnotice
    obtain rfl : _ = watched₁ := congrArg Prod.snd hrest
    exact ⟨kept, List.mem_append_right _ (List.mem_singleton_self _), congrArg Prod.fst hrest⟩

/-- Carrying a rule out for combinations that it found and has fired for. -/
theorem works_carryOut (h : watcher.IsPassive) (hr : rule ∈ rules)
    (hfound : ∃ all, Pattern.combinations rule.patterns before = .ok all ∧ ∀ c ∈ found, c ∈ all) :
    Moves (Works rules id serial (.batch rule found before))
      (watcher.carryOut serial rule found) := by
  intro watched flow hf hbatch
  obtain ⟨flow₁, hl⟩ := works_prepare h rule found watched flow hf hbatch
  unfold carryOut
  rcases hrun : (watcher.prepare serial rule found).run watched with ⟨_ | calls, watched₁⟩ <;>
    rw [hrun] at hl <;> rw [run_bind, hrun]
  · exact ⟨flow₁, hl⟩
  -- the actions that are left to do are made of the frames of this batch
  obtain ⟨kept, hkept, hcalls⟩ := exists_kept_of_prepare hrun
  obtain ⟨hbefore, hfired⟩ := hl.keeps hbatch
  have hwarranted : (Fact.warranted rules serial before calls).holds flow₁ watched₁.2 := by
    intro mine hm call hc
    obtain ⟨frame, hframe, hfill⟩ := Rule.exists_frame_of_mem_dispatches hcalls mine hm
    exact ⟨hbefore, rule, hr, found, kept, hkept, hfound, hfired, frame, hframe,
      Rule.fill_of_mem_fillActions hfill call hc⟩
  obtain ⟨hb, ha⟩ := works_waiting watcher rules id serial (.warranted rules serial before calls)
  have hgather := Moves.gather hb ha fun mine hm =>
    works_dispatch h fun flow seen hw call hc => hw mine hm call hc
  have hrest : Moves (Works rules id serial (.warranted rules serial before calls))
      (Effect.gather watcher.waiting (watcher.dispatch serial) calls >>= fun _ => pure ()) :=
    Moves.bind hgather fun _ => Moves.pure ()
  obtain ⟨flow₂, hl₂⟩ := hrest watched₁ flow₁ hl.holds hwarranted
  exact ⟨flow₂, hl.trans hl₂⟩

/-- Evaluating a rule. -/
theorem works_evaluate (h : watcher.IsPassive) (hr : rule ∈ rules) (trigger : Option Nat) :
    Moves (Works rules id serial .trivial) (watcher.evaluate serial trigger rule) := by
  rintro ⟨engine, seen⟩ flow hf htrivial
  unfold evaluate
  rw [run_bind, run_quietly, hf.run_state]
  dsimp only
  cases hfresh : flow.fresh rule trigger with
  | error misuse => exact refl (r := Works rules id serial .trivial) _ flow hf htrivial
  | ok found =>
    change ∃ flow', Leads rules id serial (engine, seen)
      ((if found.isEmpty then pure () else _ : Effect (Watched ω κ) Unit).run (engine, seen)).2 _ _
    split
    · exact refl (r := Works rules id serial .trivial) _ flow hf htrivial
    have hhand := leads_hand hf hfresh
    rw [run_hand] at hhand
    rw [run_bind_ok (run_hand engine seen)]
    obtain ⟨hfound, -⟩ := Flow.nodup_of_fresh hf.explained.numbered hfresh
    have hbatch : (Fact.batch rule found flow.log : Fact κ).holds (flow.fire rule found)
        (seen ++ [.handed serial rule found]) :=
      ⟨List.prefix_refl _, fun c hc => List.mem_append_right _ (List.mem_map_of_mem hc)⟩
    refine Exists.imp (fun flow' hl => hhand.trans hl)
      (Moves.bind (works_carryOut h hr hfound).attempt (fun outcome => ?_) _ _ hhand.holds hbatch)
    cases outcome with
    | ok done => exact Moves.pure ()
    | error fault =>
      dsimp only
      split
      · exact works_quietly (Engine.moves_recordFault rule fault)
      · exact Moves.throw fault

/-- Evaluating rules in order. -/
theorem works_evaluateEach (h : watcher.IsPassive) {some : List (Rule κ)}
    (hr : ∀ rule ∈ some, rule ∈ rules) (trigger : Option Nat) :
    Moves (Works rules id serial .trivial) (watcher.evaluateEach serial trigger some) := by
  induction some with
  | nil => exact Moves.pure ()
  | cons rule rest ih =>
    rw [List.forall_mem_cons] at hr
    exact Moves.bind (works_evaluate h hr.1 trigger) fun _ => ih hr.2

/-- Evaluating the rules from a place on. -/
theorem works_evaluateFrom (h : watcher.IsPassive) (trigger : Option Nat) (times place : Nat) :
    Moves (Works rules id serial .trivial)
      (watcher.evaluateFrom serial trigger times place) := by
  induction times generalizing place with
  | zero => exact Moves.throw _
  | succ times ih =>
    intro watched flow hf htrivial
    have hr : ∀ rule ∈ watched.1.rules.drop place, rule ∈ rules :=
      fun rule hr => hf.setup ▸ List.mem_of_mem_drop hr
    unfold evaluateFrom
    rw [run_bind_ok (run_engine watched)]
    dsimp only
    split
    · exact refl (r := Works rules id serial .trivial) watched flow hf htrivial
    · exact Moves.bind (works_evaluateEach h hr trigger) (fun _ => ih _) watched flow hf htrivial

/-- Working a queue off. -/
theorem works_drainLoop (h : watcher.IsPassive) (n : Nat) :
    Moves (Works rules id serial .trivial) (watcher.drainLoop serial n) := by
  have hdequeue : Moves (Works rules id serial .trivial)
      (quietly (Engine.dequeue serial) : Effect (Watched ω κ) (Option Event)) := by
    intro watched flow hf _
    rw [run_quietly, hf.run_dequeue]
    exact ⟨_, leads_change hf rfl rfl rfl⟩
  induction n with
  | zero =>
    refine Moves.bind hdequeue fun event => ?_
    cases event with
    | none => exact Moves.pure ()
    | some event => exact Moves.throw _
  | succ n ih =>
    refine Moves.bind hdequeue fun event => ?_
    cases event with
    | none => exact Moves.pure ()
    | some event => exact Moves.bind (works_evaluateFrom h _ _ 0) fun _ => ih

/-- Working on a flow. -/
theorem works_drain (h : watcher.IsPassive) :
    Moves (Works rules id serial .trivial) (watcher.drain id) := by
  intro watched flow hf htrivial
  unfold drain
  rw [run_bind, run_quietly, hf.run_serial]
  dsimp only
  rw [run_bind, run_quietly, hf.run_state]
  dsimp only
  split
  · exact refl (r := Works rules id serial .trivial) watched flow hf htrivial
  · have hbusy := leads_change hf (f := fun flow => { flow with draining := true }) rfl rfl rfl
    rw [run_bind, run_quietly, Engine.run_update]
    dsimp only
    rw [run_bind_ok (run_engine _), run_ensuring]
    obtain ⟨flow', hl⟩ := works_drainLoop h _ _ _ hbusy.holds htrivial
    exact ⟨_, (hbusy.trans hl).trans (leads_change hl.holds rfl rfl rfl)⟩

/-- Evaluating the rules again. -/
theorem works_reevaluate (h : watcher.IsPassive) :
    Moves (Works rules id serial .trivial) (watcher.reevaluate id) := by
  intro watched flow hf htrivial
  unfold reevaluate
  rw [run_bind, run_quietly, hf.run_serial]
  exact Moves.bind (works_evaluateFrom h none _ 0) (fun _ => works_drain h) watched flow hf htrivial

end Watcher

end HerdBook
