import HerdBook.Proofs.Explanations
import HerdBook.Proofs.Steps

/-!
# Every action has a cause, and no cause counts twice

Where the concepts and adapters of a host begin no rounds themselves (`Host.IsPassive`), all flows
of an engine stay explained, whatever a program asks of it (`Watched.IsExplained`): what happens in
a flow is worked off in it alone, and other flows are opened and forgotten at most
(`Engine.Opens`).

## Main results

* `Watched.explains_answer`, `Watched.explains_program`: whatever the engine is asked, all flows
  stay explained and logs only grow at their ends.
* `Engine.events_caused`: what this says of the flows of an engine and of what was noticed of it.
-/

namespace HerdBook

open Effect Watched

variable {ω κ α β : Type}

/-! ### All flows -/

namespace Engine

/-- Rules and new states are added at most, and the ids that are retained stand for their states. -/
structure Opens (engine engine' : Engine ω κ) : Prop where
  rules : engine.rules ⊆ engine'.rules
  located : engine.IsLocated → engine'.IsLocated
  old : ∀ (n : Nat) (flow : Flow), engine.states[n]? = some flow → engine'.states[n]? = some flow
  new : ∀ (n : Nat) (flow : Flow), engine'.states[n]? = some flow →
    engine.states[n]? = some flow ∨ engine.states.length ≤ n ∧ flow.log = []

instance : IsPreorder (Engine ω κ) Opens where
  refl _ := ⟨List.Subset.refl _, id, fun _ _ h => h, fun _ _ h => .inl h⟩
  trans _ _ _ h h' := by
    refine ⟨List.Subset.trans h.rules h'.rules, h'.located ∘ h.located,
      fun n flow hf => h'.old n flow (h.old n flow hf), fun n flow hf => ?_⟩
    rcases h'.new n flow hf with hf | ⟨hn, hlog⟩
    · exact h.new n flow hf
    · refine .inr ⟨Nat.le_of_not_lt fun hlt => ?_, hlog⟩
      have hold := h.old n _ (List.getElem?_eq_getElem hlt)
      exact absurd (List.getElem?_eq_some_iff.mp hold).1 (Nat.not_lt.mpr hn)

/-- Where the states are the same, nothing is opened. -/
theorem opens_of_eq {engine engine' : Engine ω κ} (hr : engine.rules ⊆ engine'.rules)
    (hl : engine.IsLocated → engine'.IsLocated) (hs : engine'.states = engine.states) :
    Opens engine engine' :=
  ⟨hr, hl, fun _ _ h => hs.symm ▸ h, fun _ _ h => .inl (hs ▸ h)⟩

/-- The engine is read. -/
theorem opens_get : Moves (Opens (ω := ω) (κ := κ)) get := fun engine => refl engine

/-- A flow is opened. -/
theorem opens_openFlow {id : String} (engine : Engine ω κ) (started : Nat) :
    Opens engine (openFlow id { engine with started := started }) := by
  refine ⟨List.Subset.refl _, (steady_openFlow engine started).located, fun n flow hf => ?_,
    fun n flow hf => ?_⟩
  · exact List.getElem?_append_left (List.getElem?_eq_some_iff.mp hf).1 ▸ hf
  · change (engine.states ++ [Flow.start id])[n]? = some flow at hf
    by_cases hn : n < engine.states.length
    · exact .inl (List.getElem?_append_left hn ▸ hf)
    · refine .inr ⟨Nat.le_of_not_lt hn, ?_⟩
      rw [List.getElem?_append_right (Nat.le_of_not_lt hn)] at hf
      rw [List.mem_singleton.mp (List.mem_of_getElem? hf)]
      rfl

/-- A flow is ended. -/
theorem opens_endFlow {id : String} (engine : Engine ω κ) : Opens engine (endFlow id engine) :=
  opens_of_eq (List.Subset.refl _) (steady_endFlow engine).located rfl

/-- Flows are let go. -/
theorem opens_evict {id : String} (excess : Nat) (engine : Engine ω κ) :
    Opens engine (evict id excess engine) := by
  unfold evict
  generalize (engine.idle id).take excess = ids
  induction ids generalizing engine with
  | nil => exact refl engine
  | cons other rest ih =>
    exact IsTrans.trans _ _ _ (opens_endFlow engine) (ih (endFlow other engine))

/-- A flow is started. -/
theorem opens_startFlow : Moves (Opens (ω := ω) (κ := κ)) startFlow := by
  refine Moves.bind opens_get fun first => Moves.bind (fun engine => ?_) fun _ =>
    Moves.bind opens_get fun engine => ?_
  · exact opens_openFlow engine (engine.started + 1)
  · split
    · exact Moves.throw _
    · exact Moves.bind (fun engine => opens_evict _ engine) fun _ => Moves.pure _

/-- A rule is added. -/
theorem opens_registerRule (rule : Rule κ) : Moves (Opens (ω := ω)) (registerRule rule) := by
  refine Moves.bind opens_get fun engine => ?_
  have hadd : Moves (Opens (ω := ω) (κ := κ))
      (modify fun engine => { engine with rules := engine.rules ++ [rule] }) :=
    fun engine => opens_of_eq (List.subset_append_left _ _) id rfl
  split
  · exact Moves.throw_bind _ _
  · exact hadd

/-- Asking for a concept changes nothing. -/
theorem opens_requireConcept {handlers : Handlers ω κ} (concept : String) :
    Moves Opens (requireConcept handlers concept) := by
  intro engine
  rw [run_requireConcept_snd]
  exact refl engine

/-- On an engine whose ids stand for states, an id that is retained stands for a flow. -/
theorem IsLocated.hosts {engine : Engine ω κ} (h : engine.IsLocated) {id : String} {serial : Nat}
    (hget : Table.get? id engine.retained = some serial) : ∃ flow, engine.Hosts id serial flow := by
  obtain ⟨flow, hf, hi⟩ := h _ (Table.mem_of_get? hget)
  exact ⟨flow, hget, hf, hi⟩

end Engine

namespace Watched

/-- All that happened in all flows is explained. -/
structure IsExplained (watched : Watched ω κ) : Prop where
  located : watched.1.IsLocated
  flows : ∀ (serial : Nat) (flow : Flow), watched.1.states[serial]? = some flow →
    flow.IsExplained watched.1.rules serial watched.2
  fresh : ∀ serial, watched.1.states.length ≤ serial → Incident.handedIn serial watched.2 = []

/-- What is explained stays so, and logs only grow at their ends. -/
def Explains (watched watched' : Watched ω κ) : Prop :=
  watched.IsExplained → watched'.IsExplained ∧
    ∀ (serial : Nat) (flow : Flow), watched.1.states[serial]? = some flow →
      ∃ flow', watched'.1.states[serial]? = some flow' ∧ flow.log <+: flow'.log

instance : IsPreorder (Watched ω κ) Explains where
  refl _ h := ⟨h, fun _ flow hf => ⟨flow, hf, List.prefix_refl _⟩⟩
  trans _ _ _ h h' he := by
    obtain ⟨he₁, hlogs₁⟩ := h he
    obtain ⟨he₂, hlogs₂⟩ := h' he₁
    refine ⟨he₂, fun serial flow hf => ?_⟩
    obtain ⟨flow₁, hf₁, hlog₁⟩ := hlogs₁ serial flow hf
    obtain ⟨flow₂, hf₂, hlog₂⟩ := hlogs₂ serial flow₁ hf₁
    exact ⟨flow₂, hf₂, hlog₁.trans hlog₂⟩

/-- Opening flows leaves everything explained. -/
theorem explains_of_opens {watched : Watched ω κ} {engine' : Engine ω κ}
    (h : watched.1.Opens engine') : Explains watched (engine', watched.2) := by
  intro he
  have hlen : watched.1.states.length ≤ engine'.states.length := by
    refine Nat.le_of_not_lt fun hlt => ?_
    have hold := h.old _ _ (List.getElem?_eq_getElem hlt)
    rw [List.getElem?_eq_none (Nat.le_refl _)] at hold
    exact absurd hold (by simp)
  refine ⟨⟨h.located he.located, fun serial flow hf => ?_, fun serial hs =>
    he.fresh serial (Nat.le_trans hlen hs)⟩, fun serial flow hf =>
      ⟨flow, h.old serial flow hf, List.prefix_refl _⟩⟩
  rcases h.new serial flow hf with hf | ⟨hn, hlog⟩
  · exact (he.flows serial flow hf).rules_mono h.rules
  · exact Flow.isExplained_of_empty hlog (he.fresh serial hn)

/-- The same as a step. -/
theorem explains_quietly {act : Effect (Engine ω κ) α} (h : Moves Engine.Opens act) :
    Moves Explains (quietly act) := fun watched => explains_of_opens (h watched.1)

/-- Work on the world and the journal leaves everything explained. -/
theorem explains_of_still {act : Effect (Watched ω κ) α} (h : Moves Still act) :
    Moves Explains act := by
  intro watched
  obtain ⟨world, journal, hs⟩ := h watched
  rw [hs]
  exact explains_of_opens (Engine.opens_of_eq (List.Subset.refl _) (fun hl => hl) rfl)

/-- Work on one flow leaves all flows explained. -/
theorem explains_of_leads {watched watched' : Watched ω κ} {id : String} {serial : Nat}
    {flow flow' : Flow} (hf : watched.1.Hosts id serial flow)
    (h : Leads watched.1.rules id serial watched watched' flow flow') :
    Explains watched watched' := by
  intro he
  obtain ⟨more, hmore, hserial⟩ := h.seen
  have hothers : ∀ n, n ≠ serial → Incident.handedIn n more = [] := fun n hn =>
    Incident.handedIn_of_ne fun incident hi hother =>
      hn (Option.some.inj (hother.symm.trans (hserial incident hi)))
  have hstates : ∀ (n : Nat) (other : Flow), watched.1.states[n]? = some other →
      ∃ other', watched'.1.states[n]? = some other' ∧ other'.id = other.id ∧
        other.log <+: other'.log := by
    intro n other hn
    by_cases hsame : n = serial
    · subst hsame
      obtain rfl : flow = other := Option.some.inj (hf.state.symm.trans hn)
      exact ⟨flow', h.holds.state, h.holds.named.trans hf.named.symm, h.extend.log⟩
    · exact ⟨other, (h.same.others n hsame).trans hn, rfl, List.prefix_refl _⟩
  refine ⟨⟨he.located.of_states (h.same.retained ▸ List.Subset.refl _) fun n other hn => ?_,
    fun n other hn => ?_, fun n hn => ?_⟩, fun n other hn => ?_⟩
  · obtain ⟨other', hn', hid, -⟩ := hstates n other hn
    exact ⟨other', hn', hid⟩
  · rw [h.same.rules]
    by_cases hsame : n = serial
    · subst hsame
      obtain rfl : flow' = other := Option.some.inj (h.holds.state.symm.trans hn)
      exact h.holds.explained
    · rw [h.same.others n hsame] at hn
      rw [hmore]
      exact (he.flows n other hn).extend (.refl other) rfl more (hothers n hsame)
  · have hserial' := (List.getElem?_eq_some_iff.mp h.holds.state).1
    have hold : watched.1.states.length ≤ n := by
      refine Nat.le_of_not_lt fun hlt => ?_
      obtain ⟨other', hn', -⟩ := hstates n _ (List.getElem?_eq_getElem hlt)
      exact absurd (List.getElem?_eq_some_iff.mp hn').1 (Nat.not_lt.mpr hn)
    rw [hmore, Incident.handedIn_append, he.fresh n hold,
      hothers n (Nat.ne_of_gt (Nat.lt_of_lt_of_le hserial' hn)), List.append_nil]
  · obtain ⟨other', hn', -, hlog⟩ := hstates n other hn
    exact ⟨other', hn', hlog⟩

/-- Work on the flow that an id stands for leaves all flows explained. -/
theorem explains_of_works {act : Effect (Watched ω κ) α} {watched : Watched ω κ} {id : String}
    {serial : Nat} {flow : Flow} (hf : watched.1.Hosts id serial flow)
    (h : Moves (Works watched.1.rules id serial .trivial) act) :
    Explains watched (act.run watched).2 := by
  intro he
  obtain ⟨flow', hl⟩ := h watched flow ⟨hf, rfl, he.flows serial flow hf.state⟩ True.intro
  exact explains_of_leads hf hl he

end Watched

namespace Watcher

variable {watcher : Watcher ω κ}

/-- What is done with the flow that an id stands for, if it stands for one. -/
theorem explains_serial_bind {id : String} {next : Nat → Effect (Watched ω κ) β}
    (h : ∀ rules serial, Moves (Works rules id serial .trivial)
      (quietly (Engine.serial id) >>= next)) :
    Moves Explains (quietly (Engine.serial id) >>= next) := by
  intro watched he
  cases hget : Table.get? id watched.1.retained with
  | some serial =>
    obtain ⟨flow, hf⟩ := he.located.hosts hget
    exact explains_of_works hf (h _ serial) he
  | none =>
    have hrun : (Engine.serial id).run watched.1
        = (.error (.raised "LookupError" s!"unknown flow {id}"), watched.1) := by
      unfold Engine.serial
      rw [run_bind_ok (run_get watched.1), hget]
      rfl
    rw [run_bind, run_quietly, hrun]
    exact refl (r := Explains) watched he

/-- Working on a flow leaves all flows explained. -/
theorem explains_drain (h : watcher.IsPassive) (id : String) :
    Moves Explains (watcher.drain id) :=
  explains_serial_bind fun _ _ => works_drain h

/-- So does evaluating the rules again. -/
theorem explains_reevaluate (h : watcher.IsPassive) (id : String) :
    Moves Explains (watcher.reevaluate id) :=
  explains_serial_bind fun _ _ => works_reevaluate h

/-- So does performing an action that a round begins with. -/
theorem explains_perform (h : watcher.IsPassive) (concept action : String) (input : Value)
    (id : String) : Moves Explains (watcher.perform true concept action input id) := by
  refine Moves.bind (explains_quietly (Engine.opens_requireConcept concept)) fun _ => ?_
  intro watched he
  have hperform : ∀ rules serial, Moves (Works rules id serial .trivial)
      (watcher.performIn true concept action input id serial) :=
    fun rules serial => works_performIn h fun hdirect => absurd hdirect (by simp)
  cases hget : Table.get? id watched.1.retained with
  | some serial =>
    obtain ⟨flow, hf⟩ := he.located.hosts hget
    rw [run_bind, run_quietly, hf.run_serialOrNew]
    exact explains_of_works hf (hperform _ serial) he
  | none =>
    have hrun : (Engine.serialOrNew id).run watched.1
        = (.ok watched.1.states.length, watched.1.openFlow id) := by
      unfold Engine.serialOrNew
      rw [run_bind_ok (run_get watched.1), hget]
      rfl
    have hopen : Explains watched (watched.1.openFlow id, watched.2) :=
      explains_of_opens (Engine.opens_openFlow watched.1 watched.1.started)
    rw [run_bind, run_quietly, hrun]
    exact IsTrans.trans _ _ _ hopen
      (explains_of_works (Engine.hosts_openFlow watched.1 id) (hperform _ _)) he

/-- And so does a round that begins with an action. -/
theorem explains_invoke (h : watcher.IsPassive) (concept action : String) (input : Value)
    (flow : Option String) : Moves Explains (watcher.invoke concept action input flow) := by
  have hrest : ∀ id, Moves Explains
      (watcher.perform true concept action input id >>= fun event => watcher.drain id >>= fun _ =>
        pure event) :=
    fun id => Moves.bind (explains_perform h concept action input id) fun event =>
      Moves.bind (explains_drain h id) fun _ => Moves.pure event
  cases flow with
  | some id => exact hrest id
  | none => exact Moves.bind (explains_quietly Engine.opens_startFlow) hrest

end Watcher

/-! ### Hosts that leave the flows alone -/

/-- Calls of an engine that read it or only use its concepts. -/
def EngineCall.IsPassive : EngineCall κ → Prop
  | .call _ _ _ => True
  | .query _ _ _ => True
  | .log _ => True
  | .faults _ => True
  | .flows => True
  | .rules => True
  | _ => False

/-- A program that uses the engine for such calls only. -/
inductive Program.IsPassive : Program ω κ α → Prop where
  | done (outcome : Except Fault α) : IsPassive (.done outcome)
  | read {next : ω → Program ω κ α} (each : ∀ world, IsPassive (next world)) :
      IsPassive (.read next)
  | write {world : ω} {next : Program ω κ α} (rest : IsPassive next) :
      IsPassive (.write world next)
  | note {n : Note} {next : Program ω κ α} (rest : IsPassive next) : IsPassive (.note n next)
  | request {call : EngineCall κ} {next : Except Fault call.Answer → Program ω κ α}
      (passive : call.IsPassive) (each : ∀ reply, IsPassive (next reply)) :
      IsPassive (.request call next)

/-- A host whose concepts and adapters do not begin a round themselves, nor start or end a flow, nor
add a rule or a response. -/
structure Host.IsPassive (host : Host ω κ) : Prop where
  perform : ∀ concept action args, (host.perform concept action args).IsPassive
  query : ∀ concept name args, (host.query concept name args).IsPassive
  adapt : ∀ adapter args, (host.adapt adapter args).IsPassive

namespace Watched

/-- A passive program uses the world and the journal. -/
theorem still_program {answer : (call : EngineCall κ) → Effect (Watched ω κ) call.Answer}
    (ha : ∀ call : EngineCall κ, call.IsPassive → Moves Still (answer call))
    {program : Program ω κ α} (h : program.IsPassive) :
    Moves Still (program.watched answer) := by
  induction h with
  | done outcome => exact Moves.ofExcept outcome
  | read _ ih => exact fun watched => ih watched.1.world watched
  | @write world next _ ih =>
    exact Moves.bind (fun watched => ⟨world, watched.1.journal, rfl⟩) fun _ => ih
  | @note n next _ ih =>
    exact Moves.bind (fun watched => ⟨watched.1.world, watched.1.journal.push n, rfl⟩) fun _ => ih
  | request hp _ ih => exact Moves.bind (ha _ hp).attempt fun reply => ih reply

/-- A step that changes no part of the engine. -/
theorem still_quietly {act : Effect (Engine ω κ) α} (h : ∀ engine, (act.run engine).2 = engine) :
    Moves Still (quietly act) := by
  intro watched
  rw [run_quietly, h]
  exact refl watched

/-- The answer of a passive host to a passive call uses the world and the journal. -/
theorem still_answer {host : Host ω κ} (h : host.IsPassive) (depth : Nat) (call : EngineCall κ)
    (hc : call.IsPassive) : Moves Still (answer host depth call) := by
  induction depth generalizing call with
  | zero => exact Moves.throw _
  | succ depth ih =>
    have hrequire : ∀ name, Moves Still (quietly (Engine.requireConcept
        (host.handlers (Engine.answer host depth) depth) name)) :=
      fun name => still_quietly (Engine.run_requireConcept_snd name)
    have hflow : ∀ id (engine : Engine ω κ), ((Engine.flow id).run engine).2 = engine := by
      intro id engine
      unfold Engine.flow Engine.serial
      rw [run_bind, run_bind_ok (run_get engine)]
      cases Table.get? id engine.retained <;> rfl
    have hread : ∀ {γ : Type} (id : String) (f : Flow → γ), Moves Still
        (quietly (do return f (← Engine.flow id)) : Effect (Watched ω κ) γ) := by
      intro γ id f
      refine still_quietly fun engine => ?_
      rw [run_bind]
      have hsame := hflow id engine
      rcases hrun : (Engine.flow id).run engine with ⟨_ | flow, engine'⟩ <;> rw [hrun] at hsame <;>
        exact hsame
    cases call with
    | call name action args =>
      exact Moves.bind (hrequire name) fun _ => still_program ih (h.perform name action args)
    | query name query args =>
      exact Moves.bind (hrequire name) fun _ => still_program ih (h.query name query args)
    | log flow => exact hread flow Flow.log
    | faults flow => exact hread flow Flow.faults
    | flows => exact still_quietly fun _ => rfl
    | rules => exact still_quietly fun _ => rfl
    | invoke _ _ _ _ => exact hc.elim
    | reevaluate _ => exact hc.elim
    | startFlow => exact hc.elim
    | endFlow _ => exact hc.elim
    | registerRule _ => exact hc.elim
    | registerTerminal _ _ _ => exact hc.elim

/-- Whatever the engine of a passive host is asked, all flows stay explained. -/
theorem explains_answer {host : Host ω κ} (h : host.IsPassive) (depth : Nat)
    (call : EngineCall κ) : Moves Explains (answer host depth call) := by
  cases depth with
  | zero => exact Moves.throw _
  | succ depth =>
    by_cases hc : call.IsPassive
    · exact explains_of_still (still_answer h (depth + 1) call hc)
    have hw : (watcher host (Engine.answer host depth) (answer host depth) depth).IsPassive :=
      ⟨fun _ _ _ => still_program (still_answer h depth) (h.perform _ _ _),
        fun _ _ => still_program (still_answer h depth) (h.adapt _ _)⟩
    cases call with
    | invoke name action input flow => exact Watcher.explains_invoke hw name action input flow
    | reevaluate flow => exact Watcher.explains_reevaluate hw flow
    | startFlow => exact explains_quietly Engine.opens_startFlow
    | endFlow flow => exact explains_quietly fun engine => Engine.opens_endFlow engine
    | registerRule rule =>
      exact explains_quietly (Moves.bind (Moves.ofExcept _) fun rule =>
        Engine.opens_registerRule rule)
    | registerTerminal name action key =>
      refine Moves.bind (fun watched he => ?_) fun _ => explains_quietly fun engine =>
        Engine.opens_of_eq (List.Subset.refl _) (fun hl => hl) rfl
      refine ⟨⟨he.located, fun serial flow hf => ?_, fun serial hs => ?_⟩, fun serial flow hf =>
        ⟨flow, hf, List.prefix_refl _⟩⟩
      · exact (he.flows serial flow hf).extend (.refl flow) rfl _ rfl
      · change Incident.handedIn serial (watched.2 ++ [_]) = []
        rw [Incident.handedIn_append, he.fresh serial hs]
        rfl
    | call _ _ _ => exact absurd True.intro hc
    | query _ _ _ => exact absurd True.intro hc
    | log _ => exact absurd True.intro hc
    | faults _ => exact absurd True.intro hc
    | flows => exact absurd True.intro hc
    | rules => exact absurd True.intro hc

/-- So they do while a program is carried out. -/
theorem explains_program {host : Host ω κ} (h : host.IsPassive) (depth : Nat)
    (program : Program ω κ α) : Moves Explains (program.watched (answer host depth)) := by
  induction program with
  | done outcome => exact Moves.ofExcept outcome
  | read next ih => exact fun watched => ih watched.1.world watched
  | write world next ih =>
    refine Moves.bind (explains_quietly fun engine => ?_) fun _ => ih
    exact Engine.opens_of_eq (List.Subset.refl _) (fun hl => hl) rfl
  | note n next ih =>
    refine Moves.bind (explains_quietly fun engine => ?_) fun _ => ih
    exact Engine.opens_of_eq (List.Subset.refl _) (fun hl => hl) rfl
  | request call next ih =>
    exact Moves.bind (explains_answer h depth call).attempt fun reply => ih reply

/-- On an engine without flows there is nothing to explain. -/
theorem isExplained_start (world : ω) (maxFlowEvents maxRetained : Limit) :
    IsExplained ((Engine.start world maxFlowEvents maxRetained : Engine ω κ), []) where
  located _ he := absurd he (by simp [Engine.start])
  flows _ _ hf := absurd hf (by simp [Engine.start])
  fresh _ _ := rfl

end Watched

namespace Engine

/-- Whatever a program does with the engine of a passive host: no combination is handed to a rule
twice in a flow; every event in the log of a flow has a cause, unless a round began with it; and
whatever is done later, logs only grow at their ends. -/
theorem events_caused {host : Host ω κ} (h : host.IsPassive) (world : ω)
    (maxFlowEvents maxRetained : Limit) (depth : Nat) (program : Program ω κ α)
    {outcome : Except Fault α} {engine : Engine ω κ} {seen : List (Incident κ)}
    (hrun : (program.watched (Watched.answer host depth)).run
      (start world maxFlowEvents maxRetained, []) = (outcome, engine, seen)) :
    (program.run (answer host depth)).run (start world maxFlowEvents maxRetained)
        = (outcome, engine) ∧
      ∀ (serial : Nat) (flow : Flow), engine.states[serial]? = some flow →
        (Incident.handedIn serial seen).Nodup ∧
        (∀ event ∈ flow.log, .performed serial true event ∉ seen →
          flow.Caused engine.rules serial seen event) ∧
        ∀ (depth' : Nat) {β : Type} (further : Program ω κ β), ∃ flow',
          ((further.run (answer host depth')).run engine).2.states[serial]? = some flow' ∧
            flow.log <+: flow'.log := by
  have hexplained : Watched.IsExplained (engine, seen) := by
    have hmoves := (Watched.explains_program h depth program).of_run hrun
    exact (hmoves (Watched.isExplained_start world maxFlowEvents maxRetained)).1
  refine ⟨?_, fun serial flow hf => ⟨(hexplained.flows serial flow hf).once, fun event he hd => ?_,
    fun depth' β further => ?_⟩⟩
  · rw [Watched.Erases.program (Watched.erases_answer host depth) program _ [], hrun]
  · exact ((hexplained.flows serial flow hf).caused event he).resolve_left hd
  · rw [Watched.Erases.program (Watched.erases_answer host depth') further engine seen]
    exact (Watched.explains_program h depth' further (engine, seen) hexplained).2 serial flow hf

/-- A clock whose every tick has two hands to move. -/
def clock : Host Unit Unit where
  isRegistered _ name := name == "Clock"
  perform _ _ _ := .done (.ok (.object []))
  query _ _ args := .done (.ok args)
  adapterName _ := "hands"
  adapt _ _ := .done (.ok (.list [.object [("hand", .int 1)], .object [("hand", .int 2)]]))
  wait := ⟨pure (), pure ()⟩

/-- A rule that moves the hands. -/
def moving : Rule Unit where
  name := "moving"
  patterns := [⟨"Clock", "tick", .object [], .object []⟩]
  stages := [.query () (.object []) (.object [("hand", .symbol (Symbol.plain "moving" "hand"))])]
  actions := [⟨"Clock", "move", .object [("hand", .symbol (Symbol.plain "moving" "hand"))]⟩]

/-- The rule is added, and the clock ticks. -/
def ticks : Program Unit Unit Unit :=
  .request (.registerRule moving) fun _ =>
  .request (.invoke "Clock" "tick" (.object []) none) fun _ => .done (.ok ())

/-- The clock before it ticks, under watch. -/
def clockAtRest : Watched Unit Unit := (start () (.count 9) (.count 9), [])

/-- A tick is followed by two moves, of which the rule is the cause. -/
theorem events_caused_clock : ∃ engine seen flow,
    (ticks.run (answer clock 2)).run clockAtRest.1 = (.ok (), engine) ∧
      engine.states[0]? = some flow ∧ flow.log.length = 3 ∧
      (Incident.handedIn 0 seen).length = 1 ∧ (Incident.handedIn 0 seen).Nodup ∧
      ∀ event ∈ flow.log, .performed 0 true event ∉ seen →
        flow.Caused engine.rules 0 seen event := by
  have hpassive : clock.IsPassive :=
    ⟨fun _ _ _ => .done _, fun _ _ _ => .done _, fun _ _ => .done _⟩
  have hticks : ((ticks.watched (Watched.answer clock 2)).run clockAtRest).1.isOk = true ∧
      ((ticks.watched (Watched.answer clock 2)).run clockAtRest).2.1.states.map
        (fun flow => flow.log.length) = [3] ∧
      (Incident.handedIn 0
        ((ticks.watched (Watched.answer clock 2)).run clockAtRest).2.2).length = 1 := by
    decide +kernel
  rcases hrun : (ticks.watched (Watched.answer clock 2)).run clockAtRest
    with ⟨_ | _, engine, seen⟩ <;> rw [hrun] at hticks
  · exact absurd hticks.1 Bool.false_ne_true
  obtain ⟨-, hlengths, hhanded⟩ := hticks
  obtain ⟨hplain, hflows⟩ := events_caused hpassive () (.count 9) (.count 9) 2 ticks hrun
  obtain ⟨flow, hstates, hlength⟩ : ∃ flow, engine.states = [flow] ∧ flow.log.length = 3 := by
    rcases hs : engine.states with _ | ⟨flow, _ | ⟨_, _⟩⟩ <;> rw [hs] at hlengths
    · exact absurd hlengths (by simp)
    · exact ⟨flow, rfl, by simpa using hlengths⟩
    · exact absurd hlengths (by simp)
  have hflow : engine.states[0]? = some flow := by rw [hstates]; rfl
  obtain ⟨hnodup, hcaused, -⟩ := hflows 0 flow hflow
  exact ⟨engine, seen, flow, hplain, hflow, hlength, hhanded, hnodup, hcaused⟩

end Engine

end HerdBook
