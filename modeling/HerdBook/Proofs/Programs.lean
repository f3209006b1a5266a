import HerdBook.Proofs.Settled
import HerdBook.Script.Run

/-!
# Programs as effects

Carrying a program out is an effect on the engine, and the ways in which programs are put together
are those in which effects are: `Program.run_attemptThen`, `Effect.Upholds.attemptThen` and
`Effect.Moves.attemptThen` for what a run keeps, and `Effect.Yields.attemptThen`,
`Effect.Yields.andThen`, `Effect.Yields.andThen_error` for what it comes to.

## Main results

* `World.isLocal_handlers`: where all concepts are those of the herd book, actions and adapters use
  nothing of the engine but the world and the journal, although an adapter calls the engine.
-/

namespace HerdBook

open Effect

variable {ω κ α β : Type}

namespace Program

variable {answer : (call : EngineCall κ) → Effect (Engine ω κ) call.Answer}

/-- A program that goes on with an outcome is carried out in two parts. -/
theorem run_attemptThen (program : Program ω κ α) (next : Except Fault α → Program ω κ β)
    (engine : Engine ω κ) :
    ((program.attemptThen next).run answer).run engine
      = ((next ((program.run answer).run engine).1).run answer).run
          ((program.run answer).run engine).2 := by
  induction program generalizing engine with
  | done outcome => rfl
  | read more ih => exact ih engine.world engine
  | write world more ih => exact ih { engine with world := world }
  | note n more ih => exact ih { engine with journal := engine.journal.push n }
  | request call more ih =>
    exact ih ((answer call).run engine).1 ((answer call).run engine).2

end Program

namespace Effect.Upholds

variable {P : Engine ω κ → Prop}
  {answer : (call : EngineCall κ) → Effect (Engine ω κ) call.Answer} {program : Program ω κ α}

/-- A program that goes on with an outcome. -/
theorem attemptThen {next : Except Fault α → Program ω κ β} (h : Keeps P (program.run answer))
    (hn : ∀ outcome, Keeps P ((next outcome).run answer)) :
    Keeps P ((program.attemptThen next).run answer) := by
  intro engine he
  rw [Program.run_attemptThen]
  exact hn _ _ (h engine he).1

/-- A program that goes on after a success. -/
theorem andThen {next : α → Program ω κ β} (h : Keeps P (program.run answer))
    (hn : ∀ a, Keeps P ((next a).run answer)) : Keeps P ((program >>= next).run answer) := by
  refine attemptThen h fun outcome => ?_
  cases outcome with
  | ok a => exact hn a
  | error fault => exact .throw fault

end Effect.Upholds

namespace Effect.Moves

variable {R : Engine ω κ → Engine ω κ → Prop}
  {answer : (call : EngineCall κ) → Effect (Engine ω κ) call.Answer} {program : Program ω κ α}

/-- A program that goes on with an outcome. -/
theorem attemptThen [IsTrans (Engine ω κ) R] {next : Except Fault α → Program ω κ β}
    (h : Moves R (program.run answer)) (hn : ∀ outcome, Moves R ((next outcome).run answer)) :
    Moves R ((program.attemptThen next).run answer) := by
  intro engine
  rw [Program.run_attemptThen]
  exact IsTrans.trans _ _ _ (h engine) (hn _ _)

/-- A program that goes on after a success. -/
theorem andThen [IsPreorder (Engine ω κ) R] {next : α → Program ω κ β}
    (h : Moves R (program.run answer)) (hn : ∀ a, Moves R ((next a).run answer)) :
    Moves R ((program >>= next).run answer) := by
  refine attemptThen h fun outcome => ?_
  cases outcome with
  | ok a => exact hn a
  | error fault => exact ofExcept _

/-- A program that goes on with something of the world, where only what it goes on with counts. -/
theorem reading_bind {f : ω → α} {next : α → Program ω κ β} {engine : Engine ω κ}
    (h : R engine (((next (f engine.world)).run answer).run engine).2) :
    R engine ((((Program.reading f) >>= next).run answer).run engine).2 := h

end Effect.Moves

namespace Effect.Yields

variable {τ : Type} {shows : Engine ω κ → τ → Prop}
  {answer : (call : EngineCall κ) → Effect (Engine ω κ) call.Answer} {program : Program ω κ α}
  {before between after : τ} {outcome' : Except Fault β}

/-- A program that goes on with an outcome. -/
theorem attemptThen {outcome : Except Fault α} {next : Except Fault α → Program ω κ β}
    (h : Yields shows (program.run answer) before outcome between)
    (hn : Yields shows ((next outcome).run answer) between outcome' after) :
    Yields shows ((program.attemptThen next).run answer) before outcome' after := by
  intro engine hs
  obtain ⟨engine₁, h₁, hs₁⟩ := h engine hs
  rw [Program.run_attemptThen, h₁]
  exact hn engine₁ hs₁

/-- A program that goes on after a success. -/
theorem andThen {a : α} {next : α → Program ω κ β}
    (h : Yields shows (program.run answer) before (.ok a) between)
    (hn : Yields shows ((next a).run answer) between outcome' after) :
    Yields shows ((program >>= next).run answer) before outcome' after :=
  attemptThen h hn

/-- A program that is over after a fault. -/
theorem andThen_error {fault : Fault} {next : α → Program ω κ β}
    (h : Yields shows (program.run answer) before (.error fault) after) :
    Yields shows ((program >>= next).run answer) before (.error fault) after :=
  attemptThen h (ofExcept _ after)

end Effect.Yields

/-! ### The herd book's own concepts -/

namespace World

/-- All concepts are those of the herd book. -/
def IsPlain (world : World) : Prop := ∀ entry ∈ world.members, ∃ concept, entry.2 = .book concept

/-- What a plain world holds under a name is a concept of the herd book. -/
theorem IsPlain.of_member? {world : World} (h : world.IsPlain) {name : String} {member : Member}
    (hm : world.member? name = some member) : ∃ concept, member = .book concept :=
  h (name, member) (Table.mem_of_get? hm)

/-- A plain world stays so when a concept of the herd book changes. -/
theorem IsPlain.put {world : World} (h : world.IsPlain) (name : String) (concept : Concept)
    (issued : Issued) : (World.put name (.book concept) { world with issued := issued }).IsPlain :=
      by
  intro entry he
  rcases Table.eq_or_mem_of_mem_set he with rfl | he
  · exact ⟨concept, rfl⟩
  · exact h entry he

/-- A plain world stays so while others have a turn. -/
theorem IsPlain.onRequests {world : World} (h : world.IsPlain) (f : Requests → Requests) :
    (world.onRequests f).IsPlain := by
  intro entry he
  obtain ⟨before, hb, rfl⟩ := List.mem_map.mp he
  obtain ⟨concept, hc⟩ := h before hb
  rw [hc]
  cases concept with
  | requests state => exact ⟨.requests (f state), rfl⟩
  | accounts state => exact ⟨.accounts state, rfl⟩
  | herds store => exact ⟨.herds store, rfl⟩
  | animals store => exact ⟨.animals store, rfl⟩

/-- Engines that differ in the world and the journal at most, of which the first one is only looked
at when its world is plain. -/
def Drifts (engine engine' : Rehearsal) : Prop :=
  engine.world.IsPlain → ∃ world journal, World.IsPlain world ∧
    engine' = { engine with world := world, journal := journal }

instance : IsPreorder Rehearsal Drifts where
  refl engine h := ⟨engine.world, engine.journal, h, rfl⟩
  trans _ _ _ h h' hw := by
    obtain ⟨world, journal, hw₁, rfl⟩ := h hw
    obtain ⟨world', journal', hw₂, rfl⟩ := h' hw₁
    exact ⟨world', journal', hw₂, rfl⟩

variable {answer : (call : EngineCall AdapterCode) → Effect Rehearsal call.Answer}

/-- Notes go to the journal. -/
theorem drifts_notes (lines : List Note) :
    Moves Drifts ((Program.notes lines : ScriptProgram Unit).run answer) := by
  induction lines with
  | nil => exact Moves.pure ()
  | cons n rest ih =>
    refine Moves.bind (fun engine hw => ?_) fun _ => ih
    exact ⟨engine.world, engine.journal.push n, hw, rfl⟩

/-- Performing an action of a concept of the herd book. -/
theorem drifts_performBook (name action : String) (args : Fields) (concept : Concept) :
    Moves Drifts ((performBook name action args concept).run answer) := by
  unfold performBook
  refine Moves.andThen (fun engine hw => ⟨engine.world, engine.journal, hw, rfl⟩) fun issued => ?_
  split
  · exact Moves.ofExcept _
  · refine Moves.andThen (fun engine hw => ?_) fun _ => Moves.andThen (Moves.ofExcept _) fun a =>
      Moves.andThen (drifts_notes _) fun _ => Moves.ofExcept _
    exact ⟨_, engine.journal, hw.put _ _ _, rfl⟩

/-- The same the way every concept performs its actions. -/
theorem drifts_performOf (name action : String) (args : Value) (concept : Concept) :
    Moves Drifts ((performOf name action args (.book concept)).run answer) := by
  have hcall : ∀ action args, Moves Drifts
      ((callMember name action args (.book concept)).run answer) := by
    intro action args
    unfold callMember
    split
    · exact Moves.ofExcept _
    · split
      · exact drifts_performBook _ _ _ _
      · exact Moves.ofExcept _
  change Moves Drifts ((performMember name action args (.book concept)).run answer)
  unfold performMember
  refine Moves.andThen (Moves.ofExcept _) fun target => ?_
  split
  · refine Moves.andThen (hcall _ _) fun v => ?_
    split <;> exact Moves.ofExcept _
  · split <;> exact Moves.ofExcept _

/-- What is done with the concept under a name. -/
theorem drifts_withMember {next : Member → ScriptProgram Value} (name : String)
    (h : ∀ concept, Moves Drifts ((next (.book concept)).run answer)) :
    Moves Drifts ((withMember name next).run answer) := by
  intro engine hw
  refine Effect.Moves.reading_bind (R := Drifts) ?_ hw
  cases hm : engine.world.member? name with
  | none => exact Moves.ofExcept _ _
  | some member =>
    obtain ⟨concept, rfl⟩ := hw.of_member? hm
    exact Moves.attemptThen (h concept) (fun outcome => Moves.ofExcept _) engine

/-- A call of a concept from inside. -/
theorem drifts_answer_call (depth : Nat) (concept action : String) (args : Value) :
    Moves Drifts (Engine.answer host depth (.call concept action args)) := by
  cases depth with
  | zero => exact Moves.throw _
  | succ depth =>
    refine Moves.bind (fun engine => ?_) fun _ => ?_
    · rw [Engine.run_requireConcept_snd]
      exact refl engine
    · exact drifts_withMember _ fun c => drifts_performOf _ _ _ c

/-- A query of a concept from inside. -/
theorem drifts_answer_query (depth : Nat) (concept query : String) (args : Value) :
    Moves Drifts (Engine.answer host depth (.query concept query args)) := by
  cases depth with
  | zero => exact Moves.throw _
  | succ depth =>
    refine Moves.bind (fun engine => ?_) fun _ => ?_
    · rw [Engine.run_requireConcept_snd]
      exact refl engine
    · refine drifts_withMember _ fun c => ?_
      change Moves Drifts (Program.run _ (if query.startsWith "_" then
        performOf concept query args (.book c) else Program.fail Target.impureQuery))
      split
      · exact drifts_performOf _ _ _ c
      · exact Moves.ofExcept _

/-- What a concept answers is made into rows. -/
theorem drifts_rowsOfAnswer (depth : Nat) (name : String) (fields : List String) (answer : Value) :
    Moves Drifts ((Lookup.rowsOfAnswer name fields answer : ScriptProgram Value).run
      (Engine.answer host depth)) := by
  unfold Lookup.rowsOfAnswer
  refine Moves.andThen (Moves.ofExcept _) fun outcome => ?_
  split
  · exact Moves.andThen (drifts_notes _) fun _ =>
      Moves.andThen (Moves.ofExcept _) fun _ => Moves.ofExcept _
  · exact Moves.andThen (Moves.ofExcept _) fun _ => Moves.ofExcept _

/-- A concept is asked a query, or for an action. -/
theorem drifts_askConcept (depth : Nat) (concept action : String) (fields : List String)
    (args : Fields) : Moves Drifts
      ((Lookup.askConcept concept action fields args : ScriptProgram Value).run
        (Engine.answer host depth)) := by
  have hcall : ∀ call : EngineCall AdapterCode, Moves Drifts (Engine.answer host depth call) →
      Moves Drifts ((Program.ask call).run (Engine.answer host depth)) :=
    fun call h => Moves.bind h.attempt fun _ => Moves.ofExcept _
  have hfree : ∀ parameters, Moves Drifts
      ((Program.requireFree parameters args : ScriptProgram Unit).run
        (Engine.answer host depth)) := by
    intro parameters
    unfold Program.requireFree
    split <;> exact Moves.ofExcept _
  unfold Lookup.askConcept
  split
  · exact Moves.andThen (Moves.andThen (hfree _) fun _ => hcall _ (drifts_answer_query _ _ _ _))
      fun _ => drifts_rowsOfAnswer _ _ _ _
  · exact Moves.andThen (Moves.andThen (hfree _) fun _ => hcall _ (drifts_answer_call _ _ _ _))
      fun _ => drifts_rowsOfAnswer _ _ _ _

/-- An adapter of the herd book asks a concept. -/
theorem drifts_lookup (depth : Nat) (question : Lookup) (args : Value) :
    Moves Drifts ((question.program args : ScriptProgram Value).run
      (Engine.answer host depth)) := by
  unfold Lookup.program
  split
  · exact drifts_askConcept _ _ _ _ _
  · exact Moves.ofExcept _
  · split
    · exact drifts_askConcept _ _ _ _ _
    · exact Moves.andThen (drifts_notes _) fun _ =>
        Moves.andThen (Moves.ofExcept _) fun _ => Moves.ofExcept _
  · exact Moves.ofExcept _

/-- Asking whether there is time changes nothing. -/
theorem run_requireTime (world : World) :
    requireTime.run world
      = (if world.timeLeft = .over then .error .abandoned else .ok (), world) := by
  unfold requireTime
  rw [run_bind_ok (run_get world)]
  split <;> rfl

/-- Where all concepts are those of the herd book, actions and the adapters of the rules use nothing
of the engine but the world and the journal. -/
theorem isLocal_handlers {rules : List (Rule AdapterCode)} (depth reentries : Nat)
    (h : ∀ rule ∈ rules, ∀ adapter inputs outputs,
      .query adapter inputs outputs ∈ rule.stages → ∃ question, adapter = .lookup question) :
    (host.handlers (Engine.answer host depth) reentries).IsLocal IsPlain rules where
  perform concept action input engine hw :=
    drifts_withMember concept
      (fun c => drifts_performOf concept action (.object input) c) engine hw
  adapt rule hr adapter inputs outputs hmem args engine hw := by
    obtain ⟨question, rfl⟩ := h rule hr adapter inputs outputs hmem
    exact drifts_lookup depth question args engine hw
  before world hw := by
    change (((requireTime >>= fun _ => _ : Effect World Unit)).run world).2.IsPlain
    rw [run_bind, run_requireTime]
    split
    · next h =>
      obtain ⟨-, rfl⟩ := Prod.mk.inj h
      exact hw.onRequests _
    · next h =>
      obtain ⟨-, rfl⟩ := Prod.mk.inj h
      exact hw
  after world hw := by
    change (((requireTime >>= fun _ => _ : Effect World Unit)).run world).2.IsPlain
    rw [run_bind, run_requireTime]
    split
    · next h =>
      obtain ⟨-, rfl⟩ := Prod.mk.inj h
      exact (hw.onRequests _).onRequests _
    · next h =>
      obtain ⟨-, rfl⟩ := Prod.mk.inj h
      exact hw

end World

end HerdBook
