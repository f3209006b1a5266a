import HerdBook.Proofs.Programs

/-!
# Scenes

What matters of an engine of the herd book while it works on one flow: the records of the flow and
what the four concepts keep. Who waits for responses, and what has been written to the journal, is
left out, since others may have a turn whenever the engine waits.

* `Ledger`: what the concepts keep; `World.Shows` says that a world keeps it.
* `Scene`: the flow and the ledger; `Rehearsal.Shows` says that an engine is in the scene.

## Main results

* `Scene.plays_waiting`: the turns of others change no scene.
* `Scene.plays_record`: recording an action adds an event.
-/

namespace HerdBook

open Effect

/-- The kind of a concept. -/
def Concept.kind : Concept → Concept.Kind
  | .requests _ => .requests
  | .accounts _ => .accounts
  | .herds _ => .herds
  | .animals _ => .animals

/-- A call leaves a concept of its kind. -/
theorem Concept.kind_of_answer? {concept : Concept} {action : String} {args : Fields}
    {issued : Issued} {turn : Concept.Turn} (h : concept.answer? action args issued = some turn) :
    turn.concept.kind = concept.kind := by
  cases concept <;>
  · simp only [Concept.answer?, Option.map_eq_some_iff] at h
    obtain ⟨_, -, rfl⟩ := h
    rfl

/-- The concept without the numbers of ids that it has handed out. These are told to it anew with
every call, so they tell nothing. -/
def Concept.unnumbered : Concept → Concept
  | .requests state => .requests { state with issued := 0, tickets := 0 }
  | .accounts state => .accounts { state with users := { state.users with issued := 0 }, tokens := 0
    }
  | .herds store => .herds { store with issued := 0 }
  | .animals store => .animals { store with issued := 0 }

/-- What a call comes to does not depend on these numbers. -/
theorem Concept.answer?_unnumbered (concept : Concept) (action : String) (args : Fields)
    (issued : Issued) :
    concept.unnumbered.answer? action args issued = concept.answer? action args issued := by
  cases concept <;> rfl

/-- Concepts that are the same but for these numbers are of one kind. -/
theorem Concept.kind_unnumbered (concept : Concept) : concept.unnumbered.kind = concept.kind := by
  cases concept <;> rfl

/-! ### Ledgers -/

/-- What the four concepts keep, but for the waiters on responses. -/
structure Ledger where
  limit : Limit
  remembered : List (String × Fields)
  responses : List (String × Fields)
  accounts : Accounts
  herds : Store
  animals : Store
  issued : Issued

namespace Ledger

/-- The concept of a kind, but for that of the requests. -/
def concept? (ledger : Ledger) : Concept.Kind → Option Concept
  | .requests => none
  | .accounts => some (.accounts ledger.accounts)
  | .herds => some (.herds ledger.herds)
  | .animals => some (.animals ledger.animals)

/-- The ledger after a call of a concept, but for that of the requests. -/
def afterTurn (ledger : Ledger) (turn : Concept.Turn) : Ledger :=
  match turn.concept with
  | .requests _ => ledger
  | .accounts state => { ledger with accounts := state, issued := turn.issued }
  | .herds store => { ledger with herds := store, issued := turn.issued }
  | .animals store => { ledger with animals := store, issued := turn.issued }

/-- The ledger after a response to a request. The first response to a request that is remembered
counts. -/
def respond (ledger : Ledger) (rid : String) (body : Fields) : Ledger :=
  if Table.has rid ledger.remembered && !Table.has rid ledger.responses then
    { ledger with responses := Table.set rid body ledger.responses }
  else ledger

/-- After a turn the concept of its kind is the one that the turn leaves. -/
theorem concept?_afterTurn {ledger : Ledger} {turn : Concept.Turn}
    (h : turn.concept.kind ≠ .requests) (kind : Concept.Kind) :
    (ledger.afterTurn turn).concept? kind
      = if turn.concept.kind = kind then some turn.concept else ledger.concept? kind := by
  obtain ⟨outcome, concept, issued⟩ := turn
  cases concept <;> cases kind <;> first | rfl | exact absurd rfl h

/-- After a turn the ids are handed out that the turn says. -/
theorem issued_afterTurn {ledger : Ledger} {turn : Concept.Turn}
    (h : turn.concept.kind ≠ .requests) : (ledger.afterTurn turn).issued = turn.issued := by
  obtain ⟨outcome, concept, issued⟩ := turn
  cases concept <;> first | rfl | exact absurd rfl h

/-- A turn leaves what is known of the requests. -/
theorem requests_afterTurn (ledger : Ledger) (turn : Concept.Turn) :
    (ledger.afterTurn turn).limit = ledger.limit ∧
      (ledger.afterTurn turn).remembered = ledger.remembered ∧
      (ledger.afterTurn turn).responses = ledger.responses := by
  obtain ⟨outcome, concept, issued⟩ := turn
  cases concept <;> exact ⟨rfl, rfl, rfl⟩

/-- A response concerns the requests only. -/
@[simp] theorem accounts_respond (ledger : Ledger) (rid : String) (body : Fields) :
    (ledger.respond rid body).accounts = ledger.accounts := by
  unfold respond
  split <;> rfl

/-- A response leaves every other concept as it is. -/
@[simp] theorem concept?_respond (ledger : Ledger) (rid : String) (body : Fields)
    (kind : Concept.Kind) : (ledger.respond rid body).concept? kind = ledger.concept? kind := by
  unfold respond
  split <;> cases kind <;> rfl

/-- A response hands out no ids. -/
@[simp] theorem issued_respond (ledger : Ledger) (rid : String) (body : Fields) :
    (ledger.respond rid body).issued = ledger.issued := by
  unfold respond
  split <;> rfl

end Ledger

/-- The world keeps what the ledger says, under the usual names, and there is time enough. -/
structure World.Shows (world : World) (ledger : Ledger) : Prop where
  requests : ∃ state, world.member? Rules.requesting = some (.book (.requests state)) ∧
    state.limit = ledger.limit ∧ state.requests = ledger.remembered ∧
    state.responses = ledger.responses
  concepts : ∀ kind concept, ledger.concept? kind = some concept → ∃ kept,
    world.member? kind.name = some (.book kept) ∧ kept.unnumbered = concept.unnumbered
  issued : world.issued = ledger.issued
  timeLeft : world.timeLeft = .ample

namespace World.Shows

variable {world : World} {ledger : Ledger}

/-- Every concept is registered. -/
theorem isRegistered (h : world.Shows ledger) (kind : Concept.Kind) :
    World.host.isRegistered world kind.name = true := by
  change (world.member? kind.name).isSome = true
  have hkept : ∀ concept, ledger.concept? kind = some concept →
      (world.member? kind.name).isSome = true := by
    intro concept hc
    obtain ⟨kept, hm, -⟩ := h.concepts kind concept hc
    exact Option.isSome_iff_exists.mpr ⟨_, hm⟩
  cases kind with
  | requests =>
    obtain ⟨state, hstate, -⟩ := h.requests
    exact Option.isSome_iff_exists.mpr ⟨_, hstate⟩
  | accounts => exact hkept _ rfl
  | herds => exact hkept _ rfl
  | animals => exact hkept _ rfl

end World.Shows

/-- What is found in a table whose values are changed. -/
theorem Table.get?_map_snd {α β γ : Type} [DecidableEq α] (key : α) (f : β → γ)
    (entries : List (α × β)) :
    Table.get? key (entries.map fun entry => (entry.1, f entry.2))
      = (Table.get? key entries).map f := by
  induction entries with
  | nil => rfl
  | cons entry rest ih =>
    obtain ⟨k, v⟩ := entry
    by_cases hk : k = key <;> simp [Table.get?, hk, ih]

/-- A change of the waiters changes nothing that a ledger says. -/
theorem World.Shows.onRequests {world : World} {ledger : Ledger} (h : world.Shows ledger)
    {f : Requests → Requests} (hf : ∀ state, (f state).limit = state.limit ∧
      (f state).requests = state.requests ∧ (f state).responses = state.responses) :
    (world.onRequests f).Shows ledger where
  requests := by
    obtain ⟨state, hstate, hl, hq, hr⟩ := h.requests
    refine ⟨f state, ?_, (hf state).1.trans hl, (hf state).2.1.trans hq, (hf state).2.2.trans hr⟩
    change Table.get? _ (world.members.map fun entry => (entry.1, onMember f entry.2)) = _
    rw [Table.get?_map_snd, show Table.get? _ world.members = _ from hstate]
    rfl
  concepts kind concept hc := by
    obtain ⟨kept, hm, hu⟩ := h.concepts kind concept hc
    refine ⟨kept, ?_, hu⟩
    have hkind : kept.kind = concept.kind := by
      rw [← Concept.kind_unnumbered, hu, Concept.kind_unnumbered]
    change Table.get? _ (world.members.map fun entry => (entry.1, onMember f entry.2)) = _
    rw [Table.get?_map_snd, show Table.get? _ world.members = _ from hm]
    cases kind <;> cases hc <;> cases kept <;> first | rfl | exact nomatch hkind
  issued := h.issued
  timeLeft := h.timeLeft

/-- A turn of those who wait changes nothing that a ledger says. -/
theorem World.Shows.turn {world : World} {ledger : Ledger} (h : world.Shows ledger) :
    world.turn.Shows ledger :=
  h.onRequests fun _ => ⟨rfl, rfl, rfl⟩

/-- Two kinds of concepts have two names. -/
theorem Concept.Kind.name_inj {kind other : Concept.Kind} :
    kind.name = other.name ↔ kind = other := by
  cases kind <;> cases other <;> decide

/-- A concept that has changed, with the ids handed out. -/
theorem World.Shows.put {world : World} {ledger : Ledger} (h : world.Shows ledger)
    {turn : Concept.Turn} (hne : turn.concept.kind ≠ .requests) :
    (World.put turn.concept.kind.name (.book turn.concept)
      { world with issued := turn.issued }).Shows (ledger.afterTurn turn) := by
  have hmember : ∀ name, (World.put turn.concept.kind.name (.book turn.concept)
      { world with issued := turn.issued }).member? name
        = if turn.concept.kind.name = name then some (.book turn.concept)
          else world.member? name :=
    fun name => Table.get?_set ..
  obtain ⟨hlimit, hremembered, hresponses⟩ := ledger.requests_afterTurn turn
  refine ⟨?_, fun kind concept hc => ?_, (Ledger.issued_afterTurn hne).symm, h.timeLeft⟩
  · obtain ⟨state, hstate, hl, hq, hr⟩ := h.requests
    have hname : turn.concept.kind.name ≠ Rules.requesting :=
      fun he => hne (Concept.Kind.name_inj.mp he)
    refine ⟨state, ?_, hl.trans hlimit.symm, hq.trans hremembered.symm, hr.trans hresponses.symm⟩
    rw [hmember, if_neg hname, hstate]
  · rw [Ledger.concept?_afterTurn hne] at hc
    rw [hmember]
    by_cases hk : turn.concept.kind = kind
    · rw [if_pos hk] at hc
      exact ⟨concept, by rw [if_pos (congrArg _ hk), Option.some.inj hc], rfl⟩
    · rw [if_neg hk] at hc
      rw [if_neg fun he => hk (Concept.Kind.name_inj.mp he)]
      exact h.concepts kind concept hc

/-! ### Scenes -/

/-- Where a scene plays: the flow that is worked on, by its id and its number, and the ceiling of
actions. -/
structure Venue where
  id : String
  serial : Nat
  ceiling : Int

/-- The records of the flow and what the concepts keep. Of the combinations that have fired, only
the rules are told. -/
structure Scene where
  log : List Event
  faults : List FlowFault
  given : List Marker
  done : List String
  ledger : Ledger

/-- The engine is in the scene. -/
structure Rehearsal.Shows (venue : Venue) (engine : Rehearsal) (scene : Scene) : Prop where
  flow : ∃ flow, engine.Hosts venue.id venue.serial flow ∧ flow.log = scene.log ∧
    flow.faults = scene.faults ∧ flow.responses = scene.given ∧
    ∀ entry ∈ flow.fired, entry.1 ∈ scene.done
  terminals : engine.terminals = [((Rules.requesting, "respond"), .str "request")]
  maxFlowEvents : engine.maxFlowEvents = .count venue.ceiling
  world : engine.world.Shows scene.ledger

/-- From an engine in the first scene, the computation ends with the outcome and an engine in the
second one. -/
abbrev Plays {α : Type} (venue : Venue) (act : Effect Rehearsal α) (before : Scene)
    (outcome : Except Fault α) (after : Scene) : Prop :=
  Effect.Yields (Rehearsal.Shows venue) act before outcome after

namespace Scene

variable {α : Type} {venue : Venue} {scene before after : Scene} {outcome : Except Fault α}
  {answer : (call : EngineCall AdapterCode) → Effect Rehearsal call.Answer} {depth reentries : Nat}

/-- A line that is written changes no scene. -/
theorem plays_note (n : Note) (scene : Scene) :
    Plays venue (Engine.note n) scene (.ok ()) scene :=
  fun _ h => ⟨_, rfl, h.flow.imp fun _ hf => ⟨⟨hf.1.retained, hf.1.state, hf.1.named⟩, hf.2⟩,
    h.terminals, h.maxFlowEvents, h.world⟩

/-- Lines that a program writes change no scene. -/
theorem plays_notes (lines : List Note) (scene : Scene) :
    Plays venue ((Program.notes lines : ScriptProgram Unit).run answer) scene (.ok ()) scene := by
  induction lines with
  | nil => exact Yields.ofExcept _ scene
  | cons n rest ih => exact Yields.bind (plays_note n scene) ih

variable (answer reentries) in
/-- The turns of others change no scene. -/
theorem plays_waiting (scene : Scene) :
    Plays venue (World.host.handlers answer reentries).waiting.before scene (.ok ()) scene ∧
      Plays venue (World.host.handlers answer reentries).waiting.after scene (.ok ()) scene := by
  have hturn : ∀ (engine : Rehearsal) (world : World), engine.Shows venue scene →
      world.Shows scene.ledger → Rehearsal.Shows venue (engine.withWorld world) scene :=
    fun engine world h hw => ⟨h.flow.imp fun _ hf =>
      ⟨⟨hf.1.retained, hf.1.state, hf.1.named⟩, hf.2⟩, h.terminals, h.maxFlowEvents, hw⟩
  have htime : ∀ engine : Rehearsal, engine.Shows venue scene →
      World.requireTime.run engine.world = (.ok (), engine.world) := by
    intro engine h
    rw [World.run_requireTime, h.world.timeLeft]
    rfl
  constructor
  · intro engine h
    refine ⟨engine.withWorld { engine.world.turn with timeLeft := .ample }, ?_, hturn _ _ h ?_⟩
    · change ((World.waiting.before.run engine.world).1,
        Engine.withWorld (World.waiting.before.run engine.world).2 engine) = _
      unfold World.waiting
      dsimp only
      rw [run_bind_ok (htime engine h)]
      change (_, Engine.withWorld { engine.world.turn with
        timeLeft := engine.world.turn.timeLeft.afterTurn } engine) = _
      rw [show engine.world.turn.timeLeft = _ from h.world.turn.timeLeft]
      rfl
    · have hw := h.world.turn
      exact ⟨hw.requests, hw.concepts, hw.issued, rfl⟩
  · intro engine h
    refine ⟨engine.withWorld engine.world.turn.turn, ?_, hturn _ _ h h.world.turn.turn⟩
    change ((World.waiting.after.run engine.world).1,
      Engine.withWorld (World.waiting.after.run engine.world).2 engine) = _
    unfold World.waiting
    dsimp only
    rw [run_bind_ok (htime engine h)]
    rfl

/-! ### The flow of a scene -/

/-- Going on from the state of the flow. -/
theorem plays_state_bind {next : Flow → Effect Rehearsal α}
    (h : ∀ flow : Flow, flow.id = venue.id → flow.log = scene.log → flow.responses = scene.given →
      (∀ entry ∈ flow.fired, entry.1 ∈ scene.done) → Plays venue (next flow) scene outcome after) :
    Plays venue (Engine.state venue.serial >>= next) scene outcome after := by
  intro engine hs
  obtain ⟨flow, hf, hlog, -, hgiven, hfired⟩ := hs.flow
  rw [run_bind_ok hf.run_state]
  exact h flow hf.named hlog hgiven hfired engine hs

variable (after) in
/-- A change of the flow changes its part of the scene. -/
theorem plays_update {f : Flow → Flow} (hid : ∀ flow, (f flow).id = flow.id)
    (hledger : after.ledger = scene.ledger)
    (h : ∀ flow : Flow, flow.id = venue.id → flow.log = scene.log → flow.faults = scene.faults →
      flow.responses = scene.given → (∀ entry ∈ flow.fired, entry.1 ∈ scene.done) →
      (f flow).log = after.log ∧ (f flow).faults = after.faults ∧
        (f flow).responses = after.given ∧ ∀ entry ∈ (f flow).fired, entry.1 ∈ after.done) :
    Plays venue (Engine.update venue.serial f) scene (.ok ()) after := by
  intro engine hs
  obtain ⟨flow, hf, hlog, hfaults, hgiven, hfired⟩ := hs.flow
  refine ⟨_, Engine.run_update f engine, ⟨f flow, (hf.change (hid flow)).1,
    h flow hf.named hlog hfaults hgiven hfired⟩, hs.terminals, hs.maxFlowEvents, ?_⟩
  rw [hledger]
  exact hs.world

/-- An action that is recorded is the next event of the log. -/
theorem plays_record (concept action : String) (input : Fields) (output : Value) (scene : Scene) :
    Plays venue (Engine.record venue.serial concept action input output) scene
      (.ok ⟨scene.log.length, concept, action, .object input, output, venue.id⟩)
      { scene with log := scene.log ++
        [⟨scene.log.length, concept, action, .object input, output, venue.id⟩] } := by
  unfold Engine.record
  refine plays_state_bind fun flow hid hlog _ _ => ?_
  have hevent : (flow.record concept action input output).2
      = ⟨scene.log.length, concept, action, .object input, output, venue.id⟩ := by
    rw [← hid, ← hlog]
    rfl
  refine Yields.bind (plays_update { scene with log := scene.log ++
    [⟨scene.log.length, concept, action, .object input, output, venue.id⟩] } (fun _ => rfl) rfl ?_)
      ?_
  · intro other hoid holog hfaults hgiven hfired
    refine ⟨?_, hfaults, hgiven, hfired⟩
    rw [Flow.log_record, ← hoid, ← holog]
    rfl
  · rw [hevent]
    exact Yields.ofExcept (.ok _) _

/-- There is room for an action below the ceiling. -/
theorem plays_requireRoom (hroom : (scene.log.length : Int) < venue.ceiling) :
    Plays venue (Engine.requireRoom venue.id venue.serial) scene (.ok ()) scene := by
  unfold Engine.requireRoom
  refine Yields.get_bind fun engine hs => plays_state_bind fun flow _ hlog _ _ => ?_
  rw [hs.maxFlowEvents, hlog]
  have hreached : Limit.isReached scene.log.length (.count venue.ceiling) = some false := by
    simp only [Limit.isReached, Option.some.injEq, decide_eq_false_iff_not]
    omega
  rw [hreached]
  exact Yields.ofExcept _ scene

end Scene

end HerdBook
