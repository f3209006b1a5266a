import HerdBook.Proofs.Passes
import HerdBook.Script.Run

/-!
# Engines of the herd book

What is known of an engine that is set up with the rules and the concepts of the herd book, whatever
has happened to its concepts since (`Rehearsal.IsBook`). A concept reaches its states by calls, by
orders to fail that its store is given, by sessions that are opened and by others who wait
(`Concept.IsReachable`).

## Main results

* `Concept.IsReachable.sound`: what a concept keeps is always as its actions leave it.
* `Rehearsal.isBook_of_ofBook`: an engine that is set up is such an engine.
* `World.IsBook.exists_shows`: its world shows a ledger.
-/

namespace HerdBook

open Effect

/-! ### States of the concepts -/

/-- What is answered to is left alone when others wait: they change who waits, and time passes. -/
def Requests.IsAlike (state state' : Requests) : Prop :=
  state'.limit = state.limit ∧ state'.requests = state.requests ∧
    state'.responses = state.responses

namespace Concept

/-- The states that a concept can reach, where so many requests are remembered. -/
inductive IsReachable (limit : Limit) : Concept → Prop
  | start (kind : Kind) : IsReachable limit (.start kind limit)
  /-- Any action and any query is called, with any arguments. -/
  | call {concept : Concept} {action : String} {args : Fields} {issued : Issued} {turn : Turn}
      (h : IsReachable limit concept) (ht : concept.answer? action args issued = some turn) :
      IsReachable limit turn.concept
  /-- The store of a concept is ordered to fail at one of its next operations. -/
  | order {concept : Concept} (h : IsReachable limit concept) (op : Operation) (n : Nat) :
      IsReachable limit (concept.onDocuments (Store.failAt op n))
  /-- Sessions of somebody are opened. -/
  | sessions {accounts : Accounts} (h : IsReachable limit (.accounts accounts)) {opened : Fields}
      (ho : ∀ entry ∈ opened, entry.2.isNotApplicable = false) :
      IsReachable limit
        (.accounts { accounts with sessions := Table.merge accounts.sessions opened })
  /-- Others wait for responses. -/
  | wait {state state' : Requests} (h : IsReachable limit (.requests state))
      (ha : state.IsAlike state') : IsReachable limit (.requests state')

end Concept

namespace Requests

/-- The number of requests that are remembered stays what it is. -/
def KeepsLimit (state state' : Requests) : Prop := state'.limit = state.limit

instance : IsPreorder Requests KeepsLimit where
  refl _ := rfl
  trans _ _ _ h h' := h'.trans h

/-- Forgetting requests keeps the limit and hands out no ids. -/
theorem trim_keeps (excess : Nat) (state : Requests) : (trim excess state).limit = state.limit ∧
    (trim excess state).issued = state.issued ∧ (trim excess state).tickets = state.tickets := by
  have hforget : ∀ (ids : List String) (state : Requests),
      (ids.foldl forget state).limit = state.limit ∧
        (ids.foldl forget state).issued = state.issued ∧
        (ids.foldl forget state).tickets = state.tickets := by
    intro ids
    induction ids with
    | nil => exact fun _ => ⟨rfl, rfl, rfl⟩
    | cons id ids ih => exact fun state => ih (state.forget id)
  exact hforget _ state

/-- The state with one more request under the next id, before any is forgotten. -/
def noted (input : Fields) (state : Requests) : Requests :=
  { state with
    issued := state.issued + 1
    requests := Table.set (requestId (state.issued + 1)) input state.requests }

/-- A request is remembered under the next id, and those beyond the limit are forgotten. -/
theorem run_request (state : Requests) {n : Int} (hl : state.limit = .count n) (input : Fields) :
    (request input).run state
      = (.ok (.fields [("request", .str (requestId (state.issued + 1)))]),
        trim ((state.noted input).requests.length - n).toNat (state.noted input)) := by
  have hexcess : (state.noted input).excess
      = .ok ((state.noted input).requests.length - n).toNat := by
    rw [Requests.excess, show (state.noted input).limit = .count n from hl]
    rfl
  have hrest : ((Effect.ofExcept (state.noted input).excess >>= fun excess => do
      modify (trim excess)
      return .fields [("request", .str (requestId (state.issued + 1)))]) :
        Effect Requests Answer).run (state.noted input)
      = (.ok (.fields [("request", .str (requestId (state.issued + 1)))]),
        trim ((state.noted input).requests.length - n).toNat (state.noted input)) := by
    rw [hexcess]
    rfl
  exact hrest

/-- A request gets the next id, and nobody else does. -/
theorem exists_run_request (state : Requests) {n : Int} (hl : state.limit = .count n)
    (input : Fields) : ∃ state', (request input).run state
        = (.ok (.fields [("request", .str (requestId (state.issued + 1)))]), state') ∧
      state'.issued = state.issued + 1 ∧ state'.tickets = state.tickets :=
  ⟨_, run_request state hl input, (trim_keeps _ _).2.1, (trim_keeps _ _).2.2⟩

/-- Whoever waits keeps the limit. -/
theorem limit_reach (w : Waiter) (state : Requests) : (reach w state).limit = state.limit := by
  unfold reach
  split <;> rfl

/-- Every action on the requests keeps the limit. -/
theorem moves_run (action : RequestAction) : Moves KeepsLimit action.run := by
  have hrefusal : ∀ (v : Value) (words : String → String),
      Moves KeepsLimit (textOf v >>= fun name => pure (Answer.refusal (words name))) :=
    fun _ _ => Moves.bind (Moves.ofExcept _) fun _ => Moves.pure _
  cases action with
  | request fields =>
    exact Moves.bind (fun _ => rfl) fun _ => Moves.bind (fun _ => rfl) fun _ =>
      Moves.bind (fun _ => rfl) fun _ => Moves.bind (Moves.ofExcept _) fun excess =>
        Moves.bind (fun state => (trim_keeps excess state).1) fun _ => Moves.pure _
  | respond request body =>
    refine Moves.bind (Moves.ofExcept _) fun key state => Moves.get_bind ?_
    split
    · exact hrefusal request _ state
    · split
      · exact rfl
      · exact rfl
  | fields request =>
    refine Moves.bind (Moves.ofExcept _) fun key state => Moves.get_bind ?_
    split
    · exact hrefusal request _ state
    · exact rfl
  | response request =>
    intro state
    refine Moves.get_bind (Moves.bind (Moves.ofExcept _) (fun found => ?_) state)
    cases found with
    | none => exact hrefusal request _
    | some body => exact Moves.pure _
  | await request timeout =>
    refine Moves.bind (fun state => rfl) fun w =>
      Moves.bind (fun state => limit_reach w state) fun _ => Moves.bind (fun _ => rfl) fun _ =>
        Moves.ofExcept _

end Requests

namespace Concept

/-- The number of requests that a concept remembers, if it is that of the requests. -/
def limit? : Concept → Option Limit
  | .requests state => some state.limit
  | _ => none

/-- Every call of a concept leaves that number as it is. -/
theorem limit?_of_answer? {concept : Concept} {action : String} {args : Fields} {issued : Issued}
    {turn : Turn} (h : concept.answer? action args issued = some turn) :
    turn.concept.limit? = concept.limit? := by
  cases concept with
  | requests state =>
    obtain ⟨reading, -, rfl⟩ := Option.map_eq_some_iff.mp h
    exact congrArg some (Moves.bind (R := Requests.KeepsLimit) (Moves.ofExcept reading)
      (fun action => Requests.moves_run action)
      { state with issued := issued.requests, tickets := issued.tickets })
  | accounts | herds | animals =>
    obtain ⟨reading, -, rfl⟩ := Option.map_eq_some_iff.mp h
    rfl

variable {limit : Limit} {concept : Concept}

/-- A concept that has just been started keeps nothing. -/
theorem sound_start (kind : Kind) : (start kind limit).Sound := by
  cases kind with
  | requests => trivial
  | accounts => exact ⟨nofun, nofun⟩
  | herds | animals => exact nofun

/-- What a concept keeps is always as its actions leave it. -/
theorem IsReachable.sound (h : IsReachable limit concept) : concept.Sound := by
  induction h with
  | start kind => exact sound_start kind
  | call _ ht ih => exact ih.turn ht
  | @order concept _ op n ih =>
    cases concept with
    | requests state => trivial
    | accounts state => exact ⟨ih.users, ih.sessions⟩
    | herds store => exact ih
    | animals store => exact ih
  | sessions _ ho ih =>
    refine ⟨ih.users, fun entry he => ?_⟩
    rcases Table.mem_of_mem_merge he with he | he
    · exact ho entry he
    · exact ih.sessions entry he
  | wait => trivial

/-- A concept of requests always remembers as many as it did at first. -/
theorem IsReachable.limit?_eq (h : IsReachable limit concept) :
    ∀ other, concept.limit? = some other → other = limit := by
  induction h with
  | start kind =>
    cases kind with
    | requests => exact fun other ho => (Option.some.inj ho).symm
    | accounts | herds | animals => exact nofun
  | call _ ht ih => rwa [limit?_of_answer? ht]
  | @order concept _ _ _ ih => cases concept <;> exact ih
  | sessions => exact nofun
  | wait _ ha ih =>
    intro other ho
    exact ih other (by rw [← ho, limit?, limit?, ha.1])

end Concept

/-! ### Worlds -/

/-- The concepts of the world are those of the herd book, each in a state that it can reach, and
there is time enough. -/
structure World.IsBook (limit : Limit) (world : World) : Prop where
  members : ∀ entry ∈ world.members, ∃ concept : Concept,
    entry = (concept.kind.name, .book concept) ∧ concept.IsReachable limit
  registered : ∀ kind : Concept.Kind, (world.member? kind.name).isSome = true
  timeLeft : world.timeLeft = .ample

namespace World.IsBook

variable {limit : Limit} {world : World}

/-- Under the name of each kind there is a concept of that kind. -/
theorem exists_member (h : world.IsBook limit) (kind : Concept.Kind) : ∃ concept : Concept,
    world.member? kind.name = some (.book concept) ∧ concept.kind = kind ∧
      concept.IsReachable limit := by
  obtain ⟨member, hm⟩ := Option.isSome_iff_exists.mp (h.registered kind)
  obtain ⟨concept, he, hr⟩ := h.members _ (Table.mem_of_get? hm)
  obtain ⟨hname, rfl⟩ := Prod.mk.inj he
  exact ⟨concept, hm, (Concept.Kind.name_inj.mp hname).symm, hr⟩

/-- There are no scripted concepts. -/
theorem isPlain (h : world.IsBook limit) : world.IsPlain := by
  intro entry he
  obtain ⟨concept, rfl, -⟩ := h.members entry he
  exact ⟨concept, rfl⟩

/-- So it is when one of its concepts is in another state that it can reach. -/
theorem put (h : world.IsBook limit) {concept : Concept} (hr : concept.IsReachable limit) :
    (World.put concept.kind.name (.book concept) world).IsBook limit := by
  refine ⟨fun entry he => ?_, fun kind => ?_, h.timeLeft⟩
  · rcases Table.eq_or_mem_of_mem_set he with rfl | he
    · exact ⟨concept, rfl, hr⟩
    · exact h.members entry he
  · change (Table.get? _ (Table.set _ _ _)).isSome = true
    rw [Table.get?_set]
    split
    · rfl
    · exact h.registered kind

/-- So it is after a call of a concept. -/
theorem afterTurn (h : world.IsBook limit) {concept : Concept}
    (hr : concept.IsReachable limit) {action : String} {args : Fields} {issued : Issued}
    {turn : Concept.Turn} (ht : concept.answer? action args issued = some turn) :
    (world.afterTurn concept.kind.name turn).IsBook limit := by
  have hissued : ({ world with issued := turn.issued } : World).IsBook limit :=
    ⟨h.members, h.registered, h.timeLeft⟩
  rw [← Concept.kind_of_answer? ht]
  exact hissued.put (hr.call ht)

/-- What the world keeps makes a ledger. -/
theorem exists_shows (h : world.IsBook limit) : ∃ ledger : Ledger, world.Shows ledger ∧
    ∀ kind concept, ledger.concept? kind = some concept →
      world.member? kind.name = some (.book concept) ∧ concept.IsReachable limit := by
  obtain ⟨requests, hrequests, hkind₁, -⟩ := h.exists_member .requests
  obtain ⟨accounts, haccounts, hkind₂, hra⟩ := h.exists_member .accounts
  obtain ⟨herds, hherds, hkind₃, hrh⟩ := h.exists_member .herds
  obtain ⟨animals, hanimals, hkind₄, hrn⟩ := h.exists_member .animals
  cases requests with
  | accounts | herds | animals => exact nomatch hkind₁
  | requests state =>
  cases accounts with
  | requests | herds | animals => exact nomatch hkind₂
  | accounts accounts =>
  cases herds with
  | requests | accounts | animals => exact nomatch hkind₃
  | herds herds =>
  cases animals with
  | requests | accounts | herds => exact nomatch hkind₄
  | animals animals =>
  have hkept : ∀ kind concept, (Ledger.concept? ⟨state.limit, state.requests, state.responses,
      accounts, herds, animals, world.issued⟩ kind) = some concept →
        world.member? kind.name = some (.book concept) ∧ concept.IsReachable limit := by
    intro kind concept hc
    cases kind with
    | requests => exact nomatch hc
    | accounts => exact Option.some.inj hc ▸ ⟨haccounts, hra⟩
    | herds => exact Option.some.inj hc ▸ ⟨hherds, hrh⟩
    | animals => exact Option.some.inj hc ▸ ⟨hanimals, hrn⟩
  exact ⟨_, ⟨⟨state, hrequests, rfl, rfl, rfl⟩, fun kind concept hc =>
    ⟨concept, (hkept kind concept hc).1, rfl⟩, rfl, h.timeLeft⟩, hkept⟩

end World.IsBook

/-- A request that comes in is remembered under an id of its own. -/
theorem Concept.exists_turn_request {state : Requests} {n : Int} (hl : state.limit = .count n)
    (input : Fields) (issued : Issued) : ∃ rid turn,
      (Concept.requests state).answer? "request" input issued = some turn ∧
      turn.outcome = .ok (.fields [("request", .str rid)]) ∧
      turn.issued = { issued with requests := issued.requests + 1 } := by
  obtain ⟨state', hrun, hissued, htickets⟩ := Requests.exists_run_request
    { state with issued := issued.requests, tickets := issued.tickets } hl input
  refine ⟨Requests.requestId (issued.requests + 1), _, rfl, congrArg Prod.fst hrun, ?_⟩
  change { issued with
      requests := (Effect.run (Requests.request input) _).2.issued
      tickets := (Effect.run (Requests.request input) _).2.tickets } = _
  rw [hrun]
  change { issued with requests := state'.issued, tickets := state'.tickets } = _
  rw [hissued, htickets]

/-! ### Engines -/

/-- The world that an engine begins with is that of the herd book. -/
theorem World.isBook_bookWorld (settings : Settings) :
    (Rehearsal.bookWorld settings).IsBook (.count settings.maxRetainedRequests) := by
  have hmembers : (Rehearsal.bookWorld settings).members
      = [Concept.Kind.requests, .accounts, .herds, .animals].map fun kind =>
        (kind.name, .book (.start kind (.count settings.maxRetainedRequests))) := rfl
  refine ⟨fun entry he => ?_, fun kind => ?_, rfl⟩
  · rw [hmembers] at he
    obtain ⟨kind, -, rfl⟩ := List.mem_map.mp he
    exact ⟨_, by cases kind <;> rfl, .start kind⟩
  · cases kind <;> rfl

/-- The engine has the rules and the concepts of the herd book and the limits that the settings
say; its concepts are in states that they can reach. -/
structure Rehearsal.IsBook (settings : Settings) (engine : Rehearsal) : Prop where
  rules : engine.rules = Rules.all AdapterCode.lookup
  terminals : engine.terminals = [((Rules.requesting, "respond"), .str "request")]
  maxFlowEvents : engine.maxFlowEvents = .count settings.maxFlowEvents
  maxRetained : engine.maxRetained = .count settings.maxRetainedFlows
  world : engine.world.IsBook (.count settings.maxRetainedRequests)

/-- An engine that is set up, also with sessions of somebody, is such an engine. -/
theorem Rehearsal.isBook_of_ofBook {settings : Settings} (sessions : Option Fields)
    {engine : Rehearsal} (h : Rehearsal.ofBook settings [] sessions = .ok engine)
    (hs : ∀ opened ∈ sessions, ∀ entry ∈ opened, entry.2.isNotApplicable = false) :
    engine.IsBook settings := by
  have hworld := World.isBook_bookWorld settings
  cases sessions with
  | none =>
    obtain rfl := Except.ok.inj h
    exact ⟨rfl, rfl, rfl, rfl, hworld⟩
  | some opened =>
    obtain rfl := Except.ok.inj h
    refine ⟨rfl, rfl, rfl, rfl, ?_⟩
    exact hworld.put (.sessions (.start .accounts) (hs opened rfl))

end HerdBook
