import HerdBook.Proofs.Scenes

/-!
# Calls of concepts

What performing an action of a concept of the herd book comes to (`World.run_performOf`): the concept
answers as `Concept.answer?` says and is put in its new state, and some lines go to the journal. In a
scene, it is the ledger that changes (`Scene.plays_performOf`).

## Main results

* `Scene.plays_perform_of_performOf`: an action that is performed in a flow is recorded with its
  answer.
* `Scene.plays_token`: the lookup of a token finds who is logged in with it.
* `Scene.identifies_of_not_truthy`: that nobody is, without a token, it finds by itself.
-/

namespace HerdBook

open Effect

/-! ### Names of actions -/

/-- The action is none of the calls that every concept answers and is not kept from callers. -/
structure Target.IsOwn (action : String) : Prop where
  uncommon : Target.common.contains action = false
  shown : Target.isHidden action = false

instance (action : String) : Decidable (Target.IsOwn action) :=
  decidable_of_iff (Target.common.contains action = false ∧ Target.isHidden action = false)
    ⟨fun ⟨huncommon, hshown⟩ => ⟨huncommon, hshown⟩, fun ⟨huncommon, hshown⟩ => ⟨huncommon, hshown⟩⟩

/-- An action of its own name is what a call of it ends up as. -/
theorem Target.IsOwn.resolve {action : String} (h : IsOwn action) (own : String → Bool)
    (args : Value) : Target.resolve own action args = .ok (.action action args) := by
  unfold Target.resolve
  exact if_pos (by rw [h.uncommon, Bool.not_false, Bool.or_true])

/-- A concept offers what it answers to. -/
theorem Concept.offers_of_answer? {concept : Concept} {action : String} {args : Fields}
    {issued : Issued} {turn : Concept.Turn} (h : concept.answer? action args issued = some turn) :
    concept.offers action = true := by
  cases concept with
  | requests state =>
    simp only [answer?, Option.map_eq_some_iff] at h
    obtain ⟨reading, hr, -⟩ := h
    unfold RequestAction.ofCall? at hr
    split at hr <;> first | rfl | cases hr
  | accounts state =>
    simp only [answer?, Option.map_eq_some_iff] at h
    obtain ⟨reading, hr, -⟩ := h
    unfold AccountAction.ofCall? at hr
    split at hr <;> first | rfl | cases hr
  | herds store =>
    simp only [answer?, Option.map_eq_some_iff] at h
    obtain ⟨reading, hr, -⟩ := h
    unfold HerdAction.ofCall? at hr
    split at hr <;> first | rfl | cases hr
  | animals store =>
    simp only [answer?, Option.map_eq_some_iff] at h
    obtain ⟨reading, hr, -⟩ := h
    unfold AnimalAction.ofCall? at hr
    split at hr <;> first | rfl | cases hr

/-! ### Performing an action -/

/-- The value that a turn answers with, or its fault as it leaves the concept. -/
def Concept.Turn.reply (turn : Concept.Turn) : Except Fault Value :=
  (turn.outcome.map Answer.value).mapError Fault.onLeaving

/-- Whatever a turn answers is fields. -/
def Concept.Turn.AnswersFields (turn : Concept.Turn) : Prop :=
  ∀ a, turn.outcome = .ok a → ∃ out, a.value = .object out

/-- The fault is one that the concepts end in: an operation on the wrong kind of value, or a failure
of the store. -/
def Fault.IsOrdinary (fault : Fault) : Prop :=
  (∃ kind, fault = .misuse kind) ∨ fault = Store.writeFailed

/-- Such a fault leaves a concept as it is. -/
theorem Fault.IsOrdinary.onLeaving {fault : Fault} (h : fault.IsOrdinary) :
    fault.onLeaving = fault := by
  rcases h with ⟨kind, rfl⟩ | rfl <;> rfl

/-- The layer above wraps it. -/
theorem Fault.IsOrdinary.wrappedBy {fault : Fault} (h : fault.IsOrdinary) (layer : Layer)
    (subject : String) : fault.wrappedBy layer subject = .wrapped layer subject fault none := by
  rcases h with ⟨kind, rfl⟩ | rfl <;> rfl

/-- The turn ends as those of concepts do: in an ordinary fault, in a refusal, or in fields without
an error that hold something under the names. -/
inductive Concept.Turn.IsProper (names : List String) (turn : Concept.Turn) : Prop where
  | failed {fault : Fault} (outcome : turn.outcome = .error fault) (ordinary : fault.IsOrdinary)
  | refused {reason : String} {notes : List Note}
    (outcome : turn.outcome = .ok ⟨.object [("error", .str reason)], notes⟩)
  | succeeded {out : Fields} {notes : List Note} (outcome : turn.outcome = .ok ⟨.object out, notes⟩)
    (error : Table.get? "error" out = none)
    (shown : ∀ n ∈ names, ∃ v, Table.get? n out = some v ∧ v.isNotApplicable = false)

/-- Of fields without an error those hold something that are shown. -/
theorem Concept.Turn.IsProper.shown {names : List String} {turn : Concept.Turn}
    (h : turn.IsProper names) {out : Fields} {notes : List Note}
    (hout : turn.outcome = .ok ⟨.object out, notes⟩) (herror : Table.get? "error" out = none) :
    ∀ n ∈ names, ∃ v, Table.get? n out = some v ∧ v.isNotApplicable = false := by
  cases h with
  | failed h => exact nomatch h.symm.trans hout
  | refused h =>
    obtain ⟨he, -⟩ := Answer.mk.inj (Except.ok.inj (h.symm.trans hout))
    obtain rfl := Value.object.inj he
    exact nomatch herror
  | succeeded h _ hshown =>
    obtain ⟨he, -⟩ := Answer.mk.inj (Except.ok.inj (h.symm.trans hout))
    exact Value.object.inj he ▸ hshown

/-- A turn that answers fields. -/
theorem Concept.Turn.answersFields_of_ok {turn : Concept.Turn} {out : Fields} {notes : List Note}
    (h : turn.outcome = .ok ⟨.object out, notes⟩) : turn.AnswersFields :=
  fun _ ha => ⟨out, congrArg Answer.value (Except.ok.inj (ha.symm.trans h))⟩

/-- A turn that ends in a fault. -/
theorem Concept.Turn.answersFields_of_error {turn : Concept.Turn} {fault : Fault}
    (h : turn.outcome = .error fault) : turn.AnswersFields :=
  fun _ ha => nomatch ha.symm.trans h

/-- Fields that a turn answers are its reply. -/
theorem Concept.Turn.reply_of_ok {turn : Concept.Turn} {v : Value} {notes : List Note}
    (h : turn.outcome = .ok ⟨v, notes⟩) : turn.reply = .ok v := by
  rw [reply, h]
  rfl

/-- An ordinary fault is the reply of the turn that ends in it. -/
theorem Concept.Turn.reply_of_error {turn : Concept.Turn} {fault : Fault}
    (h : turn.outcome = .error fault) (hf : fault.IsOrdinary) : turn.reply = .error fault := by
  rw [reply, h]
  exact congrArg Except.error hf.onLeaving

section Runs

variable {ω κ α β : Type} {answer : (call : EngineCall κ) → Effect (Engine ω κ) call.Answer}
  {engine engine' : Engine ω κ}

/-- A program that goes on after a success. -/
theorem Program.run_andThen_ok {program : Program ω κ α} {next : α → Program ω κ β} {a : α}
    (h : (program.run answer).run engine = (.ok a, engine')) :
    ((program.andThen next).run answer).run engine = ((next a).run answer).run engine' := by
  rw [andThen, run_attemptThen, h]

/-- A program that is over after a fault. -/
theorem Program.run_andThen_error {program : Program ω κ α} {next : α → Program ω κ β}
    {fault : Fault} (h : (program.run answer).run engine = (.error fault, engine')) :
    ((program.andThen next).run answer).run engine = (.error fault, engine') := by
  rw [andThen, run_attemptThen, h]
  rfl

/-- Lines that are written go to the journal. -/
theorem Program.run_notes (lines : List Note) (engine : Engine ω κ) :
    ∃ journal, ((Program.notes lines : Program ω κ Unit).run answer).run engine
      = (.ok (), { engine with journal := journal }) := by
  induction lines generalizing engine with
  | nil => exact ⟨engine.journal, rfl⟩
  | cons n rest ih => exact ih { engine with journal := engine.journal.push n }

end Runs

namespace World

variable {answer : (call : EngineCall AdapterCode) → Effect Rehearsal call.Answer}
  {engine : Rehearsal} {name action : String} {args : Fields} {concept : Concept}
  {turn : Concept.Turn}

/-- The world after a turn of the concept under a name. -/
def afterTurn (name : String) (turn : Concept.Turn) (world : World) : World :=
  put name (.book turn.concept) { world with issued := turn.issued }

/-- A concept of the herd book that performs an action is put in its new state. -/
theorem run_performBook (ht : concept.answer? action args engine.world.issued = some turn) :
    ∃ journal, ((performBook name action args concept).run answer).run engine
      = (turn.outcome.map Answer.value,
        { engine with world := engine.world.afterTurn name turn, journal := journal }) := by
  have hbegin : ((performBook name action args concept).run answer).run engine
      = (((Program.ofExcept turn.outcome : ScriptProgram Answer).andThen fun a =>
          (Program.notes a.notes).andThen fun _ => .done (.ok a.value)).run answer).run
        (engine.withWorld (engine.world.afterTurn name turn)) := by
    refine (Program.run_andThen_ok rfl).trans ?_
    rw [ht]
    rfl
  rw [hbegin]
  cases ho : turn.outcome with
  | error fault => exact ⟨engine.journal, rfl⟩
  | ok a =>
    obtain ⟨journal, hj⟩ := Program.run_notes a.notes
      (engine.withWorld (engine.world.afterTurn name turn))
    exact ⟨journal, (Program.run_andThen_ok rfl).trans ((Program.run_andThen_ok hj).trans rfl)⟩

/-- What is done with the concept registered under a name. -/
theorem run_withMember {member : Member} (hm : engine.world.member? name = some member)
    (next : Member → ScriptProgram Value) :
    ((withMember name next).run answer).run engine
      = ((next member).leaving.run answer).run engine := by
  refine (Program.run_andThen_ok rfl).trans ?_
  dsimp only
  rw [hm]

/-- The concept registered under a name performs an action of its own. -/
theorem run_performOf (hm : engine.world.member? name = some (.book concept))
    (ht : concept.answer? action args engine.world.issued = some turn) (ha : Target.IsOwn action)
    (ho : turn.AnswersFields) :
    ∃ journal, ((withMember name (performOf name action (.object args))).run answer).run engine
      = (turn.reply,
        { engine with world := engine.world.afterTurn name turn, journal := journal }) := by
  obtain ⟨journal, hbook⟩ := run_performBook ht
  refine ⟨journal, ?_⟩
  have hcallable : ((Member.book concept).callableKind? action).isNone = false := by
    simp [Member.callableKind?, ha.shown, Concept.offers_of_answer? ht]
  have hcall : callMember name action (.object args) (.book concept)
      = performBook name action args concept := by
    rw [callMember, hcallable]
    rfl
  have hperform : ((performMember name action (.object args) (.book concept)).run answer).run engine
      = (turn.outcome.map Answer.value,
        { engine with world := engine.world.afterTurn name turn, journal := journal }) := by
    unfold performMember
    rw [ha.resolve]
    change (((callMember name action (.object args) (.book concept)).andThen _).run answer).run _ =
      _
    rw [hcall]
    cases hout : turn.outcome with
    | error fault =>
      rw [hout] at hbook
      exact Program.run_andThen_error hbook
    | ok a =>
      rw [hout] at hbook
      obtain ⟨out, hv⟩ := ho a hout
      rw [Program.run_andThen_ok hbook, hv, show Except.map Answer.value
        (.ok a : Except Fault Answer)
        = .ok (.object out) from congrArg Except.ok hv]
      rfl
  rw [run_withMember hm]
  change ((Program.leaving (performMember name action (.object args) (.book concept))).run
    answer).run engine = _
  rw [Program.leaving, Program.run_attemptThen, hperform]
  rfl

end World

/-! ### Tokens -/

/-- Who is logged in with a token, or the reason why nobody is. A token that cannot be looked up is
a misuse. -/
def Accounts.standing (accounts : Accounts) (token : Value) : Except Fault (Except String Value) :=
  if !token.truthy then .ok (.error Lookup.missingToken)
  else (accounts.userOf token).map fun user? =>
    match user? with
    | some user => .ok user
    | none => .error "invalid token"

/-- The row that tells who is logged in. -/
def Accounts.badge : Except String Value → Fields
  | .ok user => [("user", user), ("error", .notApplicable)]
  | .error reason => [("user", .notApplicable), ("error", .str reason)]

/-- Verifying a token changes nothing. -/
theorem Accounts.run_verify (token : Value) (accounts : Accounts) (h : token.truthy = true) :
    (verify token).run accounts = ((accounts.standing token).map fun who =>
      match who with
      | .ok user => .fields [("user", user)]
      | .error reason => .refusal reason, accounts) := by
  rw [verify, standing, h]
  change (Effect.ofExcept (userOf token accounts) >>= _).run accounts = _
  cases hu : userOf token accounts with
  | error fault => rfl
  | ok user? => cases user? <;> rfl

/-- Looking a token up fails only as a misuse. -/
theorem Accounts.standing_error {accounts : Accounts} {token : Value} {fault : Fault}
    (h : accounts.standing token = .error fault) : fault = .misuse .type := by
  have hu : ∀ fault, accounts.userOf token = .error fault → fault = .misuse .type := by
    intro fault h
    unfold userOf at h
    split at h
    · exact nomatch h
    · split at h
      · exact nomatch h
      · exact (Except.error.inj h).symm
  unfold standing at h
  split at h
  · exact nomatch h
  · cases hf : accounts.userOf token with
    | error other =>
      rw [hf] at h
      obtain rfl : other = fault := Except.error.inj h
      exact hu other hf
    | ok user? =>
      rw [hf] at h
      exact nomatch h

/-- The turn of the concept of the accounts that verifies a token. -/
theorem Concept.exists_turn_verify {accounts : Accounts} {token : Value} (issued : Issued)
    (h : token.truthy = true) :
    ∃ turn, (Concept.accounts accounts).answer? Lookup.verify [("token", token)] issued = some turn
      ∧
      turn.AnswersFields ∧ turn.concept.unnumbered = (Concept.accounts accounts).unnumbered ∧
      turn.issued = issued ∧ turn.reply = (accounts.standing token).map fun who =>
        match who with
        | .ok user => .object [("user", user)]
        | .error reason => .object [("error", .str reason)] := by
  obtain ⟨told, htold⟩ : ∃ told : Accounts, told = { accounts with
      users := { accounts.users with issued := issued.documents }
      tokens := issued.tokens } := ⟨_, rfl⟩
  have hs : told.standing token = accounts.standing token := by
    rw [htold]
    rfl
  have hrun := Accounts.run_verify token told h
  rw [hs] at hrun
  have hturn : (Concept.accounts accounts).answer? Lookup.verify [("token", token)] issued
      = some ⟨((Accounts.verify token).run told).1,
          .accounts ((Accounts.verify token).run told).2,
          { issued with
            documents := ((Accounts.verify token).run told).2.users.issued
            tokens := ((Accounts.verify token).run told).2.tokens }⟩ := by
    rw [htold]
    rfl
  rw [hrun, htold] at hturn
  refine ⟨_, hturn, ?_⟩
  cases hwho : accounts.standing token with
  | error fault =>
    obtain rfl := Accounts.standing_error hwho
    exact ⟨fun a ha => (nomatch ha), rfl, rfl, rfl⟩
  | ok who =>
    refine ⟨fun a ha => ?_, rfl, rfl, ?_⟩
    · obtain rfl := Except.ok.inj ha
      cases who <;> exact ⟨_, rfl⟩
    · cases who <;> rfl

/-! ### In a scene -/

/-- What keeps a ledger's concept is not the concept of the requests. -/
theorem Ledger.kind_of_concept? {ledger : Ledger} {kind : Concept.Kind} {concept : Concept}
    (h : ledger.concept? kind = some concept) : concept.kind = kind ∧ kind ≠ .requests := by
  cases kind with
  | requests => exact nomatch h
  | accounts => exact ⟨by rw [← Option.some.inj h]; rfl, nofun⟩
  | herds => exact ⟨by rw [← Option.some.inj h]; rfl, nofun⟩
  | animals => exact ⟨by rw [← Option.some.inj h]; rfl, nofun⟩

/-- The herds and the animals are in the ledger. -/
theorem Ledger.exists_concept? (ledger : Ledger) {kind : Concept.Kind}
    (h : kind = .herds ∨ kind = .animals) : ∃ concept, ledger.concept? kind = some concept := by
  rcases h with rfl | rfl <;> exact ⟨_, rfl⟩

/-- A turn of another concept leaves the accounts as they are. -/
theorem Ledger.accounts_afterTurn {ledger : Ledger} {turn : Concept.Turn}
    (h : turn.concept.kind ≠ .accounts) : (ledger.afterTurn turn).accounts = ledger.accounts := by
  obtain ⟨outcome, concept, issued⟩ := turn
  cases concept <;> first | rfl | exact absurd rfl h

/-- A turn of the herds or of the animals leaves the accounts as they are, and the concept as it
says. -/
theorem Ledger.afterTurn_of_answer? {ledger : Ledger} {kind : Concept.Kind} {concept : Concept}
    {action : String} {args : Fields} {turn : Concept.Turn} (hk : kind = .herds ∨ kind = .animals)
    (hc : ledger.concept? kind = some concept)
    (ht : concept.answer? action args ledger.issued = some turn) :
    (ledger.afterTurn turn).accounts = ledger.accounts ∧
      (ledger.afterTurn turn).concept? kind = some turn.concept ∧
      (ledger.afterTurn turn).issued = turn.issued := by
  have hkind : turn.concept.kind = kind :=
    (Concept.kind_of_answer? ht).trans (kind_of_concept? hc).1
  have hne : turn.concept.kind ≠ .requests ∧ turn.concept.kind ≠ .accounts := by
    rw [hkind]
    rcases hk with rfl | rfl <;> exact ⟨nofun, nofun⟩
  exact ⟨accounts_afterTurn hne.2, by rw [concept?_afterTurn hne.1, if_pos hkind],
    issued_afterTurn hne.1⟩

/-- After a turn that leaves a concept as it is but for the numbers of its ids, the ledger tells of
every concept what it told before, but for those numbers. -/
theorem Ledger.exists_concept?_afterTurn {ledger : Ledger} {kind other : Concept.Kind}
    {concept found : Concept} {turn : Concept.Turn} (hc : ledger.concept? kind = some concept)
    (hu : turn.concept.unnumbered = concept.unnumbered) (hf : ledger.concept? other = some found) :
    ∃ changed, (ledger.afterTurn turn).concept? other = some changed ∧
      changed.unnumbered = found.unnumbered := by
  obtain ⟨outcome, after, issued⟩ := turn
  have hkind : after.kind = concept.kind := by
    rw [← Concept.kind_unnumbered after, hu, Concept.kind_unnumbered]
  obtain ⟨hck, hne⟩ := kind_of_concept? hc
  rw [← hkind] at hck
  subst hck
  by_cases ho : other = after.kind
  · subst ho
    obtain rfl : concept = found := Option.some.inj (hc.symm.trans hf)
    refine ⟨after, ?_, hu⟩
    cases after <;> first | rfl | exact absurd rfl hne
  · refine ⟨found, ?_, rfl⟩
    rw [← hf]
    cases after <;> cases other <;> first | rfl | exact absurd rfl ho

/-- What a ledger keeps of a concept counts without the numbers of its ids. -/
theorem World.Shows.of_unnumbered {world : World} {ledger : Ledger} {kind : Concept.Kind}
    {concept : Concept} {turn : Concept.Turn} (h : world.Shows (ledger.afterTurn turn))
    (hc : ledger.concept? kind = some concept)
    (hu : turn.concept.unnumbered = concept.unnumbered) (hi : turn.issued = ledger.issued) :
    world.Shows ledger := by
  refine ⟨?_, fun other found hf => ?_, ?_, h.timeLeft⟩
  · obtain ⟨state, hm, hl, hq, hr⟩ := h.requests
    obtain ⟨outcome, after, issued⟩ := turn
    refine ⟨state, hm, ?_⟩
    cases after <;> exact ⟨hl, hq, hr⟩
  · obtain ⟨changed, hch, hsame⟩ := Ledger.exists_concept?_afterTurn hc hu hf
    obtain ⟨kept, hm, hk⟩ := h.concepts other changed hch
    exact ⟨kept, hm, hk.trans hsame⟩
  · obtain ⟨outcome, after, issued⟩ := turn
    obtain rfl : issued = ledger.issued := hi
    rw [h.issued]
    cases after <;> rfl

/-- What a response to a request is answered with. -/
def Ledger.receipt (ledger : Ledger) (rid : String) : Fields :=
  if !Table.has rid ledger.remembered then [("error", .str s!"Unknown request '{rid}'.")]
  else if Table.has rid ledger.responses then
    [("error", .str s!"Request '{rid}' has already been responded to.")]
  else [("request", .str rid)]

/-- A response to a request changes the requests as the ledger says, and is always answered. -/
theorem Requests.run_respond {ledger : Ledger} (state : Requests) (rid : String) (body : Fields)
    (hq : state.requests = ledger.remembered) (hr : state.responses = ledger.responses) :
    ∃ notes state', (respond (.str rid) body).run state
        = (.ok ⟨.object (ledger.receipt rid), notes⟩, state') ∧
      state'.limit = state.limit ∧ state'.requests = (ledger.respond rid body).remembered ∧
      state'.responses = (ledger.respond rid body).responses ∧
      state'.issued = state.issued ∧ state'.tickets = state.tickets := by
  have hkey : (Effect.ofExcept (asKey (.str rid)) : Effect Requests (Option String)).run state
      = (.ok (some rid), state) := rfl
  rw [respond, Effect.run_bind_ok hkey, Effect.run_bind_ok (Effect.run_get state)]
  cases hk : Table.has rid state.requests with
  | false =>
    rw [Option.filter_some_neg (p := fun id => Table.has id state.requests) hk]
    rw [hq] at hk
    simp only [Ledger.receipt, Ledger.respond, hk]
    exact ⟨_, state, rfl, rfl, hq, hr, rfl, rfl⟩
  | true =>
    rw [Option.filter_some_pos (p := fun id => Table.has id state.requests) hk]
    rw [hq] at hk
    cases hg : Table.has rid state.responses with
    | true =>
      dsimp only
      rw [if_pos hg]
      rw [hr] at hg
      simp only [Ledger.receipt, Ledger.respond, hk, hg]
      exact ⟨_, state, rfl, rfl, hq, hr, rfl, rfl⟩
    | false =>
      dsimp only
      rw [if_neg (by simp [hg])]
      rw [hr] at hg
      simp only [Ledger.receipt, Ledger.respond, hk, hg]
      exact ⟨_, _, rfl, rfl, hq, congrArg (Table.set rid body) hr, rfl, rfl⟩

/-- What a response to a request comes to, as a turn. -/
theorem Concept.exists_turn_respond {ledger : Ledger} {state : Requests} (rid : String)
    (body : Fields) (issued : Issued) (hl : state.limit = ledger.limit)
    (hq : state.requests = ledger.remembered) (hr : state.responses = ledger.responses) :
    ∃ turn state' notes, (Concept.requests state).answer? "respond" (("request", .str rid) :: body)
        issued = some turn ∧ turn.outcome = .ok ⟨.object (ledger.receipt rid), notes⟩ ∧
      turn.concept = .requests state' ∧ state'.limit = (ledger.respond rid body).limit ∧
      state'.requests = (ledger.respond rid body).remembered ∧
      state'.responses = (ledger.respond rid body).responses ∧ turn.issued = issued := by
  obtain ⟨notes, state', hrun, hl', hq', hr', hi', ht'⟩ := Requests.run_respond
    { state with issued := issued.requests, tickets := issued.tickets } rid body hq hr
  have hlimit : (ledger.respond rid body).limit = ledger.limit := by
    unfold Ledger.respond
    split <;> rfl
  refine ⟨_, state', notes, rfl, congrArg Prod.fst hrun, ?_, ?_, hq', hr', ?_⟩
  · exact congrArg Concept.requests (congrArg Prod.snd hrun)
  · rw [hl', hl, hlimit]
  · change { issued with
        requests := (Effect.run (Requests.respond (.str rid) body) _).2.issued
        tickets := (Effect.run (Requests.respond (.str rid) body) _).2.tickets } = issued
    rw [hrun]
    change { issued with requests := state'.issued, tickets := state'.tickets } = issued
    rw [hi', ht']

namespace Scene

variable {venue : Venue} {scene : Scene} {kind : Concept.Kind} {action : String} {args : Fields}
  {concept : Concept} {turn : Concept.Turn}
  {answer : (call : EngineCall AdapterCode) → Effect Rehearsal call.Answer} {reentries : Nat}

/-- The scene after a turn of a concept. -/
def afterTurn (scene : Scene) (turn : Concept.Turn) : Scene :=
  { scene with ledger := scene.ledger.afterTurn turn }

/-- The scene after an action is recorded. -/
def record (scene : Scene) (venue : Venue) (concept action : String) (args : Fields)
    (output : Value) : Scene :=
  { scene with
    log := scene.log ++
      [⟨scene.log.length, concept, action, .object args, output, venue.id⟩] }

/-- In a scene the ledger says what an action comes to. -/
theorem plays_performOf (hc : scene.ledger.concept? kind = some concept)
    (ht : concept.answer? action args scene.ledger.issued = some turn) (ha : Target.IsOwn action)
    (ho : turn.AnswersFields) :
    Plays venue ((World.withMember kind.name
        (World.performOf kind.name action (.object args))).run answer)
      scene turn.reply (scene.afterTurn turn) := by
  intro engine hs
  obtain ⟨hkind, hne⟩ := Ledger.kind_of_concept? hc
  have hturn := Concept.kind_of_answer? ht
  obtain ⟨kept, hm, hu⟩ := hs.world.concepts kind concept hc
  rw [← hs.world.issued, ← Concept.answer?_unnumbered, ← hu, Concept.answer?_unnumbered] at ht
  obtain ⟨journal, hrun⟩ := World.run_performOf hm ht ha ho
  refine ⟨_, hrun, hs.flow.imp fun _ hf => ⟨⟨hf.1.retained, hf.1.state, hf.1.named⟩, hf.2⟩,
    hs.terminals, hs.maxFlowEvents, ?_⟩
  have hput := hs.world.put (by rw [hturn, hkind]; exact hne)
  rw [hturn, hkind] at hput
  exact hput

variable (kind) in
/-- A turn that leaves the concept as it is, but for the numbers of its ids, changes no scene. -/
theorem plays_performOf_of_unnumbered (hc : scene.ledger.concept? kind = some concept)
    (ht : concept.answer? action args scene.ledger.issued = some turn) (ha : Target.IsOwn action)
    (ho : turn.AnswersFields) (hu : turn.concept.unnumbered = concept.unnumbered)
    (hi : turn.issued = scene.ledger.issued) :
    Plays venue ((World.withMember kind.name
        (World.performOf kind.name action (.object args))).run answer) scene turn.reply scene := by
  intro engine hs
  obtain ⟨engine', hrun, hs'⟩ := plays_performOf hc ht ha ho engine hs
  exact ⟨engine', hrun, hs'.flow, hs'.terminals, hs'.maxFlowEvents,
    hs'.world.of_unnumbered hc hu hi⟩

/-- A response to the request. -/
theorem plays_performOf_respond (rid : String) (body : Fields) (scene : Scene) :
    Plays venue ((World.withMember Rules.requesting
        (World.performOf Rules.requesting "respond" (.object (("request", .str rid) :: body)))).run
          answer)
      scene (.ok (.object (scene.ledger.receipt rid)))
      { scene with ledger := scene.ledger.respond rid body } := by
  intro engine hs
  obtain ⟨state, hm, hl, hq, hr⟩ := hs.world.requests
  obtain ⟨turn, state', notes, ht, ho, hc, hl', hq', hr', hi'⟩ :=
    Concept.exists_turn_respond rid body engine.world.issued hl hq hr
  obtain ⟨journal, hrun⟩ := World.run_performOf hm ht
    ⟨by decide, by decide +kernel⟩ fun a ha => by
      rw [ho] at ha
      exact ⟨_, congrArg Answer.value (Except.ok.inj ha).symm⟩
  have hreply : turn.reply = .ok (.object (scene.ledger.receipt rid)) := by
    rw [Concept.Turn.reply, ho]
    rfl
  rw [hreply] at hrun
  refine ⟨_, hrun, hs.flow.imp fun _ hf => ⟨⟨hf.1.retained, hf.1.state, hf.1.named⟩, hf.2⟩,
    hs.terminals, hs.maxFlowEvents, ?_⟩
  have hmember : ∀ name, (engine.world.afterTurn Rules.requesting turn).member? name
      = if Rules.requesting = name then some (.book turn.concept)
        else engine.world.member? name :=
    fun name => Table.get?_set ..
  refine ⟨⟨state', ?_, hl', hq', hr'⟩, fun kind concept hcon => ?_, ?_, hs.world.timeLeft⟩
  · rw [hmember, if_pos rfl, hc]
  · rw [Ledger.concept?_respond] at hcon
    rw [hmember, if_neg fun he => (Ledger.kind_of_concept? hcon).2
      (Concept.Kind.name_inj.mp he.symm)]
    exact hs.world.concepts kind concept hcon
  · rw [Ledger.issued_respond, ← hs.world.issued]
    exact hi'

/-- A concept that is in the ledger is registered. -/
theorem plays_requireConcept (kind : Concept.Kind) (scene : Scene) :
    Plays venue (Engine.requireConcept (World.host.handlers answer reentries) kind.name) scene
      (.ok ()) scene := by
  unfold Engine.requireConcept
  refine Yields.get_bind fun engine hs => ?_
  rw [show (World.host.handlers answer reentries).isRegistered engine.world kind.name = true
    from hs.world.isRegistered kind]
  exact Yields.ofExcept (.ok ()) scene

variable (scene kind answer reentries) in
/-- An action that is performed in the flow is recorded when it is answered. -/
theorem plays_perform_of_performOf {reply : Except Fault Value} {after : Scene}
    (hroom : (scene.log.length : Int) < venue.ceiling)
    (h : Plays venue ((World.withMember kind.name
        (World.performOf kind.name action (.object args))).run answer) scene reply after)
    (hlog : after.log = scene.log) :
    (∀ v, reply = .ok v →
      Plays venue (Engine.perform (World.host.handlers answer reentries) kind.name action
        (.object args) venue.id) scene
        (.ok ⟨scene.log.length, kind.name, action, .object args, v, venue.id⟩)
        (after.record venue kind.name action args v)) ∧
    ∀ fault, reply = .error fault →
      Plays venue (Engine.perform (World.host.handlers answer reentries) kind.name action
        (.object args) venue.id) scene (.error fault) after := by
  have hbegin : ∀ {outcome : Except Fault Event} {last : Scene},
      Plays venue ((World.withMember kind.name
          (World.performOf kind.name action (.object args))).run answer >>= fun output =>
        Engine.record venue.serial kind.name action args output) scene outcome last →
      Plays venue (Engine.perform (World.host.handlers answer reentries) kind.name action
        (.object args) venue.id) scene outcome last := by
    intro outcome last hrest
    refine Yields.bind (plays_requireConcept kind scene)
      (Yields.bind (a := venue.serial) ?_ (Yields.bind (plays_requireRoom hroom)
      (Yields.bind (Yields.ofExcept (.ok args) scene) hrest)))
    intro engine hs
    obtain ⟨flow, hf, -⟩ := hs.flow
    exact ⟨engine, hf.run_serialOrNew, hs⟩
  constructor
  · rintro v rfl
    refine hbegin (Yields.bind h ?_)
    rw [← hlog]
    exact plays_record kind.name action args v after
  · rintro fault rfl
    exact hbegin (Yields.bind_error h)

/-! ### Asking -/

/-- What the engine answers is what a program gets that asks it. -/
theorem plays_ask {call : EngineCall AdapterCode} {outcome : Except Fault call.Answer}
    {after : Scene} (h : Plays venue (answer call) scene outcome after) :
    Plays venue ((Program.ask call).run answer) scene outcome after :=
  Yields.bind h.attempt (Yields.ofExcept outcome after)

/-- Arguments under names that are free. -/
theorem plays_requireFree {parameters : List String}
    (h : ∀ entry ∈ args, entry.1 ∉ parameters) (scene : Scene) :
    Plays venue ((Program.requireFree parameters args : ScriptProgram Unit).run answer) scene
      (.ok ()) scene := by
  have hfree : (args.any fun entry => parameters.contains entry.1) = false := by
    simpa using h
  rw [Program.requireFree, if_neg (by rw [hfree]; exact Bool.false_ne_true)]
  exact Yields.ofExcept (.ok ()) scene

variable (venue) in
/-- A call of a concept from inside is what the concept makes of it. -/
theorem plays_call (depth : Nat) {reply : Except Fault Value} {after : Scene}
    (hfree : ∀ entry ∈ args, entry.1 ∉ ["self", "concept", "action"])
    (h : Plays venue ((World.withMember kind.name (World.performOf kind.name action
      (.object args))).run (Engine.answer World.host depth)) scene reply after) :
    Plays venue ((Program.call kind.name action args).run (Engine.answer World.host (depth + 1)))
      scene reply after :=
  Yields.andThen (plays_requireFree hfree scene)
    (plays_ask (Yields.bind (plays_requireConcept kind scene) h))

variable (venue) in
/-- So is a query. -/
theorem plays_query (depth : Nat) {reply : Except Fault Value} {after : Scene}
    (hc : scene.ledger.concept? kind = some concept)
    (hfree : ∀ entry ∈ args, entry.1 ∉ ["self", "concept", "qname"])
    (hpure : action.startsWith "_" = true)
    (h : Plays venue ((World.withMember kind.name (World.performOf kind.name action
      (.object args))).run (Engine.answer World.host depth)) scene reply after) :
    Plays venue ((Program.query kind.name action args).run (Engine.answer World.host (depth + 1)))
      scene reply after := by
  refine Yields.andThen (plays_requireFree hfree scene)
    (plays_ask (Yields.bind (plays_requireConcept kind scene) ?_))
  intro engine hs
  obtain ⟨kept, hm, -⟩ := hs.world.concepts kind concept hc
  have hrun := h engine hs
  rw [World.run_withMember hm] at hrun
  have hasked : World.queryOf kind.name action (.object args) (.book kept)
      = World.performOf kind.name action (.object args) (.book kept) := if_pos hpure
  have hquery : ∃ engine', ((World.withMember kind.name
      (World.queryOf kind.name action (.object args))).run
        (Engine.answer World.host depth)).run engine = (reply, engine') ∧
      Rehearsal.Shows venue engine' after := by
    rw [World.run_withMember hm, hasked]
    exact hrun
  exact hquery

/-- The row that a lookup makes of an answer. -/
theorem plays_rowsOfAnswer (name : String) (fields : List String) (out : Fields) (scene : Scene) :
    Plays venue ((Lookup.rowsOfAnswer name fields (.object out) : ScriptProgram Value).run answer)
      scene (((Outcome.ofAnswer (.object out)).bind (Outcome.row fields)).map fun row =>
        .list [.object row]) scene := by
  unfold Lookup.rowsOfAnswer
  cases ho : Outcome.ofAnswer (.object out) with
  | error fault => exact Yields.andThen_error (Yields.ofExcept _ scene)
  | ok outcome =>
    refine Yields.andThen (Yields.ofExcept (.ok outcome) scene) ?_
    have hrow : Plays venue ((do
        return .list ((← Program.ofExcept (outcome.rows fields)).map .object) :
          ScriptProgram Value).run answer) scene
        ((outcome.row fields).map fun row => .list [.object row]) scene := by
      rw [Outcome.rows]
      cases hr : outcome.row fields with
      | error fault => exact Yields.andThen_error (Yields.ofExcept _ scene)
      | ok row => exact Yields.ofExcept _ scene
    cases outcome with
    | success found => exact hrow
    | failure error => exact Yields.andThen (plays_notes _ scene) hrow

/-- In every scene with these accounts the lookup of a token, whose calls of the engine are answered
so, finds who is logged in with it. -/
def Identifies (venue : Venue)
    (answer : (call : EngineCall AdapterCode) → Effect Rehearsal call.Answer) (accounts : Accounts)
    (token : Value) (who : Except String Value) : Prop :=
  ∀ scene : Scene, scene.ledger.accounts = accounts →
    Plays venue ((Lookup.token.program (.object [("token", token)]) : ScriptProgram Value).run
      answer) scene (.ok (.list [.object (Accounts.badge who)])) scene

/-- What does not count as a token is nobody's, and to find that nothing is asked of the engine. -/
theorem identifies_of_not_truthy (accounts : Accounts) {token : Value}
    (ht : token.truthy = false) :
    Identifies venue answer accounts token (.error Lookup.missingToken) := by
  intro scene _
  have hprogram : (Lookup.token.program (.object [("token", token)]) : ScriptProgram Value)
      = (Program.notes [.adapter s!"adapter {Lookup.token.name}: missing token"]).andThen
          fun _ => .done (.ok (.list [.object (Accounts.badge (.error Lookup.missingToken))])) :=
    if_neg (Bool.eq_false_iff.mp ht)
  rw [hprogram]
  exact Yields.andThen (plays_notes _ scene) (Yields.ofExcept _ scene)

variable (venue) in
/-- The lookup of a token finds who is logged in with it. -/
theorem plays_token (token : Value) (scene : Scene) (depth : Nat) :
    Plays venue ((Lookup.token.program (.object [("token", token)]) : ScriptProgram Value).run
        (Engine.answer World.host (depth + 1))) scene
      ((scene.ledger.accounts.standing token).map fun who =>
        .list [.object (Accounts.badge who)]) scene := by
  cases ht : token.truthy with
  | false =>
    have hs : scene.ledger.accounts.standing token = .ok (.error Lookup.missingToken) := by
      rw [Accounts.standing, ht]
      rfl
    rw [hs]
    exact identifies_of_not_truthy _ ht scene rfl
  | true =>
    have hprogram : (Lookup.token.program (.object [("token", token)]) : ScriptProgram Value)
        = (Program.call Lookup.accounts Lookup.verify [("token", token)]).andThen
            (Lookup.rowsOfAnswer (Lookup.accounts ++ "." ++ Lookup.verify) ["user"]) := by
      have hpure : Lookup.verify.startsWith "_" = false := by decide +kernel
      refine (if_pos ht).trans ?_
      rw [Lookup.askConcept, hpure]
      rfl
    rw [hprogram]
    obtain ⟨turn, hturn, ho, hu, hi, hreply⟩ :=
      Concept.exists_turn_verify scene.ledger.issued ht
    have hcall := plays_call venue depth (by simp)
      (plays_performOf_of_unnumbered .accounts rfl hturn
        ⟨by decide, by decide +kernel⟩ ho hu hi)
    rw [hreply] at hcall
    cases hs : scene.ledger.accounts.standing token with
    | error fault =>
      rw [hs] at hcall
      exact Yields.andThen_error hcall
    | ok who =>
      rw [hs] at hcall
      cases who with
      | ok user => exact Yields.andThen hcall (plays_rowsOfAnswer _ _ [("user", user)] scene)
      | error reason =>
        exact Yields.andThen hcall (plays_rowsOfAnswer _ _ [("error", .str reason)] scene)

/-- Where an engine of the herd book answers, it is as the accounts say. -/
theorem identifies_of_standing {accounts : Accounts} {token : Value} {who : Except String Value}
    {depth : Nat} (h : accounts.standing token = .ok who) :
    Identifies venue (Engine.answer World.host (depth + 1)) accounts token who := by
  rintro scene rfl
  have hrow := plays_token venue token scene depth
  rwa [h] at hrow

end Scene

end HerdBook
