import HerdBook.Proofs.Discretion
import HerdBook.Proofs.Routes

/-!
# Strangers

A request whose token is nobody's is one of a stranger, and so is one to the accounts, whatever its
token. What it has the concepts do concerns the requests and the accounts only: it is done without
the herds and the animals.

* `World.withStores` puts other herds and other animals in place.
* `World.Bars` says that a world knows nobody by the token, or need not ask.
* `Rehearsal.Bars` says of what is known of an engine that it is told by its world.

## Main results

* `World.withStores_self`, `World.member?_of_withStores`: what it is to change nothing.
* `World.overlooks_perform`: what the concepts of the requests and of the accounts do.
* `World.overlooks_token`: the lookup of the token finds nobody.
-/

namespace HerdBook

open Effect Rules

/-! ### Tables -/

namespace Table

variable {α β : Type} [DecidableEq α]

/-- Setting a key to what it is changes nothing. -/
theorem set_of_get? {key : α} {value : β} {entries : List (α × β)}
    (h : get? key entries = some value) : set key value entries = entries := by
  induction entries with
  | nil => cases h
  | cons entry rest ih =>
    obtain ⟨k, v⟩ := entry
    by_cases hk : k = key
    · simp_all [get?, set]
    · simp_all [get?, set]

/-- Two keys can be set in either order, when one of them is there. -/
theorem set_comm {key other : α} (hne : key ≠ other) (value value' : β) {entries : List (α × β)}
    (h : has key entries = true) :
    set key value (set other value' entries) = set other value' (set key value entries) := by
  induction entries with
  | nil => cases h
  | cons entry rest ih =>
    obtain ⟨k, v⟩ := entry
    by_cases hk : k = key
    · subst hk
      simp [set, hne]
    · have hrest : has key rest = true := by simpa [has, get?, hk] using h
      by_cases ho : k = other
      · subst ho
        simp [set, hk]
      · simp [set, hk, ho, ih hrest]

/-- A table whose values are changed after one of them is set. -/
theorem map_set {γ : Type} (f : β → γ) (key : α) (value : β) (entries : List (α × β)) :
    (set key value entries).map (fun entry => (entry.1, f entry.2))
      = set key (f value) (entries.map fun entry => (entry.1, f entry.2)) := by
  induction entries with
  | nil => rfl
  | cons entry rest ih =>
    obtain ⟨k, v⟩ := entry
    by_cases hk : k = key <;> simp [set, hk, ih]

end Table

/-! ### The stores that are secret -/

/-- The world with other herds and other animals. -/
def World.withStores (herds animals : Store) (world : World) : World :=
  World.put (Concept.Kind.name .herds) (.book (.herds herds))
    (World.put (Concept.Kind.name .animals) (.book (.animals animals)) world)

/-- The engine with other herds and other animals. -/
abbrev Rehearsal.withStores (herds animals : Store) (engine : Rehearsal) : Rehearsal :=
  engine.withWorld (engine.world.withStores herds animals)

namespace World

variable {herds animals : Store} {world : World} {kind : Concept.Kind}

/-- The concepts of the other kinds stay what they are. -/
theorem member?_withStores (hk : kind ≠ .herds ∧ kind ≠ .animals) :
    (world.withStores herds animals).member? kind.name = world.member? kind.name := by
  have hne : ∀ other, kind ≠ other → other.name ≠ kind.name :=
    fun other hne he => hne (Concept.Kind.name_inj.mp he.symm)
  change Table.get? _ (Table.set _ _ (Table.set _ _ _)) = _
  rw [Table.get?_set, if_neg (hne _ hk.1), Table.get?_set, if_neg (hne _ hk.2)]
  rfl

/-- Herds and animals that are there already change nothing. -/
theorem withStores_self
    (hh : world.member? (Concept.Kind.name .herds) = some (.book (.herds herds)))
    (ha : world.member? (Concept.Kind.name .animals) = some (.book (.animals animals))) :
    world.withStores herds animals = world := by
  have hanimals : World.put (Concept.Kind.name .animals) (.book (.animals animals)) world = world :=
    congrArg (fun members => { world with members := members }) (Table.set_of_get? ha)
  rw [withStores, hanimals]
  exact congrArg (fun members => { world with members := members }) (Table.set_of_get? hh)

/-- What the world holds of the kinds that are secret is what has been put in place. -/
theorem member?_of_withStores (hw : world.withStores herds animals = world) :
    world.member? (Concept.Kind.name .herds) = some (.book (.herds herds)) ∧
      world.member? (Concept.Kind.name .animals) = some (.book (.animals animals)) := by
  rw [← hw]
  constructor
  · change Table.get? _ (Table.set _ _ (Table.set _ _ _)) = _
    rw [Table.get?_set, if_pos rfl]
  · change Table.get? _ (Table.set _ _ (Table.set _ _ _)) = _
    rw [Table.get?_set, if_neg (by decide), Table.get?_set, if_pos rfl]

/-- Another concept that is there can be put in its new state before or after. -/
theorem withStores_afterTurn (hk : kind ≠ .herds ∧ kind ≠ .animals)
    (hm : (world.member? kind.name).isSome = true) (turn : Concept.Turn) :
    (world.withStores herds animals).afterTurn kind.name turn
      = (world.afterTurn kind.name turn).withStores herds animals := by
  have hne : ∀ other, kind ≠ other → kind.name ≠ other.name :=
    fun other hne he => hne (Concept.Kind.name_inj.mp he)
  have hhas : Table.has kind.name (Table.set (Concept.Kind.name .animals)
      (Member.book (.animals animals)) world.members) = true := by
    rw [Table.has, Table.get?_set, if_neg (hne _ hk.2).symm]
    exact hm
  refine congrArg (fun members => { world with members := members, issued := turn.issued }) ?_
  change Table.set _ _ (Table.set _ _ (Table.set _ _ world.members)) = _
  rw [Table.set_comm (hne _ hk.1) _ _ hhas, Table.set_comm (hne _ hk.2) _ _ hm]
  rfl

/-- Those who wait do not care for herds and animals. -/
theorem withStores_onRequests (f : Requests → Requests) :
    (world.withStores herds animals).onRequests f
      = (world.onRequests f).withStores herds animals := by
  refine congrArg (fun members => { world with
    members := members, former := world.former.map f }) ?_
  change List.map _ (Table.set _ _ (Table.set _ _ world.members)) = _
  rw [Table.map_set, Table.map_set]
  rfl

/-- Nor does anybody who asks whether a concept is registered. -/
theorem isSome_member?_withStores (hh : (world.member? (Concept.Kind.name .herds)).isSome = true)
    (ha : (world.member? (Concept.Kind.name .animals)).isSome = true) (name : String) :
    ((world.withStores herds animals).member? name).isSome = (world.member? name).isSome := by
  change (Table.get? _ (Table.set _ _ (Table.set _ _ _))).isSome = _
  rw [Table.get?_set, Table.get?_set]
  split
  · next he => rw [← he, hh]; rfl
  · split
    · next he => rw [← he, ha]; rfl
    · rfl

end World

/-! ### Who is barred -/

/-- The path is one to the accounts. Requests for it need no user. -/
def Rules.IsOpen (path : String) : Prop := ∃ action, path = accountPath action

/-- Nobody is logged in with the token. -/
def Accounts.Excludes (accounts : Accounts) (token : Value) : Prop :=
  ∀ user, accounts.standing token ≠ .ok (.ok user)

namespace Accounts

variable {accounts accounts' : Accounts} {token : Value}

/-- Who is logged in is told by the sessions. -/
theorem Excludes.of_sessions (h : accounts.Excludes token)
    (hs : accounts'.sessions = accounts.sessions) : accounts'.Excludes token := by
  have hstanding : accounts'.standing token = accounts.standing token := by
    simp only [standing, userOf, hs]
  intro user
  rw [hstanding]
  exact h user

/-- What is no key of a session is that of nobody. -/
theorem userOf_ne_some (h : ∀ key, token = .str key → Table.get? key accounts.sessions = none)
    (user : Value) : accounts.userOf token ≠ .ok (some user) := by
  intro hu
  unfold userOf at hu
  split at hu
  · next key =>
    rw [h key rfl] at hu
    exact nomatch Except.ok.inj hu
  · split at hu
    · exact nomatch hu
    · exact nomatch hu

/-- Nobody is logged in with it. -/
theorem excludes_of_get?_eq_none (h : token.truthy = true → ∀ key, token = .str key →
    Table.get? key accounts.sessions = none) : accounts.Excludes token := by
  intro user hu
  unfold standing at hu
  split at hu
  · exact nomatch hu
  · next ht =>
    have hnone := userOf_ne_some (h (by simpa using ht))
    cases hw : accounts.userOf token with
    | error fault =>
      rw [hw] at hu
      exact nomatch hu
    | ok user? =>
      rw [hw] at hu
      cases user? with
      | none => exact nomatch Except.ok.inj hu
      | some other => exact hnone other hw

/-- Verifying a token with which nobody is logged in ends in a refusal, if in no fault. -/
theorem Excludes.run_verify (h : accounts.Excludes token) : ∃ outcome,
    (verify token).run accounts = (outcome, accounts) ∧
      ∀ a, outcome = .ok a → ∃ reason, a = .refusal reason := by
  cases ht : token.truthy with
  | false =>
    refine ⟨.ok (.refusal "invalid token"), ?_, fun a ha => ⟨_, (Except.ok.inj ha).symm⟩⟩
    rw [verify, ht]
    rfl
  | true =>
    refine ⟨_, Accounts.run_verify token accounts ht, fun a ha => ?_⟩
    cases hwho : accounts.standing token with
    | error fault =>
      rw [hwho] at ha
      cases ha
    | ok who =>
      rw [hwho] at ha
      cases who with
      | ok user => exact absurd hwho (h user)
      | error reason => exact ⟨reason, (Except.ok.inj ha).symm⟩

end Accounts

/-- The concept knows nobody by the token, unless the path is open. -/
def Concept.Bars (path : String) (token : Value) (concept : Concept) : Prop :=
  ¬ IsOpen path → ∀ accounts, concept = .accounts accounts → accounts.Excludes token

namespace Concept

variable {path : String} {token : Value} {concept : Concept} {action : String} {args : Fields}
  {issued : Issued} {turn : Turn}

variable (concept) in
/-- A concept is of the same kind after others had a turn. -/
theorem exists_onMember (f : Requests → Requests) : ∃ concept' : Concept,
    World.onMember f (.book concept) = .book concept' ∧ concept'.kind = concept.kind := by
  cases concept <;> exact ⟨_, rfl, rfl⟩

/-- Only that of the accounts knows users. -/
theorem bars_of_kind_ne (h : concept.kind ≠ .accounts) : concept.Bars path token := by
  rintro - accounts rfl
  exact absurd rfl h

/-- Nobody is barred from an open path. -/
theorem bars_of_isOpen (h : IsOpen path) : concept.Bars path token := fun hn => absurd h hn

/-- A turn of the requests bars as before. -/
theorem bars_of_answer?_requests (hk : concept.kind = .requests)
    (ht : concept.answer? action args issued = some turn) : turn.concept.Bars path token := by
  refine bars_of_kind_ne ?_
  rw [kind_of_answer? ht, hk]
  exact nofun

/-- A turn that verifies the token bars it as before, and ends in a refusal, if in no fault. -/
theorem Bars.verify (hb : concept.Bars path token) (hp : ¬ IsOpen path)
    (hk : concept.kind = .accounts)
    (ht : concept.answer? Lookup.verify [("token", token)] issued = some turn) :
    turn.concept.Bars path token ∧
      ∀ a, turn.outcome = .ok a → ∃ reason, a = .refusal reason := by
  cases concept with
  | requests | herds | animals => exact nomatch hk
  | accounts accounts =>
    obtain ⟨told, htold⟩ : ∃ told : Accounts, told = { accounts with
        users := { accounts.users with issued := issued.documents }
        tokens := issued.tokens } := ⟨_, rfl⟩
    have hexcludes : told.Excludes token :=
      (hb hp accounts rfl).of_sessions (by rw [htold])
    obtain ⟨outcome, hrun, hrefusal⟩ := hexcludes.run_verify
    have hturn : (Concept.accounts accounts).answer? Lookup.verify [("token", token)] issued
        = some ⟨((Accounts.verify token).run told).1,
            .accounts ((Accounts.verify token).run told).2,
            { issued with
              documents := ((Accounts.verify token).run told).2.users.issued
              tokens := ((Accounts.verify token).run told).2.tokens }⟩ := by
      rw [htold]
      rfl
    rw [hrun] at hturn
    obtain rfl := Option.some.inj (ht.symm.trans hturn)
    refine ⟨fun _ other ho => ?_, hrefusal⟩
    obtain rfl := Concept.accounts.inj ho
    exact hexcludes

/-- The answer to a request that comes in is its id. -/
theorem exists_request_of_answer? (hk : concept.kind = .requests)
    (ht : concept.answer? "request" args issued = some turn) {a : Answer}
    (ha : turn.outcome = .ok a) : ∃ rid, a.value = .object [("request", .str rid)] := by
  cases concept with
  | accounts | herds | animals => exact nomatch hk
  | requests state =>
    obtain rfl := Option.some.inj ht
    refine ⟨Requests.requestId (issued.requests + 1), ?_⟩
    change ((Requests.request args).run _).1 = .ok a at ha
    unfold Requests.request at ha
    rw [run_bind_ok (run_get _), run_bind_ok (run_modify ..), run_bind_ok (run_get _)] at ha
    obtain ⟨excess, s, -, hrest⟩ := exists_of_run_bind (Prod.ext ha rfl)
    rw [run_bind_ok (run_modify ..)] at hrest
    rw [← Except.ok.inj (congrArg Prod.fst hrest)]
    rfl

end Concept

/-- The concepts of the world are those of the herd book, and that of the accounts knows nobody by
the token, unless the path is open. -/
structure World.Bars (path : String) (token : Value) (world : World) : Prop where
  members : ∀ entry ∈ world.members, ∃ concept : Concept,
    entry = (concept.kind.name, .book concept)
  registered : ∀ kind : Concept.Kind, (world.member? kind.name).isSome = true
  accounts : ∀ concept, world.member? Lookup.accounts = some (.book concept) →
    concept.Bars path token

namespace World.Bars

variable {path : String} {token : Value} {world : World}

/-- What the world holds under the name of a kind is a concept of that kind which bars the token. -/
theorem of_member? (h : world.Bars path token) {kind : Concept.Kind} {member : Member}
    (hm : world.member? kind.name = some member) :
    ∃ concept, member = .book concept ∧ concept.kind = kind ∧ concept.Bars path token := by
  obtain ⟨concept, he⟩ := h.members _ (Table.mem_of_get? hm)
  obtain ⟨hname, rfl⟩ := Prod.mk.inj he
  obtain rfl := Concept.Kind.name_inj.mp hname
  refine ⟨concept, rfl, rfl, ?_⟩
  by_cases hk : concept.kind = .accounts
  · rw [hk] at hm
    exact h.accounts concept hm
  · exact Concept.bars_of_kind_ne hk

/-- So it is after a turn of a concept that bars the token. -/
theorem afterTurn (h : world.Bars path token) {turn : Concept.Turn}
    (hb : turn.concept.Bars path token) :
    (world.afterTurn turn.concept.kind.name turn).Bars path token := by
  have hmember : ∀ name, (world.afterTurn turn.concept.kind.name turn).member? name
      = if turn.concept.kind.name = name then some (.book turn.concept)
        else world.member? name := fun name => Table.get?_set ..
  refine ⟨fun entry he => ?_, fun kind => ?_, fun concept hc => ?_⟩
  · rcases Table.eq_or_mem_of_mem_set he with rfl | he
    · exact ⟨turn.concept, rfl⟩
    · exact h.members entry he
  · rw [hmember]
    split
    · rfl
    · exact h.registered kind
  · rw [hmember] at hc
    split at hc
    · obtain rfl := Member.book.inj (Option.some.inj hc)
      exact hb
    · exact h.accounts concept hc

/-- The time that is left does not count. -/
theorem allot (h : world.Bars path token) (timeLeft : TimeLeft) :
    (world.allot timeLeft).Bars path token := ⟨h.members, h.registered, h.accounts⟩

/-- So it is after others had a turn. -/
theorem onRequests (h : world.Bars path token) (f : Requests → Requests) :
    (world.onRequests f).Bars path token := by
  have hmember : ∀ name, (world.onRequests f).member? name
      = (world.member? name).map (World.onMember f) := fun name => Table.get?_map_snd ..
  refine ⟨fun entry he => ?_, fun kind => ?_, fun concept hc => ?_⟩
  · obtain ⟨before, hbefore, rfl⟩ := List.mem_map.mp he
    obtain ⟨concept, rfl⟩ := h.members before hbefore
    obtain ⟨concept', ho, hk⟩ := concept.exists_onMember f
    exact ⟨concept', by rw [ho, hk]⟩
  · rw [hmember, Option.isSome_map]
    exact h.registered kind
  · rw [hmember] at hc
    obtain ⟨member, hm, ho⟩ := Option.map_eq_some_iff.mp hc
    have hm' : world.member? (Concept.Kind.name .accounts) = some member := hm
    obtain ⟨before, rfl, hk, hbars⟩ := h.of_member? hm'
    cases before with
    | requests | herds | animals => exact nomatch hk
    | accounts accounts =>
      obtain rfl := Member.book.inj ho
      exact hbars

end World.Bars

/-! ### What is done without herds and animals -/

/-- What is known of the engine is kept while its world changes to another one that bars the token,
and while lines are written. -/
structure Rehearsal.Bars (path : String) (token : Value) (P : Rehearsal → Prop) : Prop where
  world : ∀ engine, P engine → engine.world.Bars path token
  withWorld : ∀ engine world, P engine → world.Bars path token → P (engine.withWorld world)
  note : ∀ engine n, P engine → P ((Engine.note n).run engine).2

namespace World

section Overlooks

variable {herds animals : Store} {path : String} {token : Value} {P : Rehearsal → Prop}
  {answer : (call : EngineCall AdapterCode) → Effect Rehearsal call.Answer} {kind : Concept.Kind}
  {action : String} {args : Fields} {answered : Value → Prop} {depth : Nat}

variable (hP : Rehearsal.Bars path token P)
include hP

/-- Lines that are written. -/
theorem overlooks_notes (lines : List Note) : Ignores (Rehearsal.withStores herds animals) P
    ((Program.notes lines : ScriptProgram Unit).run answer) fun _ => True :=
  .notes (fun engine n hs => ⟨rfl, hP.note engine n hs⟩) lines

/-- A change of the world. -/
theorem overlooks_modify {g : World → World} (hg : ∀ world : World, world.Bars path token →
      g (world.withStores herds animals) = (g world).withStores herds animals ∧
        (g world).Bars path token) :
    Ignores (Rehearsal.withStores herds animals) P
      ((Program.ofEffect (modify g) : ScriptProgram PUnit).run answer) fun _ => True := by
  intro engine hs
  obtain ⟨hsame, hbars⟩ := hg engine.world (hP.world engine hs)
  exact ⟨congrArg (fun world => (Except.ok (), engine.withWorld world)) hsame,
    hP.withWorld engine _ hs hbars, fun _ _ => trivial⟩

/-- A concept that performs an action. -/
theorem overlooks_performBook (hk : kind ≠ .herds ∧ kind ≠ .animals) {concept : Concept}
    (hkind : concept.kind = kind)
    (hturn : ∀ issued turn, concept.answer? action args issued = some turn →
      turn.concept.Bars path token ∧ ∀ a, turn.outcome = .ok a → answered a.value) :
    Ignores (Rehearsal.withStores herds animals) P
      ((performBook kind.name action args concept).run answer) answered := by
  unfold performBook
  refine .reading_bind fun engine hs => ⟨rfl, ?_⟩
  split
  · exact .throw _
  · next turn ht =>
    obtain ⟨hbars, hanswered⟩ := hturn _ turn ht
    have hkind' : turn.concept.kind = kind := (Concept.kind_of_answer? ht).trans hkind
    refine .andThen (overlooks_modify hP fun world hw => ?_) fun _ _ => ?_
    · obtain ⟨member, hm⟩ := Option.isSome_iff_exists.mp (hw.registered kind)
      refine ⟨withStores_afterTurn hk (by rw [hm]; rfl) turn, ?_⟩
      exact hkind' ▸ hw.afterTurn hbars
    · refine .andThen (.ofExcept hanswered) fun a ha => ?_
      exact .andThen (overlooks_notes hP _) fun _ _ => .pure ha

/-- So it is the way every concept performs its actions. -/
theorem overlooks_performOf (hk : kind ≠ .herds ∧ kind ≠ .animals) (ha : Target.IsOwn action)
    {concept : Concept} (hkind : concept.kind = kind)
    (hturn : ∀ issued turn, concept.answer? action args issued = some turn →
      turn.concept.Bars path token ∧ ∀ a, turn.outcome = .ok a → answered a.value) :
    Ignores (Rehearsal.withStores herds animals) P
      ((performOf kind.name action (.object args) (.book concept)).run answer) answered := by
  have hcall : Ignores (Rehearsal.withStores herds animals) P
      ((callMember kind.name action (.object args) (.book concept)).run answer) answered := by
    unfold callMember
    split
    · exact .throw _
    · exact overlooks_performBook hP hk hkind hturn
  change Ignores _ P ((performMember kind.name action (.object args) (.book concept)).run answer) _
  unfold performMember
  rw [ha.resolve]
  refine .andThen (.ofExcept fun target ht => ht.symm) fun target ht => ?_
  obtain rfl := Except.ok.inj ht
  refine .andThen hcall fun v hv => ?_
  split
  · exact .pure hv
  · exact .throw _

/-- What is done with a concept that is registered. -/
theorem overlooks_withMember (hk : kind ≠ .herds ∧ kind ≠ .animals)
    {next : Member → ScriptProgram Value}
    (h : ∀ concept : Concept, concept.kind = kind → concept.Bars path token →
      Ignores (Rehearsal.withStores herds animals) P ((next (.book concept)).run answer) answered) :
    Ignores (Rehearsal.withStores herds animals) P ((withMember kind.name next).run answer)
      answered := by
  unfold withMember
  refine .reading_bind fun engine hs => ⟨member?_withStores hk, ?_⟩
  cases hm : engine.world.member? kind.name with
  | none => exact .throw _
  | some member =>
    obtain ⟨concept, rfl, hkind, hbars⟩ := (hP.world engine hs).of_member? hm
    refine .attemptThen (h concept hkind hbars) fun outcome ho => .ofExcept fun a ha => ?_
    exact ho a (mapError_eq_ok_iff.mp ha)

/-- An action that is performed for a rule or a request. -/
theorem overlooks_perform (hk : kind ≠ .herds ∧ kind ≠ .animals) (ha : Target.IsOwn action)
    (hturn : ∀ (concept : Concept) issued turn, concept.kind = kind → concept.Bars path token →
      concept.answer? action args issued = some turn →
        turn.concept.Bars path token ∧ ∀ a, turn.outcome = .ok a → answered a.value) :
    Ignores (Rehearsal.withStores herds animals) P
      ((host.perform kind.name action (.object args)).run answer) answered :=
  overlooks_withMember hP hk fun concept hkind hbars =>
    overlooks_performOf hP hk ha hkind fun issued turn => hturn concept issued turn hkind hbars

/-- Whether a concept is registered is not told by herds and animals. -/
theorem overlooks_requireConcept (name : String) (inner : (call : EngineCall AdapterCode) →
      Effect Rehearsal call.Answer) (reentries : Nat) :
    Ignores (Rehearsal.withStores herds animals) P
      (Engine.requireConcept (host.handlers inner reentries) name) fun _ => True :=
  .requireConcept fun engine hs => isSome_member?_withStores
    ((hP.world engine hs).registered .herds) ((hP.world engine hs).registered .animals) name

variable (kind) in
/-- A call of a concept from inside. -/
theorem overlooks_call (hk : kind ≠ .herds ∧ kind ≠ .animals) (ha : Target.IsOwn action)
    (hturn : ∀ (concept : Concept) issued turn, concept.kind = kind → concept.Bars path token →
      concept.answer? action args issued = some turn →
        turn.concept.Bars path token ∧ ∀ a, turn.outcome = .ok a → answered a.value) :
    Ignores (Rehearsal.withStores herds animals) P
      ((Program.call kind.name action args : ScriptProgram Value).run
        (Engine.answer host (depth + 1))) answered :=
  .andThen (.requireFree _ _) fun _ _ => .ask <|
    (overlooks_requireConcept hP _ _ _).bind fun _ _ => overlooks_perform hP hk ha hturn

variable (kind) in
/-- A query of a concept from inside. -/
theorem overlooks_query (hk : kind ≠ .herds ∧ kind ≠ .animals) (ha : Target.IsOwn action)
    (hquery : action.startsWith "_" = true)
    (hturn : ∀ (concept : Concept) issued turn, concept.kind = kind → concept.Bars path token →
      concept.answer? action args issued = some turn →
        turn.concept.Bars path token ∧ ∀ a, turn.outcome = .ok a → answered a.value) :
    Ignores (Rehearsal.withStores herds animals) P
      ((Program.query kind.name action args : ScriptProgram Value).run
        (Engine.answer host (depth + 1))) answered := by
  refine .andThen (.requireFree _ _) fun _ _ => .ask ?_
  refine (overlooks_requireConcept hP _ _ _).bind fun _ _ => ?_
  refine overlooks_withMember hP hk fun concept hkind hbars => ?_
  change Ignores _ P (Program.run _ (if action.startsWith "_" then
    performOf kind.name action (.object args) (.book concept) else
      Program.fail Target.impureQuery)) _
  rw [hquery]
  exact overlooks_performOf hP hk ha hkind fun issued turn => hturn concept issued turn hkind hbars

/-- The lookup of the token finds nobody. -/
theorem overlooks_token (hp : ¬ IsOpen path) : Ignores (Rehearsal.withStores herds animals) P
    ((Lookup.token.program (.object [("token", token)]) : ScriptProgram Value).run
      (Engine.answer host (depth + 1)))
    fun v => ∃ reason, v = .list [.object (Accounts.badge (.error reason))] := by
  change Ignores _ P (Program.run _ (if token.truthy then
    Lookup.askConcept Lookup.accounts Lookup.verify ["user"] [("token", token)] else _)) _
  split
  · have hpure : Lookup.verify.startsWith "_" = false := by decide +kernel
    unfold Lookup.askConcept
    rw [hpure]
    have hown : Target.IsOwn Lookup.verify := ⟨by decide, by decide +kernel⟩
    have hverify : Ignores (Rehearsal.withStores herds animals) P
        ((Program.call Lookup.accounts Lookup.verify [("token", token)] : ScriptProgram Value).run
          (Engine.answer host (depth + 1)))
        fun v => ∃ reason, v = .object [("error", .str reason)] := by
      refine overlooks_call .accounts hP ⟨nofun, nofun⟩ hown fun concept issued turn hk hb ht => ?_
      obtain ⟨hbars, hrefusal⟩ := hb.verify hp hk ht
      refine ⟨hbars, fun a ha => ?_⟩
      obtain ⟨reason, rfl⟩ := hrefusal a ha
      exact ⟨reason, rfl⟩
    refine .andThen hverify fun v hv => ?_
    obtain ⟨reason, rfl⟩ := hv
    unfold Lookup.rowsOfAnswer
    refine .andThen (.ofExcept fun outcome ho => (Except.ok.inj ho).symm) fun outcome ho => ?_
    obtain rfl : outcome = .failure reason := ho
    refine .andThen (overlooks_notes hP _) fun _ _ => .pure ⟨reason, rfl⟩
  · exact .andThen (overlooks_notes hP _) fun _ _ => .pure ⟨_, rfl⟩

end Overlooks

end World

end HerdBook
