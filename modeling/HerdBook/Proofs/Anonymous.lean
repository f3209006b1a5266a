import HerdBook.Proofs.DirectCalls

/-!
# Requests without a token

Routes ask for a token in two ways. The routes for users look it up, and take a request that holds
none for one that holds the empty text. Two other routes hand it to an action of the accounts, and so
take the empty text for a token like any other. On all of them a request that holds no token at all is
turned down for lack of it, and on the routes for users one with the empty text is as well. For this
no concept is asked anything: it is so at whatever depth calls may nest, and at the least depth the
calls of adapters are all refused.

* `Rules.guardedPaths`, `Rules.handovers`: the routes of either kind. There are no others that ask for
  a token (`Rules.mem_paths_iff`).
* `Rehearsal.TurnsDown`: a request is answered once, with the reason why not, and changes nothing.

## Main results

* `Scene.exists_turnsDown_anonymous`, `Scene.exists_turnsDown_empty`: the rules of a route.
* `Rehearsal.request_anonymous`: a request, from the engine before it to the engine after it.
-/

namespace HerdBook

open Effect Rules

/-- The paths of the routes for users, which look a token up. -/
def Rules.guardedPaths : List String := directCalls.map DirectCall.path

/-- The paths of the other routes that ask for a token, each with the action of the accounts that the
token is handed to. -/
def Rules.handovers : List (String × String) :=
  [(statusPath, Lookup.verify), (accountPath "logout", "logout")]

/-- The paths of all routes that ask for a token. -/
def Rules.tokenPaths : List String := guardedPaths ++ handovers.map Prod.fst

/-- All routes ask for a token but those by which one registers and logs in. -/
theorem Rules.mem_paths_iff {path : String} :
    path ∈ paths ↔ path ∈ tokenPaths ∨ path ∈ ["register", "login"].map accountPath := by
  have hperm : paths.Perm (tokenPaths ++ ["register", "login"].map accountPath) := by
    decide +kernel
  rw [hperm.mem_iff, List.mem_append]

/-- A request holds no token, or on a route for users the empty text. -/
def Rules.IsAnonymous (path : String) (input : Fields) : Prop :=
  Table.get? "token" input = none ∨
    path ∈ guardedPaths ∧ Table.get? "token" input = some (.str "")

/-! ### The rules -/

namespace Scene

variable {venue : Venue} {scene after : Scene} {input : Fields} {rid path action reason : String}
  {answer : (call : EngineCall AdapterCode) → Effect Rehearsal call.Answer} {depth reentries : Nat}

/-- From one scene to the other, a request has been turned down for a reason: what has been inquired
is recorded, then the response, and no concept is another. -/
structure TurnsDown (before after : Scene) (rid : String) (inquiry : List Event) (reason : String) :
    Prop where
  log : ∃ response, Event.IsResponse response rid [("error", .str reason)] ∧
    after.log = before.log ++ (inquiry ++ [response])
  faults : after.faults = []
  ledger : ∀ kind concept, before.ledger.concept? kind = some concept →
    ∃ kept, after.ledger.concept? kind = some kept ∧ kept.unnumbered = concept.unnumbered

/-- A response with the reason, by itself. -/
theorem Ends.turnsDown
    (h : after.Ends (scene.log ++ [scene.response venue rid [("error", .str reason)]]) []
      (scene.ledger.respond rid [("error", .str reason)])) :
    scene.TurnsDown after rid [] reason where
  log := ⟨_, isResponse_response .., h.log⟩
  faults := h.faults
  ledger kind concept hc := ⟨concept, by rw [h.ledger, Ledger.concept?_respond, hc], rfl⟩

/-- A request that is turned down is concluded. -/
theorem TurnsDown.closes {inquiry : List Event} (h : scene.TurnsDown after rid inquiry reason)
    (ho : scene.Opens venue input rid path)
    (hinquiry : ∀ event ∈ inquiry, event.concept ≠ requesting) (hsize : inquiry.length ≤ 2) :
    after.Closes venue input rid := by
  obtain ⟨response, hr, hlog⟩ := h.log
  exact ho.closes_response inquiry hr hinquiry hsize hlog

/-- What the rules of a route turn down is turned down by all rules. -/
theorem TurnsDown.plays_all {handlers : Handlers World AdapterCode}
    {rules : List (Rule AdapterCode)} {inquiry : List Event}
    (h : scene.TurnsDown after rid inquiry reason) (hf : (path, rules) ∈ families)
    (ho : scene.Opens venue input rid path)
    (hinquiry : ∀ event ∈ inquiry, event.concept ≠ requesting) (hsize : inquiry.length ≤ 2)
    (hplays : PlaysRules venue handlers rules scene after) :
    PlaysRules venue handlers (all AdapterCode.lookup) scene after := by
  obtain ⟨more, hb, -⟩ := (h.closes ho hinquiry hsize).begun
  exact Rules.plays_all hf ho.begun ho.path hplays hb

variable (answer reentries) in
/-- A request that holds no token is turned down, however the calls of adapters would be answered. -/
theorem exists_turnsDown_anonymous (ho : scene.Opens venue input rid path)
    (hpath : path ∈ tokenPaths) (h : IsAnonymous path input) :
    ∃ after, PlaysRules venue (World.host.handlers answer reentries) (all AdapterCode.lookup) scene
        after ∧
      scene.TurnsDown after rid [] Lookup.missingToken := by
  have hclosed : ∀ {rules : List (Rule AdapterCode)} {after : Scene}, (path, rules) ∈ families →
      PlaysRules venue (World.host.handlers answer reentries) rules scene after →
      after.Ends (scene.log ++ [scene.response venue rid [("error", .str Lookup.missingToken)]]) []
        (scene.ledger.respond rid [("error", .str Lookup.missingToken)]) →
      ∃ after, PlaysRules venue (World.host.handlers answer reentries) (all AdapterCode.lookup) scene
          after ∧
        scene.TurnsDown after rid [] Lookup.missingToken := fun hf hplays hends =>
    ⟨_, hends.turnsDown.plays_all hf ho (by simp) (by simp) hplays, hends.turnsDown⟩
  by_cases hguarded : path ∈ guardedPaths
  · -- on these routes no token and the empty text are the same
    have htoken : tokenOf input = .str "" := by
      rcases h with h | ⟨-, h⟩ <;> rw [tokenOf, h] <;> rfl
    have hwho : Identifies venue answer scene.ledger.accounts (tokenOf input)
        (.error Lookup.missingToken) :=
      identifies_of_not_truthy _ (by rw [htoken]; rfl)
    obtain ⟨call, hcall, rfl⟩ := List.mem_map.mp hguarded
    rcases cases_of_mem_directCalls hcall with ⟨kind, route, hr, rfl⟩ | ⟨kind, route, hr, rfl⟩
    · obtain ⟨after, hplays, hends⟩ :=
        ActionRoute.exists_plays_denied (isSound_of_mem_actionsOf hr).1 ho hwho
      exact hclosed (mem_families_of_mem_actionsOf hr) hplays hends
    · obtain ⟨after, hplays, hends⟩ :=
        QueryRoute.exists_plays_denied (isSound_of_mem_queriesOf hr).1 ho hwho
      exact hclosed (mem_families_of_mem_queriesOf hr) hplays hends
  · have hnone : Table.get? "token" input = none := h.resolve_right fun h => hguarded h.1
    have hhandover := (List.mem_append.mp hpath).resolve_left hguarded
    simp only [handovers, List.map_cons, List.map_nil, List.mem_cons, List.not_mem_nil, or_false]
      at hhandover
    rcases hhandover with rfl | rfl
    · obtain ⟨after, hplays, hends⟩ := exists_plays_statusAnonymous reentries answer ho hnone
      exact hclosed mem_families_status hplays hends
    · obtain ⟨after, hplays, hends⟩ := exists_plays_logoutAnonymous reentries answer ho hnone
      exact hclosed mem_families_logout hplays hends

/-- A response after an action of the accounts that has changed nothing. -/
theorem Ends.turnsDown_of_inquiry {mid : Scene} {event : Event} {turn : Concept.Turn}
    (hmid : mid.Ends (scene.log ++ [event]) scene.faults (scene.ledger.afterTurn turn))
    (hsame : turn.concept.unnumbered = (Concept.accounts scene.ledger.accounts).unnumbered)
    (hfaults : scene.faults = [])
    (hends : after.Ends (mid.log ++ [mid.response venue rid [("error", .str reason)]]) mid.faults
      (mid.ledger.respond rid [("error", .str reason)])) :
    scene.TurnsDown after rid [event] reason where
  log := ⟨_, isResponse_response .., by rw [hends.log, hmid.log, List.append_assoc]⟩
  faults := by rw [hends.faults, hmid.faults, hfaults]
  ledger kind concept hc := by
    have hkind : turn.concept.kind = .accounts := by
      rw [← Concept.kind_unnumbered, hsame, Concept.kind_unnumbered]
      rfl
    rw [hends.ledger, Ledger.concept?_respond, hmid.ledger,
      Ledger.concept?_afterTurn (by simp [hkind]), hkind]
    split
    · next h =>
      subst h
      exact ⟨_, rfl, Option.some.inj hc ▸ hsame⟩
    · exact ⟨concept, hc, rfl⟩

/-- A rule hands the empty text over like any token. When the rules that follow respond with the
reason of a refusal, the request is turned down because the token is invalid. -/
theorem exists_turnsDown_of_handsOver {rule : Rule AdapterCode} {rest : List (Rule AdapterCode)}
    (h : rule.HandsOver path action) (hf : (path, rule :: rest) ∈ families)
    (haction : action = Lookup.verify ∨ action = "logout") (hown : Target.IsOwn action)
    (ho : scene.Opens venue input rid path) (htoken : Table.get? "token" input = some (.str ""))
    (hnone : Table.get? "" scene.ledger.accounts.sessions = none)
    (hrest : ∀ {mid : Scene}, mid.Recorded venue input rid Lookup.accounts action
        [("token", .str "")] [("error", .str "invalid token")] → mid.given = [] →
      mid.done = [rule.name] →
      ∃ after, PlaysRules venue (World.handlersAt depth reentries) rest mid after ∧
        after.Ends (mid.log ++ [mid.response venue rid [("error", .str "invalid token")]]) mid.faults
          (mid.ledger.respond rid [("error", .str "invalid token")])) :
    ∃ after, PlaysRules venue (World.handlersAt depth reentries) (all AdapterCode.lookup) scene
        after ∧
      scene.TurnsDown after rid [⟨1, Lookup.accounts, action, .object [("token", .str "")],
        .object [("error", .str "invalid token")], venue.id⟩] "invalid token" := by
  have hlength : scene.log.length = 1 := by rw [ho.begun.log]; rfl
  have hne : Lookup.accounts ≠ requesting := by decide
  obtain ⟨turn, mid, hsame, hfirst, hgiven, hdone, hmid⟩ :=
    h.exists_plays_empty haction ho hown htoken hnone
  obtain ⟨after, hplays, hends⟩ := hrest (ho.recorded hmid.log hne) (hgiven.trans ho.given)
    (by rw [hdone, ho.done]; rfl)
  have hturns := hmid.turnsDown_of_inquiry hsame ho.faults hends
  rw [hlength] at hturns
  exact ⟨after, hturns.plays_all hf ho (by simp [hne]) (by simp) (plays_rules_cons hfirst hplays),
    hturns⟩

variable (depth reentries) in
/-- Where the token is handed over, the empty text is as well, and the request is turned down because
it is nobody's. -/
theorem exists_turnsDown_empty (ho : scene.Opens venue input rid path)
    (hpath : (path, action) ∈ handovers) (htoken : Table.get? "token" input = some (.str ""))
    (hnone : Table.get? "" scene.ledger.accounts.sessions = none) :
    ∃ after, PlaysRules venue (World.handlersAt depth reentries) (all AdapterCode.lookup) scene
        after ∧
      scene.TurnsDown after rid [⟨1, Lookup.accounts, action, .object [("token", .str "")],
        .object [("error", .str "invalid token")], venue.id⟩] "invalid token" := by
  simp only [handovers, List.mem_cons, Prod.mk.injEq, List.not_mem_nil, or_false] at hpath
  rcases hpath with ⟨rfl, rfl⟩ | ⟨rfl, rfl⟩
  · exact exists_turnsDown_of_handsOver handsOver_statusVerify mem_families_status (.inl rfl)
      ⟨by decide, by decide +kernel⟩ ho htoken hnone fun hrecorded hgiven hdone =>
        exists_plays_statusDenied ho hrecorded hgiven hdone htoken
  · exact exists_turnsDown_of_handsOver handsOver_leave mem_families_logout (.inr rfl)
      ⟨by decide, by decide +kernel⟩ ho htoken hnone fun hrecorded hgiven hdone =>
        exists_plays_logoutDenied ho hrecorded hgiven hdone htoken

end Scene

/-! ### Engines -/

namespace Rehearsal

variable {settings : Settings} {engine : Rehearsal} {depth : Nat} {input : Fields}
  {flow : Option String} {path : String}

/-- Where calls may nest to the depth, the request is turned down for a reason: in its flow there are
the request, what has been inquired, and the one response; no fault is recorded; and besides that of
the requests no concept is another. -/
def TurnsDown (engine : Rehearsal) (depth : Nat) (input : Fields) (flow : Option String)
    (inquiry : String → List Event) (reason : String) : Prop :=
  ∃ (venue : Venue) (rid : String) (response : Event) (after : Rehearsal),
    (stepWithin depth (.invoke requesting "request" (.object input) flow)).run engine
      = (.ok (.invoked (venue.request input rid)
          ⟨venue.request input rid :: (inquiry venue.id ++ [response]), []⟩), after) ∧
    (∀ id ∈ flow, venue.id = id) ∧
    response.IsResponse rid [("error", .str reason)] ∧
    ∀ (kind : Concept.Kind) (concept : Concept), kind ≠ .requests →
      engine.world.member? kind.name = some (.book concept) →
      ∃ kept, after.world.member? kind.name = some (.book kept) ∧
        kept.unnumbered = concept.unnumbered

/-- A request is turned down when a pass over all rules turns it down. -/
theorem turnsDown_of_plays (hb : engine.IsBook settings) (hroom : 4 ≤ settings.maxFlowEvents)
    (hf : engine.IsFresh flow) (hj : Value.FieldsAreJson input)
    (hp : Table.get? "path" input = some (.str path)) {inquiry : String → List Event}
    {reason : String} (hinquiry : ∀ id, ∀ event ∈ inquiry id, event.concept ≠ requesting)
    (hsize : ∀ id, (inquiry id).length ≤ 2)
    (h : ∀ {venue : Venue} {rid : String} {scene : Scene}, scene.Opens venue input rid path →
      engine.world.member? Lookup.accounts = some (.book (.accounts scene.ledger.accounts)) →
      ∃ after, Scene.PlaysRules venue (World.handlersWithin depth depth) (all AdapterCode.lookup)
          scene after ∧
        scene.TurnsDown after rid (inquiry venue.id) reason) :
    engine.TurnsDown (depth + 1) input flow inquiry reason := by
  obtain ⟨venue, rid, ledger, hid, hopens, hkept, -, hinvoke⟩ := exists_run_invoke hb hroom hf hj hp
  obtain ⟨after, hplays, hturns⟩ := h hopens (hkept .accounts _ rfl).1
  obtain ⟨engine', hrun, hshows⟩ := hinvoke hplays
    (hturns.closes hopens (hinquiry venue.id) (hsize venue.id))
  obtain ⟨response, hr, hlog⟩ := hturns.log
  have hstep := run_stepWithin_invoke hrun hshows
  rw [hlog, hturns.faults] at hstep
  refine ⟨venue, rid, response, engine', hstep, fun id h => (hid id h).symm, hr,
    fun kind concept hne hm => ?_⟩
  obtain ⟨found, hfound⟩ : ∃ found, ledger.concept? kind = some found := by
    cases kind with
    | requests => exact absurd rfl hne
    | accounts | herds | animals => exact ⟨_, rfl⟩
  obtain rfl := Member.book.inj (Option.some.inj (hm.symm.trans (hkept kind found hfound).1))
  obtain ⟨kept, hkept', hsame⟩ := hturns.ledger kind concept hfound
  obtain ⟨shown, hshown, hu⟩ := hshows.world.concepts kind kept hkept'
  exact ⟨shown, hshown, hu.trans hsame⟩

/-- A request that holds no token, or for a route for users the empty text, is turned down for lack of
a token. This is so at whatever depth calls may nest, also where all calls of adapters are refused: no
concept is asked who is logged in, nor anything else. Where the token is handed to an action of the
accounts, the empty text is not taken for a lack of it: the action is called with it and recorded,
and the request is turned down because the token is invalid, if no session is open under it. -/
theorem request_anonymous (hb : engine.IsBook settings) (hroom : 4 ≤ settings.maxFlowEvents)
    (hf : engine.IsFresh flow) (hj : Value.FieldsAreJson input)
    (hp : Table.get? "path" input = some (.str path)) :
    (path ∈ tokenPaths → IsAnonymous path input → ∀ depth,
      engine.TurnsDown (depth + 1) input flow (fun _ => []) Lookup.missingToken) ∧
    ∀ action accounts, (path, action) ∈ handovers →
      Table.get? "token" input = some (.str "") →
      engine.world.member? Lookup.accounts = some (.book (.accounts accounts)) →
      Table.get? "" accounts.sessions = none → ∀ depth,
      engine.TurnsDown (depth + 2) input flow (fun id => [⟨1, Lookup.accounts, action,
        .object [("token", .str "")], .object [("error", .str "invalid token")], id⟩])
        "invalid token" := by
  constructor
  · intro hpath hanonymous depth
    refine turnsDown_of_plays hb hroom hf hj hp (by simp) (by simp) fun {venue} _ _ ho _ => ?_
    exact Scene.exists_turnsDown_anonymous _ depth ho hpath hanonymous
  · intro action accounts hpath htoken ha hnone depth
    refine turnsDown_of_plays hb hroom hf hj hp (by simp [Lookup.accounts, requesting]) (by simp)
      fun {venue} _ scene ho hm => ?_
    obtain rfl := Concept.accounts.inj (Member.book.inj (Option.some.inj (ha.symm.trans hm)))
    exact Scene.exists_turnsDown_empty depth (depth + 1) ho hpath htoken hnone

/-- A request to set the status of an animal, with or without the empty text for a token. -/
def statusRequestOf (token : Option String) : Fields :=
  ("path", .str statusPath) :: ("animal", .str "a1") :: ("status", .str "sold") ::
    (token.map fun text => ("token", Value.str text)).toList

/-- On an engine that has just been set up, such a request is turned down for lack of a token when it
holds none. With the empty text it is not: the empty text is verified, and invalid. -/
theorem request_anonymous_status : ∃ engine, Rehearsal.ofBook .standard [] none = .ok engine ∧
    engine.IsBook .standard ∧
    engine.TurnsDown 1 (statusRequestOf none) none (fun _ => []) Lookup.missingToken ∧
    engine.TurnsDown Engine.nesting (statusRequestOf (some "")) none
      (fun id => [⟨1, Lookup.accounts, Lookup.verify, .object [("token", .str "")],
        .object [("error", .str "invalid token")], id⟩]) "invalid token" :=
  have hb := isBook_of_ofBook none rfl nofun
  have hfresh : ∀ {engine : Rehearsal}, engine.IsFresh none := fun _ h =>
    absurd h (Option.not_mem_none _)
  have hnone : Value.FieldsAreJson (statusRequestOf none) := ⟨trivial, trivial, trivial, trivial⟩
  have hempty : Value.FieldsAreJson (statusRequestOf (some "")) :=
    ⟨trivial, trivial, trivial, trivial, trivial⟩
  ⟨_, rfl, hb,
    (request_anonymous hb (by decide) hfresh hnone rfl).1 (by decide +kernel) (.inl rfl) 0,
    (request_anonymous hb (by decide) hfresh hempty rfl).2 Lookup.verify _ List.mem_cons_self rfl
      rfl rfl 998⟩

end Rehearsal

end HerdBook
