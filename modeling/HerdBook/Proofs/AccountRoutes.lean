import HerdBook.Proofs.Tokens

/-!
# Routes to the accounts

What the rules of registering, logging in and logging out make of a request: it is answered once, or
it is not answered and a fault is recorded.

## Main results

* `Rules.exists_plays_enter`: registering and logging in.
* `Rules.exists_plays_logoutAnonymous`, `Rules.exists_plays_logoutDenied`: logging out without a
  token, and with a token that is nobody's.
* `Rules.exists_plays_logout`: logging out.
-/

namespace HerdBook

open Effect Scene

namespace Rules

variable {venue : Venue} {scene : Scene} {input : Fields} {rid : String} {more : List Event}
  {depth reentries : Nat}

/-! ### Registering and logging in -/

section Entering

variable {action result : String}

/-- What the account action is called with. -/
def credentialsOf (input : Fields) : Fields :=
  credentials.map fun n => (n, (Table.get? n input).getD .null)

/-- Until the action is recorded, the rules that answer with its result do nothing. -/
theorem plays_relays_none {handlers : Handlers World AdapterCode}
    (hb : scene.Begun venue input rid more)
    (hp : Table.get? "path" input = some (.str (accountPath action)))
    (hmore : ∀ event ∈ more, event.IsOther Lookup.accounts action) (field : String) :
    PlaysRules venue handlers [relay action ".Response" ["username"] field,
      relay action ".Error" ["username"] "error"] scene scene :=
  plays_rules_cons (plays_unled hb hp
      (by simp) (by simp) (.inl (by decide)) hmore rfl)
    (plays_rules_cons (plays_unled hb hp
      (by simp) (by simp) (.inl (by decide)) hmore rfl) (plays_rules_nil scene))

/-- What a request binds is what the action is called with. -/
theorem fillFields_credentials (hj : Value.FieldsAreJson input) {rule : String}
    (hl : (credentials.filter fun n => (Table.get? n input).isNone) = []) :
    Value.fillFields (askedFrame rule credentials input (.str rid)) (vars rule credentials)
      = .ok (credentialsOf input) := by
  refine Frame.fillFields_of_get? (fun n hn => ?_) (exists_of_missing hj hl)
  rw [reads_askedFrame _ _ _ _ (by decide) n]
  exact asked_of_mem (by decide) hn

/-- The action shares the name with the request. -/
theorem get?_credentialsOf (hj : Value.FieldsAreJson input)
    (hl : (credentials.filter fun n => (Table.get? n input).isNone) = []) :
    ∀ n ∈ ["username"], n ∈ ["username"] ∧
      Table.get? n (credentialsOf input) = Table.get? n input := by
  intro n hn
  have hmem : n ∈ credentials := List.mem_singleton.mp hn ▸ by decide
  obtain ⟨v, hv, -⟩ := exists_of_missing hj hl n hmem
  refine ⟨hn, ?_⟩
  rw [credentialsOf, Table.get?_map_pair, if_pos hmem, hv]
  rfl

/-- Whatever the action is called with is something. -/
theorem credentialsOf_isNotApplicable (hj : Value.FieldsAreJson input)
    (hl : (credentials.filter fun n => (Table.get? n input).isNone) = []) :
    ∀ entry ∈ credentialsOf input, entry.2.isNotApplicable = false := by
  intro entry he
  obtain ⟨n, hn, rfl⟩ := List.mem_map.mp he
  obtain ⟨v, hv, ha⟩ := exists_of_missing hj hl n hn
  simpa [hv] using ha

/-- A request that lacks a field is answered with what is missing. -/
theorem exists_plays_enter_incomplete (ho : scene.Opens venue input rid (accountPath action))
    (hl : (credentials.filter fun n => (Table.get? n input).isNone) ≠ []) :
    ∃ after, PlaysRules venue (World.handlersAt depth reentries) (enterRules action result) scene
        after ∧ after.Closes venue input rid := by
  have hrequest : "request" ∉ credentials := by decide
  have hfirst := plays_open_drop (enter action) (World.handlersAt depth reentries) ho.begun ho.path
    (by decide) hrequest rfl rfl
    (by simp [ho.done]) hl
  have hb := ho.begun.of_log (scene.fire (accountRoute action ++ ".Request")) rfl
  have hsecond := plays_open_incomplete (enterIncomplete action)
    (Engine.answer World.host (depth + 1)) reentries hb ho.path
    (by decide) hrequest rfl rfl rfl (by simp [fire, ho.done, enterIncomplete]) rfl hl ho.given
    ho.hasRoom
  have hb' := hb.of_log ((scene.fire (accountRoute action ++ ".Request")).fire
    (accountRoute action ++ ".MissingInput")) rfl
  exact ⟨_, plays_rules_cons hfirst (plays_rules_cons hsecond (plays_relays_none (hb'.reply _)
    ho.path (by simp [Event.IsOther, response, requesting, Lookup.accounts]) result)),
    hb'.closes_reply (by simp) (by simp) _⟩

/-- The action is called with what a complete request holds. -/
theorem exists_plays_entered (hoffered : (action, [result]) ∈ AccountAction.offered)
    (hown : Target.IsOwn action) (ho : scene.Opens venue input rid (accountPath action))
    (hs : scene.ledger.accounts.Sound)
    (hl : (credentials.filter fun n => (Table.get? n input).isNone) = []) :
    ∃ mid ledger, PlaysRule venue (World.handlersAt depth reentries) (enter action) scene mid ∧
      scene.Performed mid venue (accountRoute action ++ ".Request") Lookup.accounts action
        (credentialsOf input) [result] ledger := by
  obtain ⟨turn, hturn, hproper⟩ := Concept.exists_turn (.accounts scene.ledger.accounts) _ _ _
    hs hoffered (credentialsOf_isNotApplicable ho.json hl) scene.ledger.issued
  obtain ⟨mid, hmid, hperformed⟩ := exists_plays_performed .accounts
    (ho.begun.found ho.path (by decide) (by decide) (accountRoute action ++ ".Request"))
    (by simp) (by simp [ho.done]) rfl
    (plays_open_keep (enter action) (by decide) (by decide) rfl hl (plays_no_stages _ _))
    (fillFields_credentials ho.json hl) ho.hasRoom rfl hturn hown hproper
  exact ⟨mid, _, hmid, hperformed⟩

/-- What has come of the action is answered. -/
theorem exists_plays_enterAnswer (hresult : ∀ n ∈ ["username", "request", "error"], result ≠ n)
    (ho : scene.Opens venue input rid (accountPath action))
    (hl : (credentials.filter fun n => (Table.get? n input).isNone) = []) {last : Scene}
    {out : Fields}
    (hrecorded : last.Recorded venue input rid Lookup.accounts action (credentialsOf input) out)
    (hgiven : last.given = [])
    (hdone : last.done = [accountRoute action ++ ".Request",
      accountRoute action ++ ".MissingInput"])
    (hout : (∃ reason, out = [("error", .str reason)]) ∨ (Table.get? "error" out = none ∧
      ∀ n ∈ [result], ∃ v, Table.get? n out = some v ∧ v.isNotApplicable = false)) :
    ∃ after, PlaysRules venue (World.handlersAt depth reentries)
        [relay action ".Response" ["username"] result, relay action ".Error" ["username"] "error"]
        last after ∧ after.Closes venue input rid := by
  have hne : Lookup.accounts ≠ requesting := by decide
  have hjoins : last.Joins venue input rid (accountPath action) ["username"] ["username"]
      Lookup.accounts action (credentialsOf input) out 1 :=
    ⟨hrecorded.tells, ho.json, ho.path, by simp, by simp, get?_credentialsOf ho.json hl⟩
  rcases hout with ⟨reason, rfl⟩ | ⟨herror, hshown⟩
  · have hnone : Table.get? result [("error", Value.str reason)] = none := by
      simp [Table.get?, (hresult "error" (by simp)).symm]
    have hanswer := hjoins.plays_refused depth reentries
      (relay action ".Response" ["username"] result) (relay action ".Error" ["username"] "error")
      rfl (unify?_eq_none hnone) ⟨rfl, rfl, rfl⟩ (by simp [hdone, relay]) hgiven hrecorded.hasRoom
      (by decide) rfl
    exact ⟨_, hanswer, (hrecorded.fire _).closes_reply hne _⟩
  · obtain ⟨v, hv, ha⟩ := hshown result (by simp)
    have hresponds := hjoins.plays_field (relay action ".Response" ["username"] result) depth
      reentries ⟨rfl, rfl, rfl⟩ (by simp [hdone, relay]) hgiven hrecorded.hasRoom
      (by simpa using hresult "username" (by simp)) (hresult "request" (by simp)) hv ha
    exact ⟨_, hjoins.plays_succeeded (relay action ".Error" ["username"] "error") hne hresponds rfl
      herror,
      (hrecorded.fire _).closes_reply hne _⟩

/-- Registering and logging in are answered once, or a fault is recorded. -/
theorem exists_plays_enter (hoffered : (action, [result]) ∈ AccountAction.offered)
    (hown : Target.IsOwn action) (hresult : ∀ n ∈ ["username", "request", "error"], result ≠ n)
    (ho : scene.Opens venue input rid (accountPath action))
    (hs : scene.ledger.accounts.Sound) :
    ∃ after, PlaysRules venue (World.handlersAt depth reentries) (enterRules action result) scene
        after ∧ after.Closes venue input rid := by
  by_cases hl : (credentials.filter fun n => (Table.get? n input).isNone) ≠ []
  · exact exists_plays_enter_incomplete ho hl
  rw [not_ne_iff] at hl
  have hne : Lookup.accounts ≠ requesting := by decide
  obtain ⟨mid, ledger, hfirst, hmid⟩ := exists_plays_entered hoffered hown ho hs hl
  have hdone : mid.done = [accountRoute action ++ ".Request"] := by rw [hmid.done, ho.done]; rfl
  have hsecond : ∀ more, mid.Begun venue input rid more →
      PlaysRule venue (World.handlersAt depth reentries) (enterIncomplete action) mid
        (mid.fire (accountRoute action ++ ".MissingInput")) := fun more hb =>
    plays_open_incomplete_drop hb ho.path (by decide) (by decide)
      rfl rfl (by simp [hdone, enterIncomplete]) hl
  rcases hmid.ends with ⟨hlog, hfaults⟩ | ⟨out, hlog, hout⟩
  · have hb := ho.begun.of_log _ hlog
    have hb' := hb.of_log (mid.fire (accountRoute action ++ ".MissingInput")) rfl
    exact ⟨_, plays_rules_cons hfirst (plays_rules_cons (hsecond _ hb)
      (plays_relays_none hb' ho.path (by simp) result)),
      hb'.closes_fault (by simp) (by simp) hfaults⟩
  · have hrecorded := (ho.recorded hlog hne).fire (accountRoute action ++ ".MissingInput")
    obtain ⟨after, hanswer, hcloses⟩ := exists_plays_enterAnswer hresult ho hl hrecorded
      (hmid.given.trans ho.given) (congrArg (· ++ [accountRoute action ++ ".MissingInput"]) hdone)
      hout
    exact ⟨after, plays_rules_cons hfirst (plays_rules_cons
      (hsecond _ (ho.begun.append hlog hne)) hanswer), hcloses⟩

end Entering

/-! ### Logging out -/

section Leaving

/-- Until somebody is logged out, the rules that answer with the result do nothing. -/
theorem plays_left_none {handlers : Handlers World AdapterCode}
    (hb : scene.Begun venue input rid more)
    (hp : Table.get? "path" input = some (.str (accountPath "logout")))
    (hmore : ∀ event ∈ more, event.IsOther Lookup.accounts "logout") :
    PlaysRules venue handlers [left, relay "logout" ".Error" ["token"] "error"] scene scene :=
  plays_rules_cons (plays_unled hb hp (by simp) (by simp) (.inl (by decide)) hmore rfl)
    (plays_rules_cons (plays_unled hb hp
      (by simp) (by simp) (.inl (by decide)) hmore rfl) (plays_rules_nil scene))

/-- The rules of logging out. -/
def logoutRules : List (Rule AdapterCode) :=
  [leave, left, relay "logout" ".Error" ["token"] "error",
    withoutToken (accountRoute "logout") (accountPath "logout")]

variable (answer : (call : EngineCall AdapterCode) → Effect Rehearsal call.Answer) (reentries) in
/-- Who logs out without a token is told so, and no session is closed. -/
theorem exists_plays_logoutAnonymous (ho : scene.Opens venue input rid (accountPath "logout"))
    (htoken : Table.get? "token" input = none) :
    ∃ after, PlaysRules venue (World.host.handlers answer reentries) logoutRules scene after ∧
      after.Ends (scene.log ++ [scene.response venue rid [("error", .str Lookup.missingToken)]]) []
        (scene.ledger.respond rid [("error", .str Lookup.missingToken)]) := by
  have hfirst := plays_open_drop leave (World.host.handlers answer reentries)
    ho.begun ho.path (by simp) (by simp) rfl rfl (by simp [ho.done]) (by simp [htoken])
  have hb := ho.begun.of_log (scene.fire (accountRoute "logout" ++ ".Request")) rfl
  have hlast := plays_withoutToken answer reentries (accountRoute "logout") hb ho.path htoken
    (by simp [fire, ho.done]) ho.given ho.hasRoom
  exact ⟨_, plays_rules_cons hfirst (plays_rules_append (plays_left_none hb ho.path (by simp))
    (plays_rules_cons hlast (plays_rules_nil _))), rfl, ho.faults, rfl⟩

/-- The rules that follow when somebody has been logged out, or not. -/
def afterLeave : List (Rule AdapterCode) :=
  [left, relay "logout" ".Error" ["token"] "error",
    withoutToken (accountRoute "logout") (accountPath "logout")]

/-- Once a token has been given up, or not, the rules that answer join this with the request by the
token. -/
theorem joins_logout {token : Value} (ho : scene.Opens venue input rid (accountPath "logout"))
    {mid : Scene} {out : Fields}
    (hrecorded : mid.Recorded venue input rid Lookup.accounts "logout" [("token", token)] out)
    (htoken : Table.get? "token" input = some token) :
    mid.Joins venue input rid (accountPath "logout") ["token"] ["token"] Lookup.accounts "logout"
      [("token", token)] out 1 :=
  ⟨hrecorded.tells, ho.json, ho.path, by simp, by simp, by simp [Table.get?, htoken]⟩

/-- Who logs out with a token that is nobody's is told the reason. -/
theorem exists_plays_logoutDenied {token : Value} {reason : String}
    (ho : scene.Opens venue input rid (accountPath "logout")) {mid : Scene}
    (hrecorded : mid.Recorded venue input rid Lookup.accounts "logout" [("token", token)]
      [("error", .str reason)])
    (hgiven : mid.given = []) (hdone : mid.done = [accountRoute "logout" ++ ".Request"])
    (htoken : Table.get? "token" input = some token) :
    ∃ after, PlaysRules venue (World.handlersAt depth reentries) afterLeave mid after ∧
      after.Ends (mid.log ++ [mid.response venue rid [("error", .str reason)]]) mid.faults
        (mid.ledger.respond rid [("error", .str reason)]) := by
  have ha : token.isNotApplicable = false := (ho.json.get? htoken).isNotApplicable_eq_false
  have hanswer := (joins_logout ho hrecorded htoken).plays_refused depth reentries left
    (relay "logout" ".Error" ["token"] "error") rfl
    (unify?_success_of_error ((left (κ := AdapterCode)).name) [] rfl) ⟨rfl, rfl, rfl⟩
    (by simp [hdone, relay]) hgiven hrecorded.hasRoom (by simp) rfl
  have hb := (hrecorded.begun.of_log (mid.fire (accountRoute "logout" ++ ".Error"))
    rfl).reply [("error", .str reason)]
  exact ⟨_, plays_rules_append hanswer
    (plays_rules_cons (plays_withoutToken_none hb htoken ha) (plays_rules_nil _)), rfl, rfl, rfl⟩

/-- Logging out is answered once, or a fault is recorded. -/
theorem exists_plays_logout (ho : scene.Opens venue input rid (accountPath "logout"))
    (hs : scene.ledger.accounts.Sound) :
    ∃ after, PlaysRules venue (World.handlersAt depth reentries) logoutRules scene after ∧
      after.Closes venue input rid := by
  have hne : Lookup.accounts ≠ requesting := by decide
  cases htoken : Table.get? "token" input with
  | none =>
    obtain ⟨after, hplays, hends⟩ := exists_plays_logoutAnonymous reentries
      (Engine.answer World.host (depth + 1)) ho htoken
    exact ⟨after, hplays, ho.closes_response [] (isResponse_response ..) (by simp) (by simp)
      hends.log⟩
  | some token =>
    have ha : token.isNotApplicable = false := (ho.json.get? htoken).isNotApplicable_eq_false
    obtain ⟨mid, ledger, -, hfirst, hmid⟩ := handsOver_leave.exists_plays [] ho hs
      (by simp [AccountAction.offered]) ⟨by decide, by decide +kernel⟩ htoken
    have hdone : mid.done = [accountRoute "logout" ++ ".Request"] := by rw [hmid.done, ho.done]; rfl
    have hgiven := hmid.given.trans ho.given
    rcases hmid.ends with ⟨hlog, hfaults⟩ | ⟨out, hlog, hout⟩
    · have hb := ho.begun.of_log _ hlog
      exact ⟨_, plays_rules_cons hfirst (plays_rules_append (plays_left_none hb ho.path (by simp))
        (plays_rules_cons (plays_withoutToken_none hb htoken ha) (plays_rules_nil _))),
        hb.closes_fault (by simp) (by simp) hfaults⟩
    have hrecorded := ho.recorded hlog hne
    rcases hout with ⟨reason, rfl⟩ | ⟨herror, -⟩
    · obtain ⟨after, hplays, hends⟩ := exists_plays_logoutDenied ho hrecorded hgiven hdone htoken
      have hresponse := hends.log
      rw [hlog, List.append_assoc] at hresponse
      exact ⟨after, plays_rules_cons hfirst hplays,
        ho.closes_response _ (isResponse_response ..) (by simp [hne]) (by simp) hresponse⟩
    · have hjoins := joins_logout ho hrecorded htoken
      have hresponds := hjoins.plays_success left depth reentries _ ⟨rfl, rfl, rfl⟩
        (by simp [hdone, left]) hgiven hrecorded.hasRoom List.nodup_nil
        (by simp) (by simp) herror (by simp) fun _ _ => rfl
      have hanswer := hjoins.plays_succeeded (relay "logout" ".Error" ["token"] "error") hne
        hresponds rfl herror
      have hb := (hrecorded.begun.of_log (mid.fire (accountRoute "logout" ++ ".Response"))
        rfl).reply [("message", .str "Logged out successfully.")]
      exact ⟨_, plays_rules_cons hfirst (plays_rules_append hanswer
        (plays_rules_cons (plays_withoutToken_none hb htoken ha) (plays_rules_nil _))),
        (hrecorded.fire _).closes_reply hne _⟩

end Leaving

end Rules

end HerdBook
