import HerdBook.Proofs.Tokens

/-!
# The route to the status of an animal

What its rules make of a request: the token is verified by an action, the status is set by another,
and the request is answered once, or it is not answered and a fault is recorded.

## Main results

* `Rules.exists_plays_statusAnonymous`, `Rules.exists_plays_statusDenied`: a request without a token,
  and one with a token that is nobody's.
* `Rules.exists_plays_status`: every request is so answered.
-/

namespace HerdBook

open Effect Scene

namespace Rules

variable {venue : Venue} {scene : Scene} {input args out : Fields} {rid : String}
  {more : List Event} {token user : Value} {depth reentries : Nat}
  {handlers : Handlers World AdapterCode}

/-- The rules that watch for the verification of the token. -/
def verifiedRules : List (Rule AdapterCode) := [statusUpdate, statusIncomplete, statusDenied]

/-- The rules that watch for the status being set. -/
def statusRelays : List (Rule AdapterCode) := [statusUpdated, statusRefused]

/-- The names that the rules on a verified request bind. -/
def statusNames : List String := "token" :: statusFields

/-- What the status is set with. -/
def statusArgs (user : Value) (input : Fields) : Fields :=
  ("user", user) :: statusFields.map fun n => (n, (Table.get? n input).getD .null)

/-! ### Rules that have nothing to do -/

/-- Until the token is verified, the rules that watch for it do nothing. -/
theorem plays_verified_none (hb : scene.Begun venue input rid more)
    (hp : Table.get? "path" input = some (.str statusPath))
    (hmore : ∀ event ∈ more, event.IsOther Lookup.accounts Lookup.verify) :
    PlaysRules venue handlers verifiedRules scene scene :=
  plays_rules_cons (plays_unled hb hp (by decide)
      (by decide) (.inl (by decide)) hmore rfl)
    (plays_rules_cons (plays_unled hb hp
        (by decide) (by decide) (.inl (by decide)) hmore rfl)
      (plays_rules_cons (plays_unled hb hp (by decide)
        (by decide) (.inl (by decide)) hmore rfl) (plays_rules_nil scene)))

variable (handlers) in
/-- Until the status is set, the rules that watch for it do nothing. -/
theorem plays_statusRelays_none (hb : scene.Begun venue input rid more)
    (hp : Table.get? "path" input = some (.str statusPath))
    (hmore : ∀ event ∈ more, event.IsOther animals updateStatus) :
    PlaysRules venue handlers statusRelays scene scene :=
  plays_rules_cons (plays_unled hb hp (by decide)
      (by decide) (.inl (by decide)) hmore rfl)
    (plays_rules_cons (plays_unled hb hp (by decide)
      (by decide) (.inl (by decide)) hmore rfl) (plays_rules_nil scene))

variable (handlers) in
/-- A request that holds a token, and that does not lead to the status being set, leaves nothing to do
for the rules that are left. -/
theorem plays_statusRest_none (hb : scene.Begun venue input rid more)
    (hp : Table.get? "path" input = some (.str statusPath)) (hj : Value.FieldsAreJson input)
    (htoken : Table.get? "token" input = some token)
    (hmore : ∀ event ∈ more, event.IsOther animals updateStatus) :
    PlaysRules venue handlers (statusRelays ++ [withoutToken statusRoute statusPath]) scene scene :=
  plays_rules_append (plays_statusRelays_none handlers hb hp hmore)
    (plays_rules_cons (plays_withoutToken_none hb htoken (hj.get? htoken).isNotApplicable_eq_false)
      (plays_rules_nil scene))

/-! ### The verification -/

/-- The log tells that the token of the request is verified to be the user's. -/
structure IsVerified (scene : Scene) (venue : Venue) (input : Fields) (rid : String)
    (token user : Value) (out : Fields) : Prop where
  tells : scene.Tells venue input rid Lookup.accounts Lookup.verify [("token", token)] out 1
  json : Value.FieldsAreJson input
  path : Table.get? "path" input = some (.str statusPath)
  held : Table.get? "token" input = some token
  applicable : user.isNotApplicable = false
  user : Table.get? "user" out = some user
  error : Table.get? "error" out = none

/-- Nothing that is done without recording it changes this. -/
theorem IsVerified.of_log (h : IsVerified scene venue input rid token user out) (other : Scene)
    (hlog : other.log = scene.log) : IsVerified other venue input rid token user out :=
  { h with tells := h.tells.of_log _ hlog }

/-- Nor does a response. -/
theorem IsVerified.reply (h : IsVerified scene venue input rid token user out) (body : Fields) :
    IsVerified (scene.reply venue rid body) venue input rid token user out :=
  { h with tells := h.tells.reply (by decide) body }

/-- Nor does recording another action. -/
theorem IsVerified.append (h : IsVerified scene venue input rid token user out) {mid : Scene}
    {event : Event} (hlog : mid.log = scene.log ++ [event]) (hrequest : event.IsNoRequest)
    (hother : event.IsOther Lookup.accounts Lookup.verify) :
    IsVerified mid venue input rid token user out :=
  { h with tells := h.tells.append hlog hrequest hother }

/-- The rules that watch for the verification join it with the request by the token. -/
theorem IsVerified.joins (h : IsVerified scene venue input rid token user out) :
    scene.Joins venue input rid statusPath statusNames ["token"] Lookup.accounts Lookup.verify
      [("token", token)] out 1 where
  tells := h.tells
  json := h.json
  path := h.path
  nodup := by decide
  apart := by decide
  shared := fun n hn => by
    rw [List.mem_singleton.mp hn]
    exact ⟨by decide, h.held.symm⟩

/-- A rule that watches for the user goes on with what the request and the verification bind. -/
theorem IsVerified.exists_found (h : IsVerified scene venue input rid token user out)
    (rule : Rule AdapterCode)
    (hpatterns : rule.patterns = [statusRequest rule.name, verification rule.name "user"]) :
    ∃ frame : Frame, Pattern.combinations rule.patterns scene.log = .ok [(frame, [0, 1])] ∧
      frame.Reads rule.name (answered statusNames ["user"] input out rid) := by
  refine h.joins.found_answer hpatterns (by simp)
    (Frame.unify?_vars _ _ ["user"] _ _ (by simp) (fun n hn => ?_) (.inr fun n hn => ?_))
  · rw [List.mem_singleton.mp hn, reads_askedFrame _ _ _ _ (by decide) "user"]
    rfl
  · rw [List.mem_singleton.mp hn, h.user]
    rfl

/-- Of the request's fields the rules on a verified request bind what it holds. -/
theorem answered_of_mem {n : String} (hn : n ∈ statusFields) :
    answered statusNames ["user"] input out rid n = Table.get? n input := by
  have hne : n ∉ ["user"] := by
    rintro h
    rw [List.mem_singleton.mp h] at hn
    exact absurd hn (by decide)
  rw [answered, if_neg hne]
  exact asked_of_mem (by decide) (List.mem_cons_of_mem _ hn)

/-- The fields that a verified request lacks. -/
theorem filter_answered :
    (statusFields.filter fun n => (answered statusNames ["user"] input out rid n).isNone)
      = statusFields.filter fun n => (Table.get? n input).isNone :=
  List.filter_congr fun n hn => by rw [answered_of_mem hn]

/-! ### Rules on a verified request -/

variable (handlers) in
/-- The status is not set when the request lacks fields. -/
theorem IsVerified.plays_update_drop (h : IsVerified scene venue input rid token user out)
    (hl : (statusFields.filter fun n => (Table.get? n input).isNone) ≠ [])
    (hname : statusRoute ++ ".Request" ∉ scene.done) :
    PlaysRule venue handlers statusUpdate scene (scene.fire (statusRoute ++ ".Request")) := by
  obtain ⟨frame, hfound, hframe⟩ := h.exists_found statusUpdate rfl
  refine plays_evaluate_drop hfound (by simp) hname (plays_drop ?_ _)
  refine (holds_bound_of_missing hframe statusFields).trans ?_
  rw [filter_answered, List.isEmpty_eq_false_iff.mpr hl]

variable (depth reentries) in
/-- Their names are answered. -/
theorem IsVerified.plays_incomplete (h : IsVerified scene venue input rid token user out)
    {lacking : List String}
    (hl : (statusFields.filter fun n => (Table.get? n input).isNone) = lacking)
    (hne : lacking ≠ []) (hname : statusRoute ++ ".MissingInput" ∉ scene.done)
    (hgiven : scene.given = []) (hroom : (scene.log.length : Int) < venue.ceiling) :
    PlaysRule venue (World.handlersAt depth reentries) statusIncomplete scene
      ((scene.fire (statusRoute ++ ".MissingInput")).reply venue rid
        [("error", .str (missingMessage lacking))]) := by
  obtain ⟨frame, hfound, hframe⟩ := h.exists_found statusIncomplete rfl
  obtain ⟨next, hnext, hmissing⟩ := exists_plays_missing hframe (filter_answered.trans hl) hne
  exact plays_evaluate_respond hfound (by simp)
    hname rfl (hmissing _) hnext rfl (hnext.fillFields_var rfl rfl "error") hgiven hroom

/-- A request that lacks no field is not answered so. -/
theorem IsVerified.plays_incomplete_drop (h : IsVerified scene venue input rid token user out)
    (hl : (statusFields.filter fun n => (Table.get? n input).isNone) = [])
    (hname : statusRoute ++ ".MissingInput" ∉ scene.done) :
    PlaysRule venue handlers statusIncomplete scene
      (scene.fire (statusRoute ++ ".MissingInput")) := by
  obtain ⟨frame, hfound, hframe⟩ := h.exists_found statusIncomplete rfl
  exact plays_evaluate_drop hfound (by simp) hname
    (plays_missing_drop hframe (filter_answered.trans hl) _)

variable (handlers) in
/-- What is verified is not denied. -/
theorem IsVerified.plays_denied_none (h : IsVerified scene venue input rid token user out) :
    PlaysRule venue handlers statusDenied scene scene :=
  have hjoins : scene.Joins venue input rid statusPath ["token"] ["token"] Lookup.accounts
      Lookup.verify [("token", token)] out 1 :=
    ⟨h.tells, h.json, h.path, by simp, by simp, by simp [Table.get?, h.held]⟩
  hjoins.plays_none _ _ rfl (unify?_eq_none h.error)

/-- The status is set when the request lacks no field. -/
theorem IsVerified.exists_plays_update (h : IsVerified scene venue input rid token user out)
    (hl : (statusFields.filter fun n => (Table.get? n input).isNone) = [])
    (hname : statusRoute ++ ".Request" ∉ scene.done)
    (hroom : (scene.log.length : Int) < venue.ceiling) {store : Store}
    (hc : scene.ledger.concept? .animals = some (.animals store)) :
    ∃ after ledger,
      PlaysRule venue (World.handlersAt depth reentries) statusUpdate scene after ∧
      scene.Performed after venue (statusRoute ++ ".Request") animals updateStatus
        (statusArgs user input) [] ledger := by
  obtain ⟨frame, hfound, hframe⟩ := h.exists_found statusUpdate rfl
  have hheld := exists_of_missing h.json hl
  have hread : answered statusNames ["user"] input out rid "user" = some user := by
    simp [answered, h.user]
  have hargs : Value.fillFields frame (vars (statusRoute ++ ".Request") ("user" :: statusFields))
      = .ok (statusArgs user input) := by
    refine (hframe.fillFields_vars _
      (List.forall_mem_cons.mpr ⟨⟨user, hread, h.applicable⟩, fun n hn => ?_⟩)).trans ?_
    · rw [answered_of_mem hn]
      exact hheld n hn
    · rw [List.map_cons, hread]
      exact congrArg (fun rest => Except.ok (("user", user) :: rest))
        (List.map_congr_left fun n hn => by rw [answered_of_mem hn])
  have hkept : PlaysStages venue (World.handlersAt depth reentries) statusUpdate.stages frame
      (scene.fire (statusRoute ++ ".Request")) (.ok [frame])
      (scene.fire (statusRoute ++ ".Request")) := by
    refine plays_keep ?_ (plays_no_stages _ _)
    refine (holds_bound_of_missing hframe statusFields).trans ?_
    rw [filter_answered, hl]
    rfl
  have hentries : ∀ entry ∈ statusArgs user input, entry.2.isNotApplicable = false := by
    refine List.forall_mem_cons.mpr ⟨h.applicable, fun entry he => ?_⟩
    obtain ⟨n, hn, rfl⟩ := List.mem_map.mp he
    obtain ⟨v, hv, hav⟩ := hheld n hn
    simpa [hv] using hav
  obtain ⟨turn, hturn, hproper⟩ := Concept.exists_turn (.animals store) updateStatus [] _
    (fun _ _ => trivial) (by simp [Concept.kind, Concept.Kind.offered, AnimalAction.offered,
      updateStatus]) hentries scene.ledger.issued
  obtain ⟨after, hplays, hafter⟩ := exists_plays_performed _ hfound (by simp) hname rfl hkept hargs
    hroom hc hturn
    ⟨by decide, by decide +kernel⟩ hproper
  exact ⟨after, _, hplays, hafter⟩

/-! ### The rules that follow the verification -/

/-- The rules that follow the verification. -/
def afterVerify : List (Rule AdapterCode) :=
  verifiedRules ++ (statusRelays ++ [withoutToken statusRoute statusPath])

/-- A verified request that lacks fields is answered with their names. -/
theorem IsVerified.exists_plays_lacking (hv : IsVerified scene venue input rid token user out)
    (hrecorded : scene.Recorded venue input rid Lookup.accounts Lookup.verify [("token", token)]
      out)
    (hgiven : scene.given = []) (hdone : scene.done = [statusRoute ++ ".Verify"])
    (hl : (statusFields.filter fun n => (Table.get? n input).isNone) ≠ []) :
    ∃ after, PlaysRules venue (World.handlersAt depth reentries) afterVerify scene after ∧
      after.Closes venue input rid := by
  obtain ⟨body, hbody⟩ : ∃ body : Fields, body = [("error",
    .str (missingMessage (statusFields.filter fun n => (Table.get? n input).isNone)))] := ⟨_, rfl⟩
  obtain ⟨mid, hmid⟩ : ∃ mid, mid = (scene.fire (statusRoute ++ ".Request")).fire
    (statusRoute ++ ".MissingInput") := ⟨_, rfl⟩
  have hlog : mid.log = scene.log := by rw [hmid]; rfl
  have hfirst := hv.plays_update_drop (World.handlersAt depth reentries) hl
    (by simp [hdone])
  have hsecond := (hv.of_log (scene.fire (statusRoute ++ ".Request")) rfl).plays_incomplete
    depth reentries rfl hl (by simp [fire, hdone]) hgiven
    hrecorded.hasRoom
  rw [← hbody, ← hmid] at hsecond
  have hb := (hrecorded.of_log _ hlog).begun.reply body
  have hthird := ((hv.of_log _ hlog).reply body).plays_denied_none
    (World.handlersAt depth reentries)
  have hverified := plays_rules_cons hfirst (plays_rules_cons hsecond (plays_rules_cons hthird
    (plays_rules_nil _)))
  have hrest := plays_statusRest_none (World.handlersAt depth reentries) hb hv.path hv.json hv.held
    (by simp [Event.IsOther, Lookup.accounts, animals, response, requesting])
  exact ⟨_, plays_rules_append hverified hrest,
    (hrecorded.of_log _ hlog).closes_reply (by decide) _⟩

variable (user) in
/-- What the status is set with shares the fields with the request. -/
theorem get?_statusArgs (hl : (statusFields.filter fun n => (Table.get? n input).isNone) = [])
    (hj : Value.FieldsAreJson input) :
    ∀ n ∈ statusFields, n ∈ statusFields ∧
      Table.get? n (statusArgs user input) = Table.get? n input := by
  intro n hn
  obtain ⟨v, hv, -⟩ := exists_of_missing hj hl n hn
  have hne : n ≠ "user" := by
    rintro rfl
    exact absurd hn (by decide)
  refine ⟨hn, ?_⟩
  rw [statusArgs, Table.get?, if_neg hne.symm, Table.get?_map_pair, if_pos hn, hv]
  rfl

/-- Once the status has been set, or not, the request is answered with what has come of it. -/
theorem exists_plays_statusAnswer {answer : Fields} {number : Nat}
    (hjoins : scene.Joins venue input rid statusPath statusFields statusFields animals updateStatus
      args answer number)
    (hb : scene.Begun venue input rid more) (hquiet : ∀ event ∈ more, event.isResponse = false)
    (hsize : more.length ≤ 2) (htoken : Table.get? "token" input = some token)
    (hgiven : scene.given = []) (hroom : (scene.log.length : Int) < venue.ceiling)
    (hdone : scene.done = [statusRoute ++ ".Verify", statusRoute ++ ".Request",
      statusRoute ++ ".MissingInput"])
    (hout : (∃ reason, answer = [("error", .str reason)]) ∨ Table.get? "error" answer = none) :
    ∃ after, PlaysRules venue (World.handlersAt depth reentries)
        (statusRelays ++ [withoutToken statusRoute statusPath]) scene after ∧
      after.Closes venue input rid := by
  have ha : token.isNotApplicable = false := (hjoins.json.get? htoken).isNotApplicable_eq_false
  have hend : ∀ name body, PlaysRules venue (World.handlersAt depth reentries)
      [withoutToken statusRoute statusPath] ((scene.fire name).reply venue rid body)
      ((scene.fire name).reply venue rid body) := fun name body =>
    plays_rules_cons (plays_withoutToken_none ((hb.of_log (scene.fire name) rfl).reply body) htoken
      ha) (plays_rules_nil _)
  have hcloses : ∀ name body, ((scene.fire name).reply venue rid body).Closes venue input rid :=
    fun name body => (hb.of_log (scene.fire name) rfl).closes_reply hquiet hsize body
  rcases hout with ⟨reason, rfl⟩ | herror
  · have hanswer := hjoins.plays_refused depth reentries statusUpdated statusRefused rfl
      (unify?_success_of_error ((statusUpdated (κ := AdapterCode)).name) [] rfl) ⟨rfl, rfl, rfl⟩
      (by simp [hdone, statusRefused]) hgiven hroom (by decide) rfl
    exact ⟨_, plays_rules_append hanswer (hend _ _), hcloses _ _⟩
  · have hresponds := hjoins.plays_success statusUpdated depth reentries _
      ⟨rfl, rfl, rfl⟩ (by simp [hdone, statusUpdated]) hgiven hroom List.nodup_nil (by simp)
      (by simp) herror (by simp) fun _ _ => rfl
    have hanswer := hjoins.plays_succeeded statusRefused (by decide) hresponds rfl herror
    exact ⟨_, plays_rules_append hanswer (hend _ _), hcloses _ _⟩

/-- A verified request that lacks no field is answered with what comes of setting the status, or a
fault is recorded. -/
theorem IsVerified.exists_plays_complete (hv : IsVerified scene venue input rid token user out)
    (hrecorded : scene.Recorded venue input rid Lookup.accounts Lookup.verify [("token", token)]
      out)
    (hgiven : scene.given = []) (hdone : scene.done = [statusRoute ++ ".Verify"])
    (hl : (statusFields.filter fun n => (Table.get? n input).isNone) = []) {store : Store}
    (hc : scene.ledger.concept? .animals = some (.animals store)) :
    ∃ after, PlaysRules venue (World.handlersAt depth reentries) afterVerify scene after ∧
      after.Closes venue input rid := by
  have hne : animals ≠ requesting := by decide
  have hother : animals ≠ Lookup.accounts := by decide
  obtain ⟨mid, ledger, hfirst, hmid⟩ := hv.exists_plays_update hl (by simp [hdone])
    hrecorded.hasRoom hc
  have hdone' : mid.done = [statusRoute ++ ".Verify", statusRoute ++ ".Request"] := by
    rw [hmid.done, hdone]
    rfl
  obtain ⟨last, hlast⟩ : ∃ last, last = mid.fire (statusRoute ++ ".MissingInput") := ⟨_, rfl⟩
  have hlog' : last.log = mid.log := by rw [hlast]; rfl
  have hopen : IsVerified mid venue input rid token user out →
      PlaysRules venue (World.handlersAt depth reentries) verifiedRules scene last := fun hm => by
    rw [hlast]
    exact plays_rules_cons hfirst (plays_rules_cons (hm.plays_incomplete_drop hl (by simp [hdone']))
      (plays_rules_cons ((hm.of_log (mid.fire (statusRoute ++ ".MissingInput"))
        rfl).plays_denied_none
        _) (plays_rules_nil _)))
  rcases hmid.ends with ⟨hlog, hfaults⟩ | ⟨answer, hlog, hout⟩
  · have hb := hrecorded.begun.of_log last (hlog'.trans hlog)
    have hrest := plays_statusRest_none (World.handlersAt depth reentries) hb hv.path hv.json hv.held
      (by simp [Event.IsOther, Lookup.accounts, animals])
    exact ⟨last, plays_rules_append (hopen (hv.of_log _ hlog)) hrest,
      hb.closes_fault (by simp [Event.isResponse, Lookup.accounts, requesting]) (by simp)
        (by rw [hlast]; exact hfaults)⟩
  · have hb := hrecorded.begun.append hlog hne
    have hjoins : mid.Joins venue input rid statusPath statusFields statusFields animals
        updateStatus (statusArgs user input) answer scene.log.length :=
      ⟨hrecorded.begun.tells hlog hne (by simp [Event.IsOther, Lookup.accounts, animals]), hv.json,
        hv.path, by decide, by decide, get?_statusArgs user hl hv.json⟩
    have hroom : (mid.log.length : Int) < venue.ceiling := by
      rw [hlog, List.length_append, List.length_singleton]
      exact_mod_cast hrecorded.room
    obtain ⟨after, hanswer, hcloses⟩ := exists_plays_statusAnswer (hjoins.of_log last hlog')
      (hb.of_log last hlog') (by simp [Event.isResponse, Lookup.accounts, animals, requesting])
      (by simp) hv.held (by rw [hlast]; exact hmid.given.trans hgiven) (by rw [hlog']; exact hroom)
      (by rw [hlast]; exact congrArg (· ++ [statusRoute ++ ".MissingInput"]) hdone')
      (hout.imp_right And.left)
    exact ⟨after, plays_rules_append
      (hopen (hv.append hlog (.inl hne) (.inl hother))) hanswer, hcloses⟩

/-- A request whose token is not that of a user is answered with the reason. -/
theorem exists_plays_statusDenied {reason : String} (ho : scene.Opens venue input rid statusPath)
    {mid : Scene} (hrecorded : mid.Recorded venue input rid Lookup.accounts Lookup.verify
      [("token", token)] [("error", .str reason)])
    (hgiven : mid.given = []) (hdone : mid.done = [statusRoute ++ ".Verify"])
    (htoken : Table.get? "token" input = some token) :
    ∃ after, PlaysRules venue (World.handlersAt depth reentries) afterVerify mid after ∧
      after.Ends (mid.log ++ [mid.response venue rid [("error", .str reason)]]) mid.faults
        (mid.ledger.respond rid [("error", .str reason)]) := by
  have hjoins : ∀ names : List String, names.Nodup → "request" ∉ names → "token" ∈ names →
      mid.Joins venue input rid statusPath names ["token"] Lookup.accounts Lookup.verify
        [("token", token)] [("error", .str reason)] 1 := fun names hn hr hmem =>
    ⟨hrecorded.tells, ho.json, ho.path, hn, hr, by simp [Table.get?, htoken, hmem]⟩
  have hfound := hjoins statusNames (by decide) (by decide) (by decide)
  have hfirst := hfound.plays_none statusUpdate (World.handlersAt depth reentries) rfl
    (unify?_eq_none rfl)
  have hsecond := hfound.plays_none statusIncomplete (World.handlersAt depth reentries) rfl
    (unify?_eq_none rfl)
  have hthird := (hjoins ["token"] (by simp) (by simp) (by simp)).plays_field statusDenied
    depth reentries ⟨rfl, rfl, rfl⟩ (by simp [hdone, statusDenied]) hgiven
    hrecorded.hasRoom (by decide) (by decide) rfl rfl
  have hb := (hrecorded.fire (statusRoute ++ ".AuthError")).begun.reply [("error", .str reason)]
  have hverified := plays_rules_cons hfirst (plays_rules_cons hsecond (plays_rules_cons hthird
    (plays_rules_nil _)))
  have hrest := plays_statusRest_none (World.handlersAt depth reentries) hb ho.path ho.json htoken
    (by simp [Event.IsOther, Lookup.accounts, animals, response, requesting])
  exact ⟨_, plays_rules_append hverified hrest, rfl, rfl, rfl⟩

variable (answer : (call : EngineCall AdapterCode) → Effect Rehearsal call.Answer) (reentries) in
/-- A request that holds no token is answered so, and nothing is verified. -/
theorem exists_plays_statusAnonymous (ho : scene.Opens venue input rid statusPath)
    (htoken : Table.get? "token" input = none) :
    ∃ after, PlaysRules venue (World.host.handlers answer reentries) statusRules scene after ∧
      after.Ends (scene.log ++ [scene.response venue rid [("error", .str Lookup.missingToken)]]) []
        (scene.ledger.respond rid [("error", .str Lookup.missingToken)]) := by
  have hfirst := plays_open_drop statusVerify (World.host.handlers answer reentries) ho.begun
    ho.path (by simp) (by simp) rfl rfl (by simp [ho.done]) (by simp [htoken])
  have hb := ho.begun.of_log (scene.fire (statusRoute ++ ".Verify")) rfl
  have hlast := plays_withoutToken answer reentries statusRoute hb ho.path htoken
    (by simp [fire, ho.done]) ho.given ho.hasRoom
  exact ⟨_, plays_rules_cons hfirst (plays_rules_append (plays_verified_none hb ho.path (by simp))
    (plays_rules_append (plays_statusRelays_none _ hb ho.path (by simp))
      (plays_rules_cons hlast (plays_rules_nil _)))), rfl, ho.faults, rfl⟩

/-- A request for the status of an animal is answered once, or a fault is recorded. -/
theorem exists_plays_status (ho : scene.Opens venue input rid statusPath)
    (hs : scene.ledger.accounts.Sound) :
    ∃ after, PlaysRules venue (World.handlersAt depth reentries) statusRules scene after ∧
      after.Closes venue input rid := by
  have hne : Lookup.accounts ≠ requesting := by decide
  cases htoken : Table.get? "token" input with
  | none =>
    obtain ⟨after, hplays, hends⟩ := exists_plays_statusAnonymous reentries
      (Engine.answer World.host (depth + 1)) ho htoken
    exact ⟨after, hplays, ho.closes_response [] (isResponse_response ..) (by simp) (by simp)
      hends.log⟩
  | some token =>
    obtain ⟨mid, ledger, hothers, hfirst, hmid⟩ := handsOver_statusVerify.exists_plays ["user"] ho hs
      (by simp [AccountAction.offered, Lookup.verify]) ⟨by decide, by decide +kernel⟩ htoken
    have hc := hothers .animals (by simp)
    have hdone : mid.done = [statusRoute ++ ".Verify"] := by rw [hmid.done, ho.done]; rfl
    have hgiven := hmid.given.trans ho.given
    rcases hmid.ends with ⟨hlog, hfaults⟩ | ⟨out, hlog, hout⟩
    · have hb := ho.begun.of_log _ hlog
      exact ⟨mid, plays_rules_cons hfirst (plays_rules_append
        (plays_verified_none hb ho.path (by simp))
        (plays_statusRest_none _ hb ho.path ho.json htoken (by simp))),
        hb.closes_fault (by simp) (by simp) hfaults⟩
    have hrecorded := ho.recorded hlog hne
    have hrest : ∃ after, PlaysRules venue (World.handlersAt depth reentries) afterVerify mid after
      ∧
        after.Closes venue input rid := by
      rcases hout with ⟨reason, rfl⟩ | ⟨herror, hshown⟩
      · obtain ⟨after, hplays, hends⟩ := exists_plays_statusDenied ho hrecorded hgiven hdone htoken
        have hresponse := hends.log
        rw [hlog, List.append_assoc] at hresponse
        exact ⟨after, hplays, ho.closes_response _ (isResponse_response ..) (by simp [hne]) (by simp)
          hresponse⟩
      · obtain ⟨user, huser, hua⟩ := hshown "user" (by simp)
        have hv : IsVerified mid venue input rid token user out :=
          ⟨hrecorded.tells, ho.json, ho.path, htoken, hua, huser, herror⟩
        by_cases hl : (statusFields.filter fun n => (Table.get? n input).isNone) = []
        · exact hv.exists_plays_complete hrecorded hgiven hdone hl (hmid.ledger ▸ hc)
        · exact hv.exists_plays_lacking hrecorded hgiven hdone hl
    obtain ⟨after, hplays, hends⟩ := hrest
    exact ⟨after, plays_rules_cons hfirst hplays, hends⟩

end Rules

end HerdBook
