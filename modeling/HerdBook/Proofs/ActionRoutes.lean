import HerdBook.Proofs.Relays
import HerdBook.Rules.Authenticated

/-!
# Routes that carry out an action

What the rules of a route make of a request for it, by who is logged in with its token, by the fields
that it lacks, and by what the action of the concept comes to. In each case the rules end in a scene
that is given in full: the events and the faults that are added, and what the concepts keep.

## Main results

* `ActionRoute.exists_plays_unverifiable`, `ActionRoute.exists_plays_denied`,
  `ActionRoute.exists_plays_incomplete`: the concept is not called.
* `ActionRoute.Calling.exists_plays_failed`, `ActionRoute.Calling.exists_plays_refused`,
  `ActionRoute.Calling.exists_plays_succeeded`: it is called once.
-/

namespace HerdBook

open Effect Rules Scene

namespace ActionRoute

variable {route : ActionRoute} {venue : Venue} {scene : Scene} {input : Fields} {rid : String}
  {kind : Concept.Kind} {user : Value} {depth reentries : Nat}

/-- The route names different fields, and its action is one of the herds or of the animals. -/
structure IsSound (route : ActionRoute) (kind : Concept.Kind) : Prop where
  fields : AreFields (route.fields ++ route.optional)
  success : AreFields route.success
  apart : ∀ n ∈ route.success, n ∉ route.fields
  concept : route.concept = kind.name
  action : Target.IsOwn route.action
  keeps : kind = .herds ∨ kind = .animals

instance (route : ActionRoute) (kind : Concept.Kind) : Decidable (route.IsSound kind) :=
  decidable_of_iff (AreFields (route.fields ++ route.optional) ∧ AreFields route.success ∧
      (∀ n ∈ route.success, n ∉ route.fields) ∧ route.concept = kind.name ∧
      Target.IsOwn route.action ∧ (kind = .herds ∨ kind = .animals))
    ⟨fun ⟨h₁, h₂, h₃, h₄, h₅, h₆⟩ => ⟨h₁, h₂, h₃, h₄, h₅, h₆⟩,
      fun ⟨h₁, h₂, h₃, h₄, h₅, h₆⟩ => ⟨h₁, h₂, h₃, h₄, h₅, h₆⟩⟩

/-- What the action is called with for a user's request. -/
def args (route : ActionRoute) (user : Value) (input : Fields) : Fields :=
  ("user", user) :: (route.fields.map fun n => (n, (Table.get? n input).getD .null))
    ++ route.optional.map fun n => (n, (Table.get? n input).getD (.str ""))

/-- The fields that a request lacks. -/
def lacking (route : ActionRoute) (input : Fields) : List String :=
  route.fields.filter fun n => (Table.get? n input).isNone

/-- What the response shows of a success. -/
def response (route : ActionRoute) (out : Fields) : Fields :=
  if route.success.isEmpty then [("message", .str route.message)]
  else route.success.map fun n => (n, (Table.get? n out).getD .null)

/-- The rule that carries the action out is guarded. -/
theorem isGuarded_carryOut (route : ActionRoute) :
    (route.carryOut AdapterCode.lookup).IsGuarded route.path (route.fields ++ route.optional)
      (keep (.applicable (symbol (route.name ++ ".Request") "user"))
        :: keep (.bound (symbols (route.name ++ ".Request") route.fields))
        :: route.optional.map fun n => orEmpty (symbol (route.name ++ ".Request") n)) :=
  ⟨rfl, rfl⟩

variable {more : List Event} {handlers : Handlers World AdapterCode}

/-- The rules of the route, with those that turn requests down apart. -/
theorem rules_eq (route : ActionRoute) :
    route.rules AdapterCode.lookup
      = route.carryOut AdapterCode.lookup :: (turnedDown route.name route.path route.fields
        ++ [route.succeeded, route.refused]) := by
  unfold rules turnedDown incompletes
  split <;> rfl

/-- The concept is not that of the requests. -/
theorem IsSound.concept_ne (hs : route.IsSound kind) : route.concept ≠ requesting := by
  rw [hs.concept]
  rcases hs.keeps with rfl | rfl <;> decide

/-- The fields a request must have are fields. -/
theorem IsSound.areFields (hs : route.IsSound kind) : AreFields route.fields :=
  ⟨(List.nodup_append.mp hs.fields.1).1, fun n h => hs.fields.2 n (List.mem_append_left _ h)⟩

/-- While the action has not been carried out, the rules that answer with its result find nothing. -/
theorem plays_answers_none (hs : route.IsSound kind) (hb : scene.Begun venue input rid more)
    (hp : Table.get? "path" input = some (.str route.path))
    (hnone : ∀ event ∈ more, event.concept ≠ route.concept) :
    PlaysRules venue handlers [route.succeeded, route.refused] scene scene := by
  have hrequest : "request" ∉ route.fields := fun h => hs.areFields.2 _ h (by decide)
  have hother : ∀ event ∈ more, event.IsOther route.concept route.action :=
    fun event he => .inl (hnone event he)
  exact plays_rules_cons (plays_unled hb hp hs.areFields.1 hrequest
      (.inl hs.concept_ne) hother rfl)
    (plays_rules_cons (plays_unled hb hp hs.areFields.1 hrequest
      (.inl hs.concept_ne) hother rfl) (plays_rules_nil scene))

/-! ### The concept is not called -/

/-- When the token cannot be looked up, the rules are aborted and nobody responds. -/
theorem exists_plays_unverifiable {fault : Fault} (hs : route.IsSound kind)
    (ho : scene.Opens venue input rid route.path)
    (hwho : scene.ledger.accounts.standing (tokenOf input) = .error fault) :
    ∃ after faults, PlaysRules venue (World.handlersAt depth reentries)
        (route.rules AdapterCode.lookup) scene after ∧
      after.Ends scene.log faults scene.ledger ∧ faults ≠ [] := by
  have hfirst := plays_guarded_error _ _ depth reentries
    ho.begun (isGuarded_carryOut route) hs.fields ho.json ho.path (by simp [ho.done]) hwho
  have hb : Begun ((scene.fire (route.name ++ ".Request")).fail venue (route.name ++ ".Request")
      unverifiable) venue input rid [] := ho.begun.of_log _ rfl
  obtain ⟨after, faults, hturned, hends, hne⟩ := exists_plays_turnedDown_error depth reentries
    route.name hb ho.json ho.path hs.areFields (by simp [fire, fail, ho.done]) hwho
  rw [rules_eq]
  exact ⟨after, faults, plays_rules_cons hfirst (plays_rules_append hturned
    (plays_answers_none hs (hb.of_log _ hends.log) ho.path (by simp))), hends, hne⟩

/-- A response is no event of the route's concept. -/
theorem concept_response_ne (hs : route.IsSound kind) (body : Fields) :
    (scene.response venue rid body).concept ≠ route.concept := fun h => hs.concept_ne h.symm

/-- When the token is nobody's, the response says so. -/
theorem exists_plays_denied {answer : (call : EngineCall AdapterCode) → Effect Rehearsal call.Answer}
    {reason : String} (hs : route.IsSound kind) (ho : scene.Opens venue input rid route.path)
    (hwho : Identifies venue answer scene.ledger.accounts (tokenOf input) (.error reason)) :
    ∃ after, PlaysRules venue (World.host.handlers answer reentries)
        (route.rules AdapterCode.lookup) scene after ∧
      after.Ends (scene.log ++ [scene.response venue rid [("error", .str reason)]]) []
        (scene.ledger.respond rid [("error", .str reason)]) := by
  have hfirst := plays_guarded_drop_of_error _ answer reentries ho.begun (isGuarded_carryOut route)
    hs.fields ho.json ho.path
    (by simp [ho.done]) hwho
  have hb := ho.begun.fire (route.name ++ ".Request")
  have hturned := plays_turnedDown_denied answer reentries route.name hb ho.json ho.path
    hs.areFields (by simp [fire, ho.done]) hwho ho.given ho.hasRoom
  rw [rules_eq]
  refine ⟨_, plays_rules_cons hfirst (plays_rules_append hturned
    (plays_answers_none hs ((hb.reply _).of_log _ rfl) ho.path ?_)), ⟨rfl, ho.faults, rfl⟩⟩
  simpa using concept_response_ne hs _

/-- A user's request that lacks fields is answered with their names. -/
theorem exists_plays_incomplete (hs : route.IsSound kind)
    (ho : scene.Opens venue input rid route.path)
    (hwho : scene.ledger.accounts.standing (tokenOf input) = .ok (.ok user))
    (huser : user.isNotApplicable = false) (hl : route.lacking input ≠ []) :
    ∃ after, PlaysRules venue (World.handlersAt depth reentries)
        (route.rules AdapterCode.lookup) scene after ∧
      after.Ends (scene.log ++
          [scene.response venue rid [("error", .str (missingMessage (route.lacking input)))]]) []
        (scene.ledger.respond rid
          [("error", .str (missingMessage (route.lacking input)))]) := by
  have hfirst := plays_guarded_drop_of_missing _ depth reentries ho.begun (isGuarded_carryOut route)
    hs.fields
    (fun n hn => List.mem_append_left _ hn) ho.json ho.path (by simp [ho.done]) hwho huser hl
  have hb := ho.begun.fire (route.name ++ ".Request")
  have hturned := plays_turnedDown_incomplete depth reentries route.name hb ho.json ho.path
    hs.areFields (by simp [fire, ho.done]) hwho huser rfl hl ho.given ho.hasRoom
  rw [rules_eq]
  refine ⟨_, plays_rules_cons hfirst (plays_rules_append hturned
    (plays_answers_none hs ((hb.reply _).of_log _ rfl) ho.path ?_)), ⟨rfl, ho.faults, rfl⟩⟩
  simpa using concept_response_ne hs _

/-! ### The concept is called -/

/-- What a rule of the route has bound once the fields that a request may lack are filled in. -/
def filled (route : ActionRoute) (input : Fields) (rid : String) (user : Value) :
    String → Option Value :=
  filledIn (known (route.fields ++ route.optional) input rid (.ok user)) route.optional

/-- The user is bound. -/
theorem filled_user (hs : route.IsSound kind) : route.filled input rid user "user" = some user := by
  have huser : "user" ∉ route.optional := fun h =>
    hs.fields.2 _ (List.mem_append_right _ h) (by decide)
  simp [filled, filledIn, huser, known, badged, Accounts.badge, Table.get?]

/-- The required fields are bound as the request has them. -/
theorem filled_of_mem_fields (hs : route.IsSound kind) {n : String} (hn : n ∈ route.fields) :
    route.filled input rid user n = Table.get? n input := by
  have hapart : n ∉ route.optional := fun ho => (List.nodup_append.mp hs.fields.1).2.2 n hn n ho rfl
  rw [filled, filledIn, if_neg hapart]
  exact known_of_mem hs.fields (List.mem_append_left _ hn)

/-- The other fields are empty where the request has none. -/
theorem filled_of_mem_optional (hs : route.IsSound kind) {n : String} (hn : n ∈ route.optional) :
    route.filled input rid user n = some ((Table.get? n input).getD (.str "")) := by
  rw [filled, filledIn, if_pos hn, known_of_mem hs.fields (List.mem_append_right _ hn)]

/-- What a user's request binds in the end is what the action is called with. -/
theorem fillFields_args (hs : route.IsSound kind) (hj : Value.FieldsAreJson input)
    (huser : user.isNotApplicable = false) (hl : route.lacking input = []) {frame : Frame}
    (hframe : frame.Reads (route.name ++ ".Request") (route.filled input rid user)) :
    Value.fillFields frame (("user", var (route.name ++ ".Request") "user")
        :: vars (route.name ++ ".Request") (route.fields ++ route.optional))
      = .ok (route.args user input) := by
  have hvars := hframe.fillFields_vars (route.fields ++ route.optional) fun n hn => by
    rcases List.mem_append.mp hn with hn | hn
    · rw [filled_of_mem_fields hs hn]
      exact exists_of_missing hj hl n hn
    · exact ⟨_, filled_of_mem_optional hs hn, getD_isNotApplicable hj rfl n⟩
  have hleft : (route.fields.map fun n => (n, (route.filled input rid user n).getD .null))
      = route.fields.map fun n => (n, (Table.get? n input).getD .null) :=
    List.map_congr_left fun n hn => by rw [filled_of_mem_fields hs hn]
  have hright : (route.optional.map fun n => (n, (route.filled input rid user n).getD .null))
      = route.optional.map fun n => (n, (Table.get? n input).getD (.str "")) :=
    List.map_congr_left fun n hn => by rw [filled_of_mem_optional hs hn, Option.getD_some]
  rw [Value.fillFields, hframe.fill_var (filled_user hs) huser, hvars, List.map_append, hleft,
    hright]
  rfl

variable {concept : Concept} {turn : Concept.Turn} {out : Fields} {notes : List Note}

/-- What is known when a request of a user opens a scene that is for the path of the route and lacks
no field: the action is called, and the turn is what the concept makes of it. -/
structure Calling (route : ActionRoute) (venue : Venue) (scene : Scene) (input : Fields)
    (rid : String) (kind : Concept.Kind) (user : Value) (concept : Concept) (turn : Concept.Turn) :
    Prop where
  sound : route.IsSound kind
  opens : scene.Opens venue input rid route.path
  standing : scene.ledger.accounts.standing (tokenOf input) = .ok (.ok user)
  applicable : user.isNotApplicable = false
  complete : route.lacking input = []
  held : scene.ledger.concept? kind = some concept
  answers : concept.answer? route.action (route.args user input) scene.ledger.issued = some turn

/-- What the rule that carries the action out finds is the request. -/
theorem Calling.found (h : route.Calling venue scene input rid kind user concept turn) :
    Pattern.combinations (route.carryOut AdapterCode.lookup).patterns scene.log
      = .ok [(askedFrame (route.name ++ ".Request") ("token" :: (route.fields ++ route.optional))
        input (.str rid), [0])] :=
  h.opens.begun.found_guarded (isGuarded_carryOut route) h.sound.fields h.opens.path

/-- Its stages lead to the call. -/
theorem Calling.exists_plays (h : route.Calling venue scene input rid kind user concept turn) :
    ∃ next, PlaysStages venue (World.handlersAt depth reentries)
        (route.carryOut AdapterCode.lookup).stages (askedFrame (route.name ++ ".Request")
          ("token" :: (route.fields ++ route.optional)) input (.str rid))
        (scene.fire (route.name ++ ".Request")) (.ok [next])
        (scene.fire (route.name ++ ".Request")) ∧
      Value.fillFields next (("user", var (route.name ++ ".Request") "user")
        :: vars (route.name ++ ".Request") (route.fields ++ route.optional))
          = .ok (route.args user input) := by
  obtain ⟨frame, hframe, hplays⟩ := exists_plays_guarded_user
    (scene.fire (route.name ++ ".Request"))
    (isGuarded_carryOut route) h.sound.fields h.opens.json h.standing h.applicable
  have hbound := holds_bound_known h.sound.fields (fun n hn => List.mem_append_left _ hn) hframe
  rw [show route.fields.filter _ = [] from h.complete] at hbound
  obtain ⟨next, hnext, hcomplete⟩ := exists_plays_orEmpty venue (World.handlersAt depth reentries)
    hframe route.optional
  have hstages := hcomplete (plays_no_stages next (scene.fire (route.name ++ ".Request")))
  rw [List.append_nil] at hstages
  exact ⟨next, hplays (plays_keep hbound hstages),
    fillFields_args h.sound h.opens.json h.applicable h.complete hnext⟩

/-- An action that is answered is recorded. -/
theorem Calling.plays_ok (h : route.Calling venue scene input rid kind user concept turn)
    (hout : turn.outcome = .ok ⟨.object out, notes⟩) :
    PlaysRule venue (World.handlersAt depth reentries) (route.carryOut AdapterCode.lookup) scene
      (((scene.fire (route.name ++ ".Request")).afterTurn turn).record venue route.concept
        route.action (route.args user input) (.object out)) := by
  obtain ⟨next, hstages, hargs⟩ := h.exists_plays
  have hfound := h.found
  rw [h.sound.concept]
  exact plays_evaluate_perform hfound (by simp) (by simp [h.opens.done])
    (by rw [← h.sound.concept]; rfl) hstages hargs h.opens.hasRoom h.held h.answers h.sound.action
    hout

/-- An action that fails aborts the rule. -/
theorem Calling.plays_fault (h : route.Calling venue scene input rid kind user concept turn)
    {fault : Fault} (hfault : turn.outcome = .error fault) (hord : fault.IsOrdinary) :
    PlaysRule venue (World.handlersAt depth reentries) (route.carryOut AdapterCode.lookup) scene
      (((scene.fire (route.name ++ ".Request")).afterTurn turn).fail venue
        (route.name ++ ".Request") (.wrapped .action route.name fault none)) := by
  obtain ⟨next, hstages, hargs⟩ := h.exists_plays
  have hrule := plays_evaluate_perform_fault h.found (by simp) (by simp [h.opens.done])
    (by rw [← h.sound.concept]; rfl) hstages hargs h.opens.hasRoom h.held h.answers h.sound.action
    hfault hord
  rw [← h.sound.concept] at hrule
  exact hrule

/-- Whose request it is does not depend on the action. -/
theorem Calling.standing_afterTurn
    (h : route.Calling venue scene input rid kind user concept turn) :
    (scene.ledger.afterTurn turn).accounts.standing (tokenOf input) = .ok (.ok user) := by
  rw [(Ledger.afterTurn_of_answer? h.sound.keeps h.held h.answers).1]
  exact h.standing

/-- After the action, the request is neither denied nor searched for missing fields. -/
theorem Calling.plays_rules (h : route.Calling venue scene input rid kind user concept turn)
    {mid after : Scene}
    (hfirst : PlaysRule venue (World.handlersAt depth reentries)
      (route.carryOut AdapterCode.lookup) scene mid)
    (hb : mid.Begun venue input rid more) (hdone : mid.done = [route.name ++ ".Request"])
    (hledger : mid.ledger = scene.ledger.afterTurn turn)
    (hlast : PlaysRules venue (World.handlersAt depth reentries) [route.succeeded, route.refused]
      ((mid.fire (route.name ++ ".AuthError")).fire (route.name ++ ".MissingInput")) after) :
    PlaysRules venue (World.handlersAt depth reentries) (route.rules AdapterCode.lookup) scene
      after := by
  have hwho := h.standing_afterTurn
  rw [← hledger] at hwho
  have hturned := plays_turnedDown_drop depth reentries route.name hb h.opens.json h.opens.path
    h.sound.areFields (by simp [hdone]) hwho h.applicable h.complete
  rw [rules_eq]
  exact plays_rules_cons hfirst (plays_rules_append hturned hlast)

/-- When the action ends in a fault, nobody responds and the fault is recorded. -/
theorem Calling.exists_plays_failed
    (h : route.Calling venue scene input rid kind user concept turn) {fault : Fault}
    (hfault : turn.outcome = .error fault) (hord : fault.IsOrdinary) :
    ∃ after, PlaysRules venue (World.handlersAt depth reentries)
        (route.rules AdapterCode.lookup) scene after ∧
      after.Ends scene.log [⟨route.name ++ ".Request", venue.id,
          .wrapped .action route.name fault (some ⟨route.name ++ ".Request", venue.id⟩)⟩]
        (scene.ledger.afterTurn turn) := by
  have hb : Begun (((scene.fire (route.name ++ ".Request")).afterTurn turn).fail venue
      (route.name ++ ".Request") (.wrapped .action route.name fault none)) venue input rid [] :=
    h.opens.begun.of_log _ rfl
  refine ⟨_, h.plays_rules (h.plays_fault hfault hord) hb
    (congrArg (· ++ [route.name ++ ".Request"]) h.opens.done) rfl
    (plays_answers_none h.sound (hb.of_log _ rfl) h.opens.path (by simp)), rfl, ?_, rfl⟩
  exact congrArg (· ++ [(⟨route.name ++ ".Request", venue.id, .wrapped .action route.name fault
    (some ⟨route.name ++ ".Request", venue.id⟩)⟩ : FlowFault)]) h.opens.faults

/-- The event of the action that a request leads to. -/
def event (route : ActionRoute) (venue : Venue) (user : Value) (input out : Fields) : Event :=
  ⟨1, route.concept, route.action, .object (route.args user input), .object out, venue.id⟩

variable (user) in
/-- The action shares the required fields with a request that lacks none. -/
theorem get?_args (hs : route.IsSound kind) (hj : Value.FieldsAreJson input)
    (hl : route.lacking input = []) :
    ∀ n ∈ route.fields, n ∈ route.fields ∧
      Table.get? n (route.args user input) = Table.get? n input := by
  intro n hn
  have huser : "user" ≠ n := fun he => hs.areFields.2 n hn (he ▸ by decide)
  obtain ⟨v, hv, -⟩ := exists_of_missing hj hl n hn
  refine ⟨hn, ?_⟩
  rw [args, List.cons_append, Table.get?, if_neg huser, Table.get?_append, Table.get?_map_pair,
    if_pos hn, hv]
  rfl

/-- The scene in which the action has been carried out and the request has not been answered. -/
def carriedOut (route : ActionRoute) (venue : Venue) (user : Value) (input out : Fields)
    (turn : Concept.Turn) (scene : Scene) : Scene :=
  (((scene.fire (route.name ++ ".Request")).afterTurn turn).record venue route.concept
    route.action (route.args user input) (.object out))

/-- Its log holds the request and the action. -/
theorem begun_carriedOut (hs : route.IsSound kind) (ho : scene.Opens venue input rid route.path) :
    (route.carriedOut venue user input out turn scene).Begun venue input rid
      [route.event venue user input out] := by
  have h := (ho.begun.of_log ((scene.fire (route.name ++ ".Request")).afterTurn turn)
    rfl).record route.action (.inl hs.concept_ne) (route.args user input) (.object out)
  rw [show ((scene.fire (route.name ++ ".Request")).afterTurn turn).log = _ from ho.begun.log] at h
  exact h

/-- The scene in which, besides, the request was found to be neither denied nor incomplete. -/
def awaited (route : ActionRoute) (venue : Venue) (user : Value) (input out : Fields)
    (turn : Concept.Turn) (scene : Scene) : Scene :=
  ((route.carriedOut venue user input out turn scene).fire (route.name ++ ".AuthError")).fire
    (route.name ++ ".MissingInput")

variable (out) in
/-- Its log tells of the action, which shares the required fields with the request. -/
theorem Calling.joins_awaited (h : route.Calling venue scene input rid kind user concept turn) :
    (route.awaited venue user input out turn scene).Joins venue input rid route.path route.fields
      route.fields route.concept route.action (route.args user input) out 1 where
  tells := ⟨⟨[], route.event venue user input out, [],
    (begun_carriedOut h.sound h.opens).of_log _ rfl, ⟨rfl, rfl, rfl, rfl⟩, rfl, by simp⟩,
    Nat.one_ne_zero⟩
  json := h.opens.json
  path := h.opens.path
  nodup := h.sound.areFields.1
  apart := fun hn => h.sound.areFields.2 _ hn (by decide)
  shared := get?_args user h.sound h.opens.json h.complete

/-- There is room for the response. -/
theorem Calling.hasRoom_awaited (h : route.Calling venue scene input rid kind user concept turn) :
    ((route.awaited venue user input out turn scene).log.length : Int) < venue.ceiling := by
  have := h.opens.room
  rw [show (route.awaited venue user input out turn scene).log = _ from
    (begun_carriedOut h.sound h.opens).log]
  simp only [List.length_cons, List.length_nil]
  omega

/-- The rules that have fired by then. -/
theorem Calling.done_awaited (h : route.Calling venue scene input rid kind user concept turn) :
    (route.awaited venue user input out turn scene).done
      = [route.name ++ ".Request", route.name ++ ".AuthError", route.name ++ ".MissingInput"] := by
  simp [awaited, carriedOut, record, Scene.afterTurn, fire, h.opens.done]

/-- What is left once the action is carried out is to respond. -/
theorem Calling.exists_plays_answered {body : Fields} {name : String}
    (h : route.Calling venue scene input rid kind user concept turn)
    (hout : turn.outcome = .ok ⟨.object out, notes⟩)
    (hanswer : PlaysRules venue (World.handlersAt depth reentries) [route.succeeded, route.refused]
      (route.awaited venue user input out turn scene)
      (((route.awaited venue user input out turn scene).fire name).reply venue rid body)) :
    ∃ after response, PlaysRules venue (World.handlersAt depth reentries)
        (route.rules AdapterCode.lookup) scene after ∧
      after.Ends (scene.log ++ [route.event venue user input out, response]) []
        ((scene.ledger.afterTurn turn).respond rid body) ∧
      response.IsResponse rid body := by
  refine ⟨_, ((route.awaited venue user input out turn scene).fire name).response venue rid body,
    h.plays_rules (h.plays_ok hout) (begun_carriedOut h.sound h.opens)
      (congrArg (· ++ [route.name ++ ".Request"]) h.opens.done) rfl hanswer,
    ⟨?_, h.opens.faults, rfl⟩, rfl, rfl, rfl⟩
  rw [h.opens.begun.log]
  exact congrArg (· ++ [_]) (begun_carriedOut h.sound h.opens).log

/-- When the action refuses, the response gives the reason. -/
theorem Calling.exists_plays_refused {reason : String}
    (h : route.Calling venue scene input rid kind user concept turn)
    (hout : turn.outcome = .ok ⟨.object out, notes⟩)
    (herror : Table.get? "error" out = some (.str reason)) :
    ∃ after response, PlaysRules venue (World.handlersAt depth reentries)
        (route.rules AdapterCode.lookup) scene after ∧
      after.Ends (scene.log ++ [route.event venue user input out, response]) []
        ((scene.ledger.afterTurn turn).respond rid [("error", .str reason)]) ∧
      response.IsResponse rid [("error", .str reason)] :=
  h.exists_plays_answered hout ((h.joins_awaited out).plays_refused depth reentries route.succeeded
    route.refused rfl (unify?_success_of_error _ _ herror) ⟨rfl, rfl, rfl⟩
    (by simp [h.done_awaited, refused]) h.opens.given h.hasRoom_awaited
    (fun hn => h.sound.areFields.2 _ hn (by decide)) herror)

/-- When the action succeeds, the response shows what it answers. -/
theorem Calling.exists_plays_succeeded
    (h : route.Calling venue scene input rid kind user concept turn)
    (hout : turn.outcome = .ok ⟨.object out, notes⟩) (herror : Table.get? "error" out = none)
    (hshown : ∀ n ∈ route.success, ∃ v, Table.get? n out = some v ∧ v.isNotApplicable = false) :
    ∃ after response, PlaysRules venue (World.handlersAt depth reentries)
        (route.rules AdapterCode.lookup) scene after ∧
      after.Ends (scene.log ++ [route.event venue user input out, response]) []
        ((scene.ledger.afterTurn turn).respond rid (route.response out)) ∧
      response.IsResponse rid (route.response out) := by
  have hresponds := (h.joins_awaited out).plays_success route.succeeded depth reentries
    (route.response out) ⟨rfl, rfl, rfl⟩ (by simp [h.done_awaited, succeeded]) h.opens.given
    h.hasRoom_awaited h.sound.success.1 (fun hn => h.sound.success.2 _ hn (by decide)) h.sound.apart
    herror hshown fun next hnext => by
      unfold body response
      split
      · rfl
      · exact Frame.fillFields_of_get? hnext hshown
  exact h.exists_plays_answered hout
    ((h.joins_awaited out).plays_succeeded route.refused h.sound.concept_ne hresponds rfl herror)

end ActionRoute

end HerdBook
