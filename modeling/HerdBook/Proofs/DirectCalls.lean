import HerdBook.Proofs.Conclusions
import Mathlib.Data.List.Forall2

/-!
# Routes as direct calls

Several rules make one route for users, and what they pass to each other goes through the records of
the flow. What they come to is what one call of the concept comes to, made with the fields of the
request: the concept is left as the call leaves it, and the response shows what the call answers.

* `DirectCall`: the call that a route stands for.
* `DirectCall.upshot`: what a request comes to, said without rules.

## Main results

* `ActionRoute.exists_comesTo`, `QueryRoute.exists_comesTo`: the rules of one route.
* `Rehearsal.request_comesTo`: a request, from the engine before it to the engine after it.
-/

namespace HerdBook

open Effect Rules

/-- The call of a concept that a route for users stands for. -/
structure DirectCall where
  kind : Concept.Kind
  action : String
  /-- The path of the route, and the name that its rules begin with. -/
  path : String
  route : String
  /-- The fields that a request must have. -/
  fields : List String
  /-- What the action is called with for a user's request. -/
  args : Value → Fields → Fields
  /-- What the response shows of a success. -/
  shown : Fields → Fields
  /-- Whether the call is an event of the flow. -/
  isRecorded : Bool
  /-- Where a fault of the call is met: the layer, and the endings of the rules. -/
  layer : Layer
  endings : List String

/-- What a request comes to: the concept afterwards, the calls that are recorded, the body of the
response if there is one, and the faults. -/
structure Upshot where
  concept : Concept
  events : List Event
  body : Option Fields
  faults : List FlowFault

/-- One call is recorded at most, and there is a fault if there is no response. -/
structure Upshot.IsConclusive (upshot : Upshot) : Prop where
  events : ∀ event ∈ upshot.events, event.concept ≠ requesting
  size : upshot.events.length ≤ 2
  fault : upshot.body = none → upshot.events = [] ∧ upshot.faults ≠ []

/-- An action is called by one rule, and recorded. -/
def ActionRoute.directCall (kind : Concept.Kind) (route : ActionRoute) : DirectCall where
  kind := kind
  action := route.action
  path := route.path
  route := route.name
  fields := route.fields
  args := route.args
  shown := route.response
  isRecorded := true
  layer := .action
  endings := [".Request"]

/-- A query is asked by two rules, and not recorded. -/
def QueryRoute.directCall (kind : Concept.Kind) (route : QueryRoute) : DirectCall where
  kind := kind
  action := route.query
  path := route.path
  route := route.name
  fields := route.fields
  args := route.args
  shown := route.response
  isRecorded := false
  layer := .adapter
  endings := [".Result", ".Error"]

/-- The calls that the routes for users stand for. -/
def Rules.directCalls : List DirectCall :=
  [Concept.Kind.herds, .animals].flatMap fun kind =>
    (actionsOf kind).map (ActionRoute.directCall kind)
      ++ (queriesOf kind).map (QueryRoute.directCall kind)

namespace DirectCall

variable (call : DirectCall)

/-- The fields that a request lacks, in the order in which the route names them. -/
def lacking (input : Fields) : List String :=
  call.fields.filter fun n => (Table.get? n input).isNone

/-- The body of the response to an answer, which is an object. -/
def body : Value → Fields
  | .object out =>
    match Table.get? "error" out with
    | some error => [("error", error)]
    | none => call.shown out
  | _ => []

/-- The event of the call, if it is recorded. -/
def events (flow : String) (args : Fields) (answer : Value) : List Event :=
  if call.isRecorded then [⟨1, call.kind.name, call.action, .object args, answer, flow⟩] else []

/-- The faults that are recorded for one of the call. -/
def faults (flow : String) (fault : Fault) : List FlowFault :=
  call.endings.map fun ending => ⟨call.route ++ ending, flow,
    .wrapped call.layer call.route fault (some ⟨call.route ++ ending, flow⟩)⟩

/-- What the call comes to. -/
def afterTurn (flow : String) (args : Fields) (turn : Concept.Turn) : Upshot :=
  match turn.outcome with
  | .ok answer =>
    ⟨turn.concept, call.events flow args answer.value, some (call.body answer.value), []⟩
  | .error fault => ⟨turn.concept, [], none, call.faults flow fault⟩

/-- What a request comes to, by who is logged in with its token. Only for a user, and for a request
that lacks no field, the concept is called, and then once. -/
def upshot (flow : String) (who : Except String Value) (input : Fields) (concept : Concept)
    (issued : Issued) : Option Upshot :=
  match who with
  | .error reason => some ⟨concept, [], some [("error", .str reason)], []⟩
  | .ok user =>
    if call.lacking input = [] then
      (concept.answer? call.action (call.args user input) issued).map
        (call.afterTurn flow (call.args user input))
    else some ⟨concept, [], some [("error", .str (missingMessage (call.lacking input)))], []⟩

variable {call} {flow : String} {args input : Fields} {turn : Concept.Turn} {concept : Concept}
  {issued : Issued} {user : Value}

/-- What a call comes to that answers. -/
theorem afterTurn_of_ok {out : Fields} {notes : List Note}
    (h : turn.outcome = .ok ⟨.object out, notes⟩) : call.afterTurn flow args turn
      = ⟨turn.concept, call.events flow args (.object out), some (call.body (.object out)), []⟩ := by
  rw [afterTurn, h]

/-- What a call comes to that fails. -/
theorem afterTurn_of_error {fault : Fault} (h : turn.outcome = .error fault) :
    call.afterTurn flow args turn = ⟨turn.concept, [], none, call.faults flow fault⟩ := by
  rw [afterTurn, h]

/-- A refusal is answered with its reason. -/
theorem body_of_error {out : Fields} {error : Value} (h : Table.get? "error" out = some error) :
    call.body (.object out) = [("error", error)] := by
  rw [body, h]

/-- A success is answered with what is shown of it. -/
theorem body_of_success {out : Fields} (h : Table.get? "error" out = none) :
    call.body (.object out) = call.shown out := by
  rw [body, h]

/-- The concept is called for a user's request that lacks nothing. -/
theorem upshot_of_turn (hl : call.lacking input = [])
    (ht : concept.answer? call.action (call.args user input) issued = some turn) :
    call.upshot flow (.ok user) input concept issued
      = some (call.afterTurn flow (call.args user input) turn) := by
  rw [upshot, if_pos hl, ht]
  rfl

/-- What a call of a concept with a store comes to depends on the documents handed out only. -/
theorem upshot_issued (hk : concept.kind = .herds ∨ concept.kind = .animals)
    (who : Except String Value) (requests : Nat) :
    call.upshot flow who input concept { issued with requests := requests }
      = call.upshot flow who input concept issued := by
  have hturn : ∀ args, (concept.answer? call.action args { issued with requests := requests }).map
      (call.afterTurn flow args)
        = (concept.answer? call.action args issued).map (call.afterTurn flow args) := by
    intro args
    cases concept with
    | requests | accounts => exact absurd hk (by simp [Concept.kind])
    | herds | animals =>
      simp only [Concept.answer?, Option.map_map]
      rfl
  unfold upshot
  cases who with
  | error => rfl
  | ok user => exact congrArg (if call.lacking input = [] then · else _) (hturn _)

/-- What a request comes to concludes it. -/
theorem isConclusive_of_upshot (hkind : call.kind ≠ .requests) (hendings : call.endings ≠ [])
    {who : Except String Value} {upshot : Upshot}
    (h : call.upshot flow who input concept issued = some upshot) : upshot.IsConclusive := by
  have hanswered : ∀ concept body, Upshot.IsConclusive ⟨concept, [], some body, []⟩ :=
    fun concept body => ⟨by simp, by simp, by simp⟩
  unfold DirectCall.upshot at h
  cases who with
  | error reason => exact Option.some.inj h ▸ hanswered _ _
  | ok user =>
    dsimp only at h
    split at h
    · obtain ⟨turn, -, rfl⟩ := Option.map_eq_some_iff.mp h
      unfold afterTurn
      split
      · refine ⟨fun event he => ?_, ?_, by simp⟩
        · unfold events at he
          split at he
          · rw [List.mem_singleton.mp he]
            exact fun hname => hkind (Concept.Kind.name_inj.mp hname)
          · exact absurd he List.not_mem_nil
        · unfold events
          split <;> simp
      · exact ⟨by simp, by simp, fun _ => ⟨rfl, by simpa [faults] using hendings⟩⟩
    · exact Option.some.inj h ▸ hanswered _ _

end DirectCall

/-! ### Ledgers -/

namespace Ledger

variable {before ledger : Ledger} {kind : Concept.Kind} {concept : Concept} {action : String}
  {args : Fields} {turn : Concept.Turn}

/-- Of what the ledger says of the concepts, only the concept of one kind is another now. -/
structure Turned (before after : Ledger) (kind : Concept.Kind) (concept : Concept) : Prop where
  concept : after.concept? kind = some concept
  others : ∀ other, other ≠ kind → after.concept? other = before.concept? other

/-- At first nothing is another. -/
theorem Turned.refl (hc : ledger.concept? kind = some concept) : ledger.Turned ledger kind concept :=
  ⟨hc, fun _ _ => rfl⟩

/-- A response changes no concept that the ledger tells of. -/
theorem Turned.respond (h : before.Turned ledger kind concept) (rid : String) (body : Fields) :
    before.Turned (ledger.respond rid body) kind concept where
  concept := by rw [concept?_respond, h.concept]
  others other hne := by rw [concept?_respond, h.others other hne]

/-- A call of the herds or of the animals makes another of the concept that is called. -/
theorem Turned.afterTurn (h : before.Turned ledger kind concept)
    (hk : kind = .herds ∨ kind = .animals)
    (ht : concept.answer? action args ledger.issued = some turn) :
    before.Turned (ledger.afterTurn turn) kind turn.concept := by
  have hkind : turn.concept.kind = kind :=
    (Concept.kind_of_answer? ht).trans (kind_of_concept? h.concept).1
  have hne : turn.concept.kind ≠ .requests := by
    rw [hkind]
    rcases hk with rfl | rfl <;> decide
  refine ⟨(afterTurn_of_answer? hk h.concept ht).2.1, fun other ho => ?_⟩
  rw [concept?_afterTurn hne, hkind, if_neg fun he => ho he.symm, h.others other ho]

end Ledger

/-! ### Scenes -/

namespace Scene

variable {venue : Venue} {scene before after : Scene} {input : Fields} {rid path : String}
  {kind : Concept.Kind} {upshot : Upshot} {concept : Concept}

/-- From one scene to the other, a request has come to this. -/
structure ComesTo (before after : Scene) (kind : Concept.Kind) (rid : String) (upshot : Upshot) :
    Prop where
  log : ∃ responses, after.log = before.log ++ (upshot.events ++ responses) ∧
    List.Forall₂ (fun body response => Event.IsResponse response rid body) upshot.body.toList
      responses
  faults : after.faults = upshot.faults
  ledger : ∃ kept, before.ledger.Turned after.ledger kind kept ∧
    kept.unnumbered = upshot.concept.unnumbered

/-- A request has been concluded by what it has come to. -/
theorem ComesTo.closes (h : scene.ComesTo after kind rid upshot) (hu : upshot.IsConclusive)
    (ho : scene.Opens venue input rid path) : after.Closes venue input rid := by
  obtain ⟨responses, hlog, hresponses⟩ := h.log
  cases hbody : upshot.body with
  | none =>
    obtain ⟨hevents, hfaults⟩ := hu.fault hbody
    rw [hbody, Option.toList_none, List.forall₂_nil_left_iff] at hresponses
    rw [hevents, hresponses, List.append_nil, List.append_nil] at hlog
    exact ho.closes_fault hlog (h.faults ▸ hfaults)
  | some body =>
    rw [hbody, Option.toList_some, List.forall₂_cons_left_iff] at hresponses
    obtain ⟨response, rest, hr, hrest, rfl⟩ := hresponses
    obtain rfl := List.forall₂_nil_left_iff.mp hrest
    exact ho.closes_response _ hr hu.events hu.size hlog

/-- A response by itself. -/
theorem Ends.comesTo_of_response {response : Event} {body : Fields}
    (h : after.Ends (scene.log ++ [response]) [] (scene.ledger.respond rid body))
    (hr : response.IsResponse rid body) (hc : scene.ledger.concept? kind = some concept) :
    scene.ComesTo after kind rid ⟨concept, [], some body, []⟩ where
  log := ⟨[response], h.log, .cons hr .nil⟩
  faults := h.faults
  ledger := ⟨concept, h.ledger ▸ (Ledger.Turned.refl hc).respond rid body, rfl⟩

end Scene

/-! ### Routes -/

section Routes

variable {venue : Venue} {scene after : Scene} {input : Fields} {rid : String}
  {kind : Concept.Kind} {concept : Concept} {who : Except String Value} {user : Value}
  {turn second : Concept.Turn} {response : Event} {out body : Fields} {notes : List Note}
  {depth reentries : Nat}

namespace ActionRoute

variable {route : ActionRoute}

/-- An action that answers has been called once. -/
theorem Calling.comesTo_of_answer (h : route.Calling venue scene input rid kind user concept turn)
    (hout : turn.outcome = .ok ⟨.object out, notes⟩)
    (hbody : (route.directCall kind).body (.object out) = body)
    (hends : after.Ends (scene.log ++ [route.event venue user input out, response]) []
      ((scene.ledger.afterTurn turn).respond rid body)) (hr : response.IsResponse rid body) :
    scene.ComesTo after kind rid
      ((route.directCall kind).afterTurn venue.id (route.args user input) turn) := by
  rw [DirectCall.afterTurn_of_ok hout, hbody]
  refine ⟨⟨[response], ?_, .cons hr .nil⟩, hends.faults, turn.concept, ?_, rfl⟩
  · rw [hends.log, event, h.sound.concept]
    rfl
  · rw [hends.ledger]
    exact ((Ledger.Turned.refl h.held).afterTurn h.sound.keeps h.answers).respond rid body

/-- Once the action is called, the rules come to what its turn is. -/
theorem Calling.exists_comesTo (h : route.Calling venue scene input rid kind user concept turn)
    (hproper : turn.IsProper route.success) :
    ∃ after, Scene.PlaysRules venue (World.handlersAt depth reentries)
        (route.rules AdapterCode.lookup) scene after ∧
      scene.ComesTo after kind rid
        ((route.directCall kind).afterTurn venue.id (route.args user input) turn) := by
  cases hproper with
  | failed hfault hord =>
    obtain ⟨after, hplays, hends⟩ := h.exists_plays_failed hfault hord
    refine ⟨after, hplays, ?_⟩
    rw [DirectCall.afterTurn_of_error hfault]
    refine ⟨⟨[], ?_, .nil⟩, hends.faults, turn.concept, ?_, rfl⟩
    · rw [hends.log]
      exact (List.append_nil _).symm
    · rw [hends.ledger]
      exact (Ledger.Turned.refl h.held).afterTurn h.sound.keeps h.answers
  | refused hout =>
    obtain ⟨after, response, hplays, hends, hr⟩ := h.exists_plays_refused hout rfl
    exact ⟨after, hplays, h.comesTo_of_answer hout (DirectCall.body_of_error rfl) hends hr⟩
  | succeeded hout herror hshown =>
    obtain ⟨after, response, hplays, hends, hr⟩ := h.exists_plays_succeeded hout herror hshown
    exact ⟨after, hplays, h.comesTo_of_answer hout (DirectCall.body_of_success herror) hends hr⟩

/-- The rules of the route come to what the call comes to. -/
theorem exists_comesTo (hs : route.IsSound kind)
    (hoffered : (route.action, route.success) ∈ kind.offered)
    (ho : scene.Opens venue input rid route.path) (ha : scene.ledger.accounts.Sound)
    (hc : scene.ledger.concept? kind = some concept) (hsound : concept.Sound)
    (hwho : scene.ledger.accounts.standing (tokenOf input) = .ok who) :
    ∃ upshot after, (route.directCall kind).upshot venue.id who input concept scene.ledger.issued
        = some upshot ∧
      Scene.PlaysRules venue (World.handlersAt depth reentries) (route.rules AdapterCode.lookup)
        scene after ∧
      scene.ComesTo after kind rid upshot := by
  cases who with
  | error reason =>
    obtain ⟨after, hplays, hends⟩ := exists_plays_denied hs ho
      (Scene.identifies_of_standing hwho)
    exact ⟨_, after, rfl, hplays, hends.comesTo_of_response ⟨rfl, rfl, rfl⟩ hc⟩
  | ok user =>
    have huser := ha.standing hwho
    by_cases hl : route.lacking input = []
    · obtain ⟨turn, hturn, hproper⟩ := Concept.exists_turn _ _ _ _ hsound
        ((Ledger.kind_of_concept? hc).1.symm ▸ hoffered)
        (isNotApplicable_of_mem_args ho.json huser) scene.ledger.issued
      obtain ⟨after, hplays, hcomes⟩ := Calling.exists_comesTo ⟨hs, ho, hwho, huser, hl, hc, hturn⟩
        hproper
      exact ⟨_, after, DirectCall.upshot_of_turn hl hturn, hplays, hcomes⟩
    · obtain ⟨after, hplays, hends⟩ := exists_plays_incomplete hs ho hwho huser hl
      exact ⟨_, after, if_neg hl, hplays, hends.comesTo_of_response ⟨rfl, rfl, rfl⟩ hc⟩

end ActionRoute

namespace QueryRoute

variable {route : QueryRoute}

/-- When the concept answers twice alike, the rules come to what its first turn is. -/
theorem Asking.exists_comesTo (h : route.Asking venue scene input rid kind user concept turn)
    (ho : scene.Opens venue input rid route.path)
    (hsecond : turn.concept.answer? route.query (route.args user input) turn.issued = some second)
    (hproper : turn.IsProper route.result) (hagree : second.outcome = turn.outcome)
    (hkept : second.concept.unnumbered = turn.concept.unnumbered) :
    ∃ after, Scene.PlaysRules venue (World.handlersAt depth reentries)
        (route.rules AdapterCode.lookup) scene after ∧
      scene.ComesTo after kind rid
        ((route.directCall kind).afterTurn venue.id (route.args user input) turn) := by
  have hturned := (Ledger.Turned.refl h.held).afterTurn h.sound.keeps h.answers
  have hissued := (Ledger.afterTurn_of_answer? h.sound.keeps h.held h.answers).2.2
  cases hproper with
  | failed hfault hord =>
    obtain ⟨after, hplays, hends⟩ := h.exists_plays_unanswered ho hsecond (.failed hfault hord)
      (by simp [hfault]) (.failed (hagree.trans hfault) hord) (by simp [hagree, hfault])
    refine ⟨after, hplays, ?_⟩
    rw [DirectCall.afterTurn_of_error hfault]
    refine ⟨⟨[], ?_, .nil⟩, ?_, second.concept, ?_, hkept⟩
    · rw [hends.log]
      exact (List.append_nil _).symm
    · rw [hends.faults, hagree, hfault]
      rfl
    · rw [hends.ledger]
      exact hturned.afterTurn h.sound.keeps (hissued.symm ▸ hsecond)
  | refused hout =>
    obtain ⟨after, response, hplays, hends, hr⟩ := h.exists_plays_refused ho hsecond (.refused hout)
      (by simp [hout, Table.get?]) (hagree.trans hout) rfl
    refine ⟨after, hplays, ?_⟩
    rw [DirectCall.afterTurn_of_ok hout, DirectCall.body_of_error rfl]
    refine ⟨⟨[response], hends.log, .cons hr .nil⟩, ?_, second.concept, ?_, hkept⟩
    · rw [hends.faults, hout]
      rfl
    · rw [hends.ledger]
      exact (hturned.afterTurn h.sound.keeps (hissued.symm ▸ hsecond)).respond rid _
  | succeeded hout herror hshown =>
    obtain ⟨after, response, hplays, hends, hr⟩ := h.exists_plays_succeeded ho hsecond hout herror
      hshown (.succeeded (hagree.trans hout) herror hshown) fun out' notes' hout' => by
        obtain ⟨h, -⟩ := Answer.mk.inj (Except.ok.inj (hout.symm.trans (hagree.symm.trans hout')))
        exact Value.object.inj h ▸ herror
    refine ⟨after, hplays, ?_⟩
    rw [DirectCall.afterTurn_of_ok hout, DirectCall.body_of_success herror]
    refine ⟨⟨[response], hends.log, .cons hr .nil⟩, ?_, second.concept, ?_, hkept⟩
    · rw [hends.faults, hagree, hout]
      rfl
    · rw [← hissued, ← Ledger.issued_respond _ rid (route.response _)] at hsecond
      rw [hends.ledger]
      exact (hturned.respond rid _).afterTurn h.sound.keeps hsecond

/-- The rules of the route come to what the call comes to, while no order makes the store fail. -/
theorem exists_comesTo (hs : route.IsSound kind)
    (hoffered : (route.query, route.result) ∈ kind.offered) (hquery : route.query ∈ kind.queries)
    (ho : scene.Opens venue input rid route.path) (ha : scene.ledger.accounts.Sound)
    (hc : scene.ledger.concept? kind = some concept) (hsound : concept.Sound)
    (horders : concept.orders = [])
    (hwho : scene.ledger.accounts.standing (tokenOf input) = .ok who) :
    ∃ upshot after, (route.directCall kind).upshot venue.id who input concept scene.ledger.issued
        = some upshot ∧
      Scene.PlaysRules venue (World.handlersAt depth reentries) (route.rules AdapterCode.lookup)
        scene after ∧
      scene.ComesTo after kind rid upshot := by
  cases who with
  | error reason =>
    obtain ⟨after, hplays, hends⟩ := exists_plays_denied hs ho
      (Scene.identifies_of_standing hwho)
    exact ⟨_, after, rfl, hplays, hends.comesTo_of_response ⟨rfl, rfl, rfl⟩ hc⟩
  | ok user =>
    have huser := ha.standing hwho
    by_cases hl : route.lacking input = []
    · have hkind := (Ledger.kind_of_concept? hc).1
      obtain ⟨turn, second, hturn, hsecond, -, hfree⟩ := Concept.exists_turns_of_query hquery hkind
        (route.args user input) scene.ledger.issued
      obtain ⟨hsame, hsame', hagree⟩ := hfree horders
      have hproper := Concept.isProper_of_answer? hsound (hkind.symm ▸ hoffered)
        (isNotApplicable_of_mem_args route ho.json huser) hturn
      obtain ⟨after, hplays, hcomes⟩ := (asking_of_opens hs ho hwho huser hl hc
        hturn).exists_comesTo ho hsecond hproper hagree (hsame'.trans hsame.symm)
      exact ⟨_, after, DirectCall.upshot_of_turn hl hturn, hplays, hcomes⟩
    · obtain ⟨after, hplays, hends⟩ := exists_plays_incomplete hs ho hwho huser hl
      exact ⟨_, after, if_neg hl, hplays, hends.comesTo_of_response ⟨rfl, rfl, rfl⟩ hc⟩

end QueryRoute

/-- The calls that routes stand for are of the herds or of the animals, and some rule makes them. -/
theorem Rules.sound_directCalls : ∀ call ∈ directCalls,
    (call.kind = .herds ∨ call.kind = .animals) ∧ call.endings ≠ [] := by
  decide +kernel

/-- A call that a route stands for is an action or a query. -/
theorem Rules.cases_of_mem_directCalls {call : DirectCall} (h : call ∈ directCalls) :
    (∃ kind, ∃ route ∈ actionsOf kind, call = route.directCall kind) ∨
      ∃ kind, ∃ route ∈ queriesOf kind, call = route.directCall kind := by
  obtain ⟨kind, -, hm⟩ := List.mem_flatMap.mp h
  rcases List.mem_append.mp hm with hm | hm
  · obtain ⟨route, hr, rfl⟩ := List.mem_map.mp hm
    exact .inl ⟨kind, route, hr, rfl⟩
  · obtain ⟨route, hr, rfl⟩ := List.mem_map.mp hm
    exact .inr ⟨kind, route, hr, rfl⟩

/-- A pass over all rules comes to what the call comes to. -/
theorem Scene.exists_comesTo {call : DirectCall} (hcall : call ∈ directCalls)
    (ho : scene.Opens venue input rid call.path)
    (hsound : ∀ kind concept, scene.ledger.concept? kind = some concept → concept.Sound)
    (hc : scene.ledger.concept? call.kind = some concept) (horders : concept.orders = [])
    (hwho : scene.ledger.accounts.standing (tokenOf input) = .ok who) :
    ∃ upshot after, call.upshot venue.id who input concept scene.ledger.issued = some upshot ∧
      Scene.PlaysRules venue (World.handlersAt depth reentries) (all AdapterCode.lookup)
        scene after ∧
      scene.ComesTo after call.kind rid upshot ∧ after.Closes venue input rid := by
  have ha : scene.ledger.accounts.Sound := hsound .accounts _ rfl
  have hclosed : ∀ {rules : List (Rule AdapterCode)} {upshot : Upshot} {after : Scene},
      (call.path, rules) ∈ families → call.endings ≠ [] →
      call.upshot venue.id who input concept scene.ledger.issued = some upshot →
      Scene.PlaysRules venue (World.handlersAt depth reentries) rules scene after →
      scene.ComesTo after call.kind rid upshot →
      Scene.PlaysRules venue (World.handlersAt depth reentries) (all AdapterCode.lookup)
        scene after ∧ after.Closes venue input rid := by
    intro rules upshot after hf he hupshot hplays hcomes
    have hcloses := hcomes.closes (DirectCall.isConclusive_of_upshot
      (Ledger.kind_of_concept? hc).2 he hupshot) ho
    obtain ⟨more, hb, -⟩ := hcloses.begun
    exact ⟨plays_all hf ho.begun ho.path hplays hb, hcloses⟩
  rcases cases_of_mem_directCalls hcall with ⟨kind, route, hr, rfl⟩ | ⟨kind, route, hr, rfl⟩
  · obtain ⟨hs, hoffered⟩ := isSound_of_mem_actionsOf hr
    obtain ⟨upshot, after, hupshot, hplays, hcomes⟩ := ActionRoute.exists_comesTo hs hoffered ho ha
      hc (hsound _ _ hc) hwho
    obtain ⟨hall, hcloses⟩ := hclosed (mem_families_of_mem_actionsOf hr) (by simp
      [ActionRoute.directCall]) hupshot hplays hcomes
    exact ⟨upshot, after, hupshot, hall, hcomes, hcloses⟩
  · obtain ⟨hs, hoffered, hquery⟩ := isSound_of_mem_queriesOf hr
    obtain ⟨upshot, after, hupshot, hplays, hcomes⟩ := QueryRoute.exists_comesTo hs hoffered hquery
      ho ha hc (hsound _ _ hc) horders hwho
    obtain ⟨hall, hcloses⟩ := hclosed (mem_families_of_mem_queriesOf hr) (by simp
      [QueryRoute.directCall]) hupshot hplays hcomes
    exact ⟨upshot, after, hupshot, hall, hcomes, hcloses⟩

end Routes

/-! ### Engines -/

/-- A token that can be a key can be looked up. -/
theorem Accounts.exists_standing (accounts : Accounts) {token : Value}
    (h : token.hashable = true) : ∃ who, accounts.standing token = .ok who := by
  have huser : ∃ user?, accounts.userOf token = .ok user? := by
    unfold userOf
    split
    · exact ⟨_, rfl⟩
    · exact ⟨none, if_pos h⟩
  obtain ⟨user?, hu⟩ := huser
  unfold standing
  split
  · exact ⟨_, rfl⟩
  · exact ⟨_, by rw [hu]; rfl⟩

/-- A query leaves the concept as it is, while no order makes the store fail. -/
theorem DirectCall.upshot_query {call : DirectCall} {flow : String} {who : Except String Value}
    {input : Fields} {concept : Concept} {issued : Issued} {upshot : Upshot}
    (hkind : concept.kind = call.kind) (hquery : call.action ∈ call.kind.queries)
    (horders : concept.orders = [])
    (h : call.upshot flow who input concept issued = some upshot) :
    upshot.concept.unnumbered = concept.unnumbered := by
  unfold DirectCall.upshot at h
  cases who with
  | error reason => exact Option.some.inj h ▸ rfl
  | ok user =>
    dsimp only at h
    split at h
    · obtain ⟨turn, ht, rfl⟩ := Option.map_eq_some_iff.mp h
      obtain ⟨turn', _, ht', -, -, hfree⟩ := Concept.exists_turns_of_query hquery hkind
        (call.args user input) issued
      obtain rfl := Option.some.inj (ht.symm.trans ht')
      have hsame := (hfree horders).1
      unfold DirectCall.afterTurn
      split <;> exact hsame
    · exact Option.some.inj h ▸ rfl

namespace Rehearsal

variable {settings : Settings} {engine : Rehearsal} {input : Fields} {flow : Option String}

/-- From one engine to the other, a request has come to this: of the concepts besides that of the
requests, only the one of the kind may be another, and the history of the flow holds nothing else
besides the request. -/
structure ComesTo (before after : Rehearsal) (kind : Concept.Kind) (event : Event)
    (history : History) (upshot : Upshot) : Prop where
  log : ∃ rid responses, event.output = .object [("request", .str rid)] ∧
    history.log = event :: (upshot.events ++ responses) ∧
    List.Forall₂ (fun body response => Event.IsResponse response rid body) upshot.body.toList
      responses
  faults : history.faults = upshot.faults
  concept : ∃ kept, after.world.member? kind.name = some (.book kept) ∧
    kept.unnumbered = upshot.concept.unnumbered
  others : ∀ other concept, other ≠ kind → other ≠ .requests →
    before.world.member? other.name = some (.book concept) →
    ∃ kept, after.world.member? other.name = some (.book kept) ∧
      kept.unnumbered = concept.unnumbered

/-- A request for a route for users, in a flow of its own and with a token that can be looked up,
comes to what one call of the concept comes to; a query leaves the concept as it is. -/
theorem request_comesTo (hb : engine.IsBook settings) (hroom : 4 ≤ settings.maxFlowEvents)
    (hf : engine.IsFresh flow) {call : DirectCall} (hcall : call ∈ directCalls)
    (hj : Value.FieldsAreJson input) (hp : Table.get? "path" input = some (.str call.path))
    (htoken : (tokenOf input).hashable = true) {accounts : Accounts} {concept : Concept}
    (ha : engine.world.member? Lookup.accounts = some (.book (.accounts accounts)))
    (hc : engine.world.member? call.kind.name = some (.book concept))
    (horders : concept.orders = []) :
    ∃ who upshot event history engine',
      accounts.standing (tokenOf input) = .ok who ∧
      call.upshot event.flow who input concept engine.world.issued = some upshot ∧
      (step (.invoke requesting "request" (.object input) flow)).run engine
        = (.ok (.invoked event history), engine') ∧
      (∀ id ∈ flow, event.flow = id) ∧
      engine.ComesTo engine' call.kind event history upshot ∧
      (call.action ∈ call.kind.queries → upshot.concept.unnumbered = concept.unnumbered) := by
  obtain ⟨who, hwho⟩ := accounts.exists_standing htoken
  obtain ⟨venue, rid, ledger, hid, hopens, hkept, hissued, hinvoke⟩ := exists_run_invoke hb hroom
    hf hj hp
  -- the ledger that the request finds is the one that the engine has kept
  have hledger : ∀ kind concept, kind ≠ .requests →
      engine.world.member? kind.name = some (.book concept) →
      ledger.concept? kind = some concept := by
    intro kind concept hne hm
    obtain ⟨kept, hkept'⟩ : ∃ kept, ledger.concept? kind = some kept := by
      cases kind with
      | requests => exact absurd rfl hne
      | accounts | herds | animals => exact ⟨_, rfl⟩
    obtain rfl := Member.book.inj (Option.some.inj (hm.symm.trans (hkept kind kept hkept').1))
    exact hkept'
  obtain ⟨hstore, hendings⟩ := sound_directCalls call hcall
  have hne : call.kind ≠ .requests := by
    rcases hstore with h | h <;> rw [h] <;> decide
  have hc' := hledger _ _ hne hc
  obtain rfl : ledger.accounts = accounts :=
    Concept.accounts.inj (Option.some.inj (hledger .accounts _ (by decide) ha))
  obtain ⟨upshot, after, hupshot, hplays, hcomes, hcloses⟩ := Scene.exists_comesTo hcall hopens
    (fun kind concept h => (hkept kind concept h).2.sound) hc' horders hwho
  obtain ⟨engine', hrun, hshows⟩ := hinvoke hplays hcloses
  obtain ⟨responses, hlog, hresponses⟩ := hcomes.log
  obtain ⟨kept, hturned, hsame⟩ := hcomes.ledger
  have hkind := (Ledger.kind_of_concept? hc').1
  refine ⟨who, upshot, venue.request input rid, ⟨after.log, after.faults⟩, engine', hwho, ?_,
    run_step_invoke hrun hshows, fun id h => (hid id h).symm,
    ⟨⟨rid, responses, rfl, hlog, hresponses⟩, hcomes.faults, ?_, fun other concept hne hr hm => ?_⟩,
    fun hquery => DirectCall.upshot_query hkind hquery horders hupshot⟩
  · rw [← DirectCall.upshot_issued (hkind ▸ hstore) who ledger.issued.requests, ← hupshot]
    change _ = call.upshot venue.id who input concept ledger.issued
    rw [hissued]
    rfl
  · obtain ⟨shown, hm, hu⟩ := hshows.world.concepts _ _ hturned.concept
    exact ⟨shown, hm, hu.trans hsame⟩
  · exact hshows.world.concepts other concept ((hturned.others other hne).trans
      (hledger other concept hr hm))

/-- The route that creates a herd. -/
def createHerd : DirectCall :=
  ActionRoute.directCall .herds ⟨herds, "createHerd", ["name"], [], ["herdName"], ""⟩

/-- A request of a user to create a herd. That it claims to be of another user is ignored. -/
def createHerdRequest : Fields :=
  [("path", .str createHerd.path), ("token", .str "t"), ("name", .str "Ewes"),
    ("user", .str "somebody else")]

/-- Such a request on an engine that has just been set up, with a session of a user. -/
theorem request_comesTo_createHerd : ∃ engine accounts,
    Rehearsal.ofBook .standard [] (some [("t", .str "u")]) = .ok engine ∧
    engine.IsBook .standard ∧ createHerd ∈ directCalls ∧
    engine.world.member? Lookup.accounts = some (.book (.accounts accounts)) ∧
    engine.world.member? createHerd.kind.name = some (.book (.herds .empty)) ∧
    ∃ who upshot event history engine',
      accounts.standing (tokenOf createHerdRequest) = .ok who ∧
      createHerd.upshot event.flow who createHerdRequest (.herds .empty) engine.world.issued
        = some upshot ∧
      (step (.invoke requesting "request" (.object createHerdRequest) none)).run engine
        = (.ok (.invoked event history), engine') ∧
      (∀ id ∈ (none : Option String), event.flow = id) ∧
      engine.ComesTo engine' createHerd.kind event history upshot ∧
      (createHerd.action ∈ createHerd.kind.queries →
        upshot.concept.unnumbered = (Concept.herds .empty).unnumbered) :=
  have hb := isBook_of_ofBook (some [("t", .str "u")]) rfl (by
    rintro _ ⟨⟩ entry he
    rw [List.mem_singleton.mp he]
    rfl)
  have hcall : createHerd ∈ directCalls := List.mem_cons_self
  have hjson : Value.FieldsAreJson createHerdRequest :=
    ⟨trivial, trivial, trivial, trivial, trivial⟩
  ⟨_, _, rfl, hb, hcall, rfl, rfl, request_comesTo hb (by decide)
    (fun _ h => absurd h (Option.not_mem_none _)) hcall hjson rfl rfl rfl rfl rfl⟩

end Rehearsal

end HerdBook
