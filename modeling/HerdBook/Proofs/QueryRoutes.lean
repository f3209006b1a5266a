import HerdBook.Proofs.ActionRoutes

/-!
# Routes that ask a query

What the rules of a route make of a request for it. Two rules ask the query, one after the other: the
first one responds with the result, the second one with the error. The query is not recorded, so
whether they agree is up to the concept.

## Main results

* `QueryRoute.exists_plays_unverifiable`, `QueryRoute.exists_plays_denied`,
  `QueryRoute.exists_plays_incomplete`: the concept is not asked.
* `QueryRoute.Asking.exists_plays_succeeded`, `QueryRoute.Asking.exists_plays_refused`,
  `QueryRoute.Asking.exists_plays_unanswered`: it is asked twice.
-/

namespace HerdBook

open Effect Rules Scene

/-! ### Rows -/

/-- The row of a success holds what is shown of it and no error. -/
theorem Outcome.exists_row_success {names : List String} {out : Fields} (hn : names.Nodup)
    (herror : "error" ∉ names) (h : ∀ n ∈ names, (Table.get? n out).isSome = true) :
    ∃ row, (Outcome.success out).row names = .ok row ∧
      Table.get? "error" row = some .notApplicable ∧
      ∀ n ∈ names, Table.get? n row = Table.get? n out := by
  have hmissing : (names.filter fun n => !Table.has n out) = [] := by
    rw [List.filter_eq_nil_iff]
    intro n hmem
    simp [Table.has, h n hmem]
  have hkeys : (Table.keys (names.map fun n => (n, (Table.get? n out).getD .null))).Nodup := by
    rw [Table.keys, List.map_map]
    simpa [Function.comp_def] using hn
  refine ⟨Table.set "error" .notApplicable
    (Table.ofPairs (names.map fun n => (n, (Table.get? n out).getD .null))), ?_, ?_, ?_⟩
  · rw [row, hmissing]
    rfl
  · rw [Table.get?_set, if_pos rfl]
  · intro n hmem
    have hne : "error" ≠ n := fun he => herror (he ▸ hmem)
    obtain ⟨v, hv⟩ := Option.isSome_iff_exists.mp (h n hmem)
    rw [Table.get?_set, if_neg hne, Table.ofPairs, Table.get?_merge _ _ hkeys,
      Table.get?_map_pair, if_pos hmem, hv]
    rfl

/-- The row of a failure holds the error. -/
theorem Outcome.exists_row_failure (names : List String) (error : String) :
    ∃ row, (Outcome.failure error).row names = .ok row ∧
      Table.get? "error" row = some (.str error) :=
  ⟨_, rfl, by rw [Table.get?_set, if_pos rfl]⟩

/-- The lookup of a query has the name of the query. -/
theorem AdapterCode.name_answer (concept query : String) (names : List String) :
    (AdapterCode.lookup (.answer concept query names)).name = concept ++ "." ++ query := by
  have hne : (concept ++ "." ++ query).isEmpty = false := by simp
  exact if_neg (by rw [Lookup.name, hne]; exact Bool.false_ne_true)

/-- What a lookup of a query finds, as a row, or its fault. -/
def Lookup.reply (names : List String) (turn : Concept.Turn) : Except Fault Fields :=
  turn.reply.bind fun v => (Outcome.ofAnswer v).bind (Outcome.row names)

section Replies

variable {names : List String} {turn : Concept.Turn} {out : Fields} {notes : List Note}

/-- The fault of a query is that of its lookup. -/
theorem Lookup.reply_of_error {fault : Fault} (h : turn.outcome = .error fault)
    (hf : fault.IsOrdinary) : Lookup.reply names turn = .error fault := by
  rw [reply, Concept.Turn.reply_of_error h hf]
  rfl

/-- A query that refuses makes a row with the reason. -/
theorem Lookup.exists_reply_refused {reason : String} (h : turn.outcome = .ok ⟨.object out, notes⟩)
    (he : Table.get? "error" out = some (.str reason)) :
    ∃ row, Lookup.reply names turn = .ok row ∧ Table.get? "error" row = some (.str reason) := by
  obtain ⟨row, hrow, herror⟩ := Outcome.exists_row_failure names reason
  refine ⟨row, ?_, herror⟩
  have houtcome : Outcome.ofAnswer (.object out) = .ok (.failure reason) := by
    rw [Outcome.ofAnswer, he]
    rfl
  rw [reply, Concept.Turn.reply_of_ok h]
  change (Outcome.ofAnswer (.object out)).bind _ = _
  rw [houtcome]
  exact hrow

/-- A query that succeeds makes a row with what is shown of it. -/
theorem Lookup.exists_reply_succeeded (h : turn.outcome = .ok ⟨.object out, notes⟩)
    (he : Table.get? "error" out = none) (hn : names.Nodup) (herror : "error" ∉ names)
    (hshown : ∀ n ∈ names, (Table.get? n out).isSome = true) :
    ∃ row, Lookup.reply names turn = .ok row ∧ Table.get? "error" row = some .notApplicable ∧
      ∀ n ∈ names, Table.get? n row = Table.get? n out := by
  obtain ⟨row, hrow, hread⟩ := Outcome.exists_row_success hn herror hshown
  refine ⟨row, ?_, hread⟩
  have houtcome : Outcome.ofAnswer (.object out) = .ok (.success out) := by
    rw [Outcome.ofAnswer, he]
  rw [reply, Concept.Turn.reply_of_ok h]
  change (Outcome.ofAnswer (.object out)).bind _ = _
  rw [houtcome]
  exact hrow

end Replies

/-- The lookup of a query answers with the row of the concept's answer. -/
theorem Scene.plays_question {venue : Venue} {scene : Scene} {kind : Concept.Kind}
    {query : String} {names : List String} {args : Fields} {concept : Concept}
    {turn : Concept.Turn} {depth : Nat}
    (hc : scene.ledger.concept? kind = some concept)
    (ht : concept.answer? query args scene.ledger.issued = some turn) (hq : Target.IsOwn query)
    (hf : turn.AnswersFields) (hpure : query.startsWith "_" = true)
    (hfree : ∀ entry ∈ args, entry.1 ∉ ["self", "concept", "qname"]) :
    Plays venue (((Lookup.answer kind.name query names).program (.object args) :
        ScriptProgram Value).run (Engine.answer World.host (depth + 1))) scene
      ((Lookup.reply names turn).map fun row => .list [.object row]) (scene.afterTurn turn) := by
  have hprogram : ((Lookup.answer kind.name query names).program (.object args) :
      ScriptProgram Value) = (Program.query kind.name query args).andThen
        (Lookup.rowsOfAnswer (kind.name ++ "." ++ query) names) := by
    change Lookup.askConcept kind.name query names args = _
    rw [Lookup.askConcept, if_pos hpure]
    rfl
  have hquery := plays_query venue depth hc hfree hpure
    (plays_performOf hc ht hq hf)
  rw [hprogram, Lookup.reply]
  cases hr : turn.outcome with
  | error fault =>
    have hreply : turn.reply = .error fault.onLeaving := by
      rw [Concept.Turn.reply, hr]
      rfl
    rw [hreply] at hquery ⊢
    exact Yields.andThen_error hquery
  | ok a =>
    obtain ⟨out, hout⟩ := hf a hr
    have hreply : turn.reply = .ok (.object out) := by
      rw [Concept.Turn.reply, hr, ← hout]
      rfl
    rw [hreply] at hquery ⊢
    exact Yields.andThen hquery (plays_rowsOfAnswer _ names out _)

namespace QueryRoute

variable {route : QueryRoute} {venue : Venue} {scene : Scene} {input : Fields} {rid : String}
  {kind : Concept.Kind} {user : Value} {depth reentries : Nat} {more : List Event}

/-- The route names different fields, and its query is one of the herds or of the animals. -/
structure IsSound (route : QueryRoute) (kind : Concept.Kind) : Prop where
  fields : AreFields route.fields
  result : AreFields route.result
  apart : ∀ n ∈ route.result, n ∉ route.fields
  concept : route.concept = kind.name
  query : Target.IsOwn route.query
  pure : route.query.startsWith "_" = true
  free : ∀ n ∈ route.fields, n ∉ ["self", "concept", "qname"]
  keeps : kind = .herds ∨ kind = .animals

instance (route : QueryRoute) (kind : Concept.Kind) : Decidable (route.IsSound kind) :=
  decidable_of_iff (AreFields route.fields ∧ AreFields route.result ∧
      (∀ n ∈ route.result, n ∉ route.fields) ∧ route.concept = kind.name ∧
      Target.IsOwn route.query ∧ route.query.startsWith "_" = true ∧
      (∀ n ∈ route.fields, n ∉ ["self", "concept", "qname"]) ∧ (kind = .herds ∨ kind = .animals))
    ⟨fun ⟨h₁, h₂, h₃, h₄, h₅, h₆, h₇, h₈⟩ => ⟨h₁, h₂, h₃, h₄, h₅, h₆, h₇, h₈⟩,
      fun ⟨h₁, h₂, h₃, h₄, h₅, h₆, h₇, h₈⟩ => ⟨h₁, h₂, h₃, h₄, h₅, h₆, h₇, h₈⟩⟩

/-- What the query is asked with for a user's request. -/
def args (route : QueryRoute) (user : Value) (input : Fields) : Fields :=
  ("user", user) :: route.fields.map fun n => (n, (Table.get? n input).getD .null)

/-- The fields that a request lacks. -/
def lacking (route : QueryRoute) (input : Fields) : List String :=
  route.fields.filter fun n => (Table.get? n input).isNone

/-- What the response shows of a success. -/
def response (route : QueryRoute) (out : Fields) : Fields :=
  route.result.map fun n => (n, (Table.get? n out).getD .null)

/-- The fault of a rule that cannot ask the query. -/
def unanswered (route : QueryRoute) (fault : Fault) : Fault :=
  .wrapped .adapter route.name fault none

variable {ending : String} {check : Symbol → Check} {body : String → Fields}

/-- The rules that ask the query are guarded. -/
theorem isGuarded_answered (route : QueryRoute) (ending : String) (check : Symbol → Check)
    (body : String → Fields) :
    (route.answered AdapterCode.lookup ending check body).IsGuarded route.path route.fields
      [keep (.applicable (symbol (route.name ++ ending) "user")),
        keep (.bound (symbols (route.name ++ ending) route.fields)),
        ask (.lookup (.answer route.concept route.query route.result))
          (("user", var (route.name ++ ending) "user") :: vars (route.name ++ ending) route.fields)
          (vars (route.name ++ ending) route.result
            ++ [("error", var (route.name ++ ending) "error")]),
        keep (check (symbol (route.name ++ ending) "error"))] :=
  ⟨rfl, rfl⟩

/-- The rules of the route, with those that turn requests down apart. -/
theorem rules_eq (route : QueryRoute) :
    route.rules AdapterCode.lookup
      = route.succeeded AdapterCode.lookup :: route.refused AdapterCode.lookup
        :: turnedDown route.name route.path route.fields := by
  unfold rules turnedDown incompletes
  split <;> rfl

/-! ### One question -/

/-- What the query is asked with comes from the request. -/
theorem fillFields_args (hs : route.IsSound kind) (hj : Value.FieldsAreJson input)
    (huser : user.isNotApplicable = false) (hl : route.lacking input = []) {rule : String}
    {frame : Frame} (hframe : frame.Reads rule (known route.fields input rid (.ok user))) :
    Value.fillFields frame (("user", var rule "user") :: vars rule route.fields)
      = .ok (route.args user input) := by
  have hvars := hframe.fillFields_vars _ fun n hn => by
    rw [known_of_mem hs.fields hn]
    exact exists_of_missing hj hl n hn
  have hfields : (route.fields.map fun n =>
      (n, (known route.fields input rid (.ok user) n).getD .null))
        = route.fields.map fun n => (n, (Table.get? n input).getD .null) :=
    List.map_congr_left fun n hn => by rw [known_of_mem hs.fields hn]
  rw [Value.fillFields, hframe.fill_var (n := "user") (v := user) rfl huser, hvars, hfields]
  rfl

/-- What a rule binds once the query is answered with a row. -/
def shown (route : QueryRoute) (input : Fields) (rid : String) (user : Value) (row : Fields)
    (n : String) : Option Value :=
  if n ∈ route.result ++ ["error"] then
    (Table.get? n row).or (known route.fields input rid (.ok user) n)
  else known route.fields input rid (.ok user) n

/-- The names under which the row is bound are new ones. -/
theorem known_of_mem_result (hs : route.IsSound kind) {n : String}
    (hn : n ∈ route.result ++ ["error"]) : known route.fields input rid (.ok user) n = none := by
  have hnot : n ∉ route.fields ∧ ∀ m ∈ ["token", "request", "user", "auth_error"], n ≠ m := by
    rcases List.mem_append.mp hn with hn | hn
    · exact ⟨hs.apart n hn, fun m hm he => hs.result.2 n hn (by
        rw [he]
        exact List.mem_append_left ["message", "error"] hm)⟩
    · rw [List.mem_singleton.mp hn]
      exact ⟨fun h => hs.fields.2 _ h (by decide), by decide⟩
  simp [known, badged, asked, hnot.1, hnot.2 "user" (by decide), hnot.2 "auth_error" (by decide),
    hnot.2 "token" (by decide), hnot.2 "request" (by decide)]

/-- What is known when a rule of the route comes to ask the query: the request is one of a user for
the path of the route and lacks no field, and the turn is what the concept makes of the query. -/
structure Asking (route : QueryRoute) (venue : Venue) (scene : Scene) (input : Fields) (rid : String)
    (kind : Concept.Kind) (user : Value) (concept : Concept) (turn : Concept.Turn) : Prop where
  sound : route.IsSound kind
  json : Value.FieldsAreJson input
  path : Table.get? "path" input = some (.str route.path)
  begun : ∃ more, scene.Begun venue input rid more
  standing : scene.ledger.accounts.standing (tokenOf input) = .ok (.ok user)
  applicable : user.isNotApplicable = false
  complete : route.lacking input = []
  held : scene.ledger.concept? kind = some concept
  answers : concept.answer? route.query (route.args user input) scene.ledger.issued = some turn

variable {concept : Concept} {turn second : Concept.Turn}

/-- Nothing that leaves the log and the ledger alone changes this. -/
theorem Asking.fire (h : route.Asking venue scene input rid kind user concept turn) (name : String) :
    route.Asking venue (scene.fire name) input rid kind user concept turn :=
  { h with begun := h.begun.imp fun _ hb => hb.of_log _ rfl }

/-- Nor does a response. -/
theorem Asking.reply (h : route.Asking venue scene input rid kind user concept turn)
    (body : Fields) :
    route.Asking venue (scene.reply venue rid body) input rid kind user concept turn where
  sound := h.sound
  json := h.json
  path := h.path
  begun := by
    obtain ⟨more, hb⟩ := h.begun
    exact ⟨_, hb.reply body⟩
  standing := (congrArg (Accounts.standing · (tokenOf input))
    (Ledger.accounts_respond scene.ledger rid body)).trans h.standing
  applicable := h.applicable
  complete := h.complete
  held := (Ledger.concept?_respond scene.ledger rid body kind).trans h.held
  answers := (congrArg _ (Ledger.issued_respond scene.ledger rid body)).trans h.answers

/-- Whose request it is does not depend on the query. -/
theorem Asking.standing_afterTurn (h : route.Asking venue scene input rid kind user concept turn) :
    (scene.ledger.afterTurn turn).accounts.standing (tokenOf input) = .ok (.ok user) := by
  rw [(Ledger.afterTurn_of_answer? h.sound.keeps h.held h.answers).1]
  exact h.standing

variable (depth) in
/-- The query is asked with the fields of a user's request. -/
theorem Asking.plays_question (h : route.Asking venue scene input rid kind user concept turn)
    (hf : turn.AnswersFields) :
    Plays venue (((Lookup.answer route.concept route.query route.result).program
        (.object (route.args user input)) : ScriptProgram Value).run
          (Engine.answer World.host (depth + 1))) scene
      ((Lookup.reply route.result turn).map fun row => .list [.object row])
      (scene.afterTurn turn) := by
  rw [h.sound.concept]
  refine Scene.plays_question h.held h.answers h.sound.query hf h.sound.pure fun entry he => ?_
  rcases List.mem_cons.mp he with rfl | he
  · simp
  · obtain ⟨n, hn, rfl⟩ := List.mem_map.mp he
    exact h.sound.free n hn

/-- The stages up to the query. -/
theorem Asking.exists_plays (h : route.Asking venue scene input rid kind user concept turn) :
    ∃ frame, frame.Reads (route.name ++ ending) (known route.fields input rid (.ok user)) ∧
      ∀ {outcome : Except Fault (List Frame)} {after : Scene},
        PlaysStages venue (World.handlersAt depth reentries)
          [ask (.lookup (.answer route.concept route.query route.result))
              (("user", var (route.name ++ ending) "user")
                :: vars (route.name ++ ending) route.fields)
              (vars (route.name ++ ending) route.result
                ++ [("error", var (route.name ++ ending) "error")]),
            keep (check (symbol (route.name ++ ending) "error"))] frame scene outcome after →
        PlaysStages venue (World.handlersAt depth reentries)
          (route.answered AdapterCode.lookup ending check body).stages
          (askedFrame (route.name ++ ending) ("token" :: route.fields) input (.str rid)) scene
          outcome after := by
  obtain ⟨frame, hframe, hplays⟩ := exists_plays_guarded_user _
    (isGuarded_answered route ending check body) h.sound.fields h.json h.standing h.applicable
  have hbound := holds_bound_known h.sound.fields (fun _ hn => hn) hframe
  rw [show route.fields.filter _ = [] from h.complete] at hbound
  exact ⟨frame, hframe, fun hstages => hplays (plays_keep hbound hstages)⟩

/-- The stages up to the test of the error, when the query is answered. -/
theorem Asking.exists_plays_answered (h : route.Asking venue scene input rid kind user concept turn)
    (hf : turn.AnswersFields) {row : Fields} (hreply : Lookup.reply route.result turn = .ok row) :
    ∃ next, next.Reads (route.name ++ ending) (route.shown input rid user row) ∧
      ∀ {outcome : Except Fault (List Frame)} {after : Scene},
        PlaysStages venue (World.handlersAt depth reentries)
          [keep (check (symbol (route.name ++ ending) "error"))] next (scene.afterTurn turn) outcome
          after →
        PlaysStages venue (World.handlersAt depth reentries)
          (route.answered AdapterCode.lookup ending check body).stages
          (askedFrame (route.name ++ ending) ("token" :: route.fields) input (.str rid)) scene
          outcome after := by
  obtain ⟨frame, hframe, hplays⟩ := h.exists_plays
  have hnodup : (route.result ++ ["error"]).Nodup := by
    refine List.nodup_append.mpr ⟨h.sound.result.1, by simp, fun n hn m hm he => ?_⟩
    exact h.sound.result.2 n hn (he ▸ List.mem_singleton.mp hm ▸ by decide)
  have hnext := Frame.unify?_vars _ _ _ row _ hnodup
    (fun n hn => (hframe n).trans (known_of_mem_result h.sound hn)) (.inl rfl)
  have hquestion := h.plays_question depth hf
  rw [hreply] at hquestion
  refine ⟨_, hframe.extend hnodup row, fun hstages => hplays (plays_lookup
    (fillFields_args h.sound h.json h.applicable h.complete hframe) hquestion ?_ hstages)⟩
  rw [← hnext, vars, vars, List.map_append]
  rfl

/-- The stages, when the query fails. -/
theorem Asking.plays_error (h : route.Asking venue scene input rid kind user concept turn)
    {fault : Fault} (hfault : turn.outcome = .error fault) (hord : fault.IsOrdinary) :
    PlaysStages venue (World.handlersAt depth reentries)
      (route.answered AdapterCode.lookup ending check body).stages
      (askedFrame (route.name ++ ending) ("token" :: route.fields) input (.str rid)) scene
      (.error (route.unanswered fault)) (scene.afterTurn turn) := by
  obtain ⟨frame, hframe, hplays⟩ := h.exists_plays
  have hquestion := h.plays_question depth (Concept.Turn.answersFields_of_error hfault)
  rw [Lookup.reply_of_error hfault hord] at hquestion
  have hlookup := plays_lookup_error reentries [keep (check
    (symbol (route.name ++ ending) "error"))] (vars (route.name ++ ending) route.result
      ++ [("error", var (route.name ++ ending) "error")])
    (fillFields_args h.sound h.json h.applicable h.complete hframe) hquestion
  rw [hord.wrappedBy, AdapterCode.name_answer] at hlookup
  exact hplays hlookup

/-! ### One rule -/

/-- What a rule of the route finds is the request. -/
theorem Asking.found (h : route.Asking venue scene input rid kind user concept turn)
    (ending : String) (check : Symbol → Check) (body : String → Fields) :
    Pattern.combinations (route.answered AdapterCode.lookup ending check body).patterns scene.log
      = .ok [(askedFrame (route.name ++ ending) ("token" :: route.fields) input (.str rid),
        [0])] := by
  obtain ⟨more, hb⟩ := h.begun
  exact hb.found_guarded (isGuarded_answered route ending check body) h.sound.fields h.path

/-- A rule whose check the error passes responds. -/
theorem Asking.plays_respond (h : route.Asking venue scene input rid kind user concept turn)
    (hname : route.name ++ ending ∉ scene.done) (hgiven : scene.given = [])
    (hroom : (scene.log.length : Int) < venue.ceiling)
    (hf : turn.AnswersFields) {row out : Fields}
    (hreply : Lookup.reply route.result turn = .ok row)
    (hcheck : ∀ frame : Frame,
      frame.Reads (route.name ++ ending) (route.shown input rid user row) →
      (check (symbol (route.name ++ ending) "error")).holds frame = .ok true)
    (hbody : ∀ frame : Frame,
      frame.Reads (route.name ++ ending) (route.shown input rid user row) →
      Value.fillFields frame (body (route.name ++ ending)) = .ok out) :
    PlaysRule venue (World.handlersAt depth reentries)
      (route.answered AdapterCode.lookup ending check body) scene
      (((scene.fire (route.name ++ ending)).afterTurn turn).reply venue rid out) := by
  obtain ⟨next, hnext, hplays⟩ := (h.fire (route.name ++ ending)).exists_plays_answered hf hreply
  have hrequest : "request" ∉ route.result ++ ["error"] := by
    simpa using fun hn => h.sound.result.2 _ hn (by decide)
  refine plays_evaluate_respond (h.found ending check body) (by simp) hname rfl
    (hplays (plays_keep (hcheck next hnext) (plays_no_stages next _))) hnext ?_ (hbody next hnext)
    hgiven hroom
  rw [shown, if_neg hrequest]
  rfl

/-- A rule whose check the error does not pass does no more than to ask. -/
theorem Asking.plays_drop (h : route.Asking venue scene input rid kind user concept turn)
    (hname : route.name ++ ending ∉ scene.done) (hf : turn.AnswersFields) {row : Fields}
    (hreply : Lookup.reply route.result turn = .ok row)
    (hcheck : ∀ frame : Frame,
      frame.Reads (route.name ++ ending) (route.shown input rid user row) →
      (check (symbol (route.name ++ ending) "error")).holds frame = .ok false) :
    PlaysRule venue (World.handlersAt depth reentries)
      (route.answered AdapterCode.lookup ending check body) scene
      ((scene.fire (route.name ++ ending)).afterTurn turn) := by
  obtain ⟨next, hnext, hplays⟩ := (h.fire (route.name ++ ending)).exists_plays_answered hf hreply
  exact plays_evaluate_drop (h.found ending check body) (by simp) hname
    (hplays (Scene.plays_drop (hcheck next hnext) _))

/-- A rule is aborted when the query fails. -/
theorem Asking.plays_fault (h : route.Asking venue scene input rid kind user concept turn)
    (hname : route.name ++ ending ∉ scene.done) {fault : Fault}
    (hfault : turn.outcome = .error fault) (hord : fault.IsOrdinary) :
    PlaysRule venue (World.handlersAt depth reentries)
      (route.answered AdapterCode.lookup ending check body) scene
      (((scene.fire (route.name ++ ending)).afterTurn turn).fail venue (route.name ++ ending)
        (route.unanswered fault)) :=
  plays_evaluate_error (h.found ending check body) (by simp) hname rfl
    (plays_carryOut_error _ ((h.fire (route.name ++ ending)).plays_error hfault hord))

/-- The faults that are recorded when the query ends so in a rule. -/
def faults (route : QueryRoute) (venue : Venue) (ending : String) :
    Except Fault Answer → List FlowFault
  | .ok _ => []
  | .error fault => [⟨route.name ++ ending, venue.id,
      .wrapped .adapter route.name fault (some ⟨route.name ++ ending, venue.id⟩)⟩]

/-- The scene in which a rule has asked the query. -/
def asked (route : QueryRoute) (venue : Venue) (ending : String) (turn : Concept.Turn)
    (scene : Scene) : Scene :=
  { (scene.fire (route.name ++ ending)).afterTurn turn with
    faults := scene.faults ++ route.faults venue ending turn.outcome }

/-- No fault is recorded when the query is answered. -/
theorem asked_of_ok {a : Answer} (h : turn.outcome = .ok a) :
    route.asked venue ending turn scene = (scene.fire (route.name ++ ending)).afterTurn turn := by
  rw [asked, h, faults, List.append_nil]
  rfl

/-- When the query fails, its fault is recorded. -/
theorem asked_of_error {fault : Fault} (h : turn.outcome = .error fault) :
    route.asked venue ending turn scene
      = ((scene.fire (route.name ++ ending)).afterTurn turn).fail venue (route.name ++ ending)
          (route.unanswered fault) := by
  rw [asked, h]
  rfl

/-- Once a rule has asked the query, the next one asks it of the concept as it is then. -/
theorem Asking.again (h : route.Asking venue scene input rid kind user concept turn)
    (ending : String)
    (ht : turn.concept.answer? route.query (route.args user input) turn.issued = some second) :
    route.Asking venue (route.asked venue ending turn scene) input rid kind user turn.concept
      second := by
  obtain ⟨-, hconcept, hissued⟩ := Ledger.afterTurn_of_answer? h.sound.keeps h.held h.answers
  exact ⟨h.sound, h.json, h.path, h.begun.imp fun _ hb => hb.of_log _ rfl, h.standing_afterTurn,
    h.applicable, h.complete, hconcept, by rw [← hissued] at ht; exact ht⟩

/-- The error that a row shows is bound. -/
theorem shown_error {row : Fields} {v : Value} (h : Table.get? "error" row = some v) :
    route.shown input rid user row "error" = some v := by
  rw [shown, if_pos (by simp), h]
  rfl

variable (depth reentries) in
/-- The first rule responds to a success with what is shown of it. -/
theorem Asking.plays_succeeded (h : route.Asking venue scene input rid kind user concept turn)
    (hname : route.name ++ ".Result" ∉ scene.done) (hgiven : scene.given = [])
    (hroom : (scene.log.length : Int) < venue.ceiling) {out : Fields} {notes : List Note}
    (hout : turn.outcome = .ok ⟨.object out, notes⟩) (herror : Table.get? "error" out = none)
    (hshown : ∀ n ∈ route.result, ∃ v, Table.get? n out = some v ∧ v.isNotApplicable = false) :
    PlaysRule venue (World.handlersAt depth reentries) (route.succeeded AdapterCode.lookup) scene
      ((route.asked venue ".Result" turn scene).reply venue rid (route.response out)) := by
  obtain ⟨row, hreply, hrow, hread⟩ := Lookup.exists_reply_succeeded hout herror h.sound.result.1
    (fun hn => h.sound.result.2 _ hn (by decide)) fun n hn => by
      obtain ⟨v, hv, -⟩ := hshown n hn
      rw [hv]
      rfl
  rw [asked_of_ok hout]
  refine h.plays_respond hname hgiven hroom (Concept.Turn.answersFields_of_ok hout) hreply
    (fun frame hframe => hframe.holds_inapplicable (shown_error hrow)) fun frame hframe => ?_
  refine Frame.fillFields_of_get? (fun n hn => ?_) hshown
  obtain ⟨v, hv, -⟩ := hshown n hn
  rw [hframe n, shown, if_pos (List.mem_append_left _ hn), hread n hn, hv]
  rfl

variable (depth reentries) in
/-- The first rule does not respond to anything else. -/
theorem Asking.plays_succeeded_none
    (h : route.Asking venue scene input rid kind user concept turn)
    (hname : route.name ++ ".Result" ∉ scene.done) (hproper : turn.IsProper route.result)
    (hnot : ∀ out notes, turn.outcome = .ok ⟨.object out, notes⟩ → Table.get? "error" out ≠ none) :
    PlaysRule venue (World.handlersAt depth reentries) (route.succeeded AdapterCode.lookup) scene
      (route.asked venue ".Result" turn scene) := by
  cases hproper with
  | failed hfault hord =>
    rw [asked_of_error hfault]
    exact h.plays_fault hname hfault hord
  | refused hout =>
    obtain ⟨row, hreply, hrow⟩ := Lookup.exists_reply_refused hout rfl
    rw [asked_of_ok hout]
    exact h.plays_drop hname (Concept.Turn.answersFields_of_ok hout) hreply
      fun frame hframe => hframe.holds_inapplicable (shown_error hrow)
  | succeeded hout herror => exact absurd herror (hnot _ _ hout)

variable (depth reentries) in
/-- The second rule responds to a refusal with the reason. -/
theorem Asking.plays_refused (h : route.Asking venue scene input rid kind user concept turn)
    (hname : route.name ++ ".Error" ∉ scene.done) (hgiven : scene.given = [])
    (hroom : (scene.log.length : Int) < venue.ceiling) {out : Fields} {reason : String}
    {notes : List Note} (hout : turn.outcome = .ok ⟨.object out, notes⟩)
    (herror : Table.get? "error" out = some (.str reason)) :
    PlaysRule venue (World.handlersAt depth reentries) (route.refused AdapterCode.lookup) scene
      ((route.asked venue ".Error" turn scene).reply venue rid [("error", .str reason)]) := by
  obtain ⟨row, hreply, hrow⟩ := Lookup.exists_reply_refused hout herror
  rw [asked_of_ok hout]
  exact h.plays_respond hname hgiven hroom (Concept.Turn.answersFields_of_ok hout) hreply
    (fun frame hframe => hframe.holds_applicable (shown_error hrow))
    fun frame hframe => hframe.fillFields_var (shown_error hrow) rfl "error"

variable (depth reentries) in
/-- The second rule does not respond to anything else. -/
theorem Asking.plays_refused_none (h : route.Asking venue scene input rid kind user concept turn)
    (hname : route.name ++ ".Error" ∉ scene.done) (hproper : turn.IsProper route.result)
    (hnot : ∀ out notes, turn.outcome = .ok ⟨.object out, notes⟩ → Table.get? "error" out = none) :
    PlaysRule venue (World.handlersAt depth reentries) (route.refused AdapterCode.lookup) scene
      (route.asked venue ".Error" turn scene) := by
  cases hproper with
  | failed hfault hord =>
    rw [asked_of_error hfault]
    exact h.plays_fault hname hfault hord
  | refused hout => exact nomatch hnot _ _ hout
  | succeeded hout herror hshown =>
    obtain ⟨row, hreply, hrow, -⟩ := Lookup.exists_reply_succeeded hout herror h.sound.result.1
      (fun hn => h.sound.result.2 _ hn (by decide)) fun n hn => by
        obtain ⟨v, hv, -⟩ := hshown n hn
        rw [hv]
        rfl
    rw [asked_of_ok hout]
    exact h.plays_drop hname (Concept.Turn.answersFields_of_ok hout) hreply
      fun frame hframe => hframe.holds_applicable (shown_error hrow)

/-! ### The concept is not asked -/

/-- When the token cannot be looked up, the rules are aborted and nobody responds. -/
theorem exists_plays_unverifiable {fault : Fault} (hs : route.IsSound kind)
    (ho : scene.Opens venue input rid route.path)
    (hwho : scene.ledger.accounts.standing (tokenOf input) = .error fault) :
    ∃ after faults, PlaysRules venue (World.handlersAt depth reentries)
        (route.rules AdapterCode.lookup) scene after ∧
      after.Ends scene.log faults scene.ledger ∧ faults ≠ [] := by
  obtain ⟨mid, hfirst, hlog, hdone, hledger⟩ : ∃ mid, PlaysRule venue
      (World.handlersAt depth reentries) (route.succeeded AdapterCode.lookup) scene mid ∧
      mid.log = scene.log ∧ mid.done = [route.name ++ ".Result"] ∧ mid.ledger = scene.ledger :=
    ⟨_, plays_guarded_error _ _ depth reentries ho.begun (isGuarded_answered route ..) hs.fields
      ho.json ho.path (by simp [ho.done]) hwho, rfl,
      by simp [fire, fail, ho.done, succeeded, answered], rfl⟩
  have hb : mid.Begun venue input rid [] := ho.begun.of_log _ hlog
  rw [← hledger] at hwho
  have hsecond := plays_guarded_error mid (route.refused AdapterCode.lookup) depth reentries hb
    (isGuarded_answered route ..) hs.fields ho.json ho.path (by simp [hdone, refused, answered])
    hwho
  have hb' := hb.of_log ((mid.fire (route.name ++ ".Error")).fail venue (route.name ++ ".Error")
    unverifiable) rfl
  obtain ⟨after, faults, hturned, hends, hne⟩ := exists_plays_turnedDown_error depth reentries
    route.name hb' ho.json ho.path hs.fields (by simp [fire, fail, hdone]) hwho
  rw [rules_eq, ← hlog, ← hledger]
  exact ⟨after, faults, plays_rules_cons hfirst (plays_rules_cons hsecond hturned), hends, hne⟩

/-- When the token is nobody's, the response says so. -/
theorem exists_plays_denied {answer : (call : EngineCall AdapterCode) → Effect Rehearsal call.Answer}
    {reason : String} (hs : route.IsSound kind) (ho : scene.Opens venue input rid route.path)
    (hwho : Identifies venue answer scene.ledger.accounts (tokenOf input) (.error reason)) :
    ∃ after, PlaysRules venue (World.host.handlers answer reentries)
        (route.rules AdapterCode.lookup) scene after ∧
      after.Ends (scene.log ++ [scene.response venue rid [("error", .str reason)]]) []
        (scene.ledger.respond rid [("error", .str reason)]) := by
  have hfirst := plays_guarded_drop_of_error (route.succeeded AdapterCode.lookup) answer reentries
    ho.begun
    (isGuarded_answered route ..) hs.fields ho.json ho.path (by simp [ho.done]) hwho
  have hsecond := plays_guarded_drop_of_error (route.refused AdapterCode.lookup) answer reentries
    (ho.begun.of_log (scene.fire (route.name ++ ".Result")) rfl)
    (isGuarded_answered route ..) hs.fields ho.json ho.path
    (by simp [fire, ho.done, refused, answered]) hwho
  have hturned := plays_turnedDown_denied answer reentries route.name
    ((ho.begun.fire (route.name ++ ".Result")).fire (route.name ++ ".Error")) ho.json ho.path
    hs.fields (by simp [fire, ho.done]) hwho ho.given ho.hasRoom
  rw [rules_eq]
  exact ⟨_, plays_rules_cons hfirst (plays_rules_cons hsecond hturned), rfl, ho.faults, rfl⟩

/-- A user's request that lacks fields is answered with their names. -/
theorem exists_plays_incomplete (hs : route.IsSound kind)
    (ho : scene.Opens venue input rid route.path)
    (hwho : scene.ledger.accounts.standing (tokenOf input) = .ok (.ok user))
    (huser : user.isNotApplicable = false) (hl : route.lacking input ≠ []) :
    ∃ after, PlaysRules venue (World.handlersAt depth reentries)
        (route.rules AdapterCode.lookup) scene after ∧
      after.Ends (scene.log ++
          [scene.response venue rid [("error", .str (missingMessage (route.lacking input)))]]) []
        (scene.ledger.respond rid
          [("error", .str (missingMessage (route.lacking input)))]) := by
  have hfirst := plays_guarded_drop_of_missing (route.succeeded AdapterCode.lookup) depth reentries
    ho.begun
    (isGuarded_answered route ..) hs.fields (fun _ hn => hn) ho.json ho.path (by simp [ho.done])
    hwho huser hl
  have hsecond := plays_guarded_drop_of_missing (route.refused AdapterCode.lookup) depth reentries
    (ho.begun.of_log (scene.fire (route.name ++ ".Result")) rfl)
    (isGuarded_answered route ..) hs.fields (fun _ hn => hn) ho.json ho.path
    (by simp [fire, ho.done, refused, answered]) hwho huser hl
  have hturned := plays_turnedDown_incomplete depth reentries route.name
    ((ho.begun.fire (route.name ++ ".Result")).fire (route.name ++ ".Error")) ho.json ho.path
    hs.fields (by simp [fire, ho.done]) hwho huser rfl hl ho.given ho.hasRoom
  rw [rules_eq]
  exact ⟨_, plays_rules_cons hfirst (plays_rules_cons hsecond hturned), rfl, ho.faults, rfl⟩

/-! ### The concept is asked -/

/-- A user's request that opens the scene and lacks no field has the query asked. -/
theorem asking_of_opens (hs : route.IsSound kind) (ho : scene.Opens venue input rid route.path)
    (hwho : scene.ledger.accounts.standing (tokenOf input) = .ok (.ok user))
    (huser : user.isNotApplicable = false) (hl : route.lacking input = [])
    (hc : scene.ledger.concept? kind = some concept)
    (ht : concept.answer? route.query (route.args user input) scene.ledger.issued = some turn) :
    route.Asking venue scene input rid kind user concept turn :=
  ⟨hs, ho.json, ho.path, ⟨_, ho.begun⟩, hwho, huser, hl, hc, ht⟩

/-- Once both rules have asked, the request is neither denied nor searched for missing fields. -/
theorem Asking.plays_rules (h : route.Asking venue scene input rid kind user concept turn)
    {mid last : Scene}
    (hfirst : PlaysRule venue (World.handlersAt depth reentries)
      (route.succeeded AdapterCode.lookup) scene mid)
    (hsecond : PlaysRule venue (World.handlersAt depth reentries)
      (route.refused AdapterCode.lookup) mid last)
    (hb : last.Begun venue input rid more)
    (hdone : last.done = [route.name ++ ".Result", route.name ++ ".Error"])
    (hwho : last.ledger.accounts.standing (tokenOf input) = .ok (.ok user)) :
    PlaysRules venue (World.handlersAt depth reentries) (route.rules AdapterCode.lookup) scene
      ((last.fire (route.name ++ ".AuthError")).fire (route.name ++ ".MissingInput")) := by
  have hturned := plays_turnedDown_drop depth reentries route.name hb h.json h.path h.sound.fields
    (by simp [hdone]) hwho h.applicable h.complete
  rw [rules_eq]
  exact plays_rules_cons hfirst (plays_rules_cons hsecond hturned)

variable (turn) in
/-- The first of the two rules has fired. -/
theorem done_asked (ho : scene.Opens venue input rid route.path) :
    (route.asked venue ".Result" turn scene).done = [route.name ++ ".Result"] :=
  congrArg (· ++ [route.name ++ ".Result"]) ho.done

/-- When the query succeeds first, the response shows what it answers. -/
theorem Asking.exists_plays_succeeded
    (h : route.Asking venue scene input rid kind user concept turn)
    (ho : scene.Opens venue input rid route.path)
    (ht : turn.concept.answer? route.query (route.args user input) turn.issued = some second)
    {out : Fields} {notes : List Note} (hout : turn.outcome = .ok ⟨.object out, notes⟩)
    (herror : Table.get? "error" out = none)
    (hshown : ∀ n ∈ route.result, ∃ v, Table.get? n out = some v ∧ v.isNotApplicable = false)
    (hproper : second.IsProper route.result)
    (hnot : ∀ out notes, second.outcome = .ok ⟨.object out, notes⟩ →
      Table.get? "error" out = none) :
    ∃ after response, PlaysRules venue (World.handlersAt depth reentries)
        (route.rules AdapterCode.lookup) scene after ∧
      after.Ends (scene.log ++ [response]) (route.faults venue ".Error" second.outcome)
        (((scene.ledger.afterTurn turn).respond rid (route.response out)).afterTurn second) ∧
      response.IsResponse rid (route.response out) := by
  have hfirst := h.plays_succeeded depth reentries (by simp [ho.done]) ho.given ho.hasRoom hout
    herror hshown
  have hnext := (h.again ".Result" ht).reply (route.response out)
  obtain ⟨mid, hmid⟩ : ∃ mid, mid = (route.asked venue ".Result" turn scene).reply venue rid
      (route.response out) := ⟨_, rfl⟩
  rw [← hmid] at hfirst hnext
  have hdone : mid.done = [route.name ++ ".Result"] := by
    rw [hmid]
    exact done_asked turn ho
  have hb : mid.Begun venue input rid
      [(route.asked venue ".Result" turn scene).response venue rid (route.response out)] := by
    rw [hmid]
    exact (ho.begun.of_log (route.asked venue ".Result" turn scene) rfl).reply _
  have hfaults : mid.faults = [] := by
    rw [hmid]
    change scene.faults ++ route.faults venue ".Result" turn.outcome = []
    rw [hout, ho.faults]
    rfl
  have hsecond := hnext.plays_refused_none depth reentries (by simp [hdone]) hproper hnot
  refine ⟨_, (route.asked venue ".Result" turn scene).response venue rid (route.response out),
    h.plays_rules hfirst hsecond (hb.of_log _ rfl) (congrArg (· ++ [route.name ++ ".Error"]) hdone)
      hnext.standing_afterTurn, ⟨?_, ?_, ?_⟩, ⟨rfl, rfl, rfl⟩⟩
  · rw [ho.begun.log]
    exact hb.log
  · exact congrArg (· ++ route.faults venue ".Error" second.outcome) hfaults
  · rw [hmid] at hnext ⊢
    rfl

/-- When the query refuses at last, the response gives the reason. -/
theorem Asking.exists_plays_refused (h : route.Asking venue scene input rid kind user concept turn)
    (ho : scene.Opens venue input rid route.path)
    (ht : turn.concept.answer? route.query (route.args user input) turn.issued = some second)
    (hproper : turn.IsProper route.result)
    (hnot : ∀ out notes, turn.outcome = .ok ⟨.object out, notes⟩ → Table.get? "error" out ≠ none)
    {out : Fields} {reason : String} {notes : List Note}
    (hout : second.outcome = .ok ⟨.object out, notes⟩)
    (herror : Table.get? "error" out = some (.str reason)) :
    ∃ after response, PlaysRules venue (World.handlersAt depth reentries)
        (route.rules AdapterCode.lookup) scene after ∧
      after.Ends (scene.log ++ [response]) (route.faults venue ".Result" turn.outcome)
        (((scene.ledger.afterTurn turn).afterTurn second).respond rid [("error", .str reason)]) ∧
      response.IsResponse rid [("error", .str reason)] := by
  have hfirst := h.plays_succeeded_none depth reentries (by simp [ho.done]) hproper hnot
  have hnext := h.again ".Result" ht
  have hsecond := hnext.plays_refused depth reentries (by simp [done_asked turn ho]) ho.given
    ho.hasRoom hout herror
  have hb := (ho.begun.of_log (route.asked venue ".Error" second
    (route.asked venue ".Result" turn scene)) rfl).reply [("error", .str reason)]
  have hwho := hnext.standing_afterTurn
  rw [← Ledger.accounts_respond _ rid [("error", .str reason)]] at hwho
  refine ⟨_, (route.asked venue ".Error" second (route.asked venue ".Result" turn scene)).response
      venue rid [("error", .str reason)],
    h.plays_rules hfirst hsecond hb (congrArg (· ++ [route.name ++ ".Error"]) (done_asked turn ho))
      hwho,
    ⟨?_, ?_, rfl⟩, ⟨rfl, rfl, rfl⟩⟩
  · rw [ho.begun.log]
    exact hb.log
  · change (scene.faults ++ route.faults venue ".Result" turn.outcome)
      ++ route.faults venue ".Error" second.outcome = _
    rw [hout, ho.faults, faults, List.append_nil]
    rfl

/-- When the query does neither, nobody responds. -/
theorem Asking.exists_plays_unanswered
    (h : route.Asking venue scene input rid kind user concept turn)
    (ho : scene.Opens venue input rid route.path)
    (ht : turn.concept.answer? route.query (route.args user input) turn.issued = some second)
    (hproper : turn.IsProper route.result)
    (hnot : ∀ out notes, turn.outcome = .ok ⟨.object out, notes⟩ → Table.get? "error" out ≠ none)
    (hproper' : second.IsProper route.result)
    (hnot' : ∀ out notes, second.outcome = .ok ⟨.object out, notes⟩ →
      Table.get? "error" out = none) :
    ∃ after, PlaysRules venue (World.handlersAt depth reentries)
        (route.rules AdapterCode.lookup) scene after ∧
      after.Ends scene.log (route.faults venue ".Result" turn.outcome
          ++ route.faults venue ".Error" second.outcome)
        ((scene.ledger.afterTurn turn).afterTurn second) := by
  have hfirst := h.plays_succeeded_none depth reentries (by simp [ho.done]) hproper hnot
  have hnext := h.again ".Result" ht
  have hsecond := hnext.plays_refused_none depth reentries (by simp [done_asked turn ho]) hproper'
    hnot'
  refine ⟨_, h.plays_rules hfirst hsecond (ho.begun.of_log _ rfl)
    (congrArg (· ++ [route.name ++ ".Error"]) (done_asked turn ho)) hnext.standing_afterTurn,
    ⟨rfl, ?_, rfl⟩⟩
  change (scene.faults ++ route.faults venue ".Result" turn.outcome)
      ++ route.faults venue ".Error" second.outcome = _
  rw [ho.faults]
  rfl

end QueryRoute

end HerdBook
