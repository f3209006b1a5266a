import HerdBook.Proofs.Routes

/-!
# Rules that answer with the result of an action

Such a rule watches for the request and for an action that the request has led to, and joins the two
by the fields that they share. In the flow of one request there is one action of the kind at most.

## Main results

* `Scene.Begun.found_pair_none`, `Scene.Joins.found_pair`: what the rule finds before the action is
  recorded, and afterwards.
* `Scene.Joins.plays_relay`, `Scene.Joins.plays_none`: the rule responds when its pattern matches the
  answer, and else does nothing.
* `Scene.Joins.plays_refused`, `Scene.Joins.plays_succeeded`: of the two rules of an answer one
  responds.
-/

namespace HerdBook

open Effect Rules

/-- The event is of another kind than the action. -/
def Event.IsOther (event : Event) (concept action : String) : Prop :=
  event.concept ≠ concept ∨ event.action ≠ action

/-- A pattern of an action concerns no event of another kind. -/
theorem filter_completed_eq_nil {concept action : String} {inputs outputs : Fields}
    {events : List Event} (h : ∀ event ∈ events, event.IsOther concept action) :
    events.filter (completed concept action inputs outputs).concerns = [] := by
  rw [List.filter_eq_nil_iff]
  intro event he hc
  obtain ⟨hconcept, haction⟩ := Pattern.kind_eq_of_concerns hc
  rcases h event he with hn | hn
  · exact hn hconcept
  · exact hn haction

/-- The rule watches for a request for the path and for an action, which it joins by the fields that
they share, and responds when the answer has the outputs. -/
structure Rule.Relays (rule : Rule AdapterCode) (path : String) (names : List String)
    (concept action : String) (shared : List String) (outputs template : Fields) : Prop where
  patterns : rule.patterns = [request rule.name path (vars rule.name names),
    completed concept action (vars rule.name shared) outputs]
  stages : rule.stages = []
  actions : rule.actions = [respond rule.name template]

namespace Scene

variable {venue : Venue} {scene : Scene} {input args out : Fields}
  {rid path concept action : String} {more : List Event} {names shared : List String}
  {rule : Rule AdapterCode} {event : Event} {depth reentries : Nat}
  {handlers : Handlers World AdapterCode}

/-- Neither a request nor other actions are responses. -/
theorem Begun.isResponse_eq_false (hb : scene.Begun venue input rid more)
    (hmore : ∀ event ∈ more, event.isResponse = false) :
    ∀ event ∈ scene.log, event.isResponse = false := by
  rw [hb.log]
  exact List.forall_mem_cons.mpr ⟨by simp [Event.isResponse, Venue.request], hmore⟩

/-- The flow of the request has ended: it is concluded, with four actions at most. -/
structure Closes (scene : Scene) (venue : Venue) (input : Fields) (rid : String) : Prop where
  begun : ∃ more, scene.Begun venue input rid more ∧ more.length ≤ 3
  concludes : Concludes scene.log scene.faults rid

/-- A response to the request closes its flow. -/
theorem Begun.closes_reply (hb : scene.Begun venue input rid more)
    (hmore : ∀ event ∈ more, event.isResponse = false) (hsize : more.length ≤ 2) (body : Fields) :
    (scene.reply venue rid body).Closes venue input rid :=
  ⟨⟨_, hb.reply body, by simp only [List.length_append, List.length_singleton]; omega⟩,
    concludes_of_response ⟨rfl, rfl, rfl⟩
      (hb.isResponse_eq_false hmore)⟩

/-- A fault does too, when there is no response. -/
theorem Begun.closes_fault (hb : scene.Begun venue input rid more)
    (hmore : ∀ event ∈ more, event.isResponse = false) (hsize : more.length ≤ 3)
    (hfaults : scene.faults ≠ []) : scene.Closes venue input rid :=
  ⟨⟨_, hb, hsize⟩, concludes_of_fault rid (hb.isResponse_eq_false hmore) hfaults⟩

/-- The event of a response is one. -/
theorem isResponse_response (scene : Scene) (venue : Venue) (rid : String) (body : Fields) :
    (scene.response venue rid body).IsResponse rid body := ⟨rfl, rfl, rfl⟩

/-- A response closes a flow that has just begun, also after other actions. -/
theorem Opens.closes_response {after : Scene} {response : Event} {body : Fields}
    (ho : scene.Opens venue input rid path) (more : List Event) (hr : response.IsResponse rid body)
    (hmore : ∀ event ∈ more, event.concept ≠ requesting) (hsize : more.length ≤ 2)
    (hlog : after.log = scene.log ++ (more ++ [response])) : after.Closes venue input rid := by
  have hnone : ∀ event ∈ scene.log ++ more, event.isResponse = false := by
    rw [ho.begun.log]
    refine List.forall_mem_cons.mpr ⟨by simp [Event.isResponse, Venue.request], fun event he => ?_⟩
    simp [Event.isResponse, hmore event he]
  refine ⟨⟨more ++ [response], ⟨by rw [hlog, ho.begun.log]; rfl, fun event he => ?_⟩,
    by simp only [List.length_append, List.length_singleton]; omega⟩, ?_⟩
  · rcases List.mem_append.mp he with he | he
    · exact .inl (hmore event he)
    · rw [List.mem_singleton.mp he]
      exact .inr (by simp [hr.2.1])
  · rw [hlog, ← List.append_assoc]
    exact concludes_of_response hr hnone

/-- So does a fault. -/
theorem Opens.closes_fault {after : Scene} (ho : scene.Opens venue input rid path)
    (hlog : after.log = scene.log) (hfaults : after.faults ≠ []) :
    after.Closes venue input rid :=
  (ho.begun.of_log _ hlog).closes_fault (by simp) (by simp) hfaults

/-! ### What is found -/

/-- Before the action is recorded, a rule that watches for it finds nothing. -/
theorem Begun.found_pair_none (h : scene.Begun venue input rid more)
    (hp : Table.get? "path" input = some (.str path)) (hn : names.Nodup) (hr : "request" ∉ names)
    (haction : concept ≠ requesting ∨ action ≠ "request")
    (hmore : ∀ event ∈ more, event.IsOther concept action) (rule : String)
    (inputs outputs : Fields) :
    Pattern.combinations [request rule path (vars rule names),
      completed concept action inputs outputs] scene.log = .ok [] := by
  refine Pattern.combinations_two_of_nil (h.filter ..)
    (match?_request (isRequest_request ..) hn hr hp) ?_
  rw [h.log]
  exact filter_completed_eq_nil (List.forall_mem_cons.mpr
    ⟨haction.imp (fun h he => h he.symm) fun h he => h he.symm, hmore⟩)

/-- The log tells of one event of the action, after the request. -/
structure Tells (scene : Scene) (venue : Venue) (input : Fields) (rid concept action : String)
    (args out : Fields) (number : Nat) : Prop where
  begun : ∃ before event after, scene.Begun venue input rid (before ++ event :: after) ∧
    IsCompleted event concept action args out ∧ event.number = number ∧
    ∀ other ∈ before ++ after, other.IsOther concept action
  number : number ≠ 0

/-- An action that is recorded is told of. -/
theorem Begun.tells (h : scene.Begun venue input rid more) {mid : Scene}
    (hlog : mid.log = scene.log ++
      [⟨scene.log.length, concept, action, .object args, .object out, venue.id⟩])
    (hne : concept ≠ requesting) (hmore : ∀ event ∈ more, event.IsOther concept action) :
    mid.Tells venue input rid concept action args out scene.log.length := by
  refine ⟨⟨more, ⟨scene.log.length, concept, action, .object args, .object out, venue.id⟩, [],
    ⟨?_, ?_⟩, ⟨rfl, rfl, rfl, rfl⟩, rfl, by simpa using hmore⟩, ?_⟩
  · rw [hlog, h.log]
    rfl
  · intro event he
    rcases List.mem_append.mp he with he | he
    · exact h.only event he
    · exact .inl (List.mem_singleton.mp he ▸ hne)
  · rw [h.log]
    simp

/-- So the flow has begun with the request as before. -/
theorem Begun.append (h : scene.Begun venue input rid more) {mid : Scene} {event : Event}
    (hlog : mid.log = scene.log ++ [event]) (hne : event.concept ≠ requesting) :
    mid.Begun venue input rid (more ++ [event]) := by
  refine ⟨by rw [hlog, h.log]; rfl, fun other ho => ?_⟩
  rcases List.mem_append.mp ho with ho | ho
  · exact h.only other ho
  · exact .inl (List.mem_singleton.mp ho ▸ hne)

/-- What is known once the first action is recorded that a request leads to. -/
structure Recorded (scene : Scene) (venue : Venue) (input : Fields) (rid concept action : String)
    (args out : Fields) : Prop where
  begun : scene.Begun venue input rid
    [⟨1, concept, action, .object args, .object out, venue.id⟩]
  tells : scene.Tells venue input rid concept action args out 1
  room : (scene.log.length : Int) + 1 < venue.ceiling

/-- After the first action this is known. -/
theorem Opens.recorded (ho : scene.Opens venue input rid path) {mid : Scene}
    (hlog : mid.log = scene.log ++
      [⟨scene.log.length, concept, action, .object args, .object out, venue.id⟩])
    (hne : concept ≠ requesting) : mid.Recorded venue input rid concept action args out := by
  have hlength : scene.log.length = 1 := by rw [ho.begun.log]; rfl
  have htells := ho.begun.tells hlog hne (by simp)
  have hb := ho.begun.append hlog hne
  rw [hlength] at htells hb
  refine ⟨hb, htells, ?_⟩
  have := ho.room
  rw [hb.log]
  simp only [List.nil_append, List.length_cons, List.length_nil]
  omega

/-- Nothing that is done without recording it changes this. -/
theorem Recorded.of_log (h : scene.Recorded venue input rid concept action args out)
    (other : Scene) (hlog : other.log = scene.log) :
    other.Recorded venue input rid concept action args out :=
  ⟨h.begun.of_log _ hlog, ⟨by
    obtain ⟨before, event, after, hb, hrest⟩ := h.tells.begun
    exact ⟨before, event, after, hb.of_log _ hlog, hrest⟩, h.tells.number⟩, by rw [hlog]; exact
      h.room⟩

/-- A rule that fires does not. -/
theorem Recorded.fire (h : scene.Recorded venue input rid concept action args out) (name : String) :
    (scene.fire name).Recorded venue input rid concept action args out :=
  h.of_log _ rfl

/-- There is room for a response. -/
theorem Recorded.hasRoom (h : scene.Recorded venue input rid concept action args out) :
    (scene.log.length : Int) < venue.ceiling := by
  have := h.room
  omega

/-- A response closes the flow. -/
theorem Recorded.closes_reply (h : scene.Recorded venue input rid concept action args out)
    (hne : concept ≠ requesting) (body : Fields) :
    (scene.reply venue rid body).Closes venue input rid :=
  h.begun.closes_reply (by simp [Event.isResponse, hne]) (by simp) body

/-- Nothing that is done without recording it changes this. -/
theorem Tells.of_log {number : Nat} (h : scene.Tells venue input rid concept action args out number)
    (other : Scene) (hlog : other.log = scene.log) :
    other.Tells venue input rid concept action args out number := by
  obtain ⟨before, event, after, hb, hrest⟩ := h.begun
  exact ⟨⟨before, event, after, hb.of_log _ hlog, hrest⟩, h.number⟩

/-- Another action is told of besides. -/
theorem Tells.append {number : Nat}
    (h : scene.Tells venue input rid concept action args out number) {mid : Scene} {event : Event}
    (hlog : mid.log = scene.log ++ [event]) (hrequest : event.IsNoRequest)
    (hother : event.IsOther concept action) :
    mid.Tells venue input rid concept action args out number := by
  obtain ⟨before, told, after, hb, hc, hnumber, hothers⟩ := h.begun
  refine ⟨⟨before, told, after ++ [event], ⟨?_, fun other ho => ?_⟩, hc, hnumber,
    fun other ho => ?_⟩, h.number⟩
  · rw [hlog, hb.log]
    simp
  · rw [← List.cons_append, ← List.append_assoc] at ho
    rcases List.mem_append.mp ho with ho | ho
    · exact hb.only other ho
    · exact List.mem_singleton.mp ho ▸ hrequest
  · rw [← List.append_assoc] at ho
    rcases List.mem_append.mp ho with ho | ho
    · exact hothers other ho
    · exact List.mem_singleton.mp ho ▸ hother

/-- So is a response. -/
theorem Tells.reply {number : Nat} (h : scene.Tells venue input rid concept action args out number)
    (hne : concept ≠ requesting) (body : Fields) :
    (scene.reply venue rid body).Tells venue input rid concept action args out number :=
  h.append rfl (.inr (by simp))
    (.inl fun he => hne he.symm)

/-- The log tells of the action, and a rule that names these fields of a request for the path can
join the two: the fields that they share hold the same. -/
structure Joins (scene : Scene) (venue : Venue) (input : Fields) (rid path : String)
    (names shared : List String) (concept action : String) (args out : Fields) (number : Nat) :
    Prop where
  tells : scene.Tells venue input rid concept action args out number
  json : Value.FieldsAreJson input
  path : Table.get? "path" input = some (.str path)
  nodup : names.Nodup
  apart : "request" ∉ names
  shared : ∀ n ∈ shared, n ∈ names ∧ Table.get? n args = Table.get? n input

section Joining

variable {number : Nat}

/-- Nothing that is done without recording it changes this. -/
theorem Joins.of_log
    (h : scene.Joins venue input rid path names shared concept action args out number)
    (other : Scene) (hlog : other.log = scene.log) :
    other.Joins venue input rid path names shared concept action args out number :=
  { h with tells := h.tells.of_log other hlog }

/-- Nor does a response. -/
theorem Joins.reply
    (h : scene.Joins venue input rid path names shared concept action args out number)
    (hne : concept ≠ requesting) (body : Fields) :
    (scene.reply venue rid body).Joins venue input rid path names shared concept action args out
      number :=
  { h with tells := h.tells.reply hne body }

/-- What a rule finds that joins the request and the action by fields that they share. -/
theorem Joins.found_pair
    (h : scene.Joins venue input rid path names shared concept action args out number)
    (rule : String) (outputs : Fields) :
    Pattern.combinations [request rule path (vars rule names),
        completed concept action (vars rule shared) outputs] scene.log
      = .ok (((askedFrame rule names input (.str rid)).unify? .required outputs out).map
          fun frame => (frame, [0, number])).toList := by
  obtain ⟨before, event, after, hb, hc, rfl, hother⟩ := h.tells.begun
  have hfirst : (venue.request input rid).IsOther concept action :=
    (hb.only event (by simp)).imp (fun h he => h (hc.1.trans he.symm))
      fun h he => h (hc.2.1.trans he.symm)
  have hconcerns : (completed concept action (vars rule shared) outputs).concerns event = true := by
    simp [Pattern.concerns, completed, hc.1, hc.2.1, hc.2.2.2, Value.isNull]
  have hlog : scene.log.filter (completed concept action (vars rule shared) outputs).concerns
      = [event] := by
    rw [hb.log, ← List.cons_append, List.filter_append, filter_completed_eq_nil
      (List.forall_mem_cons.mpr ⟨hfirst, fun other ho => hother other (List.mem_append_left _ ho)⟩),
      List.filter_cons_of_pos hconcerns, filter_completed_eq_nil
        fun other ho => hother other (List.mem_append_right _ ho)]
    rfl
  refine Pattern.combinations_two (hb.filter ..)
    (match?_request (isRequest_request ..) h.nodup h.apart h.path) hlog h.tells.number
    (match?_completed hc (reads_askedFrame _ _ _ _ h.nodup) fun n hmem v hv => ?_)
  obtain ⟨hname, hget⟩ := h.shared n hmem
  have hinput : Table.get? n input = some v := hget.symm.trans hv
  have hne : n ≠ "request" := fun he => h.apart (he ▸ hname)
  exact ⟨v, by simp [asked, hne, hname, hinput], v.same_self (h.json.get? hinput)⟩

end Joining

/-! ### What is done -/

/-- Before the action is recorded, a rule that watches for it does nothing. -/
theorem plays_unled (hb : scene.Begun venue input rid more)
    (hp : Table.get? "path" input = some (.str path)) (hn : names.Nodup) (hr : "request" ∉ names)
    (haction : concept ≠ requesting ∨ action ≠ "request")
    (hmore : ∀ event ∈ more, event.IsOther concept action) {inputs outputs : Fields}
    (hpatterns : rule.patterns = [request rule.name path (vars rule.name names),
      completed concept action inputs outputs]) :
    PlaysRule venue handlers rule scene scene := by
  refine plays_evaluate_of_combinations_nil ?_
  rw [hpatterns]
  exact hb.found_pair_none hp hn hr haction hmore rule.name inputs outputs

/-- What is bound once the pattern has matched the answer. -/
def answered (names found : List String) (input out : Fields) (rid : String) (n : String) :
    Option Value :=
  if n ∈ found then (Table.get? n out).or (asked names input (.str rid) n)
  else asked names input (.str rid) n

section Joining

variable {number : Nat} {found : List String} {outputs template body : Fields} {field : String}
  {v : Value} {reason : String} {success refused : Rule AdapterCode}

/-- A rule whose pattern matches the answer goes on with what it binds. -/
theorem Joins.found_answer
    (h : scene.Joins venue input rid path names shared concept action args out number)
    (hpatterns : rule.patterns = [request rule.name path (vars rule.name names),
      completed concept action (vars rule.name shared) outputs])
    (hfound : found.Nodup)
    (hmatch : (askedFrame rule.name names input (.str rid)).unify? .required outputs out
      = some ((askedFrame rule.name names input (.str rid)).extend
        (Frame.found rule.name found out))) :
    ∃ frame : Frame, Pattern.combinations rule.patterns scene.log = .ok [(frame, [0, number])] ∧
      frame.Reads rule.name (answered names found input out rid) := by
  have hpair := h.found_pair rule.name outputs
  rw [hmatch, ← hpatterns] at hpair
  exact ⟨_, hpair, (reads_askedFrame _ _ _ _ h.nodup).extend hfound out⟩

variable (rule handlers) in
/-- A rule whose pattern does not match the answer does nothing. -/
theorem Joins.plays_none
    (h : scene.Joins venue input rid path names shared concept action args out number)
    (hpatterns : rule.patterns = [request rule.name path (vars rule.name names),
      completed concept action (vars rule.name shared) outputs])
    (hmatch : (askedFrame rule.name names input (.str rid)).unify? .required outputs out = none) :
    PlaysRule venue handlers rule scene scene := by
  have hpair := h.found_pair rule.name outputs
  rw [hmatch, ← hpatterns] at hpair
  exact plays_evaluate_of_combinations_nil hpair

/-- A rule without stages whose pattern matches the answer responds. -/
theorem Joins.plays_relay
    (h : scene.Joins venue input rid path names shared concept action args out number)
    (hrule : rule.Relays path names concept action shared outputs template)
    (hname : rule.name ∉ scene.done) (hgiven : scene.given = [])
    (hroom : (scene.log.length : Int) < venue.ceiling) (hfound : found.Nodup)
    (hrequest : "request" ∉ found)
    (hmatch : (askedFrame rule.name names input (.str rid)).unify? .required outputs out
      = some ((askedFrame rule.name names input (.str rid)).extend
        (Frame.found rule.name found out)))
    (hbody : ∀ next : Frame, next.Reads rule.name (answered names found input out rid) →
      Value.fillFields next template = .ok body) :
    PlaysRule venue (World.handlersAt depth reentries) rule scene
      ((scene.fire rule.name).reply venue rid body) := by
  obtain ⟨frame, hpair, hreads⟩ := h.found_answer hrule.patterns hfound hmatch
  refine plays_evaluate_respond hpair (by simp) hname hrule.actions ?_
    hreads (by simp [answered, asked, hrequest]) (hbody _ hreads) hgiven hroom
  rw [hrule.stages]
  exact plays_no_stages _ _

/-! ### The two rules of an answer -/

variable (rule depth reentries) in
/-- A rule that responds with a field of the answer. -/
theorem Joins.plays_field
    (h : scene.Joins venue input rid path names shared concept action args out number)
    (hrule : rule.Relays path names concept action shared [(field, var rule.name field)]
      [(field, var rule.name field)])
    (hname : rule.name ∉ scene.done) (hgiven : scene.given = [])
    (hroom : (scene.log.length : Int) < venue.ceiling) (hfield : field ∉ names)
    (hrequest : field ≠ "request") (hv : Table.get? field out = some v)
    (ha : v.isNotApplicable = false) :
    PlaysRule venue (World.handlersAt depth reentries) rule scene
      ((scene.fire rule.name).reply venue rid [(field, v)]) := by
  have hmatch := Frame.unify?_vars _ (askedFrame rule.name names input (.str rid)) [field] _
    .required (by simp)
    (fun n hmem => by
      rw [reads_askedFrame _ _ _ _ h.nodup n, List.mem_singleton.mp hmem]
      simp [asked, hfield, hrequest])
    (.inr fun n hmem => by
      rw [List.mem_singleton.mp hmem, hv]
      rfl)
  exact h.plays_relay hrule hname hgiven hroom (by simp) (by simpa using hrequest.symm) hmatch
    fun next hnext => hnext.fillFields_var (by simp [answered, hv]) ha field

variable (rule depth reentries body) in
/-- A rule that responds to a success. -/
theorem Joins.plays_success
    (h : scene.Joins venue input rid path names shared concept action args out number)
    (hrule : rule.Relays path names concept action shared
      (vars rule.name found ++ [("error", .notApplicable)]) template)
    (hname : rule.name ∉ scene.done) (hgiven : scene.given = [])
    (hroom : (scene.log.length : Int) < venue.ceiling) (hfound : found.Nodup)
    (hrequest : "request" ∉ found) (hapart : ∀ n ∈ found, n ∉ names)
    (herror : Table.get? "error" out = none)
    (hout : ∀ n ∈ found, ∃ v, Table.get? n out = some v ∧ v.isNotApplicable = false)
    (hbody : ∀ next : Frame, (∀ n ∈ found, next.get? (symbol rule.name n) = Table.get? n out) →
      Value.fillFields next template = .ok body) :
    PlaysRule venue (World.handlersAt depth reentries) rule scene
      ((scene.fire rule.name).reply venue rid body) := by
  have hmatch := unify?_success (askedFrame rule.name names input (.str rid)) hfound
    (fun n hmem => by
      have hne : n ≠ "request" := fun he => hrequest (he ▸ hmem)
      rw [reads_askedFrame _ _ _ _ h.nodup n]
      simp [asked, hne, hapart n hmem])
    (fun n hmem => by
      obtain ⟨v, hv, -⟩ := hout n hmem
      rw [hv]
      rfl) herror
  refine h.plays_relay hrule hname hgiven hroom hfound hrequest hmatch
    fun next hnext => hbody next fun n hmem => ?_
  obtain ⟨v, hv, -⟩ := hout n hmem
  rw [hnext n, answered, if_pos hmem, hv]
  rfl

variable (depth reentries success refused) in
/-- When the action refuses, the first rule does nothing, and the second one responds with the
reason. -/
theorem Joins.plays_refused
    (h : scene.Joins venue input rid path names shared concept action args out number)
    (hsuccess : success.patterns = [request success.name path (vars success.name names),
      completed concept action (vars success.name shared) outputs])
    (hnone : (askedFrame success.name names input (.str rid)).unify? .required outputs out = none)
    (hrefused : refused.Relays path names concept action shared
      [("error", var refused.name "error")] [("error", var refused.name "error")])
    (hname : refused.name ∉ scene.done) (hgiven : scene.given = [])
    (hroom : (scene.log.length : Int) < venue.ceiling) (hfree : "error" ∉ names)
    (herror : Table.get? "error" out = some (.str reason)) :
    PlaysRules venue (World.handlersAt depth reentries) [success, refused] scene
      ((scene.fire refused.name).reply venue rid [("error", .str reason)]) :=
  plays_rules_cons (h.plays_none success _ hsuccess hnone)
    (plays_rules_cons (h.plays_field refused depth reentries hrefused hname hgiven hroom hfree
      (by decide) herror rfl) (plays_rules_nil _))

variable (refused) in
/-- When the action succeeds and the first rule responds, the second one does nothing. -/
theorem Joins.plays_succeeded
    (h : scene.Joins venue input rid path names shared concept action args out number)
    (hne : concept ≠ requesting)
    (hsuccess : PlaysRule venue handlers success scene
      ((scene.fire success.name).reply venue rid body))
    (hrefused : refused.patterns = [request refused.name path (vars refused.name names),
      completed concept action (vars refused.name shared) [("error", var refused.name "error")]])
    (herror : Table.get? "error" out = none) :
    PlaysRules venue handlers [success, refused] scene
      ((scene.fire success.name).reply venue rid body) :=
  plays_rules_cons hsuccess (plays_rules_cons
    (((h.of_log (scene.fire success.name) rfl).reply hne body).plays_none refused handlers hrefused
      (unify?_eq_none herror)) (plays_rules_nil _))

end Joining

/-! ### Actions whose answers are relayed -/

/-- The scene in which a rule has fired that performs an action: what it has answered is recorded,
or a fault is. -/
structure Performed (scene mid : Scene) (venue : Venue) (name concept action : String)
    (args : Fields) (names : List String) (ledger : Ledger) : Prop where
  given : mid.given = scene.given
  done : mid.done = scene.done ++ [name]
  ledger : mid.ledger = ledger
  ends : (mid.log = scene.log ∧ mid.faults ≠ []) ∨
    ∃ out, mid.log = scene.log ++
        [⟨scene.log.length, concept, action, .object args, .object out, venue.id⟩] ∧
      ((∃ reason, out = [("error", .str reason)]) ∨ (Table.get? "error" out = none ∧
        ∀ n ∈ names, ∃ v, Table.get? n out = some v ∧ v.isNotApplicable = false))

/-- A rule that performs an action leads to such a scene. -/
theorem exists_plays_performed (kind : Concept.Kind) {concept : Concept} {turn : Concept.Turn}
    {template : Fields} {frame next : Frame} {numbers : List Nat}
    (hfound : Pattern.combinations rule.patterns scene.log = .ok [(frame, numbers)])
    (ht : 0 ∈ numbers) (hname : rule.name ∉ scene.done)
    (hactions : rule.actions = [perform kind.name action template])
    (h : PlaysStages venue (World.handlersAt depth reentries) rule.stages frame
      (scene.fire rule.name) (.ok [next]) (scene.fire rule.name))
    (hargs : Value.fillFields next template = .ok args)
    (hroom : (scene.log.length : Int) < venue.ceiling)
    (hc : scene.ledger.concept? kind = some concept)
    (hturn : concept.answer? action args scene.ledger.issued = some turn)
    (hown : Target.IsOwn action) (hproper : turn.IsProper names) :
    ∃ mid, PlaysRule venue (World.handlersAt depth reentries) rule scene mid ∧
      scene.Performed mid venue rule.name kind.name action args names
        (scene.ledger.afterTurn turn) := by
  cases hproper with
  | failed hfault hord =>
    exact ⟨_, plays_evaluate_perform_fault hfound ht hname hactions h hargs hroom hc hturn hown
      hfault hord, rfl, rfl, rfl, .inl ⟨rfl, by simp [fail]⟩⟩
  | refused hout =>
    exact ⟨_, plays_evaluate_perform hfound ht hname hactions h hargs hroom hc hturn hown hout,
      rfl, rfl, rfl, .inr ⟨_, rfl, .inl ⟨_, rfl⟩⟩⟩
  | succeeded hout herror hshown =>
    exact ⟨_, plays_evaluate_perform hfound ht hname hactions h hargs hroom hc hturn hown hout,
      rfl, rfl, rfl, .inr ⟨_, rfl, .inr ⟨herror, hshown⟩⟩⟩

end Scene

end HerdBook
