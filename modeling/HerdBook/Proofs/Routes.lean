import HerdBook.Proofs.Evaluations
import HerdBook.Proofs.Json
import HerdBook.Proofs.Matches

/-!
# The rules of a route on a request

What the parts that the rules of all routes are made of do in the flow of one request: its pattern,
the stages that find out who is logged in, those that check and complete its fields, and the
response.

## Main results

* `Scene.Begun.found`, `Scene.Begun.found_other`: what the rules find that begin with a request.
* `Scene.exists_plays_authenticate`: who is logged in with the token.
* `Scene.plays_evaluate_respond`: a rule that responds.
* `Scene.plays_turnedDown_denied`, `Scene.plays_turnedDown_incomplete`: a request that is turned down.
* `Scene.plays_rules_other`: the rules of other routes do nothing.
-/

namespace HerdBook

open Effect Rules

/-- The event of the request that a flow begins with. -/
def Venue.request (venue : Venue) (input : Fields) (rid : String) : Event :=
  ⟨0, requesting, "request", .object input, .object [("request", .str rid)], venue.id⟩

/-- The event is no request. -/
def Event.IsNoRequest (event : Event) : Prop :=
  event.concept ≠ requesting ∨ event.action ≠ "request"

/-- The rule begins with a request for the path. -/
def Rule.IsFor (rule : Rule AdapterCode) (path : String) : Prop :=
  ∃ inputs rest, rule.patterns = request rule.name path inputs :: rest

/-- The token of a request; without one it is the empty text. -/
def Rules.tokenOf (input : Fields) : Value := (Table.get? "token" input).getD (.str "")

/-- What a request holds is not the placeholder, nor is what stands for what it lacks. -/
theorem Rules.getD_isNotApplicable {input : Fields} (h : Value.FieldsAreJson input)
    {default : Value}
    (hd : default.isNotApplicable = false) (n : String) :
    ((Table.get? n input).getD default).isNotApplicable = false := by
  cases hn : Table.get? n input with
  | none => exact hd
  | some v => exact (h.get? hn).isNotApplicable_eq_false

/-- The token is not the placeholder. -/
theorem Rules.tokenOf_isNotApplicable {input : Fields} (h : Value.FieldsAreJson input) :
    (tokenOf input).isNotApplicable = false :=
  getD_isNotApplicable h rfl "token"

/-- The names that rules use for symbols of their own. -/
def Rules.reserved : List String := ["token", "request", "user", "auth_error", "message", "error"]

/-- The names are different and none is used otherwise. -/
def Rules.AreFields (names : List String) : Prop := names.Nodup ∧ ∀ n ∈ names, n ∉ reserved

instance (names : List String) : Decidable (Rules.AreFields names) :=
  inferInstanceAs (Decidable (_ ∧ _))

/-- The rule watches for a request and begins with finding out who is logged in with its token. -/
structure Rule.IsGuarded (rule : Rule AdapterCode) (path : String) (names : List String)
    (rest : List (Stage AdapterCode)) : Prop where
  patterns : rule.patterns = [request rule.name path (vars rule.name ("token" :: names))]
  stages : rule.stages = authenticate AdapterCode.lookup rule.name ++ rest

/-- The handlers of an engine of the herd book, at a depth from which calls may nest further. -/
abbrev World.handlersAt (depth reentries : Nat) : Handlers World AdapterCode :=
  World.host.handlers (Engine.answer World.host (depth + 1)) reentries

namespace Scene

/-- From the first scene the rule, evaluated for the request, leads to the second one. -/
abbrev PlaysRule (venue : Venue) (handlers : Handlers World AdapterCode) (rule : Rule AdapterCode)
    (scene after : Scene) : Prop :=
  Plays venue (Engine.evaluate handlers venue.serial (some 0) rule) scene (.ok ()) after

/-- So do the rules, in order. -/
abbrev PlaysRules (venue : Venue) (handlers : Handlers World AdapterCode)
    (rules : List (Rule AdapterCode)) (scene after : Scene) : Prop :=
  Plays venue (Engine.evaluateEach handlers venue.serial (some 0) rules) scene (.ok ()) after

variable {venue : Venue} {scene after : Scene} {input : Fields} {rid path : String}
  {more : List Event} {names : List String} {rule : Rule AdapterCode}
  {answer : (call : EngineCall AdapterCode) → Effect Rehearsal call.Answer} {depth reentries : Nat}
  {handlers : Handlers World AdapterCode}

/-- The flow has begun with the request, and it is the only one. -/
structure Begun (scene : Scene) (venue : Venue) (input : Fields) (rid : String)
    (more : List Event) : Prop where
  log : scene.log = venue.request input rid :: more
  only : ∀ event ∈ more, event.IsNoRequest

/-- The request is what patterns of a request take it for. -/
theorem isRequest_request (venue : Venue) (input : Fields) (rid : String) :
    IsRequest (venue.request input rid) input (.str rid) := ⟨rfl, rfl, rfl, rfl⟩

/-- The request is the only event that a pattern of a request concerns. -/
theorem Begun.filter (h : scene.Begun venue input rid more) (rule path : String) (inputs : Fields) :
    scene.log.filter (request rule path inputs).concerns = [venue.request input rid] := by
  have hnone : more.filter (request rule path inputs).concerns = [] := by
    rw [List.filter_eq_nil_iff]
    intro event he hc
    obtain ⟨hconcept, haction⟩ := Pattern.kind_eq_of_concerns hc
    rcases h.only event he with hn | hn
    · exact hn hconcept
    · exact hn haction
  rw [h.log, List.filter_cons_of_pos (by rfl), hnone]

/-- An action that is recorded and is no request leaves it so. -/
theorem Begun.record (h : scene.Begun venue input rid more) {concept : String}
    (action : String) (hne : concept ≠ requesting ∨ action ≠ "request") (args : Fields)
      (output : Value) :
    (scene.record venue concept action args output).Begun venue input rid
      (more ++ [⟨scene.log.length, concept, action, .object args, output, venue.id⟩]) := by
  refine ⟨by rw [Scene.record, h.log]; rfl, fun event he => ?_⟩
  rcases List.mem_append.mp he with he | he
  · exact h.only event he
  · rw [List.mem_singleton.mp he]
    exact hne

/-- So does a response. -/
theorem Begun.reply (h : scene.Begun venue input rid more) (body : Fields) :
    (scene.reply venue rid body).Begun venue input rid
      (more ++ [scene.response venue rid body]) :=
  ⟨by rw [Scene.reply, Scene.record]; exact (h.record _ (.inr (by simp)) _ _).log,
    (h.record _ (.inr (by simp)) _ _).only⟩

/-- What has begun is told by the log. -/
theorem Begun.of_log (h : scene.Begun venue input rid more) (other : Scene)
    (hlog : other.log = scene.log) : other.Begun venue input rid more :=
  ⟨hlog.trans h.log, h.only⟩

/-- So it has when a rule fires. -/
theorem Begun.fire (h : scene.Begun venue input rid more) (name : String) :
    (scene.fire name).Begun venue input rid more :=
  h.of_log _ rfl

/-- A rule that watches for the request alone finds it. -/
theorem Begun.found (h : scene.Begun venue input rid more)
    (hp : Table.get? "path" input = some (.str path)) (hn : names.Nodup) (hr : "request" ∉ names)
    (rule : String) :
    Pattern.combinations [request rule path (vars rule names)] scene.log
      = .ok [(askedFrame rule names input (.str rid), [0])] :=
  Pattern.combinations_one (h.filter ..) (match?_request (isRequest_request ..) hn hr hp)

/-- A rule that begins with a request for another path finds nothing. -/
theorem Begun.found_other (h : scene.Begun venue input rid more) {p : String}
    (hp : Table.get? "path" input = some (.str p)) (hne : p ≠ path) (rule : String)
    (inputs : Fields) (rest : List Pattern) :
    Pattern.combinations (request rule path inputs :: rest) scene.log = .ok [] :=
  Pattern.combinations_of_match?_none (h.filter ..)
    (match?_request_of_ne (isRequest_request ..) hp hne)

/-- The flow has just begun with a request for the path, and has room for what comes of it. -/
structure Opens (scene : Scene) (venue : Venue) (input : Fields) (rid path : String) : Prop where
  begun : scene.Begun venue input rid []
  given : scene.given = []
  done : scene.done = []
  faults : scene.faults = []
  json : Value.FieldsAreJson input
  path : Table.get? "path" input = some (.str path)
  room : 4 ≤ venue.ceiling

/-- There is room for the first action that comes of it. -/
theorem Opens.hasRoom (h : scene.Opens venue input rid path) :
    (scene.log.length : Int) < venue.ceiling := by
  have := h.room
  rw [h.begun.log, List.length_singleton]
  omega

/-- The scene has ended with the log, the faults and the ledger. -/
structure Ends (scene : Scene) (log : List Event) (faults : List FlowFault) (ledger : Ledger) :
    Prop where
  log : scene.log = log
  faults : scene.faults = faults
  ledger : scene.ledger = ledger

/-! ### Several rules -/

/-- Without rules nothing is done. -/
theorem plays_rules_nil (scene : Scene) : PlaysRules venue handlers [] scene scene :=
  Yields.ofExcept (.ok ()) scene

/-- The first rule is evaluated, then the others. -/
theorem plays_rules_cons {mid : Scene} {rest : List (Rule AdapterCode)}
    (h : PlaysRule venue handlers rule scene mid) (hrest : PlaysRules venue handlers rest mid after)
      :
    PlaysRules venue handlers (rule :: rest) scene after :=
  Yields.bind h hrest

/-- Some rules are evaluated, then others. -/
theorem plays_rules_append {mid : Scene} {first rest : List (Rule AdapterCode)}
    (h : PlaysRules venue handlers first scene mid)
    (hrest : PlaysRules venue handlers rest mid after) :
    PlaysRules venue handlers (first ++ rest) scene after := by
  intro engine hs
  obtain ⟨engine₁, h₁, hs₁⟩ := h engine hs
  obtain ⟨engine₂, h₂, hs₂⟩ := hrest engine₁ hs₁
  refine ⟨engine₂, ?_, hs₂⟩
  clear h hrest hs hs₁ hs₂
  induction first generalizing engine with
  | nil =>
    obtain rfl : engine = engine₁ := congrArg Prod.snd h₁
    exact h₂
  | cons rule first ih =>
    obtain ⟨_, mid, hm, h₁⟩ := exists_of_run_bind h₁
    exact (run_bind_ok hm).trans (ih mid h₁)

/-- Rules for other paths do nothing. -/
theorem plays_rules_other {rules : List (Rule AdapterCode)} {p : String}
    (hb : scene.Begun venue input rid more) (hp : Table.get? "path" input = some (.str p))
    (h : ∀ rule ∈ rules, ∃ path, rule.IsFor path ∧ p ≠ path) :
    PlaysRules venue handlers rules scene scene := by
  induction rules with
  | nil => exact plays_rules_nil scene
  | cons rule rest ih =>
    rw [List.forall_mem_cons] at h
    obtain ⟨⟨path, ⟨inputs, others, hpatterns⟩, hne⟩, hrest⟩ := h
    refine plays_rules_cons (plays_evaluate_of_combinations_nil ?_) (ih hrest)
    rw [hpatterns]
    exact hb.found_other hp hne rule.name inputs others

/-! ### Stages -/

variable {g : String → Option Value} {frame : Frame} {name : String} {token : Value}

/-- What a frame binds once it is known who is logged in. -/
def badged (g : String → Option Value) (token : Value) (who : Except String Value) (n : String) :
    Option Value :=
  if n = "user" then Table.get? "user" (Accounts.badge who)
  else if n = "auth_error" then Table.get? "error" (Accounts.badge who)
  else if n = "token" then some token
  else g n

/-- The frame goes on with who is logged in with the token of the request. -/
theorem exists_plays_authenticate {who : Except String Value} (hf : frame.Reads name g)
    (htoken : (g "token").getD (.str "") = token) (ha : token.isNotApplicable = false)
    (huser : g "user" = none) (herror : g "auth_error" = none)
    (hwho : Identifies venue answer scene.ledger.accounts token who) :
    ∃ next, next.Reads name (badged g token who) ∧
      ∀ {stages : List (Stage AdapterCode)} {outcome : Except Fault (List Frame)} {after : Scene},
        PlaysStages venue (World.host.handlers answer reentries)
          stages next scene outcome after →
        PlaysStages venue (World.host.handlers answer reentries)
          (authenticate AdapterCode.lookup name ++ stages) frame scene outcome after := by
  have hbound := hf.bindOrEmpty "token"
  rw [htoken] at hbound
  have huser' : (bindOrEmpty (symbol name "token") frame).get? (symbol name "user") = none := by
    rw [hbound "user"]
    simp [huser]
  have herror' : (bindOrEmpty (symbol name "token") frame).get? (symbol name "auth_error") = none :=
    by
    rw [hbound "auth_error"]
    simp [herror]
  have hbadge : ∃ user error, Accounts.badge who = [("user", user), ("error", error)] := by
    cases who <;> exact ⟨_, _, rfl⟩
  obtain ⟨user, error, hbadge⟩ := hbadge
  refine ⟨(bindOrEmpty (symbol name "token") frame).extend
    (Frame.found name ["user", "auth_error"] [("user", user), ("auth_error", error)]), ?_, ?_⟩
  · intro n
    rw [hbound.extend (by simp) _ n, badged, hbadge]
    by_cases hn : n = "user"
    · simp [hn, Table.get?]
    · by_cases hn' : n = "auth_error"
      · simp [hn', Table.get?]
      · simp [hn, hn', Function.update_apply]
  · intro stages outcome after hstages
    refine plays_map (plays_lookup ?_ (hwho scene rfl) ?_ hstages)
    · have hfill := Frame.Reads.fillFields_vars ["token"] hbound fun n hn => by
        obtain rfl := List.mem_singleton.mp hn
        exact ⟨token, by simp, ha⟩
      rw [List.map_singleton, Function.update_self] at hfill
      exact hfill
    · change (bindOrEmpty (symbol name "token") frame).unify? _ _ _ = _
      rw [hbadge, Frame.unify?]
      simp [Frame.unifyFields, Frame.unifyDatum, var, Table.get?, huser', herror', Frame.found]

/-- The fault of a rule that cannot look the token up. -/
def unverifiable : Fault := .wrapped .adapter Lookup.token.name (.misuse .type) none

variable (scene) in
/-- A token that cannot be looked up ends the stages. -/
theorem plays_authenticate_error {fault : Fault} (hf : frame.Reads name g)
    (htoken : (g "token").getD (.str "") = token) (ha : token.isNotApplicable = false)
    (hwho : scene.ledger.accounts.standing token = .error fault)
    (stages : List (Stage AdapterCode)) :
    PlaysStages venue (World.handlersAt depth reentries)
      (authenticate AdapterCode.lookup name ++ stages) frame scene (.error unverifiable) scene := by
  have hbound := hf.bindOrEmpty "token"
  rw [htoken] at hbound
  have hrow := plays_token venue token scene depth
  rw [hwho] at hrow
  obtain rfl := Accounts.standing_error hwho
  refine plays_map (plays_lookup_error _ _ _ ?_ hrow)
  have hfill := Frame.Reads.fillFields_vars ["token"] hbound fun n hn => by
    obtain rfl := List.mem_singleton.mp hn
    exact ⟨token, by simp, ha⟩
  rw [List.map_singleton, Function.update_self] at hfill
  exact hfill

/-- What a frame binds once the fields that were left out are empty texts. -/
def filledIn (g : String → Option Value) (names : List String) (n : String) : Option Value :=
  if n ∈ names then some ((g n).getD (.str "")) else g n

variable (venue handlers) in
/-- The frame goes on with empty texts for fields that the request left out. -/
theorem exists_plays_orEmpty (hf : frame.Reads name g) (names : List String) :
    ∃ next, next.Reads name (filledIn g names) ∧
      ∀ {stages : List (Stage AdapterCode)} {outcome : Except Fault (List Frame)}
        {scene after : Scene}, PlaysStages venue handlers stages next scene outcome after →
        PlaysStages venue handlers ((names.map fun n => orEmpty (symbol name n)) ++ stages) frame
          scene outcome after := by
  induction names generalizing frame g with
  | nil => exact ⟨frame, fun n => by simp [filledIn, hf n], fun h => h⟩
  | cons n names ih =>
    obtain ⟨next, hnext, hplays⟩ := ih (hf.bindOrEmpty n)
    refine ⟨next, fun m => ?_, fun h => plays_map (hplays h)⟩
    rw [hnext m, filledIn, filledIn]
    by_cases hnm : m = n
    · subst hnm
      by_cases hm : m ∈ names <;> simp [hm]
    · by_cases hm : m ∈ names <;> simp [hm, hnm]

/-- What a request does not lack it has, and what it has is no placeholder. -/
theorem exists_of_missing (hj : Value.FieldsAreJson input) {names : List String}
    (hl : (names.filter fun n => (Table.get? n input).isNone) = []) :
    ∀ n ∈ names, ∃ v, Table.get? n input = some v ∧ v.isNotApplicable = false := by
  intro n hn
  have hsome : ¬ (Table.get? n input).isNone = true := List.filter_eq_nil_iff.mp hl n hn
  obtain ⟨v, hv⟩ := Option.ne_none_iff_exists'.mp fun h => hsome (Option.isNone_iff_eq_none.mpr h)
  exact ⟨v, hv, (hj.get? hv).isNotApplicable_eq_false⟩

/-- All fields are there when none is missing. -/
theorem holds_bound_of_missing (hf : frame.Reads name g) (names : List String) :
    (Check.bound (symbols name names)).holds frame
      = .ok (names.filter fun n => (g n).isNone).isEmpty := by
  rw [hf.holds_bound]
  refine congrArg Except.ok ?_
  induction names with
  | nil => rfl
  | cons n names ih => cases hn : g n <;> simp [hn, ih]

/-- A frame that lacks fields goes on with the words that name them. -/
theorem exists_plays_missing (hf : frame.Reads name g) {names lacking : List String}
    (hl : (names.filter fun n => (g n).isNone) = lacking) (hne : lacking ≠ []) :
    ∃ next, next.Reads name (Function.update g "message" (some (.str (missingMessage lacking)))) ∧
      ∀ scene : Scene, PlaysStages venue handlers (missing name names) frame scene (.ok [next])
        scene := by
  have hmissing : missingFields name names frame = lacking := by rw [hf.missingFields, hl]
  have htest : (do return !(← (Check.bound (symbols name names)).holds frame) :
      Except Fault Bool) = .ok true := by
    rw [holds_bound_of_missing hf, hl, List.isEmpty_eq_false_iff.mpr hne]
    rfl
  refine ⟨_, hf.bind "message" _, fun scene => plays_keep htest (plays_map ?_)⟩
  rw [hmissing]
  exact plays_no_stages _ scene

/-- A frame that lacks no field is dropped there. -/
theorem plays_missing_drop (hf : frame.Reads name g) {names : List String}
    (hl : (names.filter fun n => (g n).isNone) = []) (scene : Scene) :
    PlaysStages venue handlers (missing name names) frame scene (.ok []) scene := by
  refine plays_drop ?_ scene
  rw [holds_bound_of_missing hf, hl]
  rfl

/-! ### Responses -/

/-- A rule that watches for the request alone and leaves no frame fires in vain. -/
theorem plays_evaluate_drop {frame : Frame} {numbers : List Nat}
    (hfound : Pattern.combinations rule.patterns scene.log = .ok [(frame, numbers)])
    (ht : 0 ∈ numbers) (hname : rule.name ∉ scene.done)
    (h : PlaysStages venue handlers rule.stages frame (scene.fire rule.name) (.ok []) after) :
    PlaysRule venue handlers rule scene after :=
  plays_evaluate hfound ht hname (plays_carryOut_none h)

/-- A rule that leaves a frame responds with what its template makes of the frame. -/
theorem plays_evaluate_respond {frame next : Frame} {numbers : List Nat} {mid : Scene}
    {template body : Fields}
    (hfound : Pattern.combinations rule.patterns scene.log = .ok [(frame, numbers)])
    (ht : 0 ∈ numbers) (hname : rule.name ∉ scene.done)
    (hactions : rule.actions = [respond rule.name template])
    (h : PlaysStages venue (World.host.handlers answer reentries) rule.stages frame
      (scene.fire rule.name) (.ok [next]) mid)
    (hnext : next.Reads rule.name g) (hrid : g "request" = some (.str rid))
    (hbody : Value.fillFields next template = .ok body)
    (hgiven : mid.given = []) (hroom : (mid.log.length : Int) < venue.ceiling) :
    PlaysRule venue (World.host.handlers answer reentries) rule scene (mid.reply venue rid body) :=
      by
  refine plays_evaluate hfound ht hname (plays_carryOut hactions h ?_
    (plays_dispatch_respond hgiven hroom))
  change (Value.object (("request", var rule.name "request") :: template)).fill next = _
  rw [Value.fill, Value.fillFields, hnext.fill_var hrid rfl, hbody]
  rfl

/-! ### Actions that are carried out -/

section Performing

variable {kind : Concept.Kind} {concept : Concept} {turn : Concept.Turn} {action : String}
  {template args out : Fields} {notes : List Note} {frame next : Frame} {numbers : List Nat}

/-- A rule that leaves a frame has the action performed, which is recorded when it is answered. -/
theorem plays_evaluate_perform
    (hfound : Pattern.combinations rule.patterns scene.log = .ok [(frame, numbers)])
    (ht : 0 ∈ numbers) (hname : rule.name ∉ scene.done)
    (hactions : rule.actions = [perform kind.name action template])
    (h : PlaysStages venue (World.handlersAt depth reentries) rule.stages frame
      (scene.fire rule.name) (.ok [next]) (scene.fire rule.name))
    (hargs : Value.fillFields next template = .ok args)
    (hroom : (scene.log.length : Int) < venue.ceiling)
    (hc : scene.ledger.concept? kind = some concept)
    (hturn : concept.answer? action args scene.ledger.issued = some turn)
    (hown : Target.IsOwn action) (hout : turn.outcome = .ok ⟨.object out, notes⟩) :
    PlaysRule venue (World.handlersAt depth reentries) rule scene
      (((scene.fire rule.name).afterTurn turn).record venue kind.name action args
        (.object out)) := by
  have hne : kind.name ≠ requesting := fun he =>
    (Ledger.kind_of_concept? hc).2 (Concept.Kind.name_inj.mp he)
  have hperform := (plays_perform_of_performOf (scene.fire rule.name) _
    (Engine.answer World.host (depth + 1)) reentries hroom
    (plays_performOf hc hturn hown (Concept.Turn.answersFields_of_ok hout)) rfl).1 _
      (Concept.Turn.reply_of_ok hout)
  refine plays_evaluate hfound ht hname (plays_carryOut hactions h ?_
    (plays_dispatch (plays_permits (fun he => hne (congrArg Prod.fst he)) _) hperform))
  rw [perform, Value.fill, hargs]
  rfl

/-- When the action fails, the rule is aborted. -/
theorem plays_evaluate_perform_fault {fault : Fault}
    (hfound : Pattern.combinations rule.patterns scene.log = .ok [(frame, numbers)])
    (ht : 0 ∈ numbers) (hname : rule.name ∉ scene.done)
    (hactions : rule.actions = [perform kind.name action template])
    (h : PlaysStages venue (World.handlersAt depth reentries) rule.stages frame
      (scene.fire rule.name) (.ok [next]) (scene.fire rule.name))
    (hargs : Value.fillFields next template = .ok args)
    (hroom : (scene.log.length : Int) < venue.ceiling)
    (hc : scene.ledger.concept? kind = some concept)
    (hturn : concept.answer? action args scene.ledger.issued = some turn)
    (hown : Target.IsOwn action) (hfault : turn.outcome = .error fault)
    (hord : fault.IsOrdinary) :
    PlaysRule venue (World.handlersAt depth reentries) rule scene
      (((scene.fire rule.name).afterTurn turn).fail venue rule.name
        (.wrapped .action (kind.name ++ "." ++ action) fault none)) := by
  have hne : kind.name ≠ requesting := fun he =>
    (Ledger.kind_of_concept? hc).2 (Concept.Kind.name_inj.mp he)
  have hperform := (plays_perform_of_performOf (scene.fire rule.name) _
    (Engine.answer World.host (depth + 1)) reentries hroom
    (plays_performOf hc hturn hown (Concept.Turn.answersFields_of_error hfault)) rfl).2 _
      (Concept.Turn.reply_of_error hfault hord)
  have hdispatch := plays_dispatch_error (perform kind.name action template)
    (plays_permits (fun he => hne (congrArg Prod.fst he)) _) hperform
  rw [hord.wrappedBy] at hdispatch
  refine plays_evaluate_error hfound ht hname rfl (plays_carryOut hactions h
    ?_ hdispatch)
  rw [perform, Value.fill, hargs]
  rfl

end Performing

/-! ### Rules that ask for fields only -/

/-- Of the fields it names, the pattern of a request binds what the request holds. -/
theorem asked_of_mem {n : String} (hr : "request" ∉ names) (hn : n ∈ names) :
    asked names input (.str rid) n = Table.get? n input := by
  have hne : n ≠ "request" := fun he => hr (he ▸ hn)
  simp [asked, hne, hn]

/-- The fields that a request lacks are those which its pattern does not bind. -/
theorem filter_asked (hr : "request" ∉ names) :
    (names.filter fun n => (asked names input (.str rid) n).isNone)
      = names.filter fun n => (Table.get? n input).isNone :=
  List.filter_congr fun n hn => by rw [asked_of_mem hr hn]

variable (rule handlers) in
/-- A rule that asks for fields leaves a request alone that lacks one. -/
theorem plays_open_drop {rest : List (Stage AdapterCode)} (hb : scene.Begun venue input rid more)
    (hp : Table.get? "path" input = some (.str path)) (hn : names.Nodup) (hr : "request" ∉ names)
    (hpatterns : rule.patterns = [request rule.name path (vars rule.name names)])
    (hstages : rule.stages = keep (.bound (symbols rule.name names)) :: rest)
    (hname : rule.name ∉ scene.done)
    (hl : (names.filter fun n => (Table.get? n input).isNone) ≠ []) :
    PlaysRule venue handlers rule scene (scene.fire rule.name) := by
  have hbound := holds_bound_of_missing (reads_askedFrame rule.name _ input (.str rid) hn) names
  rw [filter_asked hr, List.isEmpty_eq_false_iff.mpr hl] at hbound
  refine plays_evaluate_drop (by rw [hpatterns]; exact hb.found hp hn hr rule.name) (by simp) hname
    ?_
  rw [hstages]
  exact plays_drop hbound _

variable (rule) in
/-- It goes on with a request that lacks none. -/
theorem plays_open_keep {rest : List (Stage AdapterCode)} (hn : names.Nodup)
    (hr : "request" ∉ names)
    (hstages : rule.stages = keep (.bound (symbols rule.name names)) :: rest)
    (hl : (names.filter fun n => (Table.get? n input).isNone) = [])
    {outcome : Except Fault (List Frame)}
    (h : PlaysStages venue handlers rest (askedFrame rule.name names input (.str rid)) scene outcome
      after) :
    PlaysStages venue handlers rule.stages (askedFrame rule.name names input (.str rid)) scene
      outcome after := by
  have hbound := holds_bound_of_missing (reads_askedFrame rule.name _ input (.str rid) hn) names
  rw [filter_asked hr, hl] at hbound
  rw [hstages]
  exact plays_keep hbound h

variable (rule answer reentries) in
/-- A request that lacks fields is answered with their names. -/
theorem plays_open_incomplete (hb : scene.Begun venue input rid more)
    (hp : Table.get? "path" input = some (.str path)) (hn : names.Nodup) (hr : "request" ∉ names)
    (hpatterns : rule.patterns = [request rule.name path (vars rule.name names)])
    (hstages : rule.stages = missing rule.name names)
    (hactions : rule.actions = [respond rule.name [("error", var rule.name "message")]])
    (hname : rule.name ∉ scene.done) {lacking : List String}
    (hl : (names.filter fun n => (Table.get? n input).isNone) = lacking) (hne : lacking ≠ [])
    (hgiven : scene.given = []) (hroom : (scene.log.length : Int) < venue.ceiling) :
    PlaysRule venue (World.host.handlers answer reentries) rule scene
      ((scene.fire rule.name).reply venue rid [("error", .str (missingMessage lacking))]) := by
  obtain ⟨next, hnext, hmissing⟩ := exists_plays_missing (reads_askedFrame _ _ _ _ hn)
    ((filter_asked hr).trans hl) hne
  refine plays_evaluate_respond (by rw [hpatterns]; exact hb.found hp hn hr rule.name) (by simp)
    hname hactions (by rw [hstages]; exact hmissing _) hnext ?_
    (hnext.fillFields_var (v := .str (missingMessage lacking)) rfl rfl "error") hgiven hroom
  rfl

/-- A request that lacks none is not. -/
theorem plays_open_incomplete_drop (hb : scene.Begun venue input rid more)
    (hp : Table.get? "path" input = some (.str path)) (hn : names.Nodup) (hr : "request" ∉ names)
    (hpatterns : rule.patterns = [request rule.name path (vars rule.name names)])
    (hstages : rule.stages = missing rule.name names) (hname : rule.name ∉ scene.done)
    (hl : (names.filter fun n => (Table.get? n input).isNone) = []) :
    PlaysRule venue handlers rule scene (scene.fire rule.name) := by
  refine plays_evaluate_drop (by rw [hpatterns]; exact hb.found hp hn hr rule.name) (by simp) hname
    ?_
  rw [hstages]
  exact plays_missing_drop (reads_askedFrame _ _ _ _ hn) ((filter_asked hr).trans hl) _

/-- A request that has a token is not answered for lack of one. -/
theorem plays_withoutToken_none {route : String} {token : Value}
    (hb : scene.Begun venue input rid more) (ht : Table.get? "token" input = some token)
    (ha : token.isNotApplicable = false) :
    PlaysRule venue handlers (withoutToken route path) scene scene :=
  plays_evaluate_of_combinations_nil (Pattern.combinations_of_match?_none (hb.filter ..)
    (match?_request_without_of_some (isRequest_request ..) ht ha))

variable (answer reentries) in
/-- A request that has none is. -/
theorem plays_withoutToken (route : String) (hb : scene.Begun venue input rid more)
    (hp : Table.get? "path" input = some (.str path)) (ht : Table.get? "token" input = none)
    (hname : route ++ ".MissingToken" ∉ scene.done) (hgiven : scene.given = [])
    (hroom : (scene.log.length : Int) < venue.ceiling) :
    PlaysRule venue (World.host.handlers answer reentries) (withoutToken route path) scene
      ((scene.fire (route ++ ".MissingToken")).reply venue rid
        [("error", .str Lookup.missingToken)]) :=
  plays_evaluate_respond
    (Pattern.combinations_one (hb.filter ..)
      (match?_request_without (isRequest_request ..) hp ht)) (by simp [Venue.request]) hname rfl
    (plays_no_stages _ _) (reads_askedFrame _ _ _ _ List.nodup_nil) rfl rfl hgiven hroom

/-! ### Guarded rules -/

variable {rest : List (Stage AdapterCode)}

/-- What a guarded rule finds. -/
theorem Begun.found_guarded (hb : scene.Begun venue input rid more)
    (hr : rule.IsGuarded path names rest)
    (hn : AreFields names) (hp : Table.get? "path" input = some (.str path)) :
    Pattern.combinations rule.patterns scene.log
      = .ok [(askedFrame rule.name ("token" :: names) input (.str rid), [0])] := by
  have htoken : "token" ∉ names := fun h => hn.2 _ h (by decide)
  have hrequest : "request" ∉ names := fun h => hn.2 _ h (by decide)
  rw [hr.patterns]
  exact hb.found hp (List.nodup_cons.mpr ⟨htoken, hn.1⟩) (by simp [hrequest]) rule.name

/-- What it binds when it is known who is logged in. -/
def known (names : List String) (input : Fields) (rid : String) (who : Except String Value) :
    String → Option Value :=
  badged (asked ("token" :: names) input (.str rid)) (tokenOf input) who

/-- Of the fields it binds what the request holds. -/
theorem known_of_mem {who : Except String Value} {n : String} (hn : AreFields names)
    (hmem : n ∈ names) : known names input rid who n = Table.get? n input := by
  have hnot : ∀ m ∈ reserved, n ≠ m := fun m hm he => hn.2 n hmem (he ▸ hm)
  simp [known, badged, asked, hnot "user" (by decide), hnot "auth_error" (by decide),
    hnot "token" (by decide), hnot "request" (by decide), hmem]

variable (scene) in
/-- A guarded rule goes on with who is logged in. -/
theorem exists_plays_guarded {who : Except String Value} (hr : rule.IsGuarded path names rest)
    (hn : AreFields names) (hj : Value.FieldsAreJson input)
    (hwho : Identifies venue answer scene.ledger.accounts (tokenOf input) who) :
    ∃ next, next.Reads rule.name (known names input rid who) ∧
      ∀ {outcome : Except Fault (List Frame)} {after : Scene},
        PlaysStages venue (World.host.handlers answer reentries)
          rest next scene outcome after →
        PlaysStages venue (World.host.handlers answer reentries)
          rule.stages (askedFrame rule.name ("token" :: names) input (.str rid)) scene outcome
          after := by
  have hnot : ∀ n ∈ reserved, n ∉ names := fun n h hmem => hn.2 n hmem h
  have hreads := reads_askedFrame rule.name ("token" :: names) input (.str rid)
    (List.nodup_cons.mpr ⟨hnot _ (by decide), hn.1⟩)
  obtain ⟨next, hnext, hplays⟩ := exists_plays_authenticate hreads rfl (tokenOf_isNotApplicable hj)
    (by simp [asked, hnot "user" (by decide)])
    (by simp [asked, hnot "auth_error" (by decide)]) hwho
  refine ⟨next, hnext, fun h => ?_⟩
  rw [hr.stages]
  exact hplays h

variable (scene rule depth reentries) in
/-- A guarded rule is aborted when the token cannot be looked up. -/
theorem plays_guarded_error {fault : Fault} (hb : scene.Begun venue input rid more)
    (hr : rule.IsGuarded path names rest) (hn : AreFields names) (hj : Value.FieldsAreJson input)
    (hp : Table.get? "path" input = some (.str path)) (hname : rule.name ∉ scene.done)
    (hwho : scene.ledger.accounts.standing (tokenOf input) = .error fault) :
    PlaysRule venue (World.handlersAt depth reentries) rule scene
      ((scene.fire rule.name).fail venue rule.name unverifiable) := by
  have htoken : "token" ∉ names := fun h => hn.2 _ h (by decide)
  have hreads := reads_askedFrame rule.name _ input (.str rid) (List.nodup_cons.mpr ⟨htoken, hn.1⟩)
  refine plays_evaluate_error (hb.found_guarded hr hn hp) (by simp) hname rfl ?_
  refine plays_carryOut_error unverifiable ?_
  rw [hr.stages]
  exact plays_authenticate_error (scene.fire rule.name) hreads rfl (tokenOf_isNotApplicable hj) hwho
    rest

variable (rule answer reentries) in
/-- A guarded rule that asks for a user leaves a request alone whose token is nobody's. -/
theorem plays_guarded_drop_of_error {reason : String} (hb : scene.Begun venue input rid more)
    (hr : rule.IsGuarded path names (keep (.applicable (symbol rule.name "user")) :: rest))
    (hn : AreFields names) (hj : Value.FieldsAreJson input)
    (hp : Table.get? "path" input = some (.str path)) (hname : rule.name ∉ scene.done)
    (hwho : Identifies venue answer scene.ledger.accounts (tokenOf input) (.error reason)) :
    PlaysRule venue (World.host.handlers answer reentries) rule scene (scene.fire rule.name) := by
  obtain ⟨frame, hframe, hplays⟩ := exists_plays_guarded (scene.fire rule.name) hr hn hj hwho
  have happlicable : (Check.applicable (symbol rule.name "user")).holds frame = .ok false :=
    hframe.holds_applicable (v := .notApplicable) rfl
  exact plays_evaluate_drop (hb.found_guarded hr hn hp) (by simp) hname
    (hplays (plays_drop happlicable _))

variable (scene) in
/-- A guarded rule that asks for a user goes on with one. -/
theorem exists_plays_guarded_user {user : Value}
    (hr : rule.IsGuarded path names (keep (.applicable (symbol rule.name "user")) :: rest))
    (hn : AreFields names) (hj : Value.FieldsAreJson input)
    (hwho : scene.ledger.accounts.standing (tokenOf input) = .ok (.ok user))
    (huser : user.isNotApplicable = false) :
    ∃ next, next.Reads rule.name (known names input rid (.ok user)) ∧
      ∀ {outcome : Except Fault (List Frame)} {after : Scene},
        PlaysStages venue (World.handlersAt depth reentries) rest next scene outcome after →
        PlaysStages venue (World.handlersAt depth reentries) rule.stages
          (askedFrame rule.name ("token" :: names) input (.str rid)) scene outcome after := by
  obtain ⟨frame, hframe, hplays⟩ := exists_plays_guarded _ hr hn hj (identifies_of_standing hwho)
  have happlicable := hframe.holds_applicable (n := "user") (v := user) rfl
  rw [huser] at happlicable
  exact ⟨frame, hframe, fun h => hplays (plays_keep happlicable h)⟩

/-- Of the fields that a guarded rule asks for, all are bound when the request lacks none. -/
theorem holds_bound_known {frame : Frame} {who : Except String Value} {fields : List String}
    (hn : AreFields names) (hsub : ∀ n ∈ fields, n ∈ names)
    (hframe : frame.Reads name (known names input rid who)) :
    (Check.bound (symbols name fields)).holds frame
      = .ok (fields.filter fun n => (Table.get? n input).isNone).isEmpty := by
  have hlacking : (fields.filter fun n => (known names input rid who n).isNone)
      = fields.filter fun n => (Table.get? n input).isNone :=
    List.filter_congr fun n hmem => by rw [known_of_mem hn (hsub n hmem)]
  rw [holds_bound_of_missing hframe, hlacking]

variable (rule depth reentries) in
/-- A guarded rule that asks for fields leaves a request alone that lacks one. -/
theorem plays_guarded_drop_of_missing {user : Value} {fields : List String}
    (hb : scene.Begun venue input rid more)
    (hr : rule.IsGuarded path names (keep (.applicable (symbol rule.name "user"))
      :: keep (.bound (symbols rule.name fields)) :: rest))
    (hn : AreFields names) (hsub : ∀ n ∈ fields, n ∈ names) (hj : Value.FieldsAreJson input)
    (hp : Table.get? "path" input = some (.str path)) (hname : rule.name ∉ scene.done)
    (hwho : scene.ledger.accounts.standing (tokenOf input) = .ok (.ok user))
    (huser : user.isNotApplicable = false)
    (hl : (fields.filter fun n => (Table.get? n input).isNone) ≠ []) :
    PlaysRule venue (World.handlersAt depth reentries) rule scene (scene.fire rule.name) := by
  obtain ⟨frame, hframe, hplays⟩ := exists_plays_guarded_user (scene.fire rule.name) hr hn hj hwho
    huser
  have hbound := holds_bound_known hn hsub hframe
  rw [List.isEmpty_eq_false_iff.mpr hl] at hbound
  exact plays_evaluate_drop (hb.found_guarded hr hn hp) (by simp) hname
    (hplays (plays_drop hbound _))

/-! ### Requests that are turned down -/

variable {route : String} {fields : List String} {user : Value} {reason : String}

/-- Denying is guarded. -/
theorem isGuarded_denied (route path : String) :
    (denied AdapterCode.lookup route path).IsGuarded path []
      [keep (.applicable (symbol (route ++ ".AuthError") "auth_error"))] := ⟨rfl, rfl⟩

/-- So is naming the fields that a request lacks. -/
theorem isGuarded_incomplete (route path : String) (fields : List String) :
    (incomplete AdapterCode.lookup route path fields).IsGuarded path fields
      (keep (.applicable (symbol (route ++ ".MissingInput") "user"))
        :: missing (route ++ ".MissingInput") fields) := ⟨rfl, rfl⟩

variable (answer reentries route) in
/-- A request whose token is nobody's is denied. -/
theorem plays_denied (hb : scene.Begun venue input rid more) (hj : Value.FieldsAreJson input)
    (hp : Table.get? "path" input = some (.str path)) (hname : route ++ ".AuthError" ∉ scene.done)
    (hwho : Identifies venue answer scene.ledger.accounts (tokenOf input) (.error reason))
    (hgiven : scene.given = []) (hroom : (scene.log.length : Int) < venue.ceiling) :
    PlaysRule venue (World.host.handlers answer reentries) (denied AdapterCode.lookup route path)
      scene
      ((scene.fire (route ++ ".AuthError")).reply venue rid [("error", .str reason)]) := by
  obtain ⟨next, hnext, hplays⟩ := exists_plays_guarded (scene.fire (route ++ ".AuthError"))
    (isGuarded_denied route path) (by decide) hj hwho
  have happlicable : (Check.applicable (symbol (route ++ ".AuthError") "auth_error")).holds next
      = .ok true := hnext.holds_applicable (v := .str reason) rfl
  refine plays_evaluate_respond
    (hb.found_guarded (isGuarded_denied route path) (by decide) hp) (by simp) hname rfl
    (hplays (plays_keep happlicable (plays_no_stages next _))) hnext rfl ?_ hgiven hroom
  exact hnext.fillFields_var (v := .str reason) rfl rfl "error"

variable (depth reentries route) in
/-- A request of a user is not denied. -/
theorem plays_denied_drop (hb : scene.Begun venue input rid more) (hj : Value.FieldsAreJson input)
    (hp : Table.get? "path" input = some (.str path)) (hname : route ++ ".AuthError" ∉ scene.done)
    (hwho : scene.ledger.accounts.standing (tokenOf input) = .ok (.ok user)) :
    PlaysRule venue (World.handlersAt depth reentries) (denied AdapterCode.lookup route path) scene
      (scene.fire (route ++ ".AuthError")) := by
  obtain ⟨next, hnext, hplays⟩ := exists_plays_guarded (scene.fire (route ++ ".AuthError"))
    (isGuarded_denied route path) (by decide) hj (identifies_of_standing hwho)
  have happlicable : (Check.applicable (symbol (route ++ ".AuthError") "auth_error")).holds next
      = .ok false := hnext.holds_applicable (v := .notApplicable) rfl
  exact plays_evaluate_drop (hb.found_guarded (isGuarded_denied route path) (by decide) hp)
    (by simp) hname (hplays (plays_drop happlicable _))

variable (depth reentries route) in
/-- A user's request that lacks fields is answered with their names. -/
theorem plays_incomplete (hb : scene.Begun venue input rid more) (hj : Value.FieldsAreJson input)
    (hp : Table.get? "path" input = some (.str path)) (hn : AreFields fields)
    (hname : route ++ ".MissingInput" ∉ scene.done)
    (hwho : scene.ledger.accounts.standing (tokenOf input) = .ok (.ok user))
    (huser : user.isNotApplicable = false) {lacking : List String}
    (hl : (fields.filter fun n => (Table.get? n input).isNone) = lacking) (hne : lacking ≠ [])
    (hgiven : scene.given = []) (hroom : (scene.log.length : Int) < venue.ceiling) :
    PlaysRule venue (World.handlersAt depth reentries) (incomplete AdapterCode.lookup route path
      fields) scene
      ((scene.fire (route ++ ".MissingInput")).reply venue rid
        [("error", .str (missingMessage lacking))]) := by
  obtain ⟨frame, hframe, hplays⟩ := exists_plays_guarded (scene.fire (route ++ ".MissingInput"))
    (isGuarded_incomplete route path fields) hn hj (identifies_of_standing hwho)
  have happlicable : (Check.applicable (symbol (route ++ ".MissingInput") "user")).holds frame
      = .ok true := by
    have h := hframe.holds_applicable (n := "user") (v := user) rfl
    rwa [huser] at h
  have hlacking : (fields.filter fun n => (known fields input rid (.ok user) n).isNone) = lacking :=
    by
    rw [← hl]
    exact List.filter_congr fun n hmem => by rw [known_of_mem hn hmem]
  obtain ⟨next, hnext, hmissing⟩ := exists_plays_missing hframe
    hlacking hne
  refine plays_evaluate_respond
    (hb.found_guarded (isGuarded_incomplete route path fields) hn hp) (by simp) hname rfl
    (hplays (plays_keep happlicable (hmissing _))) hnext rfl ?_ hgiven hroom
  exact hnext.fillFields_var (v := .str (missingMessage lacking)) rfl rfl "error"

/-- A request whose token is nobody's is not searched for missing fields. -/
theorem plays_incomplete_drop_of_error (hb : scene.Begun venue input rid more)
    (hj : Value.FieldsAreJson input) (hp : Table.get? "path" input = some (.str path))
    (hn : AreFields fields) (hname : route ++ ".MissingInput" ∉ scene.done)
    (hwho : Identifies venue answer scene.ledger.accounts (tokenOf input) (.error reason)) :
    PlaysRule venue (World.host.handlers answer reentries)
      (incomplete AdapterCode.lookup route path fields) scene
      (scene.fire (route ++ ".MissingInput")) :=
  plays_guarded_drop_of_error _ _ _ hb (isGuarded_incomplete route path fields) hn hj hp hname hwho

/-- A user's request that lacks no field is not answered there. -/
theorem plays_incomplete_drop (hb : scene.Begun venue input rid more)
    (hj : Value.FieldsAreJson input) (hp : Table.get? "path" input = some (.str path))
    (hn : AreFields fields) (hname : route ++ ".MissingInput" ∉ scene.done)
    (hwho : scene.ledger.accounts.standing (tokenOf input) = .ok (.ok user))
    (huser : user.isNotApplicable = false)
    (hl : (fields.filter fun n => (Table.get? n input).isNone) = []) :
    PlaysRule venue (World.handlersAt depth reentries) (incomplete AdapterCode.lookup route path
      fields) scene
      (scene.fire (route ++ ".MissingInput")) := by
  obtain ⟨frame, hframe, hplays⟩ := exists_plays_guarded (scene.fire (route ++ ".MissingInput"))
    (isGuarded_incomplete route path fields) hn hj (identifies_of_standing hwho)
  have happlicable : (Check.applicable (symbol (route ++ ".MissingInput") "user")).holds frame
      = .ok true := by
    have h := hframe.holds_applicable (n := "user") (v := user) rfl
    rwa [huser] at h
  have hlacking : (fields.filter fun n => (known fields input rid (.ok user) n).isNone) = [] := by
    rw [← hl]
    exact List.filter_congr fun n hmem => by rw [known_of_mem hn hmem]
  exact plays_evaluate_drop (hb.found_guarded (isGuarded_incomplete route path fields) hn hp)
    (by simp) hname (hplays (plays_keep happlicable (plays_missing_drop hframe hlacking _)))

/-- A scene in which more rules may have fired. -/
theorem plays_fire {α : Type} {act : Effect Rehearsal α} {result : Except Fault α}
    (h : Plays venue act scene result after) (name : String) :
    Plays venue act scene result (after.fire name) := by
  intro engine hs
  obtain ⟨engine', hrun, hs'⟩ := h engine hs
  refine ⟨engine', hrun, ?_, hs'.terminals, hs'.maxFlowEvents, hs'.world⟩
  obtain ⟨flow, hf, hlog, hfaults, hgiven, hfired⟩ := hs'.flow
  exact ⟨flow, hf, hlog, hfaults, hgiven, fun entry he => List.mem_append_left _ (hfired entry he)⟩

/-- The rule that names missing fields, for a route that has fields. -/
def incompletes (route path : String) (fields : List String) : List (Rule AdapterCode) :=
  if fields.isEmpty then [] else [incomplete AdapterCode.lookup route path fields]

variable (answer reentries route) in
/-- It does nothing to a request whose token is nobody's. -/
theorem plays_incompletes_drop_of_error (hb : scene.Begun venue input rid more)
    (hj : Value.FieldsAreJson input) (hp : Table.get? "path" input = some (.str path))
    (hn : AreFields fields) (hname : route ++ ".MissingInput" ∉ scene.done)
    (hwho : Identifies venue answer scene.ledger.accounts (tokenOf input) (.error reason)) :
    PlaysRules venue (World.host.handlers answer reentries) (incompletes route path fields) scene
      (scene.fire (route ++ ".MissingInput")) := by
  unfold incompletes
  split
  · exact plays_fire (plays_rules_nil scene) _
  · exact plays_rules_cons (plays_incomplete_drop_of_error hb hj hp hn hname hwho)
      (plays_rules_nil _)

variable (depth reentries route) in
/-- It does nothing to a user's request that lacks none. -/
theorem plays_incompletes_drop (hb : scene.Begun venue input rid more)
    (hj : Value.FieldsAreJson input) (hp : Table.get? "path" input = some (.str path))
    (hn : AreFields fields) (hname : route ++ ".MissingInput" ∉ scene.done)
    (hwho : scene.ledger.accounts.standing (tokenOf input) = .ok (.ok user))
    (huser : user.isNotApplicable = false)
    (hl : (fields.filter fun n => (Table.get? n input).isNone) = []) :
    PlaysRules venue (World.handlersAt depth reentries) (incompletes route path fields) scene
      (scene.fire (route ++ ".MissingInput")) := by
  unfold incompletes
  split
  · exact plays_fire (plays_rules_nil scene) _
  · exact plays_rules_cons (plays_incomplete_drop hb hj hp hn hname hwho huser hl)
      (plays_rules_nil _)

variable (depth reentries route) in
/-- It names the fields that a user's request lacks. -/
theorem plays_incompletes (hb : scene.Begun venue input rid more) (hj : Value.FieldsAreJson input)
    (hp : Table.get? "path" input = some (.str path)) (hn : AreFields fields)
    (hname : route ++ ".MissingInput" ∉ scene.done)
    (hwho : scene.ledger.accounts.standing (tokenOf input) = .ok (.ok user))
    (huser : user.isNotApplicable = false) {lacking : List String}
    (hl : (fields.filter fun n => (Table.get? n input).isNone) = lacking) (hne : lacking ≠ [])
    (hgiven : scene.given = []) (hroom : (scene.log.length : Int) < venue.ceiling) :
    PlaysRules venue (World.handlersAt depth reentries) (incompletes route path fields) scene
      ((scene.fire (route ++ ".MissingInput")).reply venue rid
        [("error", .str (missingMessage lacking))]) := by
  have hfields : ¬fields.isEmpty = true := fun hempty => by
    rw [List.isEmpty_iff.mp hempty] at hl
    exact hne hl.symm
  rw [incompletes, if_neg hfields]
  exact plays_rules_cons
    (plays_incomplete depth reentries route hb hj hp hn hname hwho huser hl hne hgiven hroom)
    (plays_rules_nil _)

variable (scene route) in
/-- It is aborted when the token cannot be looked up. -/
theorem exists_plays_incompletes_error {fault : Fault} (hb : scene.Begun venue input rid more)
    (hj : Value.FieldsAreJson input) (hp : Table.get? "path" input = some (.str path))
    (hn : AreFields fields) (hname : route ++ ".MissingInput" ∉ scene.done)
    (hwho : scene.ledger.accounts.standing (tokenOf input) = .error fault) :
    ∃ faults, PlaysRules venue (World.handlersAt depth reentries) (incompletes route path fields)
      scene
      { scene.fire (route ++ ".MissingInput") with faults := scene.faults ++ faults } := by
  unfold incompletes
  split
  · refine ⟨[], ?_⟩
    rw [List.append_nil]
    exact plays_fire (plays_rules_nil scene) _
  · exact ⟨_, plays_rules_cons
      (plays_guarded_error _ _ _ _ hb (isGuarded_incomplete route path fields) hn hj hp hname hwho)
      (plays_rules_nil _)⟩

/-- The rules that turn requests for a route down: those of nobody, and those that lack fields. -/
def turnedDown (route path : String) (fields : List String) : List (Rule AdapterCode) :=
  denied AdapterCode.lookup route path :: incompletes route path fields

/-- What holds of both holds of all of them. -/
theorem forall_mem_turnedDown {p : Rule AdapterCode → Prop}
    (hdenied : p (denied AdapterCode.lookup route path))
    (hincomplete : p (incomplete AdapterCode.lookup route path fields)) :
    ∀ rule ∈ turnedDown route path fields, p rule := by
  rw [turnedDown, List.forall_mem_cons, incompletes]
  refine ⟨hdenied, fun rule hr => ?_⟩
  split at hr
  · exact nomatch hr
  · exact List.mem_singleton.mp hr ▸ hincomplete

variable (answer reentries route) in
/-- They deny a request whose token is nobody's. -/
theorem plays_turnedDown_denied (hb : scene.Begun venue input rid more)
    (hj : Value.FieldsAreJson input) (hp : Table.get? "path" input = some (.str path))
    (hn : AreFields fields)
    (hname : ∀ ending ∈ [".AuthError", ".MissingInput"], route ++ ending ∉ scene.done)
    (hwho : Identifies venue answer scene.ledger.accounts (tokenOf input) (.error reason))
    (hgiven : scene.given = []) (hroom : (scene.log.length : Int) < venue.ceiling) :
    PlaysRules venue (World.host.handlers answer reentries) (turnedDown route path fields) scene
      (((scene.fire (route ++ ".AuthError")).reply venue rid [("error", .str reason)]).fire
        (route ++ ".MissingInput")) :=
  plays_rules_cons
    (plays_denied answer reentries route hb hj hp (hname _ (by simp)) hwho hgiven hroom)
    (plays_incompletes_drop_of_error answer reentries route
      ((hb.fire (route ++ ".AuthError")).reply [("error", .str reason)]) hj hp hn
      (by simpa [fire, reply, record] using hname ".MissingInput" (by simp))
      (by simpa [fire, reply, record] using hwho))

variable (depth reentries route) in
/-- They answer a user's request that lacks fields with their names. -/
theorem plays_turnedDown_incomplete (hb : scene.Begun venue input rid more)
    (hj : Value.FieldsAreJson input) (hp : Table.get? "path" input = some (.str path))
    (hn : AreFields fields)
    (hname : ∀ ending ∈ [".AuthError", ".MissingInput"], route ++ ending ∉ scene.done)
    (hwho : scene.ledger.accounts.standing (tokenOf input) = .ok (.ok user))
    (huser : user.isNotApplicable = false) {lacking : List String}
    (hl : (fields.filter fun n => (Table.get? n input).isNone) = lacking) (hne : lacking ≠ [])
    (hgiven : scene.given = []) (hroom : (scene.log.length : Int) < venue.ceiling) :
    PlaysRules venue (World.handlersAt depth reentries) (turnedDown route path fields) scene
      (((scene.fire (route ++ ".AuthError")).fire (route ++ ".MissingInput")).reply venue rid
        [("error", .str (missingMessage lacking))]) :=
  plays_rules_cons (plays_denied_drop depth reentries route hb hj hp (hname _ (by simp)) hwho)
    (plays_incompletes depth reentries route (hb.fire _) hj hp hn
      (by simpa [fire] using hname ".MissingInput" (by simp)) hwho huser hl hne hgiven hroom)

variable (depth reentries route) in
/-- They do nothing to a user's request that lacks none. -/
theorem plays_turnedDown_drop (hb : scene.Begun venue input rid more)
    (hj : Value.FieldsAreJson input) (hp : Table.get? "path" input = some (.str path))
    (hn : AreFields fields)
    (hname : ∀ ending ∈ [".AuthError", ".MissingInput"], route ++ ending ∉ scene.done)
    (hwho : scene.ledger.accounts.standing (tokenOf input) = .ok (.ok user))
    (huser : user.isNotApplicable = false)
    (hl : (fields.filter fun n => (Table.get? n input).isNone) = []) :
    PlaysRules venue (World.handlersAt depth reentries) (turnedDown route path fields) scene
      ((scene.fire (route ++ ".AuthError")).fire (route ++ ".MissingInput")) :=
  plays_rules_cons (plays_denied_drop depth reentries route hb hj hp (hname _ (by simp)) hwho)
    (plays_incompletes_drop depth reentries route (hb.fire _) hj hp hn
      (by simpa [fire] using hname ".MissingInput" (by simp)) hwho huser hl)

variable (depth reentries route) in
/-- They are aborted when the token cannot be looked up. -/
theorem exists_plays_turnedDown_error {fault : Fault} (hb : scene.Begun venue input rid more)
    (hj : Value.FieldsAreJson input) (hp : Table.get? "path" input = some (.str path))
    (hn : AreFields fields)
    (hname : ∀ ending ∈ [".AuthError", ".MissingInput"], route ++ ending ∉ scene.done)
    (hwho : scene.ledger.accounts.standing (tokenOf input) = .error fault) :
    ∃ after faults, PlaysRules venue (World.handlersAt depth reentries)
        (turnedDown route path fields) scene after ∧
      after.Ends scene.log faults scene.ledger ∧ faults ≠ [] := by
  obtain ⟨faults, hincompletes⟩ := exists_plays_incompletes_error
    ((scene.fire (route ++ ".AuthError")).fail venue (route ++ ".AuthError") unverifiable) route
    (hb.of_log _ rfl) hj hp hn (by simpa [fire, fail] using hname ".MissingInput" (by simp)) hwho
  exact ⟨_, _, plays_rules_cons (plays_guarded_error _ _ _ _ hb (isGuarded_denied route path)
    (by decide) hj hp (hname _ (by simp)) hwho) hincompletes, ⟨rfl, rfl, rfl⟩, by simp [fail]⟩

end Scene

end HerdBook
