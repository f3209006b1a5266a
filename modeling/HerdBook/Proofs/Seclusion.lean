import HerdBook.Proofs.Invocations
import HerdBook.Proofs.Pipelines
import HerdBook.Proofs.Strangers

/-!
# Rules that overlook herds and animals

What the rules of the herd book do for a request that is barred: they find nothing in its flow but
what concerns it, and either they ask for a user and end where there is none, or all that they do is
to respond.

* `Event.Fits` says of an event that the request has led to it.
* `World.veil` is what is known while the engine works on the flow.

## Main results

* `World.isDiscreetRule_guarded`: a rule that asks for a user does nothing.
* `World.isDiscreetRule_all`: every rule overlooks herds and animals.
* `World.overlooks_invoke`: so does a request with all that the rules do.
-/

namespace HerdBook

open Effect Rules

/-! ### What has been found -/

namespace Pattern

variable {p : Pattern} {patterns : List Pattern} {log : List Event} {begun found : List Combination}
  {c : Combination}

/-- Each of the patterns has matched an event when something is found. -/
theorem exists_match?_of_mem_joinAll (h : joinAll log patterns begun = .ok found) (hc : c ∈ found)
    (hp : p ∈ patterns) :
    ∃ event ∈ log, ∃ frame frame', p.match? event frame = .ok (some frame') := by
  obtain ⟨b, -, hby⟩ := (mem_joinAll h).mp hc
  obtain ⟨_, b', _, ⟨event, he, -, frame, hm, -⟩, -⟩ := hby.exists_of_mem hp
  exact ⟨event, he, b'.1, frame, hm⟩

/-- What one pattern finds are the frames of its matches. -/
theorem exists_match?_of_mem_one (h : combinations [p] log = .ok found) (hc : c ∈ found) :
    ∃ event ∈ log, p.match? event .empty = .ok (some c.1) := by
  rw [combinations, joinAll, bind_eq_ok_iff] at h
  obtain ⟨next, hnext, h⟩ := h
  obtain rfl : next = found := Except.ok.inj h
  obtain ⟨b, hb, event, he, -, frame, hm, rfl⟩ := (mem_continueAll hnext).mp hc
  obtain rfl := List.mem_singleton.mp hb
  exact ⟨event, he, hm⟩

end Pattern

namespace Veil

variable {ω κ : Type} {veil : Veil ω κ} {handlers : Handlers ω κ} {frames : List Frame}

/-- A test. -/
theorem keeps_filter (test : Frame → Except Fault Bool) :
    veil.Keeps (Stage.apply handlers.adapters frames (.filter test)) fun kept =>
      ∀ frame ∈ kept, frame ∈ frames ∧ test frame = .ok true :=
  .ofExcept fun _ hkept => Stage.mem_of_keep (mapError_eq_ok_iff.mp hkept)

/-- A change. -/
theorem keeps_map (change : Frame → Except Fault Frame) :
    veil.Keeps (Stage.apply handlers.adapters frames (.map change)) fun kept =>
      ∀ next ∈ kept, ∃ frame ∈ frames, change frame = .ok next :=
  .ofExcept fun _ hkept next hn => by
    obtain ⟨frame, hf, hc⟩ := Stage.exists_of_mem_changeAll (mapError_eq_ok_iff.mp hkept) next hn
    exact ⟨frame, hf, (Stage.changeOne_eq_ok_iff.mp hc).1⟩

end Veil

/-! ### What is known of the flow -/

/-- A request for the path with the token may have led to the event: if it is a request itself it is
such a one, and if it verifies a token it has found no user, unless the path is open. -/
structure Event.Fits (path : String) (token : Value) (event : Event) : Prop where
  request : event.concept = requesting → event.action = "request" → ∃ input rid,
    IsRequest event input rid ∧ Table.get? "path" input = some (.str path) ∧ tokenOf input = token
  verified : event.concept = Lookup.accounts → event.action = Lookup.verify → ¬ IsOpen path →
    ∃ out, event.output = .object out ∧ Table.get? "user" out = none

/-- Herds and animals are secret while the engine works on the flow of a request for the path with
the token. -/
def World.veil (herds animals : Store) (path : String) (token : Value) (id : String)
    (serial : Nat) : Veil World AdapterCode where
  hide := World.withStores herds animals
  fine := World.Bars path token
  rules := Rules.all AdapterCode.lookup
  known := Event.Fits path token
  id := id
  serial := serial

namespace World

variable {herds animals : Store} {path : String} {token : Value} {id : String} {serial : Nat}

/-- What is known of the engine is said of its world, its rules and the flow. -/
theorem bars_holds : Rehearsal.Bars path token (veil herds animals path token id serial).Holds where
  world _ hs := hs.fine
  withWorld _ _ hs hw := ⟨hs.rules, hw,
    hs.flow.imp fun _ hf => ⟨⟨hf.1.retained, hf.1.state, hf.1.named⟩, hf.2⟩⟩
  note _ _ hs := ⟨hs.rules, hs.fine,
    hs.flow.imp fun _ hf => ⟨⟨hf.1.retained, hf.1.state, hf.1.named⟩, hf.2⟩⟩

/-- Whether there is time left is not told by herds and animals. -/
theorem overlooks_requireTime :
    Ignores (withStores herds animals) (Bars path token) requireTime fun _ => True := by
  unfold requireTime
  refine .get_bind fun world hw => ⟨rfl, ?_⟩
  split
  · exact .throw _
  · exact .pure trivial

/-- What happens while somebody waits is not told by them either. -/
theorem admits (answer : (call : EngineCall AdapterCode) → Effect Rehearsal call.Answer)
    (reentries : Nat) :
    (veil herds animals path token id serial).Admits (host.handlers answer reentries) where
  isRegistered _ name hw :=
    isSome_member?_withStores (hw.registered .herds) (hw.registered .animals) name
  before := overlooks_requireTime.bind fun _ _ => .modify fun world hw =>
    ⟨congrArg (fun other : World => { other with timeLeft := world.timeLeft.afterTurn })
      (withStores_onRequests _), (hw.onRequests _).allot _⟩
  after := overlooks_requireTime.bind fun _ _ => .modify fun world hw => by
    refine ⟨?_, (hw.onRequests _).onRequests _⟩
    change ((world.withStores herds animals).turn).turn = _
    rw [turn, turn, withStores_onRequests, withStores_onRequests]
    rfl

/-! ### Actions -/

variable {depth reentries : Nat} {template : ActionTemplate} {args : Value} {kind : Concept.Kind}
  {answer : (call : EngineCall AdapterCode) → Effect Rehearsal call.Answer}

variable (kind) in
/-- An action of the requests or of the accounts. -/
theorem isDiscreet_perform (answered : Fields → Value → Prop) (hk : kind ≠ .herds ∧ kind ≠ .animals)
    (hconcept : template.concept = kind.name) (ha : Target.IsOwn template.action)
    (hturn : ∀ fields, args.toFields = .ok fields → ∀ (concept : Concept) issued turn,
      concept.kind = kind → concept.Bars path token →
        concept.answer? template.action fields issued = some turn →
          turn.concept.Bars path token ∧ ∀ a, turn.outcome = .ok a → answered fields a.value)
    (hfits : ∀ fields output number, args.toFields = .ok fields → answered fields output →
      Event.Fits path token
        ⟨number, template.concept, template.action, .object fields, output, id⟩) :
    (veil herds animals path token id serial).IsDiscreet (host.handlers answer reentries)
      (template, args) := by
  have hperform : ∀ fields, args.toFields = .ok fields →
      (veil herds animals path token id serial).Keeps
        ((host.handlers answer reentries).perform template.concept template.action fields)
        (answered fields) := by
    intro fields hfields
    change Ignores _ _ ((host.perform template.concept _ (.object fields)).run answer) _
    rw [hconcept]
    exact overlooks_perform bars_holds hk ha (hturn fields hfields)
  exact Veil.keeps_perform (admits answer reentries) hperform fun fields output number =>
    hfits fields output number

/-- A response. -/
theorem isDiscreet_respond (hconcept : template.concept = Rules.requesting)
    (haction : template.action = "respond") :
    (veil herds animals path token id serial).IsDiscreet (host.handlers answer reentries)
      (template, args) := by
  have hown : Target.IsOwn "respond" := by decide +kernel
  refine isDiscreet_perform .requests (fun _ _ => True) ⟨nofun, nofun⟩ hconcept (haction ▸ hown)
    (fun fields _ concept issued turn hk _ ht => ?_)
    fun fields output number _ _ => ⟨fun _ h => ?_, fun h _ => ?_⟩
  · exact ⟨Concept.bars_of_answer?_requests hk ht, fun _ _ => trivial⟩
  · exact absurd (haction.symm.trans h) (by decide)
  · exact absurd (hconcept.symm.trans h) (by decide)

/-- An action of the accounts, for an open path. -/
theorem isDiscreet_of_isOpen (hp : IsOpen path) (hconcept : template.concept = Lookup.accounts)
    (ha : Target.IsOwn template.action) :
    (veil herds animals path token id serial).IsDiscreet (host.handlers answer reentries)
      (template, args) := by
  refine isDiscreet_perform .accounts (fun _ _ => True) ⟨nofun, nofun⟩ hconcept ha
    (fun fields _ concept issued turn hk _ ht => ?_)
    fun fields output number _ _ => ⟨fun h _ => ?_, fun _ _ hn => absurd hp hn⟩
  · exact ⟨Concept.bars_of_isOpen hp, fun _ _ => trivial⟩
  · exact absurd (hconcept.symm.trans h) (by decide)

/-- A verification of the token. -/
theorem isDiscreet_verify (hp : ¬ IsOpen path) (hconcept : template.concept = Lookup.accounts)
    (haction : template.action = Lookup.verify) :
    (veil herds animals path token id serial).IsDiscreet (host.handlers answer reentries)
      (template, .object [("token", token)]) := by
  have hown : Target.IsOwn Lookup.verify := by decide +kernel
  refine isDiscreet_perform .accounts
    (fun _ output => ∃ reason, output = .object [("error", .str reason)])
    ⟨nofun, nofun⟩ hconcept (haction ▸ hown) (fun fields hfields concept issued turn hk hb ht => ?_)
    fun fields output number _ hout => ⟨fun h _ => ?_, fun _ _ _ => ?_⟩
  · obtain rfl : [("token", token)] = fields := Except.ok.inj hfields
    rw [haction] at ht
    obtain ⟨hbars, hrefusal⟩ := hb.verify hp hk ht
    refine ⟨hbars, fun a ha => ?_⟩
    obtain ⟨reason, rfl⟩ := hrefusal a ha
    exact ⟨reason, rfl⟩
  · exact absurd (hconcept.symm.trans h) (by decide)
  · obtain ⟨reason, rfl⟩ := hout
    exact ⟨_, rfl, rfl⟩

/-! ### Rules -/

section Rules

variable {rule : Rule AdapterCode} {names : List String} {rest : List (Stage AdapterCode)}

/-- A rule for another path finds nothing. -/
theorem isDiscreetRule_other {handlers : Handlers World AdapterCode} {p : String}
    (hr : rule.IsFor p) (hne : path ≠ p) :
    (veil herds animals path token id serial).IsDiscreetRule handlers rule := by
  obtain ⟨inputs, others, hpatterns⟩ := hr
  intro log found hknown hfound frames hframes hsome
  obtain ⟨frame, hf⟩ := List.exists_mem_of_ne_nil frames hsome
  obtain ⟨c, hc, -⟩ := hframes frame hf
  rw [hpatterns] at hfound
  obtain ⟨event, he, before, after, hm⟩ :=
    Pattern.exists_match?_of_mem_joinAll hfound hc List.mem_cons_self
  obtain ⟨hconcept, haction⟩ := Pattern.kind_eq_of_concerns (Pattern.concerns_of_match? hm)
  obtain ⟨input, rid, hrequest, hpath, -⟩ := (hknown event he).request hconcept haction
  rw [match?_request_of_ne hrequest hpath hne] at hm
  exact nomatch Except.ok.inj hm

/-- A rule that asks no adapter, of which all actions overlook herds and animals. -/
theorem isDiscreetRule_plain {handlers : Handlers World AdapterCode}
    (hstages : ∀ adapter inputs outputs, .query adapter inputs outputs ∉ rule.stages)
    (hactions : ∀ template ∈ rule.actions, ∀ args,
      (veil herds animals path token id serial).IsDiscreet handlers (template, args)) :
    (veil herds animals path token id serial).IsDiscreetRule handlers rule := by
  intro log found _ _ frames _ _
  refine (Veil.keeps_applyAll_of_no_query hstages frames).weaken
    fun kept _ calls hcalls mine hm call hc => ?_
  obtain ⟨frame, -, hfill⟩ := Rule.exists_frame_of_mem_dispatches hcalls mine hm
  exact hactions call.1 (Rule.fill_of_mem_fillActions hfill call hc).1 call.2

/-- The frame of a request with the token. -/
structure IsAsked (token : Value) (name : String) (frame : Frame) : Prop where
  token : (frame.get? (symbol name "token")).getD (.str "") = token
  user : frame.get? (symbol name "user") = none
  error : frame.get? (symbol name "auth_error") = none

namespace IsAsked

variable {name : String} {frame : Frame}

/-- So it is when the token is bound to the empty text where the request has none. -/
theorem bindOrEmpty (h : IsAsked token name frame) :
    (Rules.bindOrEmpty (symbol name "token") frame).get? (symbol name "token") = some token ∧
      IsAsked token name (Rules.bindOrEmpty (symbol name "token") frame) := by
  have hreads : frame.Reads name fun n => frame.get? (symbol name n) := fun _ => rfl
  have hbound := hreads.bindOrEmpty "token"
  have htoken : (Rules.bindOrEmpty (symbol name "token") frame).get? (symbol name "token")
      = some token := by
    rw [hbound "token", Function.update_self, h.token]
  refine ⟨htoken, ?_, ?_, ?_⟩
  · rw [htoken]
    rfl
  · rw [hbound "user", Function.update_of_ne (by decide)]
    exact h.user
  · rw [hbound "auth_error", Function.update_of_ne (by decide)]
    exact h.error

/-- Where nobody is logged in the frame goes on without a user. -/
theorem user_of_matchRows (h : IsAsked token name frame) {reason : String} {next : List Frame}
    (hnext : Stage.matchRows frame (.object [("user", var name "user"),
      ("error", var name "auth_error")]) [Accounts.badge (.error reason)] = .ok next) :
    ∀ other ∈ next, other.get? (symbol name "user") = some .notApplicable := by
  have hunify : frame.unify? .optional [("user", var name "user"), ("error", var name "auth_error")]
      (Accounts.badge (.error reason)) = some (frame.extend (Frame.found name ["user", "auth_error"]
        [("user", .notApplicable), ("auth_error", .str reason)])) := by
    rw [Accounts.badge, Frame.unify?]
    simp [Frame.unifyFields, Frame.unifyDatum, var, Table.get?, h.user, h.error, Frame.found]
  have hmatch : Stage.matchRows frame (.object [("user", var name "user"),
      ("error", var name "auth_error")]) [Accounts.badge (.error reason)]
        = .ok [frame.extend (Frame.found name ["user", "auth_error"]
          [("user", .notApplicable), ("auth_error", .str reason)])] := by
    change (Except.ok (frame.unify? .optional _ _) >>= fun _ => _) = _
    rw [hunify]
    rfl
  obtain rfl := Except.ok.inj (hmatch.symm.trans hnext)
  intro other ho
  obtain rfl := List.mem_singleton.mp ho
  have hreads : frame.Reads name fun n => frame.get? (symbol name n) := fun _ => rfl
  rw [hreads.extend (by simp) _ "user"]
  rfl

end IsAsked

/-- What a lookup of the token is called with. -/
theorem fill_token {name : String} {frame : Frame} {args : Value}
    (h : frame.get? (symbol name "token") = some token)
    (hargs : (Value.object [("token", var name "token")]).fill frame = .ok args) :
    args = .object [("token", token)] := by
  have hreads : frame.Reads name fun n => frame.get? (symbol name n) := fun _ => rfl
  cases ha : token.isNotApplicable with
  | false =>
    rw [Value.fill, hreads.fillFields_var h ha] at hargs
    exact (Except.ok.inj hargs).symm
  | true =>
    have hread : frame.read (symbol name "token") = .ok token := by simp [Frame.read, h]
    have hfill : Value.fillFields frame [("token", var name "token")]
        = .error (.inapplicable (symbol name "token").text) := by
      rw [Value.fillFields, var, Value.fill, Frame.use, hread]
      simp [ha, bind, Except.bind]
    rw [Value.fill, hfill] at hargs
    cases hargs

/-- What a rule finds that watches for requests with their tokens. -/
theorem isAsked_of_mem_combinations {log : List Event} {found : List Combination}
    (hknown : ∀ event ∈ log, Event.Fits path token event)
    (hpatterns : rule.patterns = [request rule.name path (vars rule.name ("token" :: names))])
    (hn : AreFields names) (hfound : Pattern.combinations rule.patterns log = .ok found)
    {c : Combination} (hc : c ∈ found) : IsAsked token rule.name c.1 := by
  have hnot : ∀ n ∈ reserved, n ∉ names := fun n h hmem => hn.2 n hmem h
  have hnodup : ("token" :: names).Nodup := List.nodup_cons.mpr ⟨hnot _ (by decide), hn.1⟩
  rw [hpatterns] at hfound
  obtain ⟨event, he, hm⟩ := Pattern.exists_match?_of_mem_one hfound hc
  obtain ⟨hconcept, haction⟩ := Pattern.kind_eq_of_concerns (Pattern.concerns_of_match? hm)
  obtain ⟨input, rid, hrequest, hpath, htoken⟩ := (hknown event he).request hconcept haction
  have hfree : "request" ∉ "token" :: names := by simp [hnot "request" (by decide)]
  have hframe : askedFrame rule.name ("token" :: names) input rid = c.1 :=
    Option.some.inj (Except.ok.inj ((match?_request hrequest hnodup hfree hpath).symm.trans hm))
  have hreads := reads_askedFrame rule.name ("token" :: names) input rid hnodup
  rw [← hframe]
  refine ⟨?_, ?_, ?_⟩
  · rw [hreads "token"]
    exact htoken
  · rw [hreads "user"]
    simp [asked, hnot "user" (by decide)]
  · rw [hreads "auth_error"]
    simp [asked, hnot "auth_error" (by decide)]

/-- After the lookup of the token no frame has a user. -/
theorem keeps_authenticate (hp : ¬ IsOpen path) {name : String} {frames : List Frame}
    (hframes : ∀ frame ∈ frames, IsAsked token name frame)
    {made : List Frame → Prop} (hnil : made [])
    (hrest : ∀ kept : List Frame,
      (∀ frame ∈ kept, frame.get? (symbol name "user") = some .notApplicable) →
        (veil herds animals path token id serial).Keeps
          (Stage.applyAll (handlersAt depth reentries).adapters rest kept) made) :
    (veil herds animals path token id serial).Keeps
      (Stage.applyAll (handlersAt depth reentries).adapters
        (authenticate AdapterCode.lookup name ++ rest) frames) made := by
  refine Veil.keeps_applyAll_cons (Veil.keeps_map _) hnil fun begun hbegun => ?_
  have hasked : ∀ next ∈ begun, next.get? (symbol name "token") = some token ∧
      IsAsked token name next := by
    intro next hnext
    obtain ⟨frame, hf, hchange⟩ := hbegun next hnext
    obtain rfl := Except.ok.inj hchange
    exact (hframes frame hf).bindOrEmpty
  have hasks : ∀ frame ∈ begun, ∀ args,
      (Value.object [("token", var name "token")]).fill frame = .ok args →
        (veil herds animals path token id serial).Keeps
          ((handlersAt depth reentries).adapt (AdapterCode.lookup .token) args)
          fun v => ∃ reason, v = .list [.object (Accounts.badge (.error reason))] := by
    intro frame hf args hargs
    obtain rfl := fill_token (hasked frame hf).1 hargs
    exact overlooks_token bars_holds hp
  refine Veil.keeps_applyAll_cons (Veil.keeps_query (admits _ _) hasks
    fun frame hf v rows next hv hrows hnext => ?_) hnil hrest
  obtain ⟨reason, rfl⟩ := hv
  obtain rfl : [Accounts.badge (.error reason)] = rows := Except.ok.inj hrows
  exact (hasked frame hf).2.user_of_matchRows hnext

/-- A guarded rule that asks for a user does nothing. -/
theorem isDiscreetRule_guarded (hp : ¬ IsOpen path)
    (hr : rule.IsGuarded path names (keep (.applicable (symbol rule.name "user")) :: rest))
    (hn : AreFields names) :
    (veil herds animals path token id serial).IsDiscreetRule (handlersAt depth reentries) rule := by
  intro log found hknown hfound frames hframes _
  have hasked : ∀ frame ∈ frames, IsAsked token rule.name frame := by
    intro frame hf
    obtain ⟨c, hc, rfl⟩ := hframes frame hf
    exact isAsked_of_mem_combinations hknown hr.patterns hn hfound hc
  rw [hr.stages]
  have hnone : (veil herds animals path token id serial).Keeps (Stage.applyAll
      (handlersAt depth reentries).adapters (authenticate AdapterCode.lookup rule.name
        ++ keep (.applicable (symbol rule.name "user")) :: rest) frames) (· = []) := by
    refine keeps_authenticate hp hasked rfl fun next hnext => ?_
    refine Veil.keeps_applyAll_cons (Veil.keeps_filter _) rfl fun kept hkept => ?_
    obtain rfl : kept = [] := List.eq_nil_iff_forall_not_mem.mpr fun frame hf => by
      obtain ⟨hmem, hholds⟩ := hkept frame hf
      have hreads : frame.Reads rule.name fun n => frame.get? (symbol rule.name n) := fun _ => rfl
      rw [hreads.holds_applicable (hnext frame hmem)] at hholds
      exact nomatch Except.ok.inj hholds
    cases rest <;> exact .pure rfl
  refine hnone.weaken ?_
  rintro _ rfl calls hcalls mine hm
  obtain rfl : [] = calls := Except.ok.inj hcalls
  exact nomatch hm

/-- A guarded rule that asks for nothing else and only responds. -/
theorem isDiscreetRule_guarded_respond (hp : ¬ IsOpen path) (hr : rule.IsGuarded path names rest)
    (hn : AreFields names)
    (hrest : ∀ adapter inputs outputs, .query adapter inputs outputs ∉ rest)
    (hactions : ∀ template ∈ rule.actions,
      template.concept = Rules.requesting ∧ template.action = "respond") :
    (veil herds animals path token id serial).IsDiscreetRule (handlersAt depth reentries) rule := by
  intro log found hknown hfound frames hframes _
  have hasked : ∀ frame ∈ frames, IsAsked token rule.name frame := by
    intro frame hf
    obtain ⟨c, hc, rfl⟩ := hframes frame hf
    exact isAsked_of_mem_combinations hknown hr.patterns hn hfound hc
  rw [hr.stages]
  have hkeeps : (veil herds animals path token id serial).Keeps (Stage.applyAll
      (handlersAt depth reentries).adapters (authenticate AdapterCode.lookup rule.name ++ rest)
        frames) fun _ => True :=
    keeps_authenticate hp hasked trivial fun next _ =>
      Veil.keeps_applyAll_of_no_query hrest next
  refine hkeeps.weaken fun kept _ calls hcalls mine hm call hc => ?_
  obtain ⟨frame, -, hfill⟩ := Rule.exists_frame_of_mem_dispatches hcalls mine hm
  obtain ⟨hconcept, haction⟩ := hactions call.1 (Rule.fill_of_mem_fillActions hfill call hc).1
  exact isDiscreet_respond hconcept haction

/-- A rule without queries that only responds. -/
theorem isDiscreetRule_respond
    (hstages : ∀ adapter inputs outputs, .query adapter inputs outputs ∉ rule.stages)
    (hactions : ∀ template ∈ rule.actions,
      template.concept = Rules.requesting ∧ template.action = "respond") :
    (veil herds animals path token id serial).IsDiscreetRule (handlersAt depth reentries) rule :=
  isDiscreetRule_plain hstages fun template ht _ =>
    isDiscreet_respond (hactions template ht).1 (hactions template ht).2

/-- The rules that turn requests down overlook herds and animals. -/
theorem isDiscreetRule_turnedDown (hp : ¬ IsOpen path) (route : String) {fields : List String}
    (hn : AreFields fields) : ∀ rule ∈ Scene.turnedDown route path fields,
      (veil herds animals path token id serial).IsDiscreetRule (handlersAt depth reentries)
        rule :=
  Scene.forall_mem_turnedDown
    (isDiscreetRule_guarded_respond hp (Scene.isGuarded_denied route path) (by decide)
      (by simp [keep]) (by simp [denied, respond, perform]))
    (isDiscreetRule_guarded hp (Scene.isGuarded_incomplete route path fields) hn)

/-- The rules of a route that carries out an action. -/
theorem isDiscreetRule_actionRoute {route : ActionRoute} (hs : route.IsSound kind)
    (hp : ¬ IsOpen route.path) : ∀ rule ∈ route.rules AdapterCode.lookup,
      (veil herds animals route.path token id serial).IsDiscreetRule (handlersAt depth reentries)
        rule := by
  rw [ActionRoute.rules_eq]
  simp only [List.forall_mem_cons, List.forall_mem_append]
  refine ⟨isDiscreetRule_guarded hp route.isGuarded_carryOut hs.fields,
    isDiscreetRule_turnedDown hp route.name hs.areFields,
    isDiscreetRule_respond (by simp [ActionRoute.succeeded]) ?_,
    isDiscreetRule_respond (by simp [ActionRoute.refused]) ?_, by simp⟩
  · simp [ActionRoute.succeeded, respond, perform]
  · simp [ActionRoute.refused, respond, perform]

/-- The rules of a route that asks a query. -/
theorem isDiscreetRule_queryRoute {route : QueryRoute} (hs : route.IsSound kind)
    (hp : ¬ IsOpen route.path) : ∀ rule ∈ route.rules AdapterCode.lookup,
      (veil herds animals route.path token id serial).IsDiscreetRule (handlersAt depth reentries)
        rule := by
  rw [QueryRoute.rules_eq]
  simp only [List.forall_mem_cons]
  exact ⟨isDiscreetRule_guarded hp (QueryRoute.isGuarded_answered ..) hs.fields,
    isDiscreetRule_guarded hp (QueryRoute.isGuarded_answered ..) hs.fields,
    isDiscreetRule_turnedDown hp route.name hs.fields⟩

/-- A rule for an open path that asks no adapter, and responds or concerns the accounts. -/
theorem isDiscreetRule_of_isOpen (hp : IsOpen path)
    (hstages : ∀ adapter inputs outputs, .query adapter inputs outputs ∉ rule.stages)
    (hactions : ∀ template ∈ rule.actions,
      template.concept = Rules.requesting ∧ template.action = "respond" ∨
        template.concept = Lookup.accounts ∧ Target.IsOwn template.action) :
    (veil herds animals path token id serial).IsDiscreetRule (handlersAt depth reentries) rule := by
  refine isDiscreetRule_plain hstages fun template ht _ => ?_
  rcases hactions template ht with ⟨hconcept, haction⟩ | ⟨hconcept, hown⟩
  · exact isDiscreet_respond hconcept haction
  · exact isDiscreet_of_isOpen hp hconcept hown

/-- The rules of registering or logging in. -/
theorem isDiscreetRule_enterRules {action : String} (hown : Target.IsOwn action) (result : String) :
    ∀ rule ∈ enterRules action result,
      (veil herds animals (accountPath action) token id serial).IsDiscreetRule
        (handlersAt depth reentries) rule := by
  have hp : IsOpen (accountPath action) := ⟨action, rfl⟩
  simp only [enterRules, List.forall_mem_cons]
  refine ⟨isDiscreetRule_of_isOpen hp ?_ ?_, isDiscreetRule_of_isOpen hp ?_ ?_,
    isDiscreetRule_of_isOpen hp ?_ ?_, isDiscreetRule_of_isOpen hp ?_ ?_, by simp⟩
  · simp [enter, keep]
  · simp [enter, perform, hown]
  · simp [enterIncomplete, missing]
  · simp [enterIncomplete, respond, perform]
  · simp [relay]
  · simp [relay, respond, perform]
  · simp [relay]
  · simp [relay, respond, perform]

/-- The rules of logging out. -/
theorem isDiscreetRule_logoutRules : ∀ rule ∈ logoutRules,
    (veil herds animals (accountPath "logout") token id serial).IsDiscreetRule
      (handlersAt depth reentries) rule := by
  have hp : IsOpen (accountPath "logout") := ⟨"logout", rfl⟩
  have hown : Target.IsOwn "logout" := by decide +kernel
  simp only [logoutRules, List.forall_mem_cons]
  refine ⟨isDiscreetRule_of_isOpen hp ?_ ?_, isDiscreetRule_of_isOpen hp ?_ ?_,
    isDiscreetRule_of_isOpen hp ?_ ?_, isDiscreetRule_of_isOpen hp ?_ ?_, by simp⟩
  · simp [leave, keep]
  · simp [leave, perform, hown]
  · simp [left]
  · simp [left, respond, perform]
  · simp [relay]
  · simp [relay, respond, perform]
  · simp [withoutToken]
  · simp [withoutToken, respond, perform]

/-- The rule that has the token verified. -/
theorem isDiscreetRule_statusVerify (hp : ¬ IsOpen statusPath) :
    (veil herds animals statusPath token id serial).IsDiscreetRule (handlersAt depth reentries)
      statusVerify := by
  intro log found hknown hfound frames hframes _
  refine Veil.keeps_applyAll_cons (Veil.keeps_filter _) (fun calls hcalls => ?_)
    fun kept hkept => .pure fun calls hcalls mine hm call hc => ?_
  · obtain rfl : [] = calls := Except.ok.inj hcalls
    exact nofun
  · obtain ⟨frame, hf, hfill⟩ := Rule.exists_frame_of_mem_dispatches hcalls mine hm
    obtain ⟨htemplate, hargs⟩ := Rule.fill_of_mem_fillActions hfill call hc
    obtain ⟨hmem, hholds⟩ := hkept frame hf
    obtain ⟨c, hc, rfl⟩ := hframes frame hmem
    have hpatterns : (statusVerify : Rule AdapterCode).patterns
        = [request (statusRoute ++ ".Verify") statusPath
          (vars (statusRoute ++ ".Verify") ["token"])] := rfl
    have hasked : IsAsked token (statusRoute ++ ".Verify") c.1 :=
      isAsked_of_mem_combinations hknown hpatterns (by decide) hfound hc
    obtain ⟨template, args⟩ := call
    obtain rfl := List.mem_singleton.mp htemplate
    -- the token is bound, so it is the one that was sent
    have hbound : c.1.get? (symbol (statusRoute ++ ".Verify") "token") = some token := by
      have hreads : c.1.Reads (statusRoute ++ ".Verify") fun n =>
          c.1.get? (symbol (statusRoute ++ ".Verify") n) := fun _ => rfl
      rw [hreads.holds_bound] at hholds
      obtain ⟨v, hv⟩ := Option.isSome_iff_exists.mp (by simpa using hholds)
      rw [hv]
      have htoken := hasked.token
      rw [hv] at htoken
      exact congrArg some htoken
    obtain rfl := fill_token hbound hargs
    exact isDiscreet_verify hp rfl rfl

/-- An answer without a user is no verification of one. -/
theorem match?_verification_ne {name : String} {event : Event} {out : Fields} {frame frame' : Frame}
    (hout : event.output = .object out) (hu : Table.get? "user" out = none) :
    (verification name "user").match? event frame ≠ .ok (some frame') := by
  intro hm
  unfold Pattern.match? at hm
  split at hm
  · obtain ⟨extended, -, hm⟩ := bind_eq_ok_iff.mp hm
    cases extended with
    | none => exact nomatch Except.ok.inj hm
    | some extended =>
      rw [hout] at hm
      have hnone : extended.unify? .required (vars name ["user"]) out = none := unify?_eq_none hu
      exact nomatch hnone.symm.trans (Except.ok.inj hm)
  · exact nomatch Except.ok.inj hm

/-- The rule that sets a status, which needs a user. -/
theorem isDiscreetRule_statusUpdate (hp : ¬ IsOpen statusPath) :
    (veil herds animals statusPath token id serial).IsDiscreetRule (handlersAt depth reentries)
      statusUpdate := by
  intro log found hknown hfound frames hframes hsome
  obtain ⟨frame, hf⟩ := List.exists_mem_of_ne_nil frames hsome
  obtain ⟨c, hc, -⟩ := hframes frame hf
  obtain ⟨event, he, before, after, hm⟩ := Pattern.exists_match?_of_mem_joinAll hfound hc
    (p := verification (statusRoute ++ ".Request") "user") (by simp [statusUpdate])
  obtain ⟨hconcept, haction⟩ := Pattern.kind_eq_of_concerns (Pattern.concerns_of_match? hm)
  obtain ⟨out, hout, hu⟩ := (hknown event he).verified hconcept haction hp
  exact absurd hm (match?_verification_ne hout hu)

/-- The rules of the route to the status of an animal. -/
theorem isDiscreetRule_statusRules (hp : ¬ IsOpen statusPath) : ∀ rule ∈ statusRules,
    (veil herds animals statusPath token id serial).IsDiscreetRule (handlersAt depth reentries)
      rule := by
  simp only [statusRules, List.forall_mem_cons]
  refine ⟨isDiscreetRule_statusVerify hp, isDiscreetRule_statusUpdate hp,
    isDiscreetRule_respond ?_ ?_, isDiscreetRule_respond ?_ ?_, isDiscreetRule_respond ?_ ?_,
    isDiscreetRule_respond ?_ ?_, isDiscreetRule_respond ?_ ?_, by simp⟩
  · simp [statusIncomplete, missing]
  · simp [statusIncomplete, respond, perform]
  · simp [statusDenied]
  · simp [statusDenied, respond, perform]
  · simp [statusUpdated]
  · simp [statusUpdated, respond, perform]
  · simp [statusRefused]
  · simp [statusRefused, respond, perform]
  · simp [withoutToken]
  · simp [withoutToken, respond, perform]

/-- Paths to other concepts are not open. -/
theorem not_isOpen {path : String}
    (h : ¬ ("/" ++ Lookup.accounts ++ "/").toList <+: path.toList) : ¬ IsOpen path := by
  rintro ⟨action, rfl⟩
  refine h ⟨action.toList, ?_⟩
  rw [accountPath, ← String.toList_append]

variable (herds animals path token id serial depth reentries) in
/-- Every rule overlooks herds and animals. -/
theorem isDiscreetRule_all : ∀ rule ∈ Rules.all AdapterCode.lookup,
    (veil herds animals path token id serial).IsDiscreetRule (handlersAt depth reentries)
      rule := by
  have hactions : ∀ kind, ∀ route ∈ actionsOf kind,
      ¬ ("/" ++ Lookup.accounts ++ "/").toList <+: route.path.toList := by
    intro kind
    cases kind <;> decide +kernel
  have hqueries : ∀ kind, ∀ route ∈ queriesOf kind,
      ¬ ("/" ++ Lookup.accounts ++ "/").toList <+: route.path.toList := by
    intro kind
    cases kind <;> decide +kernel
  have hstatus : ¬ ("/" ++ Lookup.accounts ++ "/").toList <+: statusPath.toList := by
    decide +kernel
  intro rule hr
  rw [all_eq] at hr
  obtain ⟨⟨p, rules⟩, hf, hrule⟩ := List.mem_flatMap.mp hr
  by_cases hpath : path = p
  · subst hpath
    rcases cases_of_mem_families hf with ⟨action, result, hm, rfl, rfl⟩ | ⟨rfl, rfl⟩ |
      ⟨kind, route, hm, rfl, rfl⟩ | ⟨kind, route, hm, rfl, rfl⟩ | ⟨rfl, rfl⟩
    · have hown : ∀ entry ∈ [("register", "user"), ("login", "token")], Target.IsOwn entry.1 := by
        decide +kernel
      exact isDiscreetRule_enterRules (hown _ hm) result rule hrule
    · exact isDiscreetRule_logoutRules rule hrule
    · exact isDiscreetRule_actionRoute (isSound_of_mem_actionsOf hm).1
        (not_isOpen (hactions kind route hm)) rule hrule
    · exact isDiscreetRule_queryRoute (isSound_of_mem_queriesOf hm).1
        (not_isOpen (hqueries kind route hm)) rule hrule
    · exact isDiscreetRule_statusRules (not_isOpen hstatus) rule hrule
  · exact isDiscreetRule_other (isFor_of_mem_families hf rule hrule) hpath

end Rules

/-! ### Rounds -/

/-- A request for the path with the token, invoked in the flow, with all that the rules do. -/
theorem overlooks_invoke {input : Fields} (hpath : Table.get? "path" input = some (.str path))
    (htoken : tokenOf input = token) :
    (veil herds animals path token id serial).Keeps
      (Engine.invoke (handlersAt depth reentries) Rules.requesting "request" (.object input)
        (some id)) fun _ => True := by
  have hown : Target.IsOwn "request" := by decide +kernel
  have hperform : (veil herds animals path token id serial).IsDiscreet (handlersAt depth reentries)
      (⟨Rules.requesting, "request", .null⟩, .object input) := by
    refine isDiscreet_perform .requests
      (fun fields output => fields = input ∧ ∃ rid, output = .object [("request", .str rid)])
      ⟨nofun, nofun⟩ rfl hown (fun fields hfields concept issued turn hk _ ht => ?_)
      fun fields output number _ hout => ⟨fun _ _ => ?_, fun h _ => ?_⟩
    · obtain rfl : input = fields := Except.ok.inj hfields
      exact ⟨Concept.bars_of_answer?_requests hk ht,
        fun a ha => ⟨rfl, Concept.exists_request_of_answer? hk ht ha⟩⟩
    · obtain ⟨rfl, rid, rfl⟩ := hout
      exact ⟨fields, .str rid, ⟨rfl, rfl, rfl, rfl⟩, hpath, htoken⟩
    · exact absurd (show Rules.requesting = Lookup.accounts from h) (by decide)
  have hdrain : (veil herds animals path token id serial).Keeps
      (Engine.drain (handlersAt depth reentries) id) fun _ => True :=
    Veil.keeps_drain (admits _ _)
      (isDiscreetRule_all herds animals path token id serial depth reentries)
  unfold Engine.invoke
  refine Ignores.bind (.pure rfl : Ignores _ _ _ (· = id)) fun name hname => ?_
  obtain rfl := hname
  exact hperform.bind fun event _ => hdrain.bind fun _ _ => .pure trivial

end World

end HerdBook
