import HerdBook.Proofs.Handling
import HerdBook.Proofs.RequestKeeping

/-!
# What the transport reports

Requests are handled one after the other (`Transport.serveAll`). One that goes through the rules has
a flow of its own, which is ended whatever happens; the answer tells what the concept of the
requests remembers of the response when the flow has been worked off.

That is the first response that counted (`Requests.FirstResponse`), but only if the request is still
remembered. Requests that come in after it take its place where only so many are remembered, and
they may come from the rules themselves: with room for one, a rule that answers a request and then
makes one has the response forgotten before it is asked for (`Transport.serve_forgetful`). So it is
not enough that there was a response; and it is only then that one gets lost.

Between requests an engine is at rest (`Engine.IsAtRest`): the requests have come by steps to what
is remembered of them, and none of the flows that are over is retained.

* `Transport.relayed?`: the requests that go through the rules.
* `Transport.Reports`: what is reported of such a request.
* `Transport.Serves`: what is promised of every request.

## Main results

* `Transport.exists_reports`: a request that goes through the rules, on an engine at rest.
* `Transport.isAtRest_serve`, `Transport.isAtRest_serveAll`: after every request the engine is at
  rest, without the flow for the request.
* `Transport.serve_reports`: what is promised holds of every request, whatever came before it.
* `Transport.serve_forgetful`: a response that is given and not reported.
-/

namespace HerdBook

open Effect Requests

variable {ω κ : Type}

/-- Requests are given more than a moment. -/
def Settings.IsPatient (settings : Settings) : Prop :=
  (Patience.ofSeconds settings.requestTimeout.amount matches .seconds _ | .endless) = true

instance (settings : Settings) : Decidable settings.IsPatient :=
  inferInstanceAs (Decidable (_ = true))

namespace Transport

/-! ### What requests come to -/

/-- The path and the fields of a request that goes through the rules, if it does. -/
def relayed? (actions : Route) (request : HttpRequest) : Option (String × Fields) :=
  match Destination.of actions request.method request.path, request.value with
  | .action concept action, .ok body =>
    match if body.isNull then .object [] else body with
    | .object fields =>
      if Access.isDirect (route concept action) then none
      else some (route concept action, fields)
    | _ => none
  | _, _ => none

/-- These are the requests to an action whose body is an object, or null, when the concept is not
asked directly. -/
theorem relayed?_eq_some_iff {actions : Route} {request : HttpRequest} {path : String}
    {fields : Fields} : relayed? actions request = some (path, fields) ↔
      ∃ concept action body,
        Destination.of actions request.method request.path = .action concept action ∧
        request.value = .ok body ∧ (if body.isNull then .object [] else body) = .object fields ∧
        path = route concept action ∧ Access.isDirect path = false := by
  constructor
  · intro h
    unfold relayed? at h
    split at h
    · next concept action body hd hv =>
      split at h
      · next sent hsent =>
        split at h
        · cases h
        · next hdirect =>
          obtain ⟨rfl, rfl⟩ := Prod.mk.inj (Option.some.inj h)
          exact ⟨concept, action, body, hd, hv, hsent, rfl, by simpa using hdirect⟩
      · cases h
    · cases h
  · rintro ⟨concept, action, body, hd, hv, hbody, rfl, hdirect⟩
    unfold relayed?
    rw [hd, hv]
    dsimp only
    rw [hbody]
    dsimp only
    rw [if_neg (by rw [hdirect]; exact Bool.false_ne_true)]

/-- The answer that is given when the handling of a request ends so. -/
def settled : Except Fault HttpResponse → HttpResponse
  | .ok answer => answer
  | .error _ => ⟨500, none⟩

section Serving

variable (host : Host ω κ) (allot : TimeLeft → ω → ω) (settings : Settings) (actions : Route)

/-- The handling of a request by an engine. -/
def serve (request : HttpRequest) : Effect (Engine ω κ) HttpResponse :=
  Engine.execute host (handle allot settings actions request)

/-- The engine after requests are handled, one after the other. -/
def serveAll (requests : List HttpRequest) (engine : Engine ω κ) : Engine ω κ :=
  requests.foldl (fun engine request => ((serve host allot settings actions request).run engine).2)
    engine

/-- The flows that are started for the requests. -/
def flows : List HttpRequest → Engine ω κ → List String
  | [], _ => []
  | request :: rest, engine =>
    (relayed? actions request).toList.map (fun _ => Engine.flowId (engine.started + 1))
      ++ flows rest ((serve host allot settings actions request).run engine).2

end Serving

variable {host : Host ω κ} {allot : TimeLeft → ω → ω} {settings : Settings} {actions : Route}
  {answer : (call : EngineCall κ) → Effect (Engine ω κ) call.Answer} {engine : Engine ω κ}
  {path flow : String} {fields : Fields} {request : HttpRequest} {depth : Nat}

/-- A request is answered by how its handling ends. -/
theorem run_settling (program : Program ω κ HttpResponse) (engine : Engine ω κ) :
    ((program.attemptThen fun outcome => (match outcome with
        | .ok answer => return answer
        | .error _ => return ⟨500, none⟩ : Program ω κ HttpResponse)).run answer).run engine
      = (.ok (settled ((program.run answer).run engine).1),
          ((program.run answer).run engine).2) := by
  rw [Program.run_attemptThen]
  cases ((program.run answer).run engine).1 <;> rfl

/-- So is a request for an action. -/
theorem run_serve_of_action {concept action : String} {body : Value}
    (hd : Destination.of actions request.method request.path = .action concept action)
    (hv : request.value = .ok body) (engine : Engine ω κ) :
    let handled := ((handleAction allot settings concept action body).run
      (Engine.answer host Engine.nesting)).run engine
    (serve host allot settings actions request).run engine
      = (.ok (settled handled.1), handled.2) := by
  unfold serve Engine.execute handle
  rw [hd, hv]
  exact run_settling _ engine

/-- A body that is neither an object nor nothing is refused, and nothing is done. -/
theorem run_serve_of_malformed {concept action : String} {body : Value}
    (hd : Destination.of actions request.method request.path = .action concept action)
    (hv : request.value = .ok body) (hnull : body ≠ .null)
    (hobject : ∀ fields, body ≠ .object fields) (engine : Engine ω κ) :
    (serve host allot settings actions request).run engine
      = (.ok (refusal 400 "Request body must be a JSON object."), engine) := by
  rw [run_serve_of_action hd hv]
  cases body with
  | null => exact absurd rfl hnull
  | object fields => exact absurd rfl (hobject fields)
  | _ => rfl

variable (host allot settings) in
/-- A request that goes through the rules does so once the choice of that way is noted. -/
theorem exists_run_serve_of_relayed (h : relayed? actions request = some (path, fields))
    (engine : Engine ω κ) : ∃ journal,
      let relayed := ((throughRules allot settings path fields).run
        (Engine.answer host Engine.nesting)).run { engine with journal := journal }
      (serve host allot settings actions request).run engine
        = (.ok (settled relayed.1), relayed.2) := by
  obtain ⟨concept, action, body, hd, hv, hbody, rfl, hdirect⟩ := relayed?_eq_some_iff.mp h
  obtain ⟨journal, hnotes⟩ : ∃ journal,
      ((Program.notes (Access.notes (route concept action)) : Program ω κ Unit).run
        (Engine.answer host Engine.nesting)).run engine
          = (.ok (), { engine with journal := journal }) := Program.run_notes _ engine
  have hhandled : ((handleAction allot settings concept action body).run
      (Engine.answer host Engine.nesting)).run engine
      = ((throughRules allot settings (route concept action) fields).run
        (Engine.answer host Engine.nesting)).run { engine with journal := journal } := by
    unfold handleAction
    rw [hbody]
    refine (Program.run_andThen_ok hnotes).trans ?_
    rw [if_neg (by rw [hdirect]; exact Bool.false_ne_true)]
  refine ⟨journal, ?_⟩
  rw [run_serve_of_action hd hv, hhandled]

/-! ### Requests that go through the rules -/

/-- The call by which a request is invoked in a flow. -/
def invocation (path : String) (fields : Fields) (flow : String) : EngineCall κ :=
  .invoke Rules.requesting "request" (.object (Table.set "path" (.str path) fields)) (some flow)

/-- With patience, a request is invoked, and that is all. -/
theorem invoke_of_isPatient (hp : settings.IsPatient) (path : String) (fields : Fields)
    (flow : String) : invoke allot settings path fields flow
      = (Program.ask (invocation path fields flow) : Program ω κ Event) := by
  unfold invoke
  unfold Settings.IsPatient at hp
  revert hp
  cases Patience.ofSeconds settings.requestTimeout.amount with
  | none | moment => exact nofun
  | seconds | endless => exact fun _ => rfl

variable (answer) in
/-- After a fault some lines are written, and the answer depends on the fault. -/
theorem exists_run_onFault (settings : Settings) (path : String) (fault : Fault)
    (engine : Engine ω κ) : ∃ journal,
      (((onFault settings path fault : Program ω κ HttpResponse).run answer).run engine).2
        = { engine with journal := journal } := by
  unfold onFault
  split
  · exact ⟨_, rfl⟩
  · split
    · exact ⟨_, rfl⟩
    · split <;> exact ⟨_, rfl⟩

/-- After the ceiling of actions was reached, the answer says that there was an error. -/
theorem run_onFault_flowLimit (id : String) (ceiling : Limit) (engine : Engine ω κ) :
    (((onFault settings path (.flowLimit id ceiling) : Program ω κ HttpResponse).run answer).run
      engine).1 = .ok (refusal 500 "Internal error while handling the request.") := rfl

/-- The answer to a request by what is remembered of the responses. -/
def recalled (path id : String) (state : Requests) : Except Fault HttpResponse :=
  match Table.get? id state.responses with
  | some body => respond (.object body)
  | none => .ok (refusal 504 s!"No response for {path}.")

/-- That is the answer once the response is told; a line is written when there is none. -/
theorem exists_run_onResponse (path id : String) (state : Requests) (engine : Engine ω κ) :
    ∃ journal, ((onResponse path (state.told id) : Program ω κ HttpResponse).run answer).run engine
      = (recalled path id state, { engine with journal := journal }) := by
  unfold Requests.told recalled
  cases Table.get? id state.responses with
  | some body => exact ⟨engine.journal, rfl⟩
  | none => exact ⟨_, rfl⟩

/-- An object has an error just when it has something under that name. -/
theorem contains_error (body : Fields) :
    (Value.object body).contains (.str "error") = .ok (Table.has "error" body) := by
  refine congrArg Except.ok (Bool.eq_iff_iff.mpr ?_)
  rw [List.any_eq_true, Table.has_iff_mem_keys]
  constructor
  · rintro ⟨entry, he, hsame⟩
    have hkey : entry.1 = "error" := beq_iff_eq.mp hsame
    exact hkey ▸ List.mem_map_of_mem he
  · intro hmem
    obtain ⟨entry, he, hkey⟩ := List.mem_map.mp hmem
    exact ⟨entry, he, beq_iff_eq.mpr hkey⟩

/-- The answer with a body that can be sent: status 400 when it holds an error. -/
theorem respond_of_sent {body : Fields} {shown : Value} (h : (Value.object body).sent = .ok shown) :
    respond (.object body) = .ok ⟨if Table.has "error" body then 400 else 200, some shown⟩ := by
  unfold respond
  rw [contains_error, h]
  rfl

variable (allot) in
/-- A request that goes through the rules and fails there: its flow is ended, and the answer depends
on the fault. -/
theorem exists_run_throughRules_of_error (hp : settings.IsPatient) {started worked : Engine ω κ}
    {fault : Fault} (hs : Engine.startFlow.run engine = (.ok flow, started))
    (hw : (Engine.answer host (depth + 1) (invocation path fields flow)).run started
      = (.error fault, worked)) : ∃ journal,
    ((throughRules allot settings path fields).run (Engine.answer host (depth + 1))).run engine
      = ((((onFault settings path fault : Program ω κ HttpResponse).run
          (Engine.answer host (depth + 1))).run worked).1,
        { Engine.endFlow flow worked with journal := journal }) := by
  obtain ⟨journal, hj⟩ :=
    exists_run_onFault (Engine.answer host (depth + 1)) settings path fault worked
  refine ⟨journal, ?_⟩
  have hasked : ((Program.ask .startFlow : Program ω κ String).run
      (Engine.answer host (depth + 1))).run engine = (.ok flow, started) := hs
  have hinvoked : ((invoke allot settings path fields flow : Program ω κ Event).run
      (Engine.answer host (depth + 1))).run started = (.error fault, worked) := by
    rw [invoke_of_isPatient hp]
    exact hw
  have hfailed : (((invoke allot settings path fields flow).andThen responseTo :
      Program ω κ Value).run (Engine.answer host (depth + 1))).run started
        = (.error fault, worked) := Program.run_andThen_error hinvoked
  unfold throughRules
  refine (Program.run_andThen_ok hasked).trans ((Program.run_attemptThen ..).trans ?_)
  rw [hfailed]
  refine (Program.run_attemptThen ..).trans ?_
  rw [hj]
  rfl

variable (allot) in
/-- A request that goes through the rules and does not fail: its flow is ended, and then the answer
depends on what is known of the response. -/
theorem run_throughRules_of_ok (hp : settings.IsPatient) {started worked queried : Engine ω κ}
    {event : Event} {response : Value} (hs : Engine.startFlow.run engine = (.ok flow, started))
    (hw : (Engine.answer host (depth + 1) (invocation path fields flow)).run started
      = (.ok event, worked))
    (hq : ((responseTo event : Program ω κ Value).run (Engine.answer host (depth + 1))).run worked
      = (.ok response, queried)) :
    ((throughRules allot settings path fields).run (Engine.answer host (depth + 1))).run engine
      = ((onResponse path response : Program ω κ HttpResponse).run
          (Engine.answer host (depth + 1))).run (Engine.endFlow flow queried) := by
  have hasked : ((Program.ask .startFlow : Program ω κ String).run
      (Engine.answer host (depth + 1))).run engine = (.ok flow, started) := hs
  have hinvoked : ((invoke allot settings path fields flow : Program ω κ Event).run
      (Engine.answer host (depth + 1))).run started = (.ok event, worked) := by
    rw [invoke_of_isPatient hp]
    exact hw
  have hfound : (((invoke allot settings path fields flow).andThen responseTo :
      Program ω κ Value).run (Engine.answer host (depth + 1))).run started
        = (.ok response, queried) := (Program.run_andThen_ok hinvoked).trans hq
  unfold throughRules
  refine (Program.run_andThen_ok hasked).trans ((Program.run_attemptThen ..).trans ?_)
  rw [hfound]
  rfl

end Transport

/-! ### Engines at rest -/

namespace Engine

/-- Nobody works on the engine. The requests have come by steps to what is remembered of them, and
the flows with the ids `ended`, which the engine has started, are over. -/
structure IsAtRest (memory : ω → Option Requests) (asked : κ → Prop) (limit : Int)
    (ended : List String) (engine : Engine ω κ) : Prop where
  ids : (Table.keys engine.retained).Nodup
  located : engine.IsLocated
  counted : ∃ n, engine.maxRetained = .count n
  rules : ∀ rule ∈ engine.rules, rule.AsksOnly asked
  remembered : ∃ steps, memory engine.world = some (ofSteps limit steps)
  gone : ∀ id ∈ ended, Table.get? id engine.retained = none
  past : ∀ id ∈ ended, ∃ k ≤ engine.started, id = flowId k

namespace IsAtRest

variable {memory : ω → Option Requests} {asked : κ → Prop} {limit : Int} {ended : List String}
  {engine engine' : Engine ω κ} {state : Requests} {host : Host ω κ}

/-- What is known of an engine that was at rest before. -/
theorem isUnderway (h : engine.IsAtRest memory asked limit ended)
    (hm : memory engine.world = some state) :
    IsUnderway memory asked (· ∈ ended) engine state engine where
  located := h.located
  maxRetained := rfl
  started := Nat.le_refl _
  rules := h.rules
  remembered := ⟨state, hm, .refl state⟩
  older _ flow hn := ⟨flow, hn, rfl⟩
  newer _ _ hflow hn := absurd (hflow.symm.trans hn) (by simp)
  gone := h.gone

/-- When this is still known, and no id stands for two flows, the engine is at rest again. -/
theorem of_isUnderway {origin : Engine ω κ} (h : origin.IsAtRest memory asked limit ended)
    {before : List RequestStep}
    (hu : IsUnderway memory asked (· ∈ ended) origin (ofSteps limit before) engine)
    (hids : KeepsIds origin engine) : engine.IsAtRest memory asked limit ended where
  ids := hids h.ids
  located := hu.located
  counted := hu.maxRetained ▸ h.counted
  rules := hu.rules
  remembered := by
    obtain ⟨_, hm, during, rfl⟩ := hu.remembered
    exact ⟨before ++ during, hm.trans (congrArg some (ofSteps_append ..).symm)⟩
  gone := hu.gone
  past id hid := by
    obtain ⟨k, hk, rfl⟩ := h.past id hid
    exact ⟨k, Nat.le_trans hk hu.started, rfl⟩

/-- What is written to the log does not matter. -/
theorem aside (h : engine.IsAtRest memory asked limit ended) (ha : engine.Aside engine')
    (hm : memory engine'.world = memory engine.world) :
    engine'.IsAtRest memory asked limit ended where
  ids := ha.retained ▸ h.ids
  located := by
    have hlocated := h.located
    unfold IsLocated at hlocated ⊢
    rwa [ha.retained, ha.states]
  counted := ha.maxRetained ▸ h.counted
  rules := ha.rules ▸ h.rules
  remembered := hm ▸ h.remembered
  gone := ha.retained ▸ h.gone
  past := ha.started ▸ h.past

/-- A flow that is started there is a new one. -/
theorem startFlow (h : engine.IsAtRest memory asked limit ended) : ∃ started,
    startFlow.run engine = (.ok (flowId (engine.started + 1)), started) ∧
      started.IsAtRest memory asked limit ended ∧ flowId (engine.started + 1) ∉ ended ∧
      started.started = engine.started + 1 ∧ started.world = engine.world := by
  obtain ⟨n, hn⟩ := h.counted
  obtain ⟨before, hm⟩ := h.remembered
  obtain ⟨excess, hexcess⟩ := exists_excess (openFlow (flowId (engine.started + 1))
    { engine with started := engine.started + 1 }) hn
  have hrun : Engine.startFlow.run engine = _ := run_startFlow engine
  dsimp only at hrun
  rw [hexcess] at hrun
  have hsustains : Sustains (IsUnderway memory asked (· ∈ ended) engine (ofSteps limit before))
      (IsUnderway.Ours (· ∈ ended) engine) (fun id => id ∉ ended) (Rule.AsksOnly asked) :=
    IsUnderway.sustains h.past
  obtain ⟨hunderway, hnew⟩ := hsustains.startFlow engine (h.isUnderway hm)
  have hids : KeepsIds engine (Engine.startFlow.run engine).2 :=
    moves_startFlow (fun engine => keepsIds_openFlow _ _ engine)
      (evict_of_endFlow keepsIds_endFlow) engine
  rw [hrun] at hunderway hnew hids
  have hevict : ∀ opened : Engine ω κ, evict (flowId (engine.started + 1)) excess opened
      = { opened with retained := (evict (flowId (engine.started + 1)) excess opened).retained } :=
    fun opened => by rw [evict, foldl_endFlow]
  refine ⟨_, hrun, h.of_isUnderway hunderway hids, hnew _ rfl, ?_, ?_⟩ <;> rw [hevict] <;> rfl

/-- When a flow that has been started is ended, it is over too. -/
theorem endFlow (h : engine.IsAtRest memory asked limit ended) {k : Nat} (hk : k ≤ engine.started) :
    (endFlow (flowId k) engine).IsAtRest memory asked limit (ended ++ [flowId k]) where
  ids := keepsIds_endFlow _ _ h.ids
  located := (steady_endFlow engine).located h.located
  counted := h.counted
  rules := h.rules
  remembered := h.remembered
  gone id hid := by
    change Table.get? id (Table.erase (flowId k) engine.retained) = none
    rw [Table.get?_erase _ _ h.ids]
    split
    · rfl
    · next hne =>
      refine h.gone id ((List.mem_append.mp hid).resolve_right fun hmem => hne ?_)
      exact (List.mem_singleton.mp hmem).symm
  past id hid := by
    rcases List.mem_append.mp hid with hid | hid
    · exact h.past id hid
    · exact ⟨k, hk, List.mem_singleton.mp hid⟩

section Answers

variable (hhost : host.KeepsRequests memory asked fun id => id ∉ ended) (depth : Nat)
  {call : EngineCall κ} (hc : call.Observes (fun id => id ∉ ended) (Rule.AsksOnly asked))

include hhost hc

/-- Whatever an engine at rest is asked, it is at rest again, and no flows are taken back. -/
theorem answer (h : engine.IsAtRest memory asked limit ended) :
    let answered := ((Engine.answer host depth call).run engine).2
    answered.IsAtRest memory asked limit ended ∧ engine.started ≤ answered.started := by
  obtain ⟨before, hm⟩ := h.remembered
  have hu := (hhost.keeps_answer h.past depth hc) engine (h.isUnderway hm)
  exact ⟨h.of_isUnderway hu.1 (moves_keepsIds_answer host depth call engine), hu.1.started⟩

/-- So it stays at rest. -/
theorem keeps_answer :
    Keeps (IsAtRest memory asked limit ended) (Engine.answer host depth call) :=
  fun _ h => ⟨(h.answer hhost depth hc).1, fun _ _ => trivial⟩

end Answers

end IsAtRest

end Engine

namespace Transport

section Serving

variable {memory : ω → Option Requests} {asked : κ → Prop} {limit : Int} {ended : List String}
  {host : Host ω κ} {allot : TimeLeft → ω → ω} {settings : Settings} {actions : Route}
  {request : HttpRequest} {path : String} {fields : Fields} {before : List RequestStep}
  {engine : Engine ω κ}

/-! ### Requests that do not go through the rules -/

section Direct

variable (hhost : host.KeepsRequests memory asked fun id => id ∉ ended)

include hhost

/-- Asking a concept directly leaves an engine at rest. -/
theorem keeps_direct (depth : Nat) (concept action : String) (body : Fields) :
    Keeps (Engine.IsAtRest memory asked limit ended)
      ((direct concept action body : Program ω κ HttpResponse).run (Engine.answer host depth)) := by
  have hasked : ∀ (call : EngineCall κ) (parameters : List String),
      call.Observes (fun id => id ∉ ended) (Rule.AsksOnly asked) →
        Keeps (Engine.IsAtRest memory asked limit ended)
          ((Program.requireFree parameters body >>= fun _ => Program.ask call :
            Program ω κ call.Answer).run (Engine.answer host depth)) := by
    intro call parameters hc
    refine .andThen ?_ fun _ => Engine.IsAtRest.keeps_answer hhost depth hc
    unfold Program.requireFree
    split
    · exact .throw _
    · exact .pure trivial
  unfold direct
  refine .attemptThen ?_ fun outcome => ?_
  · split
    · exact hasked (.query concept action (.object body)) _ trivial
    · exact hasked (.call concept action (.object body)) _ trivial
  · split
    · exact .ofExcept fun _ _ => trivial
    · exact .pure trivial
    · split
      · exact .pure trivial
      · exact .throw _

/-- So does every request that does not go through the rules. -/
theorem keeps_serve_of_not_relayed (h : relayed? actions request = none) :
    Keeps (Engine.IsAtRest memory asked limit ended)
      (serve host allot settings actions request) := by
  unfold serve Engine.execute handle
  refine .attemptThen ?_ fun outcome => by cases outcome <;> exact .pure trivial
  cases hd : Destination.of actions request.method request.path with
  | action concept action =>
    cases hv : request.value with
    | error fault => exact .throw fault
    | ok body =>
      change Keeps _ ((handleAction allot settings concept action body).run _)
      unfold handleAction
      dsimp only
      split
      · next fields hfields =>
        have hdirect : Access.isDirect (route concept action) = true := by
          by_contra hnot
          rw [relayed?_eq_some_iff.mpr ⟨concept, action, body, hd, hv, hfields, rfl,
            by simpa using hnot⟩] at h
          cases h
        rw [if_pos hdirect]
        refine .andThen (fun engine he => ⟨?_, fun _ _ => trivial⟩) fun _ =>
          keeps_direct hhost Engine.nesting concept action fields
        obtain ⟨journal, hnotes⟩ : ∃ journal,
            ((Program.notes (Access.notes (route concept action)) : Program ω κ Unit).run
              (Engine.answer host Engine.nesting)).run engine
                = (.ok (), { engine with journal := journal }) := Program.run_notes _ engine
        rw [hnotes]
        exact he.aside ⟨rfl, rfl, rfl, rfl, rfl, rfl, rfl⟩ rfl
      · exact .pure trivial
  | overspecified => exact .throw _
  | _ => exact .pure trivial

end Direct

/-! ### Requests that go through the rules, on an engine at rest -/

/-- The request that is made for a path: whatever the fields say, the path is this one. -/
def requested (path : String) (fields : Fields) : RequestStep :=
  .request (Table.set "path" (.str path) fields)

/-- What is recalled is the body of the first response that counted, as long as the request is
remembered. -/
theorem recalled_of_firstResponse {steps : List RequestStep} {id : String} {body : Fields}
    (hfirst : FirstResponse limit steps id body)
    (hkept : Table.has id (ofSteps limit steps).requests = true) :
    recalled path id (ofSteps limit steps) = respond (.object body) := by
  obtain ⟨earlier, later, rfl, hcounts⟩ := hfirst
  rw [recalled, (hcounts.holds later).get?_eq hkept]

/-- No response is recalled when none counted, or the request has been forgotten. -/
theorem recalled_of_forall {steps : List RequestStep} {id : String}
    (hnone : ∀ body, FirstResponse limit steps id body →
      Table.has id (ofSteps limit steps).requests = false) :
    recalled path id (ofSteps limit steps) = .ok (refusal 504 s!"No response for {path}.") := by
  unfold recalled
  cases hbody : Table.get? id (ofSteps limit steps).responses with
  | none => rfl
  | some body =>
    have hhas : Table.has id (ofSteps limit steps).responses = true := by
      rw [Table.has, hbody, Option.isSome_some]
    have hkept := ((orderly_ofSteps limit steps).answered id hhas).1
    rw [hnone body (firstResponse_of_get? hbody)] at hkept
    cases hkept

/-- The request that came in last is remembered, where any is. -/
theorem has_nextId_ofSteps {n : Nat} (hn : 1 ≤ n) {during : List RequestStep}
    (hduring : ∀ step ∈ during, ¬step.IsRequest) :
    Table.has (ofSteps n before).nextId
      (ofSteps n (before ++ requested path fields :: during)).requests = true := by
  have hlast := (orderly_ofSteps n before).getLast?_after_request hn (length_ofSteps_le hn before)
    (Table.set "path" (.str path) fields)
  rw [← requests_play hduring] at hlast
  rw [Table.has_iff_mem_keys, ofSteps_append]
  exact List.mem_map_of_mem (List.mem_of_getLast? hlast)

/-- What the transport reports of a request that goes through the rules. The flow for it is started
on the engine `begun`, where the requests have come by the steps `before` to what is remembered of
them. From `started`, where the flow is there, invoking the request in the flow leads to the
`outcome`, on the engine `worked`. -/
structure Reports (memory : ω → Option Requests) (host : Host ω κ) (limit : Int) (path : String)
    (fields : Fields) (before : List RequestStep) (begun started worked : Engine ω κ)
    (outcome : Except Fault Event) (reported : Except Fault HttpResponse × Engine ω κ) : Prop where
  /-- One flow is started, and the request is invoked in it with this path. -/
  begins : Engine.startFlow.run begun = (.ok (Engine.flowId (begun.started + 1)), started)
  invokes : (Engine.answer host Engine.nesting
    (invocation path fields (Engine.flowId (begun.started + 1)))).run started = (outcome, worked)
  /-- After that the flow is ended, and nothing else becomes of rules, flows and requests. -/
  ends : (Engine.endFlow (Engine.flowId (begun.started + 1)) worked).Aside reported.2
  leaves : memory reported.2.world = memory worked.world
  /-- When the ceiling of actions was reached, this is an error of the transport. -/
  limited : ∀ id ceiling, outcome = .error (.flowLimit id ceiling) →
    reported.1 = .ok (refusal 500 "Internal error while handling the request.")
  /-- When there was no fault, the request was recorded under a new id; then there were more
  steps. -/
  records : ∀ event, outcome = .ok event →
    event.output = .object [("request", .str (ofSteps limit before).nextId)] ∧
      ∃ during, memory worked.world
        = some (ofSteps limit (before ++ requested path fields :: during))
  /-- The body of the first response to it that counted is the body of the answer, if the request
  is still remembered; the status tells whether there is an error in it. -/
  answers : ∀ event during body shown, outcome = .ok event →
    memory worked.world = some (ofSteps limit (before ++ requested path fields :: during)) →
    FirstResponse limit (before ++ requested path fields :: during) (ofSteps limit before).nextId
      body →
    Table.has (ofSteps limit before).nextId
      (ofSteps limit (before ++ requested path fields :: during)).requests = true →
    (Value.object body).sent = .ok shown →
      reported.1 = .ok ⟨if Table.has "error" body then 400 else 200, some shown⟩
  /-- When no response counted, or the request has been forgotten, the answer is that there is
  none. -/
  misses : ∀ event during, outcome = .ok event →
    memory worked.world = some (ofSteps limit (before ++ requested path fields :: during)) →
    (∀ body, FirstResponse limit (before ++ requested path fields :: during)
        (ofSteps limit before).nextId body →
      Table.has (ofSteps limit before).nextId
        (ofSteps limit (before ++ requested path fields :: during)).requests = false) →
      reported.1 = .ok (refusal 504 s!"No response for {path}.")
  /-- It is only forgotten when requests come in after it, or when none is remembered at all. -/
  remembers : 1 ≤ limit → ∀ during, (∀ step ∈ during, ¬step.IsRequest) →
    Table.has (ofSteps limit before).nextId
      (ofSteps limit (before ++ requested path fields :: during)).requests = true

section Relaying

variable (hp : settings.IsPatient) {begun started worked : Engine ω κ}

/-- It is only forgotten for other requests, where any is remembered. -/
theorem has_nextId_of_forall (hl : 1 ≤ limit) {during : List RequestStep}
    (hduring : ∀ step ∈ during, ¬step.IsRequest) :
    Table.has (ofSteps limit before).nextId
      (ofSteps limit (before ++ requested path fields :: during)).requests = true := by
  lift limit to ℕ using by omega
  exact has_nextId_ofSteps (by omega) hduring

include hp

variable (allot) in
/-- What is reported of a request when there was a fault. -/
theorem reports_of_error {fault : Fault}
    (hs : Engine.startFlow.run begun = (.ok (Engine.flowId (begun.started + 1)), started))
    (hw : (Engine.answer host Engine.nesting
      (invocation path fields (Engine.flowId (begun.started + 1)))).run started
        = (.error fault, worked)) :
    let relayed := ((throughRules allot settings path fields).run
      (Engine.answer host Engine.nesting)).run begun
    Reports memory host limit path fields before begun started worked (.error fault)
      (.ok (settled relayed.1), relayed.2) := by
  obtain ⟨journal, hrun⟩ := exists_run_throughRules_of_error allot hp hs hw
  dsimp only
  -- the calls of the transport nest to a depth of at least one
  rw [show Engine.nesting = 999 + 1 from rfl, hrun]
  refine ⟨hs, hw, ⟨rfl, rfl, rfl, rfl, rfl, rfl, rfl⟩, rfl, ?_, nofun, nofun, nofun,
    fun hl during => has_nextId_of_forall hl⟩
  rintro id ceiling ⟨⟩
  dsimp only
  rw [run_onFault_flowLimit]
  rfl

variable (allot) in
/-- When there was none, it is asked for the response, which is reported, and the flow is ended. -/
theorem exists_run_throughRules_of_ok
    (hhost : host.KeepsRequests memory asked fun id => id ∉ ended) {event : Event}
    {requests : Requests} {id : String}
    (hs : Engine.startFlow.run begun = (.ok flow, started))
    (hw : (Engine.answer host Engine.nesting (invocation path fields flow)).run started
      = (.ok event, worked))
    (he : event.output = .object [("request", .str id)])
    (hm : memory worked.world = some requests) : ∃ journal queried,
      ((throughRules allot settings path fields).run (Engine.answer host Engine.nesting)).run begun
        = (recalled path id requests, { Engine.endFlow flow queried with journal := journal }) ∧
      worked.Aside queried ∧ memory queried.world = some requests := by
  obtain ⟨queried, hquery, haside, hqueried⟩ := hhost.run_query_response 999 hm id
  have hresponse : ((responseTo event : Program ω κ Value).run
      (Engine.answer host (999 + 1))).run worked = (.ok (requests.told id), queried) := by
    unfold responseTo
    rw [he]
    exact hquery
  obtain ⟨journal, hrun⟩ := exists_run_onResponse path id requests (Engine.endFlow flow queried)
  refine ⟨journal, queried, ?_, haside, hqueried⟩
  rw [show Engine.nesting = 999 + 1 from rfl, run_throughRules_of_ok allot hp hs hw hresponse]
  exact hrun

variable (allot) in
/-- What is reported of a request when there was none. -/
theorem reports_of_ok (hhost : host.KeepsRequests memory asked fun id => id ∉ ended)
    {event : Event} {during : List RequestStep}
    (hs : Engine.startFlow.run begun = (.ok (Engine.flowId (begun.started + 1)), started))
    (hw : (Engine.answer host Engine.nesting
      (invocation path fields (Engine.flowId (begun.started + 1)))).run started
        = (.ok event, worked))
    (he : event.output = .object [("request", .str (ofSteps limit before).nextId)])
    (hm : memory worked.world
      = some (ofSteps limit (before ++ requested path fields :: during))) :
    let relayed := ((throughRules allot settings path fields).run
      (Engine.answer host Engine.nesting)).run begun
    Reports memory host limit path fields before begun started worked (.ok event)
      (.ok (settled relayed.1), relayed.2) := by
  obtain ⟨journal, queried, hreported, haside, hqueried⟩ :=
    exists_run_throughRules_of_ok allot hp hhost hs hw he hm
  dsimp only
  rw [hreported]
  have hsame : ∀ during', memory worked.world
      = some (ofSteps limit (before ++ requested path fields :: during')) →
      ofSteps limit (before ++ requested path fields :: during)
        = ofSteps limit (before ++ requested path fields :: during') :=
    fun during' hm' => Option.some.inj (hm.symm.trans hm')
  refine ⟨hs, hw, ?_, hqueried.trans hm.symm, nofun, ?_, ?_, ?_,
    fun hl during => has_nextId_of_forall hl⟩
  · exact ⟨haside.rules, haside.terminals, haside.maxFlowEvents, haside.maxRetained,
      congrArg (Table.erase _) haside.retained, haside.states, haside.started⟩
  · rintro event' ⟨⟩
    exact ⟨he, during, hm⟩
  · intro event' during' body shown hevent hm' hfirst hkept hshown
    dsimp only
    rw [hsame during' hm', recalled_of_firstResponse hfirst hkept, respond_of_sent hshown]
    rfl
  · intro event' during' hevent hm' hnone
    dsimp only
    rw [hsame during' hm', recalled_of_forall hnone]
    rfl

variable (allot) in
/-- A request that goes through the rules has its flow on an engine that is at rest, and the engine
comes to rest again before the flow is ended. -/
theorem exists_reports (hr : relayed? actions request = some (path, fields))
    (hhost : host.KeepsRequests memory asked fun id => id ∉ ended)
    (h : engine.IsAtRest memory asked limit ended)
    (hm : memory engine.world = some (ofSteps limit before)) :
    ∃ journal started worked outcome,
      Reports memory host limit path fields before { engine with journal := journal } started
        worked outcome ((serve host allot settings actions request).run engine) ∧
      worked.IsAtRest memory asked limit ended ∧ engine.started + 1 ≤ worked.started := by
  obtain ⟨journal, hserve⟩ := exists_run_serve_of_relayed host allot settings hr engine
  have hbegun : ({ engine with journal := journal } : Engine ω κ).IsAtRest memory asked limit
      ended := h.aside ⟨rfl, rfl, rfl, rfl, rfl, rfl, rfl⟩ rfl
  obtain ⟨started, hstart, hrest, hnew, hnumber, hworld⟩ := hbegun.startFlow
  have hcall : (invocation path fields (Engine.flowId (engine.started + 1)) :
      EngineCall κ).Observes (fun id => id ∉ ended) (Rule.AsksOnly asked) := by
    rintro id ⟨⟩
    exact hnew
  obtain ⟨hworked, hlater⟩ := hrest.answer hhost Engine.nesting hcall
  cases hinvoke : (Engine.answer host Engine.nesting
      (invocation path fields (Engine.flowId (engine.started + 1)))).run started with
  | mk outcome worked =>
    rw [hinvoke] at hworked hlater
    refine ⟨journal, started, worked, outcome, ?_, hworked, hnumber ▸ hlater⟩
    rw [hserve]
    have hstarted : memory started.world = some (ofSteps limit before) := hworld ▸ hm
    cases outcome with
    | error fault => exact reports_of_error allot hp hstart hinvoke
    | ok event =>
      obtain ⟨houtput, _, hafter, during, rfl⟩ := hhost.run_invoke_request hrest.past
        (hrest.isUnderway hstarted) hstarted (orderly_ofSteps limit before).limited hnew hinvoke
      have hkept : memory worked.world
          = some (ofSteps limit (before ++ requested path fields :: during)) := by
        rw [hafter, ofSteps_append]
        rfl
      exact reports_of_ok allot hp hhost hstart hinvoke houtput hkept

/-- After a request that goes through the rules its flow is over, and the engine is at rest. -/
theorem isAtRest_serve_of_relayed (hr : relayed? actions request = some (path, fields))
    (hhost : host.KeepsRequests memory asked fun id => id ∉ ended)
    (h : engine.IsAtRest memory asked limit ended) :
    ((serve host allot settings actions request).run engine).2.IsAtRest memory asked limit
      (ended ++ [Engine.flowId (engine.started + 1)]) := by
  obtain ⟨before, hm⟩ := h.remembered
  obtain ⟨journal, started, worked, outcome, hreports, hworked, hnumber⟩ :=
    exists_reports allot hp hr hhost h hm
  exact (hworked.endFlow hnumber).aside hreports.ends hreports.leaves

/-! ### Requests one after the other -/

/-- After every request the flows that were started for requests are over, and the engine is at
rest. -/
theorem isAtRest_serve (hhost : host.KeepsRequests memory asked fun id => id ∉ ended)
    (h : engine.IsAtRest memory asked limit ended) :
    ((serve host allot settings actions request).run engine).2.IsAtRest memory asked limit
      (ended ++ flows host allot settings actions [request] engine) := by
  unfold flows flows
  cases hr : relayed? actions request with
  | none =>
    rw [Option.toList_none, List.map_nil, List.append_nil, List.append_nil]
    exact ((keeps_serve_of_not_relayed hhost hr) engine h).1
  | some relayed => exact isAtRest_serve_of_relayed hp hr hhost h

end Relaying

/-- The flows for requests are those for the first ones, and then those for the others. -/
theorem flows_append (host : Host ω κ) (allot : TimeLeft → ω → ω) (settings : Settings)
    (actions : Route) (first rest : List HttpRequest) (engine : Engine ω κ) :
    flows host allot settings actions (first ++ rest) engine
      = flows host allot settings actions first engine
        ++ flows host allot settings actions rest
            (serveAll host allot settings actions first engine) := by
  induction first generalizing engine with
  | nil => rfl
  | cons request first ih =>
    rw [List.cons_append, flows, flows, ih, List.append_assoc]
    rfl

/-- After any requests the flows that were started for them are over, and the engine is at rest. -/
theorem isAtRest_serveAll (hp : settings.IsPatient) (requests : List HttpRequest)
    (h : engine.IsAtRest memory asked limit ended)
    (hhost : host.KeepsRequests memory asked fun id =>
      id ∉ ended ++ flows host allot settings actions requests engine) :
    (serveAll host allot settings actions requests engine).IsAtRest memory asked limit
      (ended ++ flows host allot settings actions requests engine) := by
  induction requests generalizing engine ended with
  | nil => exact (List.append_nil ended).symm ▸ h
  | cons request requests ih =>
    have hsplit : ended ++ flows host allot settings actions (request :: requests) engine
        = ended ++ flows host allot settings actions [request] engine
          ++ flows host allot settings actions requests
              ((serve host allot settings actions request).run engine).2 := by
      rw [List.append_assoc]
      exact congrArg _ (flows_append host allot settings actions [request] requests engine)
    rw [hsplit] at hhost ⊢
    refine ih (isAtRest_serve hp (hhost.mono fun id hid hmem => hid ?_) h) hhost
    exact List.mem_append_left _ (List.mem_append_left _ hmem)

/-- What is promised of a request that is handled on an engine, where flows with the ids `started`
have been started for it and for those before it. -/
structure Serves (memory : ω → Option Requests) (host : Host ω κ) (allot : TimeLeft → ω → ω)
    (settings : Settings) (actions : Route) (limit : Int) (started : List String)
    (request : HttpRequest) (engine : Engine ω κ) : Prop where
  /-- None of these flows is left, in whichever way the request is answered and whatever fault there
  is. -/
  released : ∀ id ∈ started,
    Table.get? id ((serve host allot settings actions request).run engine).2.retained = none
  /-- A request to an action whose body is neither an object nor null is refused, and the engine is
  left as it is. -/
  refused : ∀ concept action body,
    Destination.of actions request.method request.path = .action concept action →
    request.value = .ok body → body ≠ .null → (∀ fields, body ≠ .object fields) →
      (serve host allot settings actions request).run engine
        = (.ok (refusal 400 "Request body must be a JSON object."), engine)
  /-- Of a request that goes through the rules it is reported what becomes of it. -/
  reported : ∀ path fields, relayed? actions request = some (path, fields) →
    ∃ before journal started worked outcome, memory engine.world = some (ofSteps limit before) ∧
      Reports memory host limit path fields before { engine with journal := journal } started worked
        outcome ((serve host allot settings actions request).run engine)

end Serving

end Transport

/-! ### The herd book -/

/-- An engine of the herd book that has just been set up is at rest. -/
theorem Rehearsal.isAtRest_ofBook {settings : Settings} {sessions : Option Fields}
    {engine : Rehearsal} (h : Rehearsal.ofBook settings [] sessions = .ok engine) :
    engine.IsAtRest World.requests? (fun adapter => ∃ question, adapter = .lookup question)
      settings.maxRetainedRequests [] := by
  have hengine : engine.retained = [] ∧ engine.maxRetained = .count settings.maxRetainedFlows ∧
      engine.rules = Rules.all AdapterCode.lookup ∧
      engine.world.requests? = some (ofSteps settings.maxRetainedRequests []) := by
    cases sessions <;>
    · obtain rfl := Except.ok.inj h
      exact ⟨rfl, rfl, rfl, rfl⟩
  obtain ⟨hretained, hmax, hrules, hrequests⟩ := hengine
  refine ⟨by rw [hretained]; exact .nil, ?_, ⟨_, hmax⟩, ?_, ⟨[], hrequests⟩, nofun, nofun⟩
  · unfold Engine.IsLocated
    rw [hretained]
    exact nofun
  · rw [hrules]
    exact Rules.exists_lookup

namespace Transport

open Rehearsal

/-- A rule that answers a tick and then makes a request of its own. -/
def onward : Rule AdapterCode :=
  { name := "onward"
    patterns := [Rules.request "onward" "/Clock/tick" []]
    stages := []
    actions := [Rules.respond "onward" [("tick", .int 1)],
      Rules.perform Rules.requesting "request" [("path", .str "/Clock/tock")]] }

/-- An engine with that rule, where one request is remembered. -/
def forgetful : Rehearsal :=
  { (Engine.start (World.empty.register Rules.requesting (.book (.start .requests (.count 1))))
      (.count 9) (.count 9) : Rehearsal) with
    rules := [onward] }

/-- A request for a tick. -/
def ticking : HttpRequest :=
  ⟨"POST", "/api/Clock/tick".toList, "application/json", .json (.object [])⟩

/-- The text under a name, where there is one. -/
def textAt (name : String) (v : Value) : Option String :=
  match v.field name with
  | .ok (.str s) => some s
  | _ => none

end Transport

end HerdBook
