import HerdBook.Proofs.Seclusion
import HerdBook.Transport.Handle
import Mathlib.Data.List.Basic

/-!
# Requests of strangers

What the transport does with a request whose token is nobody's, from its path and its body to the
answer and the end of the flow. It neither changes the herds and the animals, nor is the answer told
by them: it is the same whatever they are.

* `Rehearsal.IsStranger` says of a request that nobody is logged in with its token.
* `Rehearsal.Guards` is what is known of the engine outside of a flow.

## Main results

* `Transport.overlooks_throughRules`, `Transport.overlooks_direct`: the two ways in which an action
  is handled.
* `Rehearsal.handle_overlooks`: herds and animals are neither changed nor told.
-/

namespace HerdBook

open Effect Rules

/-! ### Flows that begin and end -/

/-- Letting flows go does not concern the world. -/
theorem Engine.evict_withWorld {ω κ : Type} (keep : String) (excess : Nat) (engine : Engine ω κ)
    (world : ω) :
    evict keep excess (engine.withWorld world) = (evict keep excess engine).withWorld world ∧
      (evict keep excess engine).world = engine.world := by
  have hends : ∀ (ids : List String) (engine : Engine ω κ),
      ids.foldl (fun acc id => acc.endFlow id) (engine.withWorld world)
          = (ids.foldl (fun acc id => acc.endFlow id) engine).withWorld world ∧
        (ids.foldl (fun acc id => acc.endFlow id) engine).world = engine.world := by
    intro ids
    induction ids with
    | nil => exact fun _ => ⟨rfl, rfl⟩
    | cons id ids ih => exact fun engine => ih (engine.endFlow id)
  exact hends ((engine.idle keep).take excess) engine

/-- A flow is started alike whatever the world is. -/
theorem Engine.overlooks_startFlow {ω κ : Type} (hide : ω → ω) :
    Ignores (fun engine => engine.withWorld (hide engine.world)) (fun _ => True)
      (startFlow : Effect (Engine ω κ) String) fun _ => True := by
  unfold startFlow
  refine .get_bind fun engine _ => ⟨rfl, ?_⟩
  have hopen : Ignores (fun engine : Engine ω κ => engine.withWorld (hide engine.world))
      (fun _ => True) (modify fun other => openFlow (flowId (engine.started + 1))
        { other with started := other.started + 1 }) fun _ => True :=
    .modify fun _ _ => ⟨rfl, trivial⟩
  refine hopen.bind fun _ _ => .get_bind fun opened _ => ⟨rfl, ?_⟩
  split
  · exact .throw _
  · next excess _ =>
    have hevict : Ignores (fun engine : Engine ω κ => engine.withWorld (hide engine.world))
        (fun _ => True) (modify (evict (flowId (engine.started + 1)) excess)) fun _ => True := by
      refine .modify fun other _ => ⟨?_, trivial⟩
      obtain ⟨hsame, hworld⟩ := evict_withWorld (flowId (engine.started + 1)) excess other
        (hide other.world)
      rw [hsame, hworld]
    exact hevict.bind fun _ _ => .pure trivial

/-! ### Engines and requests -/

/-- The engine has the rules of the herd book, and its world bars the token. -/
structure Rehearsal.Guards (path : String) (token : Value) (engine : Rehearsal) : Prop where
  world : engine.world.Bars path token
  rules : engine.rules = Rules.all AdapterCode.lookup

/-- That is said of nothing but the world and the rules. -/
theorem Rehearsal.bars_guards (path : String) (token : Value) :
    Rehearsal.Bars path token (Rehearsal.Guards path token) where
  world _ hs := hs.world
  withWorld _ _ hs hw := ⟨hw, hs.rules⟩
  note _ _ hs := ⟨hs.world, hs.rules⟩

namespace Transport

variable {herds animals : Store} {path : String} {token : Value} {P : Rehearsal → Prop}
  {id : String} {serial depth : Nat} {settings : Settings} {body input : Fields}
  {answer : (call : EngineCall AdapterCode) → Effect Rehearsal call.Answer}

section Parts

variable (hP : Rehearsal.Bars path token P)
include hP

/-- Work for which there is only a moment. -/
theorem overlooks_withinMoment {α : Type} {work : ScriptProgram α} {Q : α → Prop}
    (h : Ignores (Rehearsal.withStores herds animals) P (work.run answer) Q) :
    Ignores (Rehearsal.withStores herds animals) P
      ((withinMoment World.allot work).run answer) Q := by
  have hallot : ∀ timeLeft, Ignores (Rehearsal.withStores herds animals) P
      ((Program.ofEffect (modify (World.allot timeLeft)) : ScriptProgram PUnit).run answer)
        fun _ => True :=
    fun timeLeft => World.overlooks_modify hP fun world hw => ⟨rfl, hw.allot timeLeft⟩
  unfold withinMoment
  refine .andThen (hallot _) fun _ _ => .attemptThen h fun outcome ho => ?_
  exact .andThen (hallot _) fun _ _ => .ofExcept fun a ha => ho a (mapError_eq_ok_iff.mp ha)

/-- The answer after a fault. -/
theorem overlooks_onFault (settings : Settings) (path : String) (fault : Fault) :
    Ignores (Rehearsal.withStores herds animals) P
      ((onFault settings path fault : ScriptProgram HttpResponse).run answer) fun _ => True := by
  have hnotes : ∀ lines (response : HttpResponse), Ignores (Rehearsal.withStores herds animals) P
      (((Program.notes lines : ScriptProgram Unit) >>= fun _ => pure response).run answer)
        fun _ => True :=
    fun lines _ => .andThen (World.overlooks_notes hP lines) fun _ _ => .pure trivial
  unfold onFault
  split
  · exact hnotes _ _
  · split
    · exact hnotes _ _
    · split
      · exact hnotes _ _
      · exact .throw _

/-- The answer by what is known of the response. -/
theorem overlooks_onResponse (path : String) (response : Value) :
    Ignores (Rehearsal.withStores herds animals) P
      ((onResponse path response : ScriptProgram HttpResponse).run answer) fun _ => True := by
  unfold onResponse
  refine .andThen (.ofExcept fun _ _ => trivial) fun refused _ => ?_
  split
  · exact .andThen (World.overlooks_notes hP _) fun _ _ => .pure trivial
  · split
    · split
      · exact .throw _
      · exact .ofExcept fun _ _ => trivial
    · exact .throw _

/-- The response to a request that has been recorded. -/
theorem overlooks_responseTo (event : Event) :
    Ignores (Rehearsal.withStores herds animals) P
      ((responseTo event : ScriptProgram Value).run (Engine.answer World.host (depth + 1)))
        fun _ => True := by
  have hown : Target.IsOwn "_getResponse" := by decide +kernel
  unfold responseTo
  refine .andThen (.ofExcept fun _ _ => trivial) fun id _ => ?_
  exact World.overlooks_query .requests hP ⟨nofun, nofun⟩ hown (by decide +kernel)
    fun concept issued turn hk _ ht =>
      ⟨Concept.bars_of_answer?_requests hk ht, fun _ _ => trivial⟩

end Parts

/-- A request that is invoked in its flow. -/
theorem overlooks_invoke (htoken : tokenOf body = token) :
    (World.veil herds animals path token id serial).Keeps
      ((invoke World.allot settings path body id : ScriptProgram Event).run
        (Engine.answer World.host (depth + 2))) fun _ => True := by
  have hpath : Table.get? "path" (Table.set "path" (.str path) body) = some (.str path) := by
    rw [Table.get?_set, if_pos rfl]
  have hset : tokenOf (Table.set "path" (.str path) body) = token := by
    rw [tokenOf, Table.get?_set, if_neg (by decide)]
    exact htoken
  have hwork : (World.veil herds animals path token id serial).Keeps
      ((Program.ask (.invoke Rules.requesting "request"
        (.object (Table.set "path" (.str path) body)) (some id)) : ScriptProgram Event).run
          (Engine.answer World.host (depth + 2))) fun _ => True :=
    .ask (World.overlooks_invoke hpath hset)
  unfold invoke
  dsimp only
  split
  · exact .throw _
  · exact overlooks_withinMoment World.bars_holds hwork
  · exact hwork
  · exact hwork

/-- A flow is ended whatever the world is. -/
theorem overlooks_endFlow {engine : Rehearsal}
    (hs : (World.veil herds animals path token id serial).Holds engine) (name : String) :
    IgnoresAt (Rehearsal.withStores herds animals) (Rehearsal.Guards path token)
      ((Program.ask (.endFlow name) : ScriptProgram Unit).run
        (Engine.answer World.host (depth + 1))) (fun _ => True) engine :=
  ⟨rfl, ⟨hs.fine, hs.rules⟩, fun _ _ => trivial⟩

/-- The answer to a request that ended in a fault, and the end of its flow. -/
theorem overlooks_afterFault {engine : Rehearsal}
    (hs : (World.veil herds animals path token id serial).Holds engine) (settings : Settings)
    (fault : Fault) :
    IgnoresAt (Rehearsal.withStores herds animals) (fun _ => True)
      (((onFault settings path fault : ScriptProgram HttpResponse).attemptThen fun outcome =>
        (Program.ask (.endFlow id)).andThen fun _ => .ofExcept outcome).run
          (Engine.answer World.host (depth + 1))) (fun _ => True) engine := by
  have hfault : (World.veil herds animals path token id serial).Keeps
      ((onFault settings path fault : ScriptProgram HttpResponse).run
        (Engine.answer World.host (depth + 1))) fun _ => True :=
    overlooks_onFault World.bars_holds settings path fault
  refine (hfault engine hs).attemptThen fun outcome told htold => ?_
  exact (overlooks_endFlow (hfault.keeps_of_run hs htold) id).andThen
    (fun _ _ _ => ⟨rfl, trivial, fun _ _ => trivial⟩) fun _ _ => trivial

/-- The end of a flow that came to a response, and the answer to the request. -/
theorem overlooks_afterResponse {engine : Rehearsal}
    (hs : (World.veil herds animals path token id serial).Holds engine) (response : Value) :
    IgnoresAt (Rehearsal.withStores herds animals) (fun _ => True)
      (((Program.ask (.endFlow id) : ScriptProgram Unit).andThen fun _ =>
        onResponse path response).run (Engine.answer World.host (depth + 1)))
      (fun _ => True) engine := by
  have hend : IgnoresAt (Rehearsal.withStores herds animals) (Rehearsal.Guards path token)
      ((Program.ask (.endFlow id) : ScriptProgram Unit).run
        (Engine.answer World.host (depth + 1))) (fun _ => True) engine :=
    overlooks_endFlow hs id
  refine hend.andThen (fun _ ended hended => ?_) fun _ _ => trivial
  have hguards : Rehearsal.Guards path token ended := by
    have hkeeps := hend.keeps
    rwa [hended] at hkeeps
  exact (overlooks_onResponse (Rehearsal.bars_guards path token) path response ended
    hguards).weaken (fun _ _ => trivial) fun _ h => h

/-- A request that goes through the rules. -/
theorem overlooks_throughRules {engine : Rehearsal} (hs : engine.Guards path token)
    (htoken : tokenOf body = token) :
    IgnoresAt (Rehearsal.withStores herds animals) (fun _ => True)
      ((throughRules World.allot settings path body : ScriptProgram HttpResponse).run
        (Engine.answer World.host (depth + 2))) (fun _ => True) engine := by
  unfold throughRules
  have hstart : Ignores (Rehearsal.withStores herds animals) (fun _ => True)
      ((Program.ask .startFlow : ScriptProgram String).run (Engine.answer World.host (depth + 2)))
        fun _ => True :=
    .ask (Engine.overlooks_startFlow (World.withStores herds animals))
  refine (hstart engine trivial).andThen (fun id begun hrun => ?_) fun _ _ => trivial
  obtain ⟨serial, hhosts, hsetup⟩ := Engine.run_startFlow_hosts hrun
  have hholds : (World.veil herds animals path token id serial).Holds begun :=
    ⟨hsetup.rules.trans hs.rules, hsetup.world ▸ hs.world, _, hhosts, nofun⟩
  have hasked : (World.veil herds animals path token id serial).Keeps
      (((invoke World.allot settings path body id : ScriptProgram Event).andThen responseTo).run
        (Engine.answer World.host (depth + 2))) fun _ => True :=
    .andThen (overlooks_invoke htoken) fun event _ =>
      overlooks_responseTo World.bars_holds event
  refine (hasked begun hholds).attemptThen fun outcome answered hanswered => ?_
  have hholds₁ := hasked.keeps_of_run hholds hanswered
  cases outcome with
  | error fault => exact overlooks_afterFault hholds₁ settings fault
  | ok response => exact overlooks_afterResponse hholds₁ response

/-- The only direct route is the one to the names of users. -/
theorem eq_of_isDirect {concept action : String} (h : Access.isDirect (route concept action)) :
    concept = Lookup.accounts ∧ action = "_getUsername" := by
  have hdirect : Access.inclusions.map (·.1) = [route Lookup.accounts "_getUsername"] := by
    decide +kernel
  have hmem := (Bool.and_eq_true_iff.mp h).2
  rw [hdirect, List.contains_iff_mem, List.mem_singleton] at hmem
  have hlist := congrArg String.toList hmem.symm
  simp only [route, String.toList_append, List.append_assoc] at hlist
  have hconcept : '/' ∉ Lookup.accounts.toList := by decide
  have haction : '/' ∉ "_getUsername".toList := by decide
  have hparts := (List.append_cons_inj_of_notMem hconcept haction).mp
    (List.append_cancel_left hlist)
  exact ⟨(String.toList_inj.mp hparts.1).symm, (String.toList_inj.mp hparts.2.2).symm⟩

/-- A request that is answered by the concept itself. -/
theorem overlooks_direct {concept action : String} (h : Access.isDirect (route concept action))
    (body : Fields) :
    Ignores (Rehearsal.withStores herds animals) (Rehearsal.Guards (route concept action) token)
      ((direct concept action body : ScriptProgram HttpResponse).run
        (Engine.answer World.host (depth + 1))) fun _ => True := by
  obtain ⟨rfl, rfl⟩ := eq_of_isDirect h
  have hown : Target.IsOwn "_getUsername" := by decide +kernel
  have hquery : "_getUsername".startsWith "_" = true := by decide +kernel
  have hopen : IsOpen (route Lookup.accounts "_getUsername") := ⟨"_getUsername", rfl⟩
  have hasked : Ignores (Rehearsal.withStores herds animals)
      (Rehearsal.Guards (route Lookup.accounts "_getUsername") token)
      ((Program.query Lookup.accounts "_getUsername" body : ScriptProgram Value).run
        (Engine.answer World.host (depth + 1))) fun _ => True :=
    World.overlooks_query .accounts (Rehearsal.bars_guards _ token) ⟨nofun, nofun⟩ hown
      hquery fun concept issued turn _ _ _ => ⟨Concept.bars_of_isOpen hopen, fun _ _ => trivial⟩
  unfold direct
  rw [hquery]
  refine .attemptThen hasked fun outcome _ => ?_
  split
  · exact .ofExcept fun _ _ => trivial
  · exact .pure trivial
  · split
    · exact .pure trivial
    · exact .throw _

/-- A request to an action, when nobody is logged in with its token. -/
theorem overlooks_handleAction {engine : Rehearsal} (concept action : String) {body : Value}
    (hs : ∀ fields, (if body.isNull then .object [] else body) = .object fields →
      engine.Guards (route concept action) (tokenOf fields)) :
    IgnoresAt (Rehearsal.withStores herds animals) (fun _ => True)
      ((handleAction World.allot settings concept action body : ScriptProgram HttpResponse).run
        (Engine.answer World.host (depth + 2))) (fun _ => True) engine := by
  unfold handleAction
  dsimp only
  split
  · next fields hfields =>
    have hnotes : Ignores (Rehearsal.withStores herds animals)
        (Rehearsal.Guards (route concept action) (tokenOf fields))
        ((Program.notes (Access.notes (route concept action)) : ScriptProgram Unit).run
          (Engine.answer World.host (depth + 2))) fun _ => True :=
      World.overlooks_notes (Rehearsal.bars_guards _ _) _
    refine (hnotes engine (hs fields hfields)).andThen (fun _ noted hnoted => ?_)
      fun _ _ => trivial
    have hguards := hnotes.keeps_of_run (hs fields hfields) hnoted
    split
    · next hdirect =>
      exact (overlooks_direct hdirect fields noted hguards).weaken (fun _ _ => trivial)
        fun _ h => h
    · exact overlooks_throughRules hguards rfl
  · exact ⟨rfl, trivial, fun _ _ => trivial⟩

end Transport

/-! ### Strangers -/

/-- Nobody is logged in with the token of the request: its body has none, or one that is no key of
a session. -/
def Rehearsal.IsStranger (engine : Rehearsal) (request : HttpRequest) : Prop :=
  ∀ accounts, engine.world.member? Lookup.accounts = some (.book (.accounts accounts)) →
    ∀ fields key, request.value = .ok (.object fields) →
      Table.get? "token" fields = some (.str key) → Table.get? key accounts.sessions = none

namespace Rehearsal

variable {settings : Settings} {engine : Rehearsal} {request : HttpRequest}

/-- What is known of the engine when a stranger's request comes in. -/
theorem IsStranger.guards (hs : engine.IsStranger request) (hb : engine.IsBook settings)
    {body : Value} (hv : request.value = .ok body) (path : String) {fields : Fields}
    (hf : (if body.isNull then .object [] else body) = Value.object fields) :
    engine.Guards path (tokenOf fields) := by
  refine ⟨⟨fun entry he => ?_, hb.world.registered, ?_⟩, hb.rules⟩
  · obtain ⟨concept, rfl, -⟩ := hb.world.members entry he
    exact ⟨concept, rfl⟩
  · rintro _ hm - accounts rfl
    refine Accounts.excludes_of_get?_eq_none fun ht key hkey => ?_
    cases htoken : Table.get? "token" fields with
    | none =>
      rw [tokenOf, htoken] at ht
      exact nomatch ht
    | some v =>
      obtain rfl : v = .str key := by rwa [tokenOf, htoken] at hkey
      refine hs accounts hm fields key ?_ htoken
      rw [hv]
      split at hf
      · obtain rfl := Value.object.inj hf
        exact nomatch htoken
      · rw [hf]

/-- The request of a stranger is handled alike whatever the herds and the animals are. -/
theorem overlooks_handle (hb : engine.IsBook settings) (hs : engine.IsStranger request)
    (herds animals : Store) (settings' : Settings) (actions : Route) :
    IgnoresAt (Rehearsal.withStores herds animals) (fun _ => True)
      (Engine.execute World.host (Transport.handle World.allot settings' actions request))
      (fun _ => True) engine := by
  unfold Transport.handle
  have hanswered : ∀ (answered : ScriptProgram HttpResponse) finish,
      IgnoresAt (Rehearsal.withStores herds animals) (fun _ => True)
        (answered.run (Engine.answer World.host Engine.nesting)) (fun _ => True) engine →
      (∀ outcome, ∃ response, finish outcome = (return response : ScriptProgram HttpResponse)) →
      IgnoresAt (Rehearsal.withStores herds animals) (fun _ => True)
        (Engine.execute World.host (answered.attemptThen finish)) (fun _ => True) engine := by
    intro answered finish h hfinish
    refine h.attemptThen fun outcome ended _ => ?_
    obtain ⟨response, hresponse⟩ := hfinish outcome
    rw [hresponse]
    exact ⟨rfl, trivial, fun _ _ => trivial⟩
  refine hanswered _ _ ?_ fun outcome => by cases outcome <;> exact ⟨_, rfl⟩
  split
  · cases hv : request.value with
    | error fault => exact ⟨rfl, trivial, fun _ _ => trivial⟩
    | ok body =>
      -- the calls of the transport nest to a depth of at least two
      have hnesting : Engine.nesting = 998 + 2 := rfl
      rw [hnesting]
      exact Transport.overlooks_handleAction _ _ fun fields hf => hs.guards hb hv _ hf
  all_goals exact ⟨rfl, trivial, fun _ _ => trivial⟩

/-- Herds and animals are neither changed by the request of a stranger nor told by the answer: with
others in their place all goes the same way. -/
theorem handle_overlooks (hb : engine.IsBook settings) (hs : engine.IsStranger request)
    (settings' : Settings) (actions : Route) :
    let handle := (Engine.execute World.host
      (Transport.handle World.allot settings' actions request)).run
    (∀ kind : Concept.Kind, kind = .herds ∨ kind = .animals →
        (handle engine).2.world.member? kind.name = engine.world.member? kind.name) ∧
      ∀ herds animals, handle (Rehearsal.withStores herds animals engine)
        = ((handle engine).1, Rehearsal.withStores herds animals (handle engine).2) := by
  intro handle
  refine ⟨?_, fun herds animals => (overlooks_handle hb hs herds animals settings' actions).same⟩
  obtain ⟨herdsConcept, hherds, hkind, -⟩ := hb.world.exists_member .herds
  obtain ⟨animalsConcept, hanimals, hkind', -⟩ := hb.world.exists_member .animals
  cases herdsConcept with
  | requests | accounts | animals => exact nomatch hkind
  | herds herds =>
  cases animalsConcept with
  | requests | accounts | herds => exact nomatch hkind'
  | animals animals =>
  -- put in place of themselves, they are what they were
  have hself : Rehearsal.withStores herds animals engine = engine :=
    congrArg engine.withWorld (World.withStores_self hherds hanimals)
  have hsame := (overlooks_handle hb hs herds animals settings' actions).same
  rw [hself] at hsame
  have hafter := World.member?_of_withStores
    (congrArg (fun ran => ran.2.world) hsame).symm
  rintro kind (rfl | rfl)
  · exact hafter.1.trans hherds.symm
  · exact hafter.2.trans hanimals.symm

/-- A request to create a herd that has the name of a user in place of a token, and a user and a
path of its own. -/
def intrusion : HttpRequest :=
  ⟨"POST", "/api/HerdGrouping/createHerd".toList, "application/json",
    .json (.object [("token", .str "u"), ("name", .str "Ewes"), ("user", .str "u"),
      ("path", .str "/UserAuthentication/login")])⟩

/-- Where the actions are in the standard settings. -/
def standardRoute : Route :=
  "/api/".toList.map RoutePiece.char ++ [.opening "concept" (.segment 1 none), .char '/',
    .opening "action" (.segment 1 none)]

/-- Such a request on an engine that has just been set up, with a session of the user. -/
theorem handle_overlooks_createHerd : ∃ engine : Rehearsal,
    Rehearsal.ofBook .standard [] (some [("t", .str "u")]) = .ok engine ∧
      IsBook .standard engine ∧ IsStranger engine intrusion ∧
      let handle := (Engine.execute World.host
        (Transport.handle World.allot .standard standardRoute intrusion)).run
      (∀ kind : Concept.Kind, kind = .herds ∨ kind = .animals →
          (handle engine).2.world.member? kind.name = engine.world.member? kind.name) ∧
        ∀ herds animals, handle (Rehearsal.withStores herds animals engine)
          = ((handle engine).1, Rehearsal.withStores herds animals (handle engine).2) := by
  obtain ⟨engine, hengine⟩ : ∃ engine,
      Rehearsal.ofBook .standard [] (some [("t", .str "u")]) = .ok engine := ⟨_, rfl⟩
  have hb : IsBook .standard engine := isBook_of_ofBook _ hengine (by
    rintro _ ⟨⟩ entry he
    obtain rfl := List.mem_singleton.mp he
    rfl)
  have haccounts : engine.world.member? Lookup.accounts
      = some (.book (.accounts ⟨.empty, [("t", .str "u")], 0⟩)) := by
    obtain rfl := Except.ok.inj hengine
    rfl
  have hs : IsStranger engine intrusion := by
    intro accounts hm fields key hv ht
    obtain rfl := Concept.accounts.inj (Member.book.inj (Option.some.inj
      (haccounts.symm.trans hm)))
    unfold HttpRequest.value at hv
    split at hv
    · exact nomatch Except.ok.inj hv
    · obtain rfl := Value.object.inj (Except.ok.inj hv)
      obtain rfl := Value.str.inj (Option.some.inj ht)
      rfl
  exact ⟨engine, hengine, hb, hs, handle_overlooks hb hs .standard standardRoute⟩

end Rehearsal

end HerdBook
