import HerdBook.Proofs.AccountRoutes
import HerdBook.Proofs.ActionRoutes
import HerdBook.Proofs.Queries
import HerdBook.Proofs.QueryRoutes
import HerdBook.Proofs.StatusRoutes
import HerdBook.Rules.Book

/-!
# A pass over all rules

The rules of the herd book are those of its routes, one route after the other. A request is for the
path of one route, whose rules conclude it: there is one response, or there is none and a fault is
recorded. The rules of the other routes do nothing.

## Main results

* `ActionRoute.exists_plays`, `QueryRoute.exists_plays`: the rules of one route.
* `Rules.plays_all`: a pass over all rules is one over those of the route.
* `Rules.exists_plays_all`: every request is concluded.
-/

namespace HerdBook

open Effect Rules

open Scene

variable {venue : Venue} {scene : Scene} {input : Fields} {rid : String} {depth reentries : Nat}

namespace ActionRoute

variable {route : ActionRoute} {kind : Concept.Kind} {concept : Concept} {user : Value}
  {turn : Concept.Turn}

/-- Whatever the action is called with is something. -/
theorem isNotApplicable_of_mem_args (hj : Value.FieldsAreJson input)
    (huser : user.isNotApplicable = false) :
    ∀ entry ∈ route.args user input, entry.2.isNotApplicable = false := by
  intro entry he
  rcases List.mem_append.mp he with he | he
  · rcases List.mem_cons.mp he with rfl | he
    · exact huser
    · obtain ⟨n, -, rfl⟩ := List.mem_map.mp he
      exact getD_isNotApplicable hj rfl n
  · obtain ⟨n, -, rfl⟩ := List.mem_map.mp he
    exact getD_isNotApplicable hj rfl n

/-- Once the action is called, the rules conclude the request as its turn is. -/
theorem Calling.exists_closes (h : route.Calling venue scene input rid kind user concept turn)
    (hproper : turn.IsProper route.success) :
    ∃ after, PlaysRules venue (World.handlersAt depth reentries)
      (route.rules AdapterCode.lookup) scene after ∧ after.Closes venue input rid := by
  have hevent : ∀ out, ∀ event ∈ [route.event venue user input out],
      event.concept ≠ requesting := fun out event he => by
    rw [List.mem_singleton.mp he]
    exact h.sound.concept_ne
  cases hproper with
  | failed hfault hord =>
    obtain ⟨after, hplays, hends⟩ := h.exists_plays_failed hfault hord
    exact ⟨after, hplays, h.opens.closes_fault hends.log (by rw [hends.faults]; simp)⟩
  | refused hout =>
    obtain ⟨after, response, hplays, hends, hr⟩ := h.exists_plays_refused hout rfl
    exact ⟨after, hplays, h.opens.closes_response _ hr (hevent _) (by simp) hends.log⟩
  | succeeded hout herror hshown =>
    obtain ⟨after, response, hplays, hends, hr⟩ := h.exists_plays_succeeded hout herror hshown
    exact ⟨after, hplays, h.opens.closes_response _ hr (hevent _) (by simp) hends.log⟩

/-- The rules of the route conclude a request for its path. -/
theorem exists_plays (hs : route.IsSound kind)
    (hoffered : (route.action, route.success) ∈ kind.offered)
    (ho : scene.Opens venue input rid route.path) (ha : scene.ledger.accounts.Sound)
    (hc : scene.ledger.concept? kind = some concept) (hsound : concept.Sound) :
    ∃ after, PlaysRules venue (World.handlersAt depth reentries)
      (route.rules AdapterCode.lookup) scene after ∧ after.Closes venue input rid := by
  cases hwho : scene.ledger.accounts.standing (tokenOf input) with
  | error fault =>
    obtain ⟨after, faults, hplays, hends, hne⟩ := exists_plays_unverifiable hs ho hwho
    exact ⟨after, hplays, ho.closes_fault hends.log (hends.faults ▸ hne)⟩
  | ok who =>
  cases who with
  | error reason =>
    obtain ⟨after, hplays, hends⟩ := exists_plays_denied hs ho (identifies_of_standing hwho)
    exact ⟨after, hplays, ho.closes_response [] (isResponse_response ..) (by simp) (by simp)
      hends.log⟩
  | ok user =>
  have huser := ha.standing hwho
  by_cases hl : route.lacking input = []
  · obtain ⟨turn, hturn, hproper⟩ := Concept.exists_turn _ _ _ _ hsound
      ((Ledger.kind_of_concept? hc).1.symm ▸ hoffered)
      (isNotApplicable_of_mem_args ho.json huser) scene.ledger.issued
    exact Calling.exists_closes ⟨hs, ho, hwho, huser, hl, hc, hturn⟩ hproper
  · obtain ⟨after, hplays, hends⟩ := exists_plays_incomplete hs ho hwho huser hl
    exact ⟨after, hplays, ho.closes_response [] (isResponse_response ..) (by simp) (by simp)
      hends.log⟩

end ActionRoute

namespace QueryRoute

variable {route : QueryRoute} {kind : Concept.Kind} {concept : Concept} {user : Value}

variable (route) in
/-- Whatever the query is asked with is something. -/
theorem isNotApplicable_of_mem_args (hj : Value.FieldsAreJson input)
    (huser : user.isNotApplicable = false) :
    ∀ entry ∈ route.args user input, entry.2.isNotApplicable = false := by
  refine List.forall_mem_cons.mpr ⟨huser, fun entry he => ?_⟩
  obtain ⟨n, -, rfl⟩ := List.mem_map.mp he
  exact getD_isNotApplicable hj rfl n

variable {turn second : Concept.Turn}

/-- The rules of the route conclude a request for which the query is asked twice, when the answers do
not differ where both are there. -/
theorem Asking.exists_closes (h : route.Asking venue scene input rid kind user concept turn)
    (ho : scene.Opens venue input rid route.path)
    (hsecond : turn.concept.answer? route.query (route.args user input) turn.issued = some second)
    (hfirst : turn.IsProper route.result) (hlast : second.IsProper route.result)
    (hagree : ∀ a b, turn.outcome = .ok a → second.outcome = .ok b → a = b) :
    ∃ after, PlaysRules venue (World.handlersAt depth reentries)
      (route.rules AdapterCode.lookup) scene after ∧ after.Closes venue input rid := by
  have hclosed : ∀ {after : Scene} {faults : List FlowFault} {ledger : Ledger},
      after.Ends scene.log faults ledger → faults ≠ [] → after.Closes venue input rid :=
    fun hends hne => ho.closes_fault hends.log (hends.faults ▸ hne)
  by_cases hsuccess : ∃ out notes, turn.outcome = .ok ⟨.object out, notes⟩ ∧
      Table.get? "error" out = none
  · obtain ⟨out, notes, hout, herror⟩ := hsuccess
    obtain ⟨after, response, hplays, hends, hr⟩ := h.exists_plays_succeeded ho hsecond hout herror
      (hfirst.shown hout herror) hlast fun out' notes' hout' => by
        obtain ⟨h, -⟩ := Answer.mk.inj (hagree _ _ hout hout')
        exact Value.object.inj h ▸ herror
    exact ⟨after, hplays, ho.closes_response [] hr (by simp) (by simp) hends.log⟩
  have hnot : ∀ out notes, turn.outcome = .ok ⟨.object out, notes⟩ →
      Table.get? "error" out ≠ none := fun out notes hout herror =>
    hsuccess ⟨out, notes, hout, herror⟩
  cases hlast with
  | refused hout =>
    obtain ⟨after, response, hplays, hends, hr⟩ := h.exists_plays_refused ho hsecond hfirst hnot
      hout rfl
    exact ⟨after, hplays, ho.closes_response [] hr (by simp) (by simp) hends.log⟩
  | failed hfault hord =>
    obtain ⟨after, hplays, hends⟩ := h.exists_plays_unanswered ho hsecond hfirst hnot
      (.failed hfault hord) (by simp [hfault])
    exact ⟨after, hplays, hclosed hends (by simp [hfault, faults])⟩
  | succeeded hout herror hshown =>
    obtain ⟨after, hplays, hends⟩ := h.exists_plays_unanswered ho hsecond hfirst hnot
      (.succeeded hout herror hshown) fun out' notes' hout' => by
        obtain ⟨h, -⟩ := Answer.mk.inj (Except.ok.inj (hout.symm.trans hout'))
        exact Value.object.inj h ▸ herror
    refine ⟨after, hplays, hclosed hends ?_⟩
    -- the first answer is no success, so that it is a fault
    cases hfirst with
    | failed hfault => simp [hfault, faults]
    | refused hout' =>
      obtain ⟨h, -⟩ := Answer.mk.inj (hagree _ _ hout' hout)
      rw [← Value.object.inj h] at herror
      exact absurd herror (by simp [Table.get?])
    | succeeded hout' herror' => exact absurd herror' (hnot _ _ hout')

/-- The rules of the route conclude a user's request that lacks no field. The query is asked twice,
of the same documents: both answers are the same, but for an order to fail that the first one or the
second one meets. -/
theorem exists_plays_asked (hs : route.IsSound kind)
    (hoffered : (route.query, route.result) ∈ kind.offered) (hquery : route.query ∈ kind.queries)
    (ho : scene.Opens venue input rid route.path)
    (hwho : scene.ledger.accounts.standing (tokenOf input) = .ok (.ok user))
    (huser : user.isNotApplicable = false) (hl : route.lacking input = [])
    (hc : scene.ledger.concept? kind = some concept) (hsound : concept.Sound) :
    ∃ after, PlaysRules venue (World.handlersAt depth reentries)
      (route.rules AdapterCode.lookup) scene after ∧ after.Closes venue input rid := by
  have hkind := (Ledger.kind_of_concept? hc).1
  have hargs := isNotApplicable_of_mem_args route ho.json huser
  obtain ⟨turn, second, hturn, hsecond, hagree, -⟩ := Concept.exists_turns_of_query hquery hkind
    (route.args user input) scene.ledger.issued
  have hkind' : turn.concept.kind = kind := (Concept.kind_of_answer? hturn).trans hkind
  exact (asking_of_opens hs ho hwho huser hl hc hturn).exists_closes ho hsecond
    (Concept.isProper_of_answer? hsound (hkind.symm ▸ hoffered) hargs hturn)
    (Concept.isProper_of_answer? (hsound.turn hturn) (hkind'.symm ▸ hoffered) hargs hsecond) hagree

/-- The rules of the route conclude a request for its path. -/
theorem exists_plays (hs : route.IsSound kind)
    (hoffered : (route.query, route.result) ∈ kind.offered) (hquery : route.query ∈ kind.queries)
    (ho : scene.Opens venue input rid route.path) (ha : scene.ledger.accounts.Sound)
    (hc : scene.ledger.concept? kind = some concept) (hsound : concept.Sound) :
    ∃ after, PlaysRules venue (World.handlersAt depth reentries)
      (route.rules AdapterCode.lookup) scene after ∧ after.Closes venue input rid := by
  cases hwho : scene.ledger.accounts.standing (tokenOf input) with
  | error fault =>
    obtain ⟨after, faults, hplays, hends, hne⟩ := exists_plays_unverifiable hs ho hwho
    exact ⟨after, hplays, ho.closes_fault hends.log (hends.faults ▸ hne)⟩
  | ok who =>
  cases who with
  | error reason =>
    obtain ⟨after, hplays, hends⟩ := exists_plays_denied hs ho (identifies_of_standing hwho)
    exact ⟨after, hplays, ho.closes_response [] (isResponse_response ..) (by simp) (by simp)
      hends.log⟩
  | ok user =>
  have huser := ha.standing hwho
  by_cases hl : route.lacking input = []
  · exact exists_plays_asked hs hoffered hquery ho hwho huser hl hc hsound
  · obtain ⟨after, hplays, hends⟩ := exists_plays_incomplete hs ho hwho huser hl
    exact ⟨after, hplays, ho.closes_response [] (isResponse_response ..) (by simp) (by simp)
      hends.log⟩

end QueryRoute

namespace Rules

/-! ### The routes -/

/-- The routes that carry out actions of a kind of concept. -/
def actionsOf : Concept.Kind → List ActionRoute
  | .herds => herdActions
  | .animals => animalActions
  | _ => []

/-- The routes that ask queries of it. -/
def queriesOf : Concept.Kind → List QueryRoute
  | .herds => herdQueries
  | .animals => animalQueries
  | _ => []

/-- The paths, each with the rules that are for it. -/
def families : List (String × List (Rule AdapterCode)) :=
  [(accountPath "register", enterRules "register" "user"),
      (accountPath "login", enterRules "login" "token"), (accountPath "logout", logoutRules)]
    ++ [Concept.Kind.herds, .animals].flatMap (fun kind =>
      (actionsOf kind).map (fun route => (route.path, route.rules AdapterCode.lookup))
        ++ (queriesOf kind).map fun route => (route.path, route.rules AdapterCode.lookup))
    ++ [(statusPath, statusRules)]

/-- Together these are all rules. -/
theorem all_eq : all AdapterCode.lookup = families.flatMap Prod.snd := by
  simp [all, families, accountRules, logoutRules, actionsOf, queriesOf, List.flatMap_map]

/-- The paths that are wired. -/
def paths : List String := families.map Prod.fst

/-- They are different. -/
theorem nodup_paths : paths.Nodup := by decide +kernel

/-- The routes that carry out actions are sound, and what they show the actions offer. -/
theorem isSound_of_mem_actionsOf {route : ActionRoute} {kind : Concept.Kind}
    (h : route ∈ actionsOf kind) :
    route.IsSound kind ∧ (route.action, route.success) ∈ kind.offered := by
  revert route
  cases kind <;> decide +kernel

/-- So are those that ask queries. -/
theorem isSound_of_mem_queriesOf {route : QueryRoute} {kind : Concept.Kind}
    (h : route ∈ queriesOf kind) :
    route.IsSound kind ∧ (route.query, route.result) ∈ kind.offered ∧
      route.query ∈ kind.queries := by
  revert route
  cases kind <;> decide +kernel

/-- The rules of a route that carries out an action are among the families. -/
theorem mem_families_of_mem_actionsOf {route : ActionRoute} {kind : Concept.Kind}
    (h : route ∈ actionsOf kind) : (route.path, route.rules AdapterCode.lookup) ∈ families := by
  have hkind : kind ∈ [Concept.Kind.herds, .animals] := by cases kind <;> simp_all [actionsOf]
  exact List.mem_append_left _ (List.mem_append_right _ (List.mem_flatMap.mpr
    ⟨kind, hkind, List.mem_append_left _ (List.mem_map.mpr ⟨route, h, rfl⟩)⟩))

/-- So are those of a route that asks a query. -/
theorem mem_families_of_mem_queriesOf {route : QueryRoute} {kind : Concept.Kind}
    (h : route ∈ queriesOf kind) : (route.path, route.rules AdapterCode.lookup) ∈ families := by
  have hkind : kind ∈ [Concept.Kind.herds, .animals] := by cases kind <;> simp_all [queriesOf]
  exact List.mem_append_left _ (List.mem_append_right _ (List.mem_flatMap.mpr
    ⟨kind, hkind, List.mem_append_right _ (List.mem_map.mpr ⟨route, h, rfl⟩)⟩))

/-- So are those of setting the status of an animal. -/
theorem mem_families_status : (statusPath, statusRules) ∈ families :=
  List.mem_append_right _ (List.mem_singleton.mpr rfl)

/-- So are those of logging out. -/
theorem mem_families_logout : (accountPath "logout", logoutRules) ∈ families :=
  List.mem_append_left _ (List.mem_append_left _ (.tail _ (.tail _ (.head _))))

/-- There are no other families. -/
theorem cases_of_mem_families {path : String} {rules : List (Rule AdapterCode)}
    (h : (path, rules) ∈ families) :
    (∃ action result, (action, result) ∈ [("register", "user"), ("login", "token")] ∧
        path = accountPath action ∧ rules = enterRules action result) ∨
      (path = accountPath "logout" ∧ rules = logoutRules) ∨
      (∃ kind, ∃ route ∈ actionsOf kind, path = route.path ∧
        rules = route.rules AdapterCode.lookup) ∨
      (∃ kind, ∃ route ∈ queriesOf kind, path = route.path ∧
        rules = route.rules AdapterCode.lookup) ∨
      (path = statusPath ∧ rules = statusRules) := by
  rcases List.mem_append.mp h with h | h
  · rcases List.mem_append.mp h with h | h
    · simp only [List.mem_cons, List.not_mem_nil, or_false, Prod.mk.injEq] at h
      rcases h with ⟨rfl, rfl⟩ | ⟨rfl, rfl⟩ | ⟨rfl, rfl⟩
      · exact .inl ⟨"register", "user", by simp, rfl, rfl⟩
      · exact .inl ⟨"login", "token", by simp, rfl, rfl⟩
      · exact .inr (.inl ⟨rfl, rfl⟩)
    · obtain ⟨kind, -, hm⟩ := List.mem_flatMap.mp h
      rcases List.mem_append.mp hm with hm | hm
      · obtain ⟨route, hr, he⟩ := List.mem_map.mp hm
        obtain ⟨rfl, rfl⟩ := Prod.mk.inj he
        exact .inr (.inr (.inl ⟨kind, route, hr, rfl, rfl⟩))
      · obtain ⟨route, hr, he⟩ := List.mem_map.mp hm
        obtain ⟨rfl, rfl⟩ := Prod.mk.inj he
        exact .inr (.inr (.inr (.inl ⟨kind, route, hr, rfl, rfl⟩)))
  · obtain ⟨rfl, rfl⟩ := Prod.mk.inj (List.mem_singleton.mp h)
    exact .inr (.inr (.inr (.inr ⟨rfl, rfl⟩)))

/-- The rules of a route are for its path. -/
theorem isFor_of_mem_families {path : String} {rules : List (Rule AdapterCode)}
    (hf : (path, rules) ∈ families) : ∀ rule ∈ rules, rule.IsFor path := by
  have hturned : ∀ route path fields, ∀ rule ∈ turnedDown route path fields,
      rule.IsFor path := fun _ _ _ => forall_mem_turnedDown ⟨_, _, rfl⟩ ⟨_, _, rfl⟩
  rcases cases_of_mem_families hf with ⟨action, result, -, rfl, rfl⟩ | ⟨rfl, rfl⟩ |
    ⟨kind, route, -, rfl, rfl⟩ | ⟨kind, route, -, rfl, rfl⟩ | ⟨rfl, rfl⟩
  · simp only [enterRules, List.forall_mem_cons]
    exact ⟨⟨_, _, rfl⟩, ⟨_, _, rfl⟩, ⟨_, _, rfl⟩, ⟨_, _, rfl⟩, by simp⟩
  · simp only [logoutRules, List.forall_mem_cons]
    exact ⟨⟨_, _, rfl⟩, ⟨_, _, rfl⟩, ⟨_, _, rfl⟩, ⟨_, _, rfl⟩, by simp⟩
  · rw [ActionRoute.rules_eq]
    simp only [List.forall_mem_cons, List.forall_mem_append]
    exact ⟨⟨_, _, rfl⟩, hturned _ _ _, ⟨_, _, rfl⟩, ⟨_, _, rfl⟩, by simp⟩
  · rw [QueryRoute.rules_eq]
    simp only [List.forall_mem_cons]
    exact ⟨⟨_, _, rfl⟩, ⟨_, _, rfl⟩, hturned _ _ _⟩
  · simp only [statusRules, List.forall_mem_cons]
    exact ⟨⟨_, _, rfl⟩, ⟨_, _, rfl⟩, ⟨_, _, rfl⟩, ⟨_, _, rfl⟩, ⟨_, _, rfl⟩, ⟨_, _, rfl⟩,
      ⟨_, _, rfl⟩, by simp⟩

/-! ### The pass -/

variable {path : String} {rules : List (Rule AdapterCode)} {handlers : Handlers World AdapterCode}

/-- Families of rules for other paths do nothing. -/
theorem plays_families_none {more : List Event} {others : List (String × List (Rule AdapterCode))}
    (hsub : ∀ family ∈ others, family ∈ families ∧ family.1 ≠ path)
    (hb : scene.Begun venue input rid more) (hp : Table.get? "path" input = some (.str path)) :
    PlaysRules venue handlers (others.flatMap Prod.snd) scene scene := by
  refine plays_rules_other hb hp fun rule hr => ?_
  obtain ⟨family, hf, hrule⟩ := List.mem_flatMap.mp hr
  exact ⟨family.1, isFor_of_mem_families (hsub family hf).1 rule hrule, (hsub family hf).2.symm⟩

/-- A pass over all rules is one over those that are for the path of the request. -/
theorem plays_all {more more' : List Event} {after : Scene} (hf : (path, rules) ∈ families)
    (hb : scene.Begun venue input rid more) (hp : Table.get? "path" input = some (.str path))
    (h : PlaysRules venue handlers rules scene after) (hb' : after.Begun venue input rid more') :
    PlaysRules venue handlers (all AdapterCode.lookup) scene after := by
  obtain ⟨before, rest, hfamilies⟩ := List.append_of_mem hf
  have hnodup : (families.map Prod.fst).Nodup := nodup_paths
  rw [hfamilies, List.map_append, List.map_cons, List.nodup_append, List.nodup_cons] at hnodup
  obtain ⟨-, ⟨hrest, -⟩, hbefore⟩ := hnodup
  rw [all_eq, hfamilies, List.flatMap_append, List.flatMap_cons]
  refine plays_rules_append (plays_families_none (fun family hm => ?_) hb hp)
    (plays_rules_append h (plays_families_none (fun family hm => ?_) hb' hp))
  · exact ⟨hfamilies ▸ List.mem_append_left _ hm,
      hbefore _ (List.mem_map_of_mem hm) _ List.mem_cons_self⟩
  · exact ⟨hfamilies ▸ List.mem_append_right _ (List.mem_cons_of_mem _ hm),
      fun he => hrest (List.mem_map.mpr ⟨family, hm, he⟩)⟩

/-- The rules of every family conclude a request for its path. -/
theorem exists_plays_family (hf : (path, rules) ∈ families)
    (ho : scene.Opens venue input rid path) (hsound : ∀ kind concept,
      scene.ledger.concept? kind = some concept → concept.Sound) :
    ∃ after, PlaysRules venue (World.handlersAt depth reentries) rules scene after ∧
      after.Closes venue input rid := by
  have ha : scene.ledger.accounts.Sound := hsound .accounts _ rfl
  rcases cases_of_mem_families hf with ⟨action, result, hm, rfl, rfl⟩ | ⟨rfl, rfl⟩ |
    ⟨kind, route, hm, rfl, rfl⟩ | ⟨kind, route, hm, rfl, rfl⟩ | ⟨rfl, rfl⟩
  · have hknown : ∀ entry ∈ [("register", "user"), ("login", "token")],
        (entry.1, [entry.2]) ∈ AccountAction.offered ∧ Target.IsOwn entry.1 ∧
          ∀ n ∈ ["username", "request", "error"], entry.2 ≠ n := by
      decide +kernel
    obtain ⟨hoffered, hown, hresult⟩ := hknown _ hm
    exact exists_plays_enter hoffered hown hresult ho ha
  · exact exists_plays_logout ho ha
  · obtain ⟨hs, hoffered⟩ := isSound_of_mem_actionsOf hm
    obtain ⟨concept, hc⟩ := Ledger.exists_concept? scene.ledger hs.keeps
    exact ActionRoute.exists_plays hs hoffered ho ha hc (hsound _ _ hc)
  · obtain ⟨hs, hoffered, hquery⟩ := isSound_of_mem_queriesOf hm
    obtain ⟨concept, hc⟩ := Ledger.exists_concept? scene.ledger hs.keeps
    exact QueryRoute.exists_plays hs hoffered hquery ho ha hc (hsound _ _ hc)
  · exact exists_plays_status ho ha

/-- A pass over all rules concludes a request for a path that is wired. -/
theorem exists_plays_all (hp : path ∈ paths) (ho : scene.Opens venue input rid path)
    (hsound : ∀ kind concept, scene.ledger.concept? kind = some concept → concept.Sound) :
    ∃ after, PlaysRules venue (World.handlersAt depth reentries) (all AdapterCode.lookup) scene
      after ∧ after.Closes venue input rid := by
  obtain ⟨family, hf, rfl⟩ := List.mem_map.mp hp
  obtain ⟨after, hplays, hcloses⟩ := exists_plays_family
    hf ho hsound
  obtain ⟨more, hb, -⟩ := hcloses.begun
  exact ⟨after, plays_all hf ho.begun ho.path hplays hb, hcloses⟩

end Rules

end HerdBook
