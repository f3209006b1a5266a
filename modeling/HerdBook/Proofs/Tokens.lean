import HerdBook.Proofs.Answers
import HerdBook.Proofs.Relays
import HerdBook.Proofs.Tables
import HerdBook.Rules.Accounts
import HerdBook.Rules.Status

/-!
# Rules that hand a token over

Two routes do not look the token of a request up. They hand it to an action of the accounts, which is
recorded (`Rule.HandsOver`): the one to the status of an animal has it verified, the other logs out.
So these take for a token whatever the request holds as one, also the empty text, by which nobody is
known.

## Main results

* `Rule.HandsOver.exists_plays`: the action is called with the token, and recorded when it answers.
* `Rule.HandsOver.exists_plays_empty`: with the empty text it answers that the token is invalid.
-/

namespace HerdBook

open Effect Rules Scene

/-- The rule hands the token of a request for the path to an action of the accounts. -/
structure Rule.HandsOver (rule : Rule AdapterCode) (path action : String) : Prop where
  patterns : rule.patterns = [request rule.name path (vars rule.name ["token"])]
  stages : rule.stages = [keep (.bound (symbols rule.name ["token"]))]
  actions : rule.actions = [perform Lookup.accounts action (vars rule.name ["token"])]

/-- The token is handed over to be verified. -/
theorem Rules.handsOver_statusVerify : Rule.HandsOver statusVerify statusPath Lookup.verify :=
  ⟨rfl, rfl, rfl⟩

/-- It is handed over when somebody logs out. -/
theorem Rules.handsOver_leave : Rule.HandsOver leave (accountPath "logout") "logout" :=
  ⟨rfl, rfl, rfl⟩

/-! ### The empty text -/

/-- Nobody is known by the empty text when no session is open under it, and nothing is changed. -/
theorem Concept.exists_turn_empty {accounts : Accounts} {action : String}
    (h : action = Lookup.verify ∨ action = "logout")
    (hnone : Table.get? "" accounts.sessions = none) (issued : Issued) :
    ∃ turn, (Concept.accounts accounts).answer? action [("token", .str "")] issued = some turn ∧
      turn.outcome = .ok (.refusal "invalid token") ∧
      turn.concept.unnumbered = (Concept.accounts accounts).unnumbered := by
  rcases h with rfl | rfl
  · exact ⟨_, rfl, rfl, rfl⟩
  obtain ⟨told, htold⟩ : ∃ told : Accounts, told = { accounts with
      users := { accounts.users with issued := issued.documents }
      tokens := issued.tokens } := ⟨_, rfl⟩
  have hrun : (Accounts.logout (.str "")).run told = (.ok (.refusal "invalid token"), told) := by
    have hget : Table.get? "" told.sessions = none := by rw [htold]; exact hnone
    have hnobody : Accounts.userOf (.str "") told = .ok none := by simp [Accounts.userOf, hget]
    unfold Accounts.logout
    rw [run_bind_ok (run_get told)]
    split
    · rfl
    rw [run_bind_ok (run_get told), hnobody]
    change (_, ({ told with sessions := Table.erase "" told.sessions } : Accounts)) = _
    rw [Table.erase_of_get?_eq_none hget]
  have hturn : (Concept.accounts accounts).answer? "logout" [("token", .str "")] issued
      = some ⟨((Accounts.logout (.str "")).run told).1,
          .accounts ((Accounts.logout (.str "")).run told).2,
          { issued with
            documents := ((Accounts.logout (.str "")).run told).2.users.issued
            tokens := ((Accounts.logout (.str "")).run told).2.tokens }⟩ := by
    rw [htold]
    rfl
  rw [hrun, htold] at hturn
  exact ⟨_, hturn, rfl, rfl⟩

/-! ### What such a rule does -/

namespace Rule.HandsOver

variable {rule : Rule AdapterCode} {venue : Venue} {scene : Scene} {input out : Fields}
  {rid path action : String} {names : List String} {token : Value} {depth reentries : Nat}

/-- The action is called with the token. -/
theorem fillFields (ha : token.isNotApplicable = false)
    (htoken : Table.get? "token" input = some token) :
    Value.fillFields (askedFrame rule.name ["token"] input (.str rid)) (vars rule.name ["token"])
      = .ok [("token", token)] := by
  refine (Frame.fillFields_of_get? (fun n hn => (reads_askedFrame _ _ _ _ (by simp) n).trans
    (asked_of_mem (by simp) hn)) fun n hn => ?_).trans (by simp [htoken])
  rw [List.mem_singleton.mp hn]
  exact ⟨token, htoken, ha⟩

/-- The rule goes on with a request that holds a token. -/
theorem plays_stages (h : rule.HandsOver path action)
    (htoken : Table.get? "token" input = some token) (scene : Scene) :
    PlaysStages venue (World.handlersAt depth reentries) rule.stages
      (askedFrame rule.name ["token"] input (.str rid)) scene
      (.ok [askedFrame rule.name ["token"] input (.str rid)]) scene :=
  plays_open_keep rule (by simp) (by simp) h.stages (by simp [htoken]) (plays_no_stages _ scene)

variable (names) in
/-- The action is called with the token of the request, and recorded when it answers. -/
theorem exists_plays (h : rule.HandsOver path action) (ho : scene.Opens venue input rid path)
    (hs : scene.ledger.accounts.Sound) (hoffered : (action, names) ∈ AccountAction.offered)
    (hown : Target.IsOwn action) (htoken : Table.get? "token" input = some token) :
    ∃ mid ledger, (∀ kind, kind ≠ .accounts →
        ledger.concept? kind = scene.ledger.concept? kind) ∧
      PlaysRule venue (World.handlersAt depth reentries) rule scene mid ∧
      scene.Performed mid venue rule.name Lookup.accounts action [("token", token)] names
        ledger := by
  have ha : token.isNotApplicable = false := (ho.json.get? htoken).isNotApplicable_eq_false
  obtain ⟨turn, hturn, hproper⟩ := Concept.exists_turn (.accounts scene.ledger.accounts) action
    names [("token", token)] hs hoffered (by simpa using ha) scene.ledger.issued
  obtain ⟨mid, hfirst, hmid⟩ := exists_plays_performed .accounts
    (by rw [h.patterns]; exact ho.begun.found ho.path (by simp) (by simp) rule.name) (by simp)
    (by simp [ho.done]) h.actions (h.plays_stages htoken _) (fillFields ha htoken) ho.hasRoom rfl
    hturn hown hproper
  have hkind : turn.concept.kind = .accounts := Concept.kind_of_answer? hturn
  refine ⟨mid, _, fun kind hne => ?_, hfirst, hmid⟩
  rw [Ledger.concept?_afterTurn (by simp [hkind]), hkind, if_neg hne.symm]

/-- The empty text is handed over like any token, and what comes of it is that it is invalid. -/
theorem exists_plays_empty (h : rule.HandsOver path action)
    (haction : action = Lookup.verify ∨ action = "logout")
    (ho : scene.Opens venue input rid path) (hown : Target.IsOwn action)
    (htoken : Table.get? "token" input = some (.str ""))
    (hnone : Table.get? "" scene.ledger.accounts.sessions = none) :
    ∃ turn mid, turn.concept.unnumbered = (Concept.accounts scene.ledger.accounts).unnumbered ∧
      PlaysRule venue (World.handlersAt depth reentries) rule scene mid ∧
      mid.given = scene.given ∧ mid.done = scene.done ++ [rule.name] ∧
      mid.Ends (scene.log ++ [⟨scene.log.length, Lookup.accounts, action,
          .object [("token", .str "")], .object [("error", .str "invalid token")], venue.id⟩])
        scene.faults (scene.ledger.afterTurn turn) := by
  obtain ⟨turn, hturn, hout, hsame⟩ :=
    Concept.exists_turn_empty haction hnone scene.ledger.issued
  have hactions : rule.actions
      = [perform Concept.Kind.accounts.name action (vars rule.name ["token"])] := h.actions
  exact ⟨turn, _, hsame, plays_evaluate_perform
    (by rw [h.patterns]; exact ho.begun.found ho.path (by simp) (by simp) rule.name) (by simp)
    (by simp [ho.done]) hactions (h.plays_stages htoken _) (fillFields rfl htoken) ho.hasRoom rfl
    hturn hown hout, rfl, rfl, rfl, rfl, rfl⟩

end Rule.HandsOver

end HerdBook
