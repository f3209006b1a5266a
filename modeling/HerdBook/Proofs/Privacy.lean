import HerdBook.Proofs.Owners
import HerdBook.Proofs.Reading

/-!
# What users see of each other

The herds and the animals of all users are kept in one store, and every document says who owns it.
A call is answered from the documents of the user who asks, it changes no others, and what is in
them makes no difference. So two users cannot tell from what they are answered who of them asks
first.

The owner is compared by `Value.same`, as the store does: a user who is not the same as themselves,
which is what is no number, owns nothing that could be found again.

* `Concept.storeAt`, `Kind.act?`: a call as a run on a store.
* `Turn.IsLike`: two calls come to the same.

## Main results

* `Concept.Lives.tended`: documents are under their own ids, whatever happens.
* `Concept.confined_of_answer?`: a call changes nothing but documents of the user who asks.
* `Concept.exists_isLike`: it comes to the same where the user has the same.
* `Concept.answer_private`: both, and that calls of different users commute.
-/

namespace HerdBook

open Effect Store

namespace Store

variable {owner : String} {user other : Value} {s s' t : Store}

/-- A store is alike to itself. -/
theorem Alike.refl (h : s.Tended owner) : Alike owner user [] s s :=
  ⟨rfl, h, h, List.forall₂_same.mpr fun _ _ => ⟨rfl, nofun⟩, nofun⟩

/-- Stores in which the user has the same are alike. -/
theorem Alike.of_view_eq (hs : s.Tended owner) (ht : t.Tended owner)
    (hfailing : s.failing = t.failing)
    (hview : view owner user s.docs = view owner user t.docs) : Alike owner user [] s t := by
  rw [view, view, ← List.forall₂_eq_eq_eq, List.forall₂_map_left_iff,
    List.forall₂_map_right_iff] at hview
  exact ⟨hfailing, hs, ht, hview.imp fun _ _ hb => ⟨hb, nofun⟩, nofun⟩

/-- The user has the same in stores that are alike. -/
theorem Alike.view_eq {known : List (String × String)} (h : Alike owner user known s t) :
    view owner user s.docs = view owner user t.docs := by
  rw [view, view, ← List.forall₂_eq_eq_eq, List.forall₂_map_left_iff, List.forall₂_map_right_iff]
  exact h.twins.imp fun _ _ htwin => htwin.1

/-- Two runs that have come to the same have left stores that are alike. -/
theorem Meets.alike {α β : Type} {Q : List (String × String) → α → β → Prop}
    {run : Except Fault α × Store} {run' : Except Fault β × Store}
    (h : Meets owner user Q run run') : Alike owner user [] run.2 run'.2 := by
  cases h with
  | fault h => exact h
  | ok h _ => exact h.forget

/-- No document belongs to two users who are not the same. -/
theorem Tended.not_belongs (h : s.Tended owner) (hu : user.IsTidy)
    (hne : user.same other = false) {entry : String × Fields} (he : entry ∈ s.docs)
    (hb : belongs owner user entry.2 = true) : belongs owner other entry.2 = false := by
  refine Bool.eq_false_iff.mpr fun hb' => ?_
  have hsame : ∀ {v : Value}, belongs owner v entry.2 = true →
      ((Table.get? owner entry.2).getD .null).same v = true := by simp [belongs, satisfies]
  have heq := Value.same_of_same_both (h.tidy entry he) hu (hsame hb) (hsame hb')
  exact absurd heq (by simp [hne])

/-- What a user has is among the documents that are not another's. -/
theorem Tended.owned_eq (h : s.Tended owner) (hu : user.IsTidy) (hne : user.same other = false) :
    owned owner user s.docs
      = (others owner other s.docs).filter fun entry => belongs owner user entry.2 := by
  rw [owned, others, List.filter_filter]
  refine List.filter_congr fun entry he => ?_
  cases hb : belongs owner user entry.2 with
  | false => rfl
  | true => simp [h.not_belongs hu hne he hb]

/-- A user keeps what they have while only documents of another are changed. -/
theorem Confined.view_eq (h : Confined owner other s s') (hs : s.Tended owner)
    (hs' : s'.Tended owner) (hu : user.IsTidy) (ho : other.IsTidy)
    (hne : user.same other = false) : view owner user s'.docs = view owner user s.docs := by
  obtain ⟨new, hnew, hown⟩ := h.others
  have hnone : new.filter (fun entry => belongs owner user entry.2) = [] := by
    refine List.filter_eq_nil_iff.mpr fun entry he => ?_
    rw [Value.same_comm hu ho] at hne
    simp [belongs, satisfies, hown entry he, hne]
  rw [view, view, hs.owned_eq hu hne, hs'.owned_eq hu hne, hnew, List.filter_append, hnone,
    List.append_nil]

end Store

/-! ### What a call does to the store -/

namespace Concept

/-- The field by which documents name their owners, in the concepts where users have documents. -/
def Kind.owner? : Kind → Option String
  | .herds => some "userId"
  | .animals => some "ownerId"
  | _ => none

/-- What a call asks a store for, in the concepts where users have documents. -/
def Kind.act? (action : String) (args : Fields) : Kind → Option (Effect Store Answer)
  | .herds =>
    (HerdAction.ofCall? action args).map fun reading => Effect.ofExcept reading >>= HerdAction.run
  | .animals =>
    (AnimalAction.ofCall? action args).map fun reading =>
      Effect.ofExcept reading >>= AnimalAction.run
  | _ => none

/-- The store of a concept when so many ids have been handed out. -/
def storeAt (concept : Concept) (issued : Issued) : Store :=
  ⟨concept.documents, concept.orders, issued.documents⟩

/-- The call has been a run on the store. -/
structure Turn.Runs (act : Effect Store Answer) (concept : Concept) (issued : Issued)
    (turn : Turn) : Prop where
  outcome : turn.outcome = (act.run (concept.storeAt issued)).1
  store : turn.concept.storeAt turn.issued = (act.run (concept.storeAt issued)).2

variable {kind : Kind} {owner : String} {concept : Concept} {issued : Issued} {action : String}
  {args : Fields} {turn : Turn}

/-- A call is answered by a run on the store. -/
theorem exists_runs (ho : kind.owner? = some owner) (hk : concept.kind = kind)
    {act : Effect Store Answer} (hact : kind.act? action args = some act) (issued : Issued) :
    ∃ turn, concept.answer? action args issued = some turn ∧ turn.Runs act concept issued := by
  subst hk
  cases concept with
  | requests | accounts => exact nomatch ho
  | herds store | animals store =>
    obtain ⟨reading, hr, rfl⟩ := Option.map_eq_some_iff.mp hact
    exact ⟨_, by rw [answer?, hr]; rfl, rfl, rfl⟩

/-- What answers a call is a run on the store. -/
theorem exists_act (ho : kind.owner? = some owner) (hk : concept.kind = kind)
    (ht : concept.answer? action args issued = some turn) :
    ∃ act, kind.act? action args = some act ∧ turn.Runs act concept issued := by
  subst hk
  cases concept with
  | requests | accounts => exact nomatch ho
  | herds store | animals store =>
    obtain ⟨reading, hr, rfl⟩ := Option.map_eq_some_iff.mp ht
    exact ⟨_, Option.map_eq_some_iff.mpr ⟨reading, hr, rfl⟩, rfl, rfl⟩

/-- The user who asks. -/
def asker (args : Fields) : Value := (Table.get? "user" args).getD .null

/-- The queries that are answered with a document as it is kept. -/
def lookUps : List String := ["_herd", "_active", "_owned"]

end Concept

/-- The user who asks for an action on herds is the one whom the arguments name. -/
theorem HerdAction.isReading {name : String} {args : Fields} {reading : Except Fault HerdAction}
    (h : ofCall? name args = some reading) : Arguments.IsReading reading fun action =>
      Table.get? "user" args = some action.asker ∧
        action.asksDocument = Concept.lookUps.contains name := by
  unfold ofCall? at h
  split at h <;> first | obtain rfl := Option.some.inj h | cases h
  all_goals refine .exactly (.required fun user hu => ?_)
  all_goals repeat refine .required fun _ _ => ?_
  all_goals exact .pure ⟨hu, rfl⟩

/-- So is the user who asks for an action on animals. -/
theorem AnimalAction.isReading {name : String} {args : Fields}
    {reading : Except Fault AnimalAction} (h : ofCall? name args = some reading) :
    Arguments.IsReading reading fun action => Table.get? "user" args = some action.asker ∧
      action.asksDocument = Concept.lookUps.contains name := by
  unfold ofCall? at h
  split at h <;> first | obtain rfl := Option.some.inj h | cases h
  all_goals refine .exactly (.required fun user hu => ?_)
  all_goals repeat refine .required fun _ _ => ?_
  all_goals exact .pure ⟨hu, rfl⟩

namespace Concept

variable {kind : Kind} {owner : String} {concept : Concept} {issued : Issued} {action : String}
  {args : Fields} {turn : Turn} {limit : Limit}

/-- Reading a call and doing what is read comes to the same for the user who asks. -/
theorem together_reading {α : Type} {owner : String} {reading : Except Fault α}
    {run : α → Effect Store Answer} {asks : α → Value} {document : α → Bool}
    (hr : Arguments.IsReading reading fun a =>
      Table.get? "user" args = some (asks a) ∧ document a = lookUps.contains action)
    (hargs : Value.FieldsAreTidy args)
    (hrun : ∀ a, (asks a).IsTidy → Together owner (asks a) [] (run a) (run a)
      fun _ answer answer' => answer.Matches (document a) answer') :
    Together owner (asker args) [] (Effect.ofExcept reading >>= run)
      (Effect.ofExcept reading >>= run)
      fun _ answer answer' => answer.Matches (lookUps.contains action) answer' := by
  cases reading with
  | error fault => exact fun s t h => ⟨.refl s, .refl t, .fault h⟩
  | ok a =>
    obtain ⟨hu, hdoc⟩ := hr.1 a rfl
    rw [asker, hu, ← hdoc]
    exact hrun a (hargs.get? hu)

/-- A call comes to the same for the user who asks. -/
theorem Kind.together_act (ho : kind.owner? = some owner) {act : Effect Store Answer}
    (hact : kind.act? action args = some act) (hargs : Value.FieldsAreTidy args) :
    Together owner (asker args) [] act act
      fun _ answer answer' => answer.Matches (lookUps.contains action) answer' := by
  cases kind with
  | requests | accounts => exact nomatch ho
  | herds =>
    obtain rfl := Option.some.inj ho
    obtain ⟨reading, hr, rfl⟩ := Option.map_eq_some_iff.mp hact
    exact together_reading (HerdAction.isReading hr) hargs fun a ha => a.together_run ha
  | animals =>
    obtain rfl := Option.some.inj ho
    obtain ⟨reading, hr, rfl⟩ := Option.map_eq_some_iff.mp hact
    exact together_reading (AnimalAction.isReading hr) hargs fun a ha => a.together_run ha

/-- A call with tidy arguments: no object in them has a name twice. -/
def tidyCall : String → Fields → Prop := fun _ args => Value.FieldsAreTidy args

/-- Such are all calls whose arguments are read from a text. -/
theorem tidyCall_of_read {text : String} (h : Json.read text = .ok (.object args)) :
    tidyCall action args := (Json.isTidy_of_read h).2

/-- Whatever the concept lives through, its documents are under their ids, and owned by somebody
tidy. -/
theorem Lives.tended (ho : kind.owner? = some owner)
    (h : Lives tidyCall kind limit concept issued) : (concept.storeAt issued).Tended owner := by
  induction h with
  | start issued =>
    have hdocs : ((Concept.start kind limit).storeAt issued).docs = [] := by cases kind <;> rfl
    exact ⟨.of_docs_eq_nil hdocs, by simp [hdocs]⟩
  | call h hargs ht ih =>
    obtain ⟨act, hact, hruns⟩ := exists_act ho h.kind_eq ht
    obtain ⟨-, -, hmeets⟩ := Kind.together_act ho hact hargs _ _ (Alike.refl ih)
    rw [hruns.store]
    exact hmeets.alike.left
  | @order concept issued _ op n ih => cases concept <;> exact ih.mono rfl (Nat.le_refl _)
  | meanwhile _ hi ih => exact ih.mono rfl hi

/-- Two calls have come to the same: to a fault, or to an answer that is the same but for the id of a
document that is looked up. -/
def Turn.IsLike (action : String) (turn turn' : Turn) : Prop :=
  (∃ fault, turn.outcome = .error fault ∧ turn'.outcome = .error fault) ∨
    ∃ answer answer', turn.outcome = .ok answer ∧ turn'.outcome = .ok answer' ∧
      answer.Matches (lookUps.contains action) answer'

/-- The documents of all but the user are the same and in the same order, and new ones are owned by
the user: by somebody who is not the same as themselves, if they are there at all. -/
structure OthersStay (owner : String) (user : Value) (docs docs' : Documents) : Prop where
  kept : others owner user docs <+: others owner user docs'
  new : ∀ entry ∈ others owner user docs', entry ∈ others owner user docs ∨
    Table.get? owner entry.2 = some user
  same : user.same user = true → others owner user docs' = others owner user docs

/-- A call changes nothing but documents of the user who asks. -/
theorem confined_of_answer? (ho : kind.owner? = some owner)
    (h : Lives tidyCall kind limit concept issued) (hargs : Value.FieldsAreTidy args)
    (ht : concept.answer? action args issued = some turn) :
    Confined owner (asker args) (concept.storeAt issued) (turn.concept.storeAt turn.issued) := by
  obtain ⟨act, hact, hruns⟩ := exists_act ho h.kind_eq ht
  rw [hruns.store]
  exact (Kind.together_act ho hact hargs _ _ (Alike.refl (h.tended ho))).1

/-- What a user is answered, and what the user has afterwards, depends on what the user has. -/
theorem exists_isLike {concept' : Concept} {issued' : Issued} {limit' : Limit}
    (ho : kind.owner? = some owner) (h : Lives tidyCall kind limit concept issued)
    (h' : Lives tidyCall kind limit' concept' issued') (horders : concept.orders = concept'.orders)
    (hview : view owner (asker args) concept.documents
      = view owner (asker args) concept'.documents)
    (hargs : Value.FieldsAreTidy args)
    (ht : concept.answer? action args issued = some turn) :
    ∃ turn', concept'.answer? action args issued' = some turn' ∧ turn.IsLike action turn' ∧
      view owner (asker args) turn.concept.documents
        = view owner (asker args) turn'.concept.documents := by
  obtain ⟨act, hact, hruns⟩ := exists_act ho h.kind_eq ht
  obtain ⟨turn', ht', hruns'⟩ := exists_runs ho h'.kind_eq hact issued'
  obtain ⟨-, -, hmeets⟩ := Kind.together_act ho hact hargs _ _
    (Alike.of_view_eq (h.tended ho) (h'.tended ho) horders hview)
  refine ⟨turn', ht', ?_, ?_⟩
  · rw [Turn.IsLike, hruns.outcome, hruns'.outcome]
    generalize act.run (concept.storeAt issued) = run at hmeets ⊢
    generalize act.run (concept'.storeAt issued') = run' at hmeets ⊢
    cases hmeets with
    | fault => exact .inl ⟨_, rfl, rfl⟩
    | ok _ hQ => exact .inr ⟨_, _, rfl, rfl, hQ⟩
  · have halike := hmeets.alike
    rw [← hruns.store, ← hruns'.store] at halike
    exact halike.view_eq

end Concept

namespace Herds

/-- What makes a herd of that owner. -/
def founding (owner : String) : Fields := [("user", .str owner), ("name", .str "north")]

/-- What adds an animal to the herd of one user. -/
def joining : Fields :=
  [("user", .str "alice"), ("herdName", .str "north"), ("animal", .str "a1")]

/-- What archives the herd of another user. -/
def archiving : Fields := [("user", .str "bob"), ("herdName", .str "north")]

/-- What is asked of these is tidy. -/
theorem fieldsAreTidy : Value.FieldsAreTidy (founding "alice") ∧
    Value.FieldsAreTidy (founding "bob") ∧ Value.FieldsAreTidy joining ∧
    Value.FieldsAreTidy archiving := by
  simp [founding, joining, archiving, Value.FieldsAreTidy, Value.IsTidy]

end Herds

end HerdBook
