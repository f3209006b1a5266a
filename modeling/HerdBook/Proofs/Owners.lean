import HerdBook.Proofs.Histories
import HerdBook.Proofs.Parallels

/-!
# Actions of a user

Every action on the herds, and every one on the animals, is asked by a user. It looks for documents
by that user among others, and writes to what it has found or inserted. So it comes to the same in
two stores in which the user has the same (`Store.Together`), and it leaves what others have alone.

One proof for each action follows its steps, with the rule for each way in which they are put
together; what is found on both sides is the same but for its id, and what is computed from it does
not depend on that (`Store.Blind`).

## Main results

* `HerdAction.together_run`, `AnimalAction.together_run`: every action comes to the same for the user
  who asks.
-/

namespace HerdBook

open Effect Store

variable {known : List (String × String)} {user : Value}

/-! ### Herds -/

namespace Herds

/-- The id of a stored document, by which it is changed. -/
theorem idOf_eq {doc : Fields} {id : String} (h : Table.get? "_id" doc = some (.str id)) :
    idOf doc = id := by
  rw [idOf, h]

theorem blind_membersOf : Blind membersOf := fun doc => by
  rw [membersOf, membersOf, get?_bare (by decide)]

theorem blind_isArchived : Blind isArchived := fun doc => by
  rw [isArchived, isArchived, get?_bare (by decide)]

theorem blind_summary : Blind summary := fun doc => by
  simp only [summary, get?_bare (show "name" ≠ "_id" by decide),
    get?_bare (show "description" ≠ "_id" by decide),
    get?_bare (show "isArchived" ≠ "_id" by decide)]

/-- The document of a new herd is its owner's. -/
theorem get?_document (user name description : Value) :
    Table.get? "userId" (document user name description) = some user := rfl

/-- A computation comes to the same for the user in two stores that are alike to the user. -/
abbrev Together {α β : Type} (user : Value) (known : List (String × String)) (act : Effect Store α)
    (act' : Effect Store β) (Q : List (String × String) → α → β → Prop) : Prop :=
  Store.Together "userId" user known act act' Q

theorem together_herd? (hu : user.IsTidy) (name : Value) :
    Together user known (herd? user name) (herd? user name)
      fun known' found found' => known ⊆ known' ∧ Found user known' found found' :=
  together_findOne (by simp [Table.keys]) hu

theorem together_notFound (herdName : Value) :
    Together user known (notFound user herdName) (notFound user herdName) fun _ a b => a = b :=
  together_texts _ _ fun _ _ => rfl

theorem together_setMembers {herd herd' : Fields} (h : Matched user known herd herd')
    (members : List Value) :
    Together user known (setMembers herd members) (setMembers herd' members)
      fun known' a b => known' = known ∧ a = b := by
  obtain ⟨ids, hk, hid, hid'⟩ := h.exists_ids
  rw [setMembers, setMembers, idOf_eq hid, idOf_eq hid']
  exact .step (together_update hk ⟨by simp [Table.keys], by simp [Table.keys]⟩) fun _ =>
    .pure ⟨rfl, rfl⟩

theorem together_archive {herd herd' : Fields} (h : Matched user known herd herd') :
    Together user known (archive herd) (archive herd')
      fun known' a b => known' = known ∧ a = b := by
  obtain ⟨ids, hk, hid, hid'⟩ := h.exists_ids
  rw [archive, archive, idOf_eq hid, idOf_eq hid']
  exact .step (together_update hk ⟨by simp [Table.keys], by simp [Table.keys]⟩) fun _ =>
    .pure ⟨rfl, rfl⟩

/-- What is answered about a herd that is to be changed: the same refusal, or documents that
match. -/
inductive Admitted (user : Value) (known : List (String × String)) :
    Except Answer Fields → Except Answer Fields → Prop
  | refused (refusal : Answer) : Admitted user known (.error refusal) (.error refusal)
  | herd {doc doc' : Fields} (h : Matched user known doc doc') :
      Admitted user known (.ok doc) (.ok doc')

theorem together_active (hu : user.IsTidy) (name role : Value) :
    Together user known (active user name role) (active user name role)
      fun known' found found' => known ⊆ known' ∧ Admitted user known' found found' := by
  refine .bind (together_herd? hu name) fun known' found found' hfound => ?_
  obtain ⟨hk, hfound⟩ := hfound
  cases hfound with
  | none =>
    exact .step (together_textOf _) fun _ => together_texts _ _ fun _ _ => ⟨hk, .refused _⟩
  | some h =>
    dsimp only
    rw [blind_isArchived.eq h.bare_eq]
    split
    · exact .pure ⟨hk, .herd h⟩
    · exact together_texts _ _ fun _ _ => ⟨hk, .refused _⟩

/-- Regroupings that come to the same are reported in the same way. -/
theorem together_reporting {act act' : Effect Store Answer} (action reason : String)
    (h : Together user known act act' fun _ a b => a = b) :
    Together user known (reporting action reason act) (reporting action reason act')
      fun _ a b => a = b := by
  intro s t halike
  obtain ⟨hs, ht, hmeets⟩ := h s t halike
  unfold reporting
  rw [run_bind_ok (run_attempt act s), run_bind_ok (run_attempt act' t)]
  generalize act.run s = run at hs hmeets ⊢
  generalize act'.run t = run' at ht hmeets ⊢
  cases hmeets with
  | ok hafter hQ => exact ⟨hs, ht, .ok hafter hQ⟩
  | fault hafter => exact ⟨hs, ht, .ok hafter rfl⟩

theorem together_create (hu : user.IsTidy) (name description : Value) :
    Together user known (create user name description) (create user name description)
      fun _ a b => a = b := by
  refine .step (.ofExcept _) fun blank => ?_
  split
  · exact .pure rfl
  refine .bind (Q := fun _ a b => a = b) (together_transaction
    (.bind (together_herd? hu name) fun known' found found' hfound => ?_)) ?_
  · cases hfound.2 with
    | some _ => exact .pure rfl
    | none =>
      exact .bind (together_insert (get?_document user name description) (by decide) hu)
        fun _ _ _ _ => .pure rfl
  · rintro known' taken _ rfl
    cases taken with
    | true =>
      exact together_texts _ _ fun _ _ => rfl
    | false => exact .pure rfl

theorem together_add (hu : user.IsTidy) (herdName animal : Value) :
    Together user known (add user herdName animal) (add user herdName animal)
      fun _ a b => a = b := by
  refine .bind (together_active hu _ _) fun known' found found' hfound => ?_
  cases hfound.2 with
  | refused refusal => exact .pure rfl
  | herd h =>
    dsimp only
    rw [blind_membersOf.eq h.bare_eq]
    split
    · exact together_texts _ _ fun _ _ => rfl
    · exact .step (together_setMembers h _) fun _ => .pure rfl

theorem together_remove (hu : user.IsTidy) (herdName animal : Value) :
    Together user known (remove user herdName animal) (remove user herdName animal)
      fun _ a b => a = b := by
  refine .bind (together_active hu _ _) fun known' found found' hfound => ?_
  cases hfound.2 with
  | refused refusal => exact .pure rfl
  | herd h =>
    dsimp only
    rw [blind_membersOf.eq h.bare_eq]
    split
    · exact together_texts _ _ fun _ _ => rfl
    · exact .step (together_setMembers h _) fun _ => .pure rfl

theorem together_move (hu : user.IsTidy) (sourceName targetName animal : Value) :
    Together user known (move user sourceName targetName animal)
      (move user sourceName targetName animal) fun _ a b => a = b := by
  unfold move
  split
  · exact .pure rfl
  refine .bind (together_active hu _ _) fun known' found found' hfound => ?_
  cases hfound.2 with
  | refused refusal => exact .pure rfl
  | herd hsource =>
    refine .bind (together_active hu _ _) fun known'' found found' hfound => ?_
    obtain ⟨hk, hfound⟩ := hfound
    have hsource := hsource.mono hk
    cases hfound with
    | refused refusal => exact .pure rfl
    | herd htarget =>
      dsimp only
      rw [blind_membersOf.eq hsource.bare_eq, blind_membersOf.eq htarget.bare_eq]
      split
      · exact together_texts _ _ fun _ _ => rfl
      · exact together_reporting _ _ (together_transaction
          (.step (together_setMembers hsource _) fun _ =>
            .step (together_setMembers htarget _) fun _ => .pure rfl))

theorem together_merge (hu : user.IsTidy) (keepName goneName : Value) :
    Together user known (merge user keepName goneName) (merge user keepName goneName)
      fun _ a b => a = b := by
  unfold merge
  split
  · exact .pure rfl
  refine together_reporting _ _ (together_transaction
    (.bind (together_active hu _ _) fun known' found found' hfound => ?_))
  cases hfound.2 with
  | refused refusal => exact .pure rfl
  | herd hkeep =>
    refine .bind (together_herd? hu _) fun known'' found found' hfound => ?_
    obtain ⟨hk, hfound⟩ := hfound
    have hkeep := hkeep.mono hk
    cases hfound with
    | none => exact together_notFound _
    | some hgone =>
      dsimp only
      rw [blind_isArchived.eq hgone.bare_eq, blind_membersOf.eq hkeep.bare_eq,
        blind_membersOf.eq hgone.bare_eq]
      split
      · exact .step (together_textOf _) fun _ => .pure rfl
      · exact .step (together_setMembers hkeep _) fun _ => .step (together_archive hgone) fun _ =>
          .pure rfl

/-- The target of a split is there in both runs, or the herd is inserted in both. -/
theorem together_splitTarget (hu : user.IsTidy) (hsame : user.same user = true)
    (targetName : Value) :
    Together user known (splitTarget user targetName) (splitTarget user targetName)
      fun known' found found' => known ⊆ known' ∧ Admitted user known' found found' := by
  refine .bind (together_herd? hu _) fun known' found found' hfound => ?_
  obtain ⟨hk, hfound⟩ := hfound
  cases hfound with
  | none =>
    refine .bind (together_insert (get?_document user targetName (.str "")) (by decide) hu)
      fun known'' id id' hknown => ?_
    rw [if_pos hsame] at hknown
    subst hknown
    exact .pure ⟨List.Subset.trans hk (List.subset_cons_self _ _), .herd ⟨hsame, rfl, (id, id'),
      List.mem_cons_self, rfl, rfl⟩⟩
  | some h =>
    dsimp only
    rw [blind_isArchived.eq h.bare_eq]
    split
    · exact .pure ⟨hk, .herd h⟩
    · exact .step (together_textOf _) fun _ => .pure ⟨hk, .refused _⟩

theorem together_split (hu : user.IsTidy) (sourceName targetName animals : Value) :
    Together user known (split user sourceName targetName animals)
      (split user sourceName targetName animals) fun _ a b => a = b := by
  unfold split
  split
  · exact .pure rfl
  split
  · exact .pure rfl
  refine .bind (together_active hu _ _) fun known' found found' hfound => ?_
  cases hfound.2 with
  | refused refusal => exact .pure rfl
  | herd hsource =>
    refine .step (.ofExcept _) fun moving => ?_
    rw [blind_membersOf.eq hsource.bare_eq]
    dsimp only
    split
    · exact .step (.ofExcept _) fun _ => .step (together_textOf _) fun _ => .pure rfl
    refine together_reporting _ _ (together_transaction
      (.bind (together_splitTarget hu hsource.same_user _) fun known'' found found' hfound => ?_))
    obtain ⟨hk, hfound⟩ := hfound
    have hsource := hsource.mono hk
    cases hfound with
    | refused refusal => exact .pure rfl
    | herd htarget =>
      dsimp only
      rw [blind_membersOf.eq htarget.bare_eq]
      exact .step (.ofExcept _) fun _ => .step (together_setMembers hsource _) fun _ =>
        .step (together_setMembers htarget _) fun _ => .pure rfl

theorem together_delete (hu : user.IsTidy) (herdName : Value) :
    Together user known (delete user herdName) (delete user herdName) fun _ a b => a = b := by
  refine .bind (together_herd? hu _) fun known' found found' hfound => ?_
  cases hfound.2 with
  | none => exact together_notFound _
  | some h =>
    obtain ⟨ids, hk, hid, hid'⟩ := h.exists_ids
    dsimp only
    rw [blind_isArchived.eq h.bare_eq, idOf_eq hid, idOf_eq hid']
    split
    · exact .bind (Store.together_delete hk) fun _ _ _ _ => .pure rfl
    · exact .step (together_archive h) fun _ => .pure rfl

theorem together_restore (hu : user.IsTidy) (herdName : Value) :
    Together user known (restore user herdName) (restore user herdName) fun _ a b => a = b := by
  refine .bind (together_herd? hu _) fun known' found found' hfound => ?_
  cases hfound.2 with
  | none => exact together_notFound _
  | some h =>
    obtain ⟨ids, hk, hid, hid'⟩ := h.exists_ids
    dsimp only
    rw [blind_isArchived.eq h.bare_eq, idOf_eq hid, idOf_eq hid']
    split
    · exact .step (together_textOf _) fun _ => .pure rfl
    · exact .step (together_update hk ⟨by simp [Table.keys], by simp [Table.keys]⟩) fun _ =>
        .pure rfl

theorem together_members (hu : user.IsTidy) (herdName : Value) :
    Together user known (members user herdName) (members user herdName) fun _ a b => a = b := by
  refine .bind (together_herd? hu _) fun known' found found' hfound => ?_
  cases hfound.2 with
  | none => exact together_notFound _
  | some h =>
    dsimp only
    rw [(blind_get? (show "members" ≠ "_id" by decide)).eq h.bare_eq]
    exact .pure rfl

theorem together_list (archived : Bool) :
    Together user known (list user archived) (list user archived) fun _ a b => a = b :=
  .bind (together_find (by simp [Table.keys])) fun _ _ _ hfound =>
    .pure (by rw [blind_summary.map_eq hfound.2])

end Herds

/-- The answer without the id of the document that it may be. -/
def Answer.bare (answer : Answer) : Answer :=
  match answer.value with
  | .object fields => { answer with value := .object (Store.bare fields) }
  | _ => answer

/-- The same document but for the id is the same answer but for the id. -/
theorem Answer.bare_object {doc doc' : Fields} (h : Store.bare doc = Store.bare doc') :
    Answer.bare ⟨.object doc, []⟩ = Answer.bare ⟨.object doc', []⟩ := by
  simp [Answer.bare, h]

/-- Answers are the same, but for the id of a document where a document is asked for. -/
def Answer.Matches (document : Bool) (answer answer' : Answer) : Prop :=
  if document then answer.bare = answer'.bare else answer = answer'

/-- The user who asks. -/
def HerdAction.asker : HerdAction → Value
  | .create user _ _ | .add user _ _ | .remove user _ _ | .move user _ _ _ | .merge user _ _
  | .split user _ _ _ | .delete user _ | .restore user _ | .members user _ | .listActive user
  | .listArchived user | .lookUp user _ | .lookUpActive user _ _ => user

/-- Whether the document of a herd is asked for. -/
def HerdAction.asksDocument : HerdAction → Bool
  | .lookUp .. | .lookUpActive .. => true
  | _ => false

/-- Every action on herds comes to the same for the user who asks. -/
theorem HerdAction.together_run (action : HerdAction) (hu : action.asker.IsTidy) :
    Herds.Together action.asker known action.run action.run
      fun _ a b => a.Matches action.asksDocument b := by
  cases action with
  | create => exact Herds.together_create hu _ _
  | add => exact Herds.together_add hu _ _
  | remove => exact Herds.together_remove hu _ _
  | move => exact Herds.together_move hu _ _ _
  | merge => exact Herds.together_merge hu _ _
  | split => exact Herds.together_split hu _ _ _
  | delete => exact Herds.together_delete hu _
  | restore => exact Herds.together_restore hu _
  | members => exact Herds.together_members hu _
  | listActive => exact Herds.together_list _
  | listArchived => exact Herds.together_list _
  | lookUp user herd =>
    refine .bind (Herds.together_herd? hu _) fun _ found found' hfound => ?_
    cases hfound.2 with
    | none => exact .pure rfl
    | some h => exact .pure (Answer.bare_object h.bare_eq)
  | lookUpActive user herd role =>
    refine .bind (Herds.together_active hu _ _) fun _ found found' hfound => ?_
    cases hfound.2 with
    | refused refusal => exact .pure rfl
    | herd h => exact .pure (Answer.bare_object h.bare_eq)

/-! ### Animals -/

namespace Animals

theorem idOf_eq {doc : Fields} {id : String} (h : Table.get? "_id" doc = some (.str id)) :
    idOf doc = id := by
  rw [idOf, h]

theorem blind_fieldOf {name : String} (hn : name ≠ "_id") : Blind fun doc => fieldOf doc name :=
  fun doc => by simp only [fieldOf, get?_bare hn]

theorem blind_shown : Blind shown := fun doc => by
  simp only [shown, fieldOf]
  repeat rw [get?_bare (by decide)]

/-- The document of a new record is its owner's. -/
theorem get?_document (user id species sex birthDate breed notes : Value) :
    Table.get? "ownerId" (document user id species sex birthDate breed notes) = some user := rfl

/-- A computation comes to the same for the user in two stores that are alike to the user. -/
abbrev Together {α β : Type} (user : Value) (known : List (String × String)) (act : Effect Store α)
    (act' : Effect Store β) (Q : List (String × String) → α → β → Prop) : Prop :=
  Store.Together "ownerId" user known act act' Q

theorem together_owned? (hu : user.IsTidy) (animal : Value) :
    Together user known (owned? user animal) (owned? user animal)
      fun known' found found' => known ⊆ known' ∧ Found user known' found found' :=
  together_findOne (by simp [Table.keys]) hu

theorem together_notFound (animal : Value) :
    Together user known (notFound user animal) (notFound user animal) fun _ a b => a = b :=
  together_texts _ _ fun _ _ => rfl

theorem together_invalid (what : String) (v : Value) (expected : List String) :
    Together user known (invalid what v expected) (invalid what v expected) fun _ a b => a = b :=
  .step (together_textOf _) fun _ => .pure rfl

theorem together_change {doc doc' : Fields} (h : Matched user known doc doc') {changes : Fields}
    (hc : Harmless "ownerId" changes) :
    Together user known (change doc changes) (change doc' changes) fun _ a b => a = b := by
  obtain ⟨ids, hk, hid, hid'⟩ := h.exists_ids
  rw [change, change, idOf_eq hid, idOf_eq hid']
  exact .step (together_update hk hc) fun _ => .pure rfl

theorem together_register (hu : user.IsTidy) (id species sex birthDate breed notes : Value) :
    Together user known (register user id species sex birthDate breed notes)
      (register user id species sex birthDate breed notes) fun _ a b => a = b := by
  unfold register
  split
  · exact .pure rfl
  split
  · exact .pure rfl
  split
  · exact together_invalid _ _ _
  refine .bind (Q := fun _ a b => a = b) (together_transaction
    (.bind (together_owned? hu id) fun known' found found' hfound => ?_)) ?_
  · cases hfound.2 with
    | some _ => exact .pure rfl
    | none =>
      exact .bind (together_insert (get?_document ..) (by decide) hu) fun _ _ _ _ => .pure rfl
  · rintro known' taken _ rfl
    cases taken with
    | true =>
      exact together_texts _ _ fun _ _ => rfl
    | false => exact .pure rfl

theorem together_setStatus (hu : user.IsTidy) (animal status notes : Value) :
    Together user known (setStatus user animal status notes) (setStatus user animal status notes)
      fun _ a b => a = b := by
  unfold setStatus
  split
  · exact together_invalid _ _ _
  refine .bind (together_owned? hu _) fun known' found found' hfound => ?_
  cases hfound.2 with
  | none => exact together_notFound _
  | some h =>
    dsimp only
    rw [(blind_fieldOf (show "notes" ≠ "_id" by decide)).eq h.bare_eq]
    exact together_change h ⟨by simp [Table.keys], by simp [Table.keys]⟩

theorem together_edit (hu : user.IsTidy) (animal species breed birthDate sex : Value) :
    Together user known (edit user animal species breed birthDate sex)
      (edit user animal species breed birthDate sex) fun _ a b => a = b := by
  unfold edit
  split
  · exact .pure rfl
  split
  · exact together_invalid _ _ _
  refine .bind (together_owned? hu _) fun known' found found' hfound => ?_
  cases hfound.2 with
  | none => exact together_notFound _
  | some h => exact together_change h ⟨by simp [Table.keys], by simp [Table.keys]⟩

theorem together_retire (hu : user.IsTidy) (departure : Departure) (animal date remark : Value) :
    Together user known (retire departure user animal date remark)
      (retire departure user animal date remark) fun _ a b => a = b := by
  refine .step (together_textOf _) fun _ => .step (together_textOf _) fun _ =>
    .bind (together_owned? hu _) fun known' found found' hfound => ?_
  cases hfound.2 with
  | none => exact together_notFound _
  | some h =>
    dsimp only
    rw [(blind_fieldOf (show "status" ≠ "_id" by decide)).eq h.bare_eq]
    split
    · exact .step (together_textOf _) fun _ => together_texts _ _ fun _ _ => rfl
    · exact together_change h ⟨by simp [Table.keys], by simp [Table.keys]⟩

theorem together_remove (hu : user.IsTidy) (animal : Value) :
    Together user known (remove user animal) (remove user animal) fun _ a b => a = b := by
  refine .bind (together_owned? hu _) fun known' found found' hfound => ?_
  cases hfound.2 with
  | none => exact together_notFound _
  | some h =>
    obtain ⟨ids, hk, hid, hid'⟩ := h.exists_ids
    dsimp only
    rw [idOf_eq hid, idOf_eq hid']
    exact .bind (Store.together_delete hk) fun _ _ _ _ => .pure rfl

end Animals

/-- The user who asks. -/
def AnimalAction.asker : AnimalAction → Value
  | .register user .. | .setStatus user .. | .edit user .. | .retire _ user .. | .remove user _
  | .present user _ | .presentAll user | .lookUp user _ => user

/-- Whether the document of an animal is asked for. -/
def AnimalAction.asksDocument : AnimalAction → Bool
  | .lookUp .. => true
  | _ => false

/-- Every action on animals comes to the same for the user who asks. -/
theorem AnimalAction.together_run (action : AnimalAction) (hu : action.asker.IsTidy) :
    Animals.Together action.asker known action.run action.run
      fun _ a b => a.Matches action.asksDocument b := by
  cases action with
  | register => exact Animals.together_register hu _ _ _ _ _ _
  | setStatus => exact Animals.together_setStatus hu _ _ _
  | edit => exact Animals.together_edit hu _ _ _ _ _
  | retire => exact Animals.together_retire hu _ _ _ _
  | remove => exact Animals.together_remove hu _
  | present user id =>
    refine .bind (Animals.together_owned? hu _) fun _ found found' hfound => ?_
    cases hfound.2 with
    | none => exact Animals.together_notFound _
    | some h => exact .pure (by rw [Animals.blind_shown.eq h.bare_eq]; rfl)
  | presentAll user =>
    exact .bind (together_find (by simp [Table.keys])) fun _ _ _ hfound =>
      .pure (by rw [Animals.blind_shown.map_eq hfound.2]; rfl)
  | lookUp user animal =>
    refine .bind (Animals.together_owned? hu _) fun _ found found' hfound => ?_
    cases hfound.2 with
    | none => exact .pure rfl
    | some h => exact .pure (Answer.bare_object h.bare_eq)

end HerdBook
