import HerdBook.Proofs.Atomicity
import HerdBook.Proofs.Numbering

/-!
# What actions on herds do

An action on the herds that neither fails nor refuses does one thing to the documents, which
`HerdAction.Does` says for each action, together with what the action has made sure of before. All
other runs leave the documents as they were.

* `Store.Leads`: what is known of a computation that succeeds, whatever is ordered to fail.

## Main results

* `HerdAction.does_of_run`: an action does what it is for, or nothing.
-/

namespace HerdBook

open Effect

namespace Store

variable {α β : Type} {s : Store} {act : Effect Store α} {next : α → Effect Store β}
  {Q Q' : α → Store → Prop} {R : β → Store → Prop}

/-- When the computation succeeds, its result and the store it leaves have the property. The orders
to fail do not matter: those in the store stand for any others. -/
def Leads (s : Store) (act : Effect Store α) (Q : α → Store → Prop) : Prop :=
  ∀ orders a t, act.run { s with failing := orders } = (.ok a, t) →
    Q a { t with failing := s.failing }

/-- A result. -/
theorem Leads.pure {a : α} (h : Q a s) : Leads s (Pure.pure a) Q := by
  intro orders b t hrun
  obtain ⟨rfl, rfl⟩ := Prod.mk.inj hrun |>.imp Except.ok.inj id
  exact h

/-- An outcome that is known. -/
theorem Leads.ofExcept {outcome : Except Fault α} (h : ∀ a, outcome = .ok a → Q a s) :
    Leads s (Effect.ofExcept outcome) Q := by
  intro orders a t hrun
  obtain ⟨rfl, rfl⟩ := Prod.mk.inj hrun
  exact h a rfl

/-- A sequence, by its parts. -/
theorem Leads.bind (h : Leads s act Q) (hn : ∀ a t, Q a t → Leads t (next a) R) :
    Leads s (act >>= next) R := by
  intro orders b u hrun
  obtain ⟨a, t, hact, hnext⟩ := exists_of_run_bind hrun
  exact hn a _ (h orders a t hact) t.failing b u hnext

/-- A sequence that begins with reading. -/
theorem Leads.read {P : α → Prop} (h : Leads s act fun a t => t = s ∧ P a)
    (hn : ∀ a, P a → Leads s (next a) R) : Leads s (act >>= next) R :=
  h.bind fun a t ht => by
    obtain ⟨rfl, hP⟩ := ht
    exact hn a hP

/-- Of a success less may be said. -/
theorem Leads.weaken (h : Leads s act Q) (hQ : ∀ a t, Q a t → Q' a t) : Leads s act Q' :=
  fun orders a t hrun => hQ a _ (h orders a t hrun)

/-- A text in an answer. -/
theorem leads_textOf (v : Value) : Leads s (textOf v) fun _ t => t = s ∧ True :=
  .ofExcept fun _ _ => ⟨rfl, trivial⟩

/-- Two texts in an answer. -/
theorem leads_texts (v w : Value) {result : String → String → α} (h : ∀ a b, Q (result a b) s) :
    Leads s (do return result (← textOf v) (← textOf w)) Q :=
  (leads_textOf v).read fun a _ => (leads_textOf w).read fun b _ => .pure (h a b)

/-- A call of an operation. -/
theorem leads_enter (op : Operation) : Leads s (enter op) fun _ t => t = s ∧ True := by
  intro orders a t hrun
  unfold enter at hrun
  rw [run_ofStep] at hrun
  split at hrun <;> obtain ⟨-, rfl⟩ := Prod.mk.inj hrun <;> exact ⟨rfl, trivial⟩

/-- The first document that satisfies criteria. -/
theorem leads_findOne (criteria : Fields) :
    Leads s (findOne criteria) fun found t =>
      t = s ∧ found = (s.docs.map (·.2)).find? (satisfies criteria) := by
  refine (leads_enter .findOne).read fun _ _ => ?_
  refine Leads.read (P := fun docs => docs = matching criteria s) ?_ fun docs hdocs =>
    .pure ⟨rfl, by rw [hdocs, matching, List.head?_filter]⟩
  refine (leads_enter .find).read fun _ _ orders a t hrun => ?_
  obtain ⟨ha, rfl⟩ := Prod.mk.inj hrun
  exact ⟨rfl, (Except.ok.inj ha).symm⟩

/-- Numbered documents are numbered whatever is ordered to fail. -/
theorem Numbered.ordered (h : s.Numbered) (orders : List (Operation × Nat)) :
    Numbered { s with failing := orders } := ⟨h.nodup, h.named, h.issued⟩

/-- An insertion appends a document. -/
theorem leads_insert (h : s.Numbered) (doc : Fields) :
    Leads s (insert doc) fun id t => id = docId (s.issued + 1) ∧ t = s.grown doc := by
  rw [insert_eq]
  refine (leads_enter .insert).read fun _ _ orders a t hrun => ?_
  rw [run_inserted (h.ordered orders)] at hrun
  cases hc : copy doc with
  | ok _ =>
    rw [hc] at hrun
    obtain ⟨ha, rfl⟩ := Prod.mk.inj hrun
    exact ⟨(Except.ok.inj ha).symm, rfl⟩
  | error fault =>
    rw [hc] at hrun
    exact nomatch hrun

/-- An update changes the document under the id, if there is one. -/
theorem leads_update (h : s.Numbered) (id : String) (changes : Fields) :
    Leads s (update id changes) fun _ t => t = { s with docs := amend id changes s.docs } := by
  rw [update_eq]
  refine (leads_enter .update).read fun _ _ orders a t hrun => ?_
  cases hdoc : Table.get? id s.docs with
  | none =>
    have hkey : id ∉ Table.keys s.docs := fun hmem => by
      obtain ⟨entry, he, hid⟩ := List.mem_map.mp hmem
      exact Table.ne_of_get?_eq_none hdoc entry he hid
    simp only [updated, run_bind, run_get, hdoc, run_pure] at hrun
    obtain ⟨-, rfl⟩ := Prod.mk.inj hrun
    simp only [amend_eq_self hkey]
  | some doc =>
    rw [run_updated (h.ordered orders) hdoc] at hrun
    cases hc : copy changes with
    | ok _ =>
      rw [hc] at hrun
      obtain ⟨-, rfl⟩ := Prod.mk.inj hrun
      rfl
    | error fault =>
      rw [hc] at hrun
      cases hrun

/-- A deletion removes the document under the id, if there is one. -/
theorem leads_delete (id : String) :
    Leads s (delete id) fun _ t => t = { s with docs := Table.erase id s.docs } := by
  rw [delete_eq]
  refine (leads_enter .delete).read fun _ _ orders a t hrun => ?_
  obtain ⟨-, rfl⟩ := Prod.mk.inj hrun
  rfl

/-- A transaction that succeeds does what is in it. -/
theorem leads_transaction (h : Leads s act Q) : Leads s (transaction act) Q := by
  refine (leads_enter .transaction).read fun _ _ orders a t hrun => ?_
  rw [run_bind_ok (run_get _), run_bind_ok (run_attempt act _)] at hrun
  rcases hact : act.run { s with failing := orders } with ⟨fault | b, u⟩ <;> rw [hact] at hrun
  · exact nomatch hrun
  · obtain ⟨hb, rfl⟩ := Prod.mk.inj hrun
    exact Except.ok.inj hb ▸ h orders b u hact

end Store

open Store

namespace Herds

/-! ### What is done to documents -/

/-- The herd of that owner and name among the documents: the first one, if there are more. -/
def among? (user name : Value) (docs : Documents) : Option Fields :=
  (docs.map (·.2)).find? (satisfies [("userId", user), ("name", name)])

/-- The documents with the members of a herd set. -/
def withMembers (herd : Fields) (members : List Value) (docs : Documents) : Documents :=
  amend (idOf herd) [("members", .list members)] docs

/-- The documents with a herd emptied and marked as archived. -/
def withArchived (herd : Fields) (docs : Documents) : Documents :=
  amend (idOf herd) [("isArchived", .bool true), ("members", .list [])] docs

/-- The documents with a herd no longer marked as archived. -/
def withRestored (herd : Fields) (docs : Documents) : Documents :=
  amend (idOf herd) [("isArchived", .bool false)] docs

/-- The documents with that of a new herd. -/
def withNew (id : String) (user name description : Value) (docs : Documents) : Documents :=
  docs ++ [(id, Table.set "_id" (.str id) (document user name description))]

/-- The herd of that owner and name is there, and is not archived. -/
def IsActive (user name : Value) (docs : Documents) (herd : Fields) : Prop :=
  among? user name docs = some herd ∧ isArchived herd = false

/-- The herd that animals are split off into, and the documents in which it is. -/
inductive TargetOf (user name : Value) (docs : Documents) : Fields → Documents → Prop
  /-- It is there, and is not archived. -/
  | found {herd : Fields} (h : IsActive user name docs herd) : TargetOf user name docs herd docs
  /-- It is new. -/
  | new {id : String} (hnone : among? user name docs = none) (hid : Table.get? id docs = none) :
      TargetOf user name docs [("_id", .str id), ("members", .list [])]
        (withNew id user name (.str "") docs)

end Herds

open Herds

/-- What an action on herds does to the documents when it does something, and what it has made sure
of. -/
inductive HerdAction.Does : HerdAction → Documents → Documents → Prop
  /-- A herd is created. -/
  | create {user name description : Value} {docs : Documents} {id : String}
      (hname : name.isBlankName = .ok false) (hnone : among? user name docs = none)
      (hid : Table.get? id docs = none) :
      Does (.create user name description) docs (withNew id user name description docs)
  /-- An animal is added. -/
  | add {user name animal : Value} {docs : Documents} {herd : Fields}
      (h : IsActive user name docs herd) (hnew : animal.isIn (membersOf herd) = false) :
      Does (.add user name animal) docs (withMembers herd (membersOf herd ++ [animal]) docs)
  /-- An animal is removed. -/
  | remove {user name animal : Value} {docs : Documents} {herd : Fields}
      (h : IsActive user name docs herd) (hin : animal.isIn (membersOf herd) = true) :
      Does (.remove user name animal) docs (withMembers herd (without (membersOf herd) animal) docs)
  /-- An animal is moved. -/
  | move {user sourceName targetName animal : Value} {docs : Documents} {source target : Fields}
      (hne : sourceName.same targetName = false) (hs : IsActive user sourceName docs source)
      (ht : IsActive user targetName docs target) (hin : animal.isIn (membersOf source) = true) :
      Does (.move user sourceName targetName animal) docs
        (withMembers target (union (membersOf target) [animal])
          (withMembers source (without (membersOf source) animal) docs))
  /-- A herd is merged into another one. -/
  | merge {user keepName goneName : Value} {docs : Documents} {keep gone : Fields}
      (hne : keepName.same goneName = false) (hk : IsActive user keepName docs keep)
      (hg : IsActive user goneName docs gone) :
      Does (.merge user keepName goneName) docs
        (withArchived gone (withMembers keep (union (membersOf keep) (membersOf gone)) docs))
  /-- Animals are split off. -/
  | split {user sourceName targetName animals : Value} {docs docs' : Documents}
      {source target : Fields} {moving staying : List Value}
      (hne : sourceName.same targetName = false) (hs : IsActive user sourceName docs source)
      (hmoving : animals.elements = .ok moving)
      (hin : ∀ animal ∈ moving, animal.isIn (membersOf source) = true)
      (ht : TargetOf user targetName docs target docs')
      (hstaying : filterM (fun member => (animals.contains member).map (!·)) (membersOf source)
        = .ok staying) :
      Does (.split user sourceName targetName animals) docs
        (withMembers target (union (membersOf target) moving) (withMembers source staying docs'))
  /-- A herd is archived. -/
  | archive {user name : Value} {docs : Documents} {herd : Fields}
      (h : IsActive user name docs herd) : Does (.delete user name) docs (withArchived herd docs)
  /-- A herd that is archived is removed. -/
  | delete {user name : Value} {docs : Documents} {herd : Fields}
      (h : among? user name docs = some herd) (ha : isArchived herd = true) :
      Does (.delete user name) docs (Table.erase (idOf herd) docs)
  /-- A herd that is archived is restored. -/
  | restore {user name : Value} {docs : Documents} {herd : Fields}
      (h : among? user name docs = some herd) (ha : isArchived herd = true) :
      Does (.restore user name) docs (withRestored herd docs)

namespace Herds

variable {s : Store}

theorem leads_herd? (user name : Value) :
    Leads s (herd? user name) fun found t => t = s ∧ found = among? user name s.docs :=
  leads_findOne _

/-- What is admitted is an active herd, and what is not is refused. -/
theorem leads_active (user name role : Value) :
    Leads s (active user name role) fun found t => t = s ∧
      (∀ refusal, found = .error refusal → refusal.Refuses) ∧
        ∀ herd, found = .ok herd → IsActive user name s.docs herd := by
  refine (leads_herd? user name).read fun found hfound => ?_
  cases found with
  | none =>
    exact (leads_textOf _).read fun _ _ => leads_texts _ _ fun _ _ =>
      ⟨rfl, fun _ h => Except.error.inj h ▸ rfl, nofun⟩
  | some herd =>
    dsimp only
    split
    · next ha =>
      exact .pure ⟨rfl, nofun, fun _ h => Except.ok.inj h ▸ ⟨hfound.symm, by simpa using ha⟩⟩
    · exact leads_texts _ _ fun _ _ => ⟨rfl, fun _ h => Except.error.inj h ▸ rfl, nofun⟩

theorem leads_setMembers (h : s.Numbered) (herd : Fields) (members : List Value) :
    Leads s (setMembers herd members) fun _ t =>
      t = { s with docs := withMembers herd members s.docs } :=
  (leads_update h _ _).bind fun _ _ ht => .pure ht

theorem leads_archive (h : s.Numbered) (herd : Fields) :
    Leads s (archive herd) fun _ t => t = { s with docs := withArchived herd s.docs } :=
  (leads_update h _ _).bind fun _ _ ht => .pure ht

/-- A regrouping is reported as what it is, or refused. -/
theorem leads_reporting {act : Effect Store Answer} {Q : Answer → Store → Prop}
    (h : Leads s act Q) (action reason : String) :
    Leads s (reporting action reason act) fun answer t => answer.Refuses ∨ Q answer t := by
  intro orders a t hrun
  unfold reporting at hrun
  rw [run_bind_ok (run_attempt act _)] at hrun
  rcases hact : act.run { s with failing := orders } with ⟨fault | b, u⟩ <;> rw [hact] at hrun
  · obtain ⟨ha, -⟩ := Prod.mk.inj hrun
    exact .inl (Except.ok.inj ha ▸ rfl)
  · obtain ⟨hb, rfl⟩ := Prod.mk.inj hrun
    exact .inr (Except.ok.inj hb ▸ h orders b u hact)

/-! ### The actions -/

/-- The answer is a refusal, or what has been done to the documents is what the action does. -/
def Carries (action : HerdAction) (docs : Documents) (answer : Answer) (t : Store) : Prop :=
  answer.Refuses ∨ action.Does docs t.docs

theorem leads_notFound (user herdName : Value) :
    Leads s (notFound user herdName) fun answer _ => answer.Refuses :=
  leads_texts _ _ fun _ _ => rfl

theorem leads_create (hs : s.Numbered) (user name description : Value) :
    Leads s (create user name description) (Carries (.create user name description) s.docs) := by
  refine Leads.read (P := fun blank => name.isBlankName = .ok blank)
    (.ofExcept fun _ hb => ⟨rfl, hb⟩) fun blank hblank => ?_
  cases blank with
  | true => exact .pure (.inl rfl)
  | false =>
    refine Leads.bind (Q := fun taken t => taken = false →
      (HerdAction.create user name description).Does s.docs t.docs)
      (leads_transaction ((leads_herd? user name).read fun found hfound => ?_)) ?_
    · cases found with
      | some herd => exact .pure nofun
      | none =>
        refine (leads_insert hs _).bind fun id t ht => .pure fun _ => ?_
        obtain ⟨rfl, rfl⟩ := ht
        exact .create hblank hfound.symm hs.get?_next
    · intro taken t hdoes
      cases taken with
      | true =>
        exact leads_texts _ _ fun _ _ => .inl rfl
      | false => exact .pure (.inr (hdoes rfl))

theorem leads_add (hs : s.Numbered) (user herdName animal : Value) :
    Leads s (add user herdName animal) (Carries (.add user herdName animal) s.docs) := by
  refine (leads_active _ _ _).read fun found hfound => ?_
  obtain ⟨hrefused, hactive⟩ := hfound
  cases found with
  | error refusal => exact .pure (.inl (hrefused _ rfl))
  | ok herd =>
    dsimp only
    split
    · exact leads_texts _ _ fun _ _ => .inl rfl
    · next hnew =>
      refine (leads_setMembers hs _ _).bind fun _ t ht => .pure (.inr ?_)
      subst ht
      exact .add (hactive _ rfl) (by simpa using hnew)

theorem leads_remove (hs : s.Numbered) (user herdName animal : Value) :
    Leads s (remove user herdName animal) (Carries (.remove user herdName animal) s.docs) := by
  refine (leads_active _ _ _).read fun found hfound => ?_
  obtain ⟨hrefused, hactive⟩ := hfound
  cases found with
  | error refusal => exact .pure (.inl (hrefused _ rfl))
  | ok herd =>
    dsimp only
    split
    · exact leads_texts _ _ fun _ _ => .inl rfl
    · next hin =>
      refine (leads_setMembers hs _ _).bind fun _ t ht => .pure (.inr ?_)
      subst ht
      exact .remove (hactive _ rfl) (by simpa using hin)

/-- Setting the members of a herd leaves the store numbered. -/
theorem numbered_withMembers (hs : s.Numbered) (herd : Fields) (members : List Value) :
    Numbered { s with docs := withMembers herd members s.docs } :=
  hs.amend (by simp [Table.keys]) (idOf herd) rfl rfl

theorem leads_move (hs : s.Numbered) (user sourceName targetName animal : Value) :
    Leads s (move user sourceName targetName animal)
      (Carries (.move user sourceName targetName animal) s.docs) := by
  unfold move
  split
  · exact .pure (.inl rfl)
  next hne =>
  refine (leads_active _ _ _).read fun found hfound => ?_
  obtain ⟨hrefused, hsource⟩ := hfound
  cases found with
  | error refusal => exact .pure (.inl (hrefused _ rfl))
  | ok source =>
    refine (leads_active _ _ _).read fun found hfound => ?_
    obtain ⟨hrefused, htarget⟩ := hfound
    cases found with
    | error refusal => exact .pure (.inl (hrefused _ rfl))
    | ok target =>
      dsimp only
      split
      · exact leads_texts _ _ fun _ _ => .inl rfl
      next hin =>
      refine leads_reporting (leads_transaction ((leads_setMembers hs _ _).bind fun _ t ht => ?_))
        _ _
      subst ht
      refine (leads_setMembers (numbered_withMembers hs _ _) _ _).bind fun _ t ht => .pure ?_
      subst ht
      exact .move (by simpa using hne) (hsource _ rfl) (htarget _ rfl) (by simpa using hin)

theorem leads_merge (hs : s.Numbered) (user keepName goneName : Value) :
    Leads s (merge user keepName goneName) (Carries (.merge user keepName goneName) s.docs) := by
  unfold merge
  split
  · exact .pure (.inl rfl)
  next hne =>
  refine (leads_reporting (leads_transaction (Q := Carries (.merge user keepName goneName) s.docs)
    ((leads_active _ _ _).read fun found hfound => ?_)) _ _).weaken fun _ _ h => h.elim .inl id
  obtain ⟨hrefused, hkeep⟩ := hfound
  cases found with
  | error refusal => exact .pure (.inl (hrefused _ rfl))
  | ok keep =>
    refine (leads_herd? _ _).read fun found hfound => ?_
    cases found with
    | none => exact (leads_notFound _ _).weaken fun _ _ => .inl
    | some gone =>
      dsimp only
      split
      · exact (leads_textOf _).read fun _ _ => .pure (.inl rfl)
      next ha =>
      refine (leads_setMembers hs _ _).bind fun _ t ht => ?_
      subst ht
      refine (leads_archive (numbered_withMembers hs _ _) _).bind fun _ t ht => .pure (.inr ?_)
      subst ht
      exact .merge (by simpa using hne) (hkeep _ rfl) ⟨hfound.symm, by simpa using ha⟩

/-- The target of a split is there, or it is inserted. -/
theorem leads_splitTarget (hs : s.Numbered) (user targetName : Value) :
    Leads s (splitTarget user targetName) fun found t => t.Numbered ∧
      (∀ refusal, found = .error refusal → refusal.Refuses) ∧
        ∀ target, found = .ok target → TargetOf user targetName s.docs target t.docs := by
  refine (leads_herd? _ _).read fun found hfound => ?_
  cases found with
  | none =>
    refine (leads_insert hs _).bind fun id t ht => .pure ?_
    obtain ⟨rfl, rfl⟩ := ht
    exact ⟨hs.grown _, nofun, fun _ h => Except.ok.inj h ▸ .new hfound.symm hs.get?_next⟩
  | some target =>
    dsimp only
    split
    · next ha =>
      exact .pure ⟨hs, nofun, fun _ h =>
        Except.ok.inj h ▸ .found ⟨hfound.symm, by simpa using ha⟩⟩
    · exact (leads_textOf _).read fun _ _ =>
        .pure ⟨hs, fun _ h => Except.error.inj h ▸ rfl, nofun⟩

theorem leads_split (hs : s.Numbered) (user sourceName targetName animals : Value) :
    Leads s (split user sourceName targetName animals)
      (Carries (.split user sourceName targetName animals) s.docs) := by
  unfold split
  split
  · exact .pure (.inl rfl)
  next hne =>
  split
  · exact .pure (.inl rfl)
  refine (leads_active _ _ _).read fun found hfound => ?_
  obtain ⟨hrefused, hsource⟩ := hfound
  cases found with
  | error refusal => exact .pure (.inl (hrefused _ rfl))
  | ok source =>
    refine Leads.read (P := fun moving => animals.elements = .ok moving)
      (.ofExcept fun _ h => ⟨rfl, mapError_eq_ok_iff.mp h⟩) fun moving hmoving => ?_
    dsimp only
    split
    · exact Leads.read (P := fun _ => True) (.ofExcept fun _ _ => ⟨rfl, trivial⟩) fun _ _ =>
        (leads_textOf _).read fun _ _ => .pure (.inl rfl)
    next hmissing =>
    have hin : ∀ animal ∈ moving, animal.isIn (membersOf source) = true := by
      simpa [List.filter_eq_nil_iff] using hmissing
    refine (leads_reporting (leads_transaction
      (Q := Carries (.split user sourceName targetName animals) s.docs)
      ((leads_splitTarget hs _ _).bind fun found t ht => ?_)) _ _).weaken fun _ _ h => h.elim .inl id
    obtain ⟨hnumbered, hrefused, htarget⟩ := ht
    cases found with
    | error refusal => exact .pure (.inl (hrefused _ rfl))
    | ok target =>
      refine Leads.read (P := fun staying => filterM (fun member =>
          (animals.contains member).map (!·)) (membersOf source) = .ok staying)
        (.ofExcept fun _ h => ⟨rfl, mapError_eq_ok_iff.mp h⟩) fun staying hstaying => ?_
      refine (leads_setMembers hnumbered _ _).bind fun _ u hu => ?_
      subst hu
      refine (leads_setMembers (numbered_withMembers hnumbered _ _) _ _).bind fun _ u hu =>
        .pure (.inr ?_)
      subst hu
      exact .split (by simpa using hne) (hsource _ rfl) hmoving hin (htarget _ rfl) hstaying

theorem leads_delete (hs : s.Numbered) (user herdName : Value) :
    Leads s (delete user herdName) (Carries (.delete user herdName) s.docs) := by
  refine (leads_herd? _ _).read fun found hfound => ?_
  cases found with
  | none => exact (leads_notFound _ _).weaken fun _ _ => .inl
  | some herd =>
    dsimp only
    split
    · next ha =>
      refine (Store.leads_delete _).bind fun _ t ht => .pure (.inr ?_)
      subst ht
      exact .delete hfound.symm ha
    · next ha =>
      refine (leads_archive hs _).bind fun _ t ht => .pure (.inr ?_)
      subst ht
      exact .archive ⟨hfound.symm, by simpa using ha⟩

theorem leads_restore (hs : s.Numbered) (user herdName : Value) :
    Leads s (restore user herdName) (Carries (.restore user herdName) s.docs) := by
  refine (leads_herd? _ _).read fun found hfound => ?_
  cases found with
  | none => exact (leads_notFound _ _).weaken fun _ _ => .inl
  | some herd =>
    dsimp only
    split
    · exact (leads_textOf _).read fun _ _ => .pure (.inl rfl)
    next ha =>
    refine (leads_update hs _ _).bind fun _ t ht => .pure (.inr ?_)
    subst ht
    exact .restore hfound.symm (by simpa using ha)

end Herds

/-- What an action that has led to an answer has done: what it is for, or nothing. -/
theorem HerdAction.does_of_leads {action : HerdAction} {store : Store}
    (h : Leads store action.run (Carries action store.docs)) :
    (action.run.run store).2.docs = store.docs ∨
      action.Does store.docs (action.run.run store).2.docs := by
  obtain ⟨herror, hok⟩ := action.undoes_run store
  rcases hrun : action.run.run store with ⟨fault | answer, t⟩ <;> rw [hrun] at herror hok
  · exact .inl (herror fault rfl)
  · exact (h store.failing answer t hrun).imp (hok answer rfl) id

/-- An action on herds does to the documents what it is for, or it leaves them as they are. -/
theorem HerdAction.does_of_run {store : Store} (h : store.Numbered) (action : HerdAction) :
    (action.run.run store).2.docs = store.docs ∨
      action.Does store.docs (action.run.run store).2.docs := by
  cases action with
  | create => exact does_of_leads (leads_create h _ _ _)
  | add => exact does_of_leads (leads_add h _ _ _)
  | remove => exact does_of_leads (leads_remove h _ _ _)
  | move => exact does_of_leads (leads_move h _ _ _ _)
  | merge => exact does_of_leads (leads_merge h _ _ _)
  | split => exact does_of_leads (leads_split h _ _ _ _)
  | delete => exact does_of_leads (Herds.leads_delete h _ _)
  | restore => exact does_of_leads (leads_restore h _ _)
  | members => exact .inl (retains_members _ _ store)
  | listActive => exact .inl (retains_list _ _ store)
  | listArchived => exact .inl (retains_list _ _ store)
  | lookUp => exact .inl (retains_lookUp _ _ store)
  | lookUpActive => exact .inl (retains_lookUpActive _ _ _ store)

end HerdBook
