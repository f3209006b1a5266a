import HerdBook.Proofs.Equivalence
import HerdBook.Proofs.Numbering
import Mathlib.Data.List.Forall2

/-!
# Two runs side by side

What a user has in a store are the documents that name the user as their owner. This is about two
stores in which a user has the same documents, in the same order, whatever else is in them and
whichever ids the documents are kept under, and about two runs on them that do the same to
corresponding documents.

* `Store.view`: what a user has.
* `Store.Confined`: only the user's documents have changed.
* `Store.Alike`: the user has the same in both stores. Some ids are known to correspond: the runs
  may write to them.
* `Store.Together`: two runs come to the same, and leave stores that are alike.

## Main results

* `Store.together_findOne`: the documents found correspond, and their ids are known from then on.
* `Store.together_insert`, `Store.together_update`, `Store.together_delete`,
  `Store.together_transaction`: the operations that write.
-/

namespace HerdBook

open Effect

namespace Store

/-! ### Documents without their ids -/

/-- A document without its id. -/
def bare (doc : Fields) : Fields := Table.erase "_id" doc

/-- Other fields are there without the id. -/
theorem get?_bare {name : String} (hn : name ≠ "_id") (doc : Fields) :
    Table.get? name (bare doc) = Table.get? name doc :=
  Table.get?_erase_of_ne (Ne.symm hn) doc

/-- What is computed from a document does not depend on its id. -/
def Blind {α : Type} (f : Fields → α) : Prop := ∀ doc, f (bare doc) = f doc

/-- So it is the same for documents that differ in their ids. -/
theorem Blind.eq {α : Type} {f : Fields → α} (h : Blind f) {doc doc' : Fields}
    (hb : bare doc = bare doc') : f doc = f doc' := by
  rw [← h doc, hb, h doc']

/-- And for lists of such documents. -/
theorem Blind.map_eq {α : Type} {f : Fields → α} (h : Blind f) {docs docs' : List Fields}
    (hb : docs.map bare = docs'.map bare) : docs.map f = docs'.map f := by
  have hmap : ∀ docs : List Fields, docs.map f = (docs.map bare).map f := fun docs => by
    rw [List.map_map]
    exact List.map_congr_left fun doc _ => (h doc).symm
  rw [hmap docs, hb, ← hmap docs']

/-- A field is computed without the id. -/
theorem blind_get? {name : String} (hn : name ≠ "_id") : Blind (Table.get? name) :=
  get?_bare hn

/-- So is whether criteria that do not mention the id are satisfied. -/
theorem blind_satisfies {criteria : Fields} (hc : "_id" ∉ Table.keys criteria) :
    Blind (satisfies criteria) := by
  intro doc
  rw [Bool.eq_iff_iff, satisfies, satisfies, List.all_eq_true, List.all_eq_true]
  refine forall₂_congr fun entry he => ?_
  have hname : entry.1 ≠ "_id" := fun hid => hc (hid ▸ List.mem_map_of_mem he)
  rw [get?_bare hname]

/-- A document under another id is the same without it. -/
theorem bare_set_id (v : Value) (doc : Fields) : bare (Table.set "_id" v doc) = bare doc :=
  Table.erase_set_self "_id" v doc

/-- Fields other than the id can be set before it is taken away or afterwards. -/
theorem bare_merge {changes : Fields} (hc : "_id" ∉ Table.keys changes) (doc : Fields) :
    bare (Table.merge doc changes) = Table.merge (bare doc) changes := by
  induction changes generalizing doc with
  | nil => rfl
  | cons entry rest ih =>
    obtain ⟨hne, hrest⟩ := not_or.mp (mt List.mem_cons.mpr hc)
    calc bare (Table.merge doc (entry :: rest))
        = Table.merge (bare (Table.set entry.1 entry.2 doc)) rest := ih hrest _
      _ = Table.merge (bare doc) (entry :: rest) :=
        congrArg (Table.merge · rest) (Table.erase_set_of_ne (Ne.symm hne) entry.2 doc)

/-! ### What a user has -/

variable (owner : String) (user : Value)

/-- Whether a document names the user as its owner. -/
def belongs (doc : Fields) : Bool := satisfies [(owner, user)] doc

/-- The documents of the user. -/
def owned (docs : Documents) : Documents := docs.filter fun entry => belongs owner user entry.2

/-- The documents that are not the user's. -/
def others (docs : Documents) : Documents := docs.filter fun entry => !belongs owner user entry.2

/-- What the user has: the documents without their ids, in order. -/
def view (docs : Documents) : List Fields :=
  (owned owner user docs).map fun entry => bare entry.2

/-- Changes leave the id and the owner of a document alone. -/
def Harmless (changes : Fields) : Prop :=
  "_id" ∉ Table.keys changes ∧ owner ∉ Table.keys changes

/-- A store that is numbered, and whose documents have owners that are tidy. -/
structure Tended (store : Store) : Prop extends Numbered store where
  tidy : ∀ entry ∈ store.docs, ((Table.get? owner entry.2).getD .null).IsTidy

variable {owner user}

/-- Whose a document is depends on its owner alone. -/
theorem belongs_congr {doc doc' : Fields} (h : Table.get? owner doc = Table.get? owner doc') :
    belongs owner user doc = belongs owner user doc' := by
  simp only [belongs, satisfies, List.all_cons, List.all_nil, h]

/-- What is looked for among the documents of a user is found among what the user has. -/
theorem satisfies_cons (criteria doc : Fields) :
    satisfies ((owner, user) :: criteria) doc
      = (belongs owner user doc && satisfies criteria doc) := by
  simp [belongs, satisfies]

/-- A document after a harmless change is whose it was. -/
theorem belongs_merge {changes : Fields} (hc : Harmless owner changes) (doc : Fields) :
    belongs owner user (Table.merge doc changes) = belongs owner user doc :=
  belongs_congr (Table.get?_merge_of_notMem hc.2 doc)

/-- A user who has something is the same as themselves. -/
theorem Tended.same_user {store : Store} (h : store.Tended owner) (hu : user.IsTidy)
    {entry : String × Fields} (he : entry ∈ store.docs)
    (hb : belongs owner user entry.2 = true) : user.same user = true := by
  have hsame : ((Table.get? owner entry.2).getD .null).same user = true := by
    simpa [belongs, satisfies] using hb
  exact Value.same_of_same_both (h.tidy entry he) hu hsame hsame

/-! ### Changes of what a user has -/

/-- A harmless change of a document leaves a selection by owners in its place. -/
theorem filter_amend {changes : Fields} {p : Fields → Bool}
    (hp : ∀ doc, p (Table.merge doc changes) = p doc) (id : String) (docs : Documents) :
    (amend id changes docs).filter (fun entry => p entry.2)
      = amend id changes (docs.filter fun entry => p entry.2) := by
  rw [amend, List.filter_map]
  congr 1
  refine List.filter_congr fun entry _ => ?_
  simp only [Function.comp]
  split
  · exact hp entry.2
  · rfl

/-- An id of a document that a user has is not that of a document of another. -/
theorem notMem_keys_others {docs : Documents} (hnodup : (Table.keys docs).Nodup) {id : String}
    (h : id ∈ Table.keys (owned owner user docs)) : id ∉ Table.keys (others owner user docs) := by
  intro hother
  obtain ⟨entry, he, rfl⟩ := List.mem_map.mp h
  obtain ⟨entry', he', hid⟩ := List.mem_map.mp hother
  obtain ⟨hmem, hb⟩ := List.mem_filter.mp he
  obtain ⟨hmem', hb'⟩ := List.mem_filter.mp he'
  have hsome := Table.get?_of_mem hnodup hmem
  rw [← hid, Table.get?_of_mem hnodup hmem'] at hsome
  rw [Option.some.inj hsome, hb] at hb'
  exact nomatch hb'

/-- Nothing but the documents of the user has changed, apart from new ones that are the user's, and
nothing is ordered to fail that was not. -/
structure Confined (owner : String) (user : Value) (store store' : Store) : Prop where
  issued : store.issued ≤ store'.issued
  orders : store.failing = [] → store'.failing = []
  others : ∃ new, Store.others owner user store'.docs = Store.others owner user store.docs ++ new ∧
    ∀ entry ∈ new, Table.get? owner entry.2 = some user

/-- Nothing has changed. -/
theorem Confined.refl (store : Store) : Confined owner user store store :=
  ⟨Nat.le_refl _, id, [], (List.append_nil _).symm, nofun⟩

/-- Changes one after the other. -/
theorem Confined.trans {store store' store'' : Store} (h : Confined owner user store store')
    (h' : Confined owner user store' store'') : Confined owner user store store'' := by
  obtain ⟨new, hnew, hown⟩ := h.others
  obtain ⟨new', hnew', hown'⟩ := h'.others
  refine ⟨Nat.le_trans h.issued h'.issued, h'.orders ∘ h.orders, new ++ new',
    by rw [hnew', hnew, List.append_assoc], ?_⟩
  exact fun entry he => (List.mem_append.mp he).elim (hown entry) (hown' entry)

/-- A user who is the same as themselves leaves the documents of others as they are. -/
theorem Confined.others_eq {store store' : Store} (h : Confined owner user store store')
    (hu : user.same user = true) :
    Store.others owner user store'.docs = Store.others owner user store.docs := by
  obtain ⟨new, hnew, hown⟩ := h.others
  cases new with
  | nil => rw [hnew, List.append_nil]
  | cons entry rest =>
    have hmem : entry ∈ Store.others owner user store'.docs := by simp [hnew]
    obtain ⟨-, hb⟩ := List.mem_filter.mp hmem
    simp [belongs, satisfies, hown entry List.mem_cons_self, hu] at hb

/-! ### Stores in which a user has the same -/

/-- Two documents under ids are the same but for their ids, and of the ids that are known to
correspond both have theirs or neither has. -/
def Twin (known : List (String × String)) (entry entry' : String × Fields) : Prop :=
  bare entry.2 = bare entry'.2 ∧ ∀ ids ∈ known, entry.1 = ids.1 ↔ entry'.1 = ids.2

/-- The user has the same in both stores, whose operations are ordered to fail at the same calls;
the ids that are known to correspond are those of documents of the user. -/
structure Alike (owner : String) (user : Value) (known : List (String × String))
    (store store' : Store) : Prop where
  failing : store.failing = store'.failing
  left : store.Tended owner
  right : store'.Tended owner
  twins : List.Forall₂ (Twin known) (owned owner user store.docs) (owned owner user store'.docs)
  there : ∀ ids ∈ known, ids.1 ∈ Table.keys (owned owner user store.docs) ∧
    ids.2 ∈ Table.keys (owned owner user store'.docs)

/-- What two runs have come to: the same fault, or results that correspond. -/
inductive Meets {α β : Type} (owner : String) (user : Value)
    (Q : List (String × String) → α → β → Prop) :
    Except Fault α × Store → Except Fault β × Store → Prop
  | fault {fault : Fault} {store store' : Store} (h : Alike owner user [] store store') :
      Meets owner user Q (.error fault, store) (.error fault, store')
  | ok {a : α} {b : β} {known : List (String × String)} {store store' : Store}
      (h : Alike owner user known store store') (hQ : Q known a b) :
      Meets owner user Q (.ok a, store) (.ok b, store')

/-- From stores that are alike the two computations come to the same, in stores that are alike
again, and change nothing but documents of the user. -/
def Together {α β : Type} (owner : String) (user : Value) (known : List (String × String))
    (act : Effect Store α) (act' : Effect Store β) (Q : List (String × String) → α → β → Prop) :
    Prop :=
  ∀ store store', Alike owner user known store store' →
    Confined owner user store (act.run store).2 ∧ Confined owner user store' (act'.run store').2 ∧
      Meets owner user Q (act.run store) (act'.run store')

/-! ### How stores stay alike -/

section

variable {known : List (String × String)} {s s' t t' : Store}

/-- The documents are the same, and as many ids are handed out at least. -/
theorem Confined.of_docs_eq (hdocs : s'.docs = s.docs) (hissued : s.issued ≤ s'.issued)
    (horders : s.failing = [] → s'.failing = []) : Confined owner user s s' :=
  ⟨hissued, horders, [], by rw [hdocs, List.append_nil], nofun⟩

/-- A store stays tended when its documents are the same. -/
theorem Tended.mono (h : s.Tended owner) (hdocs : s'.docs = s.docs)
    (hissued : s.issued ≤ s'.issued) : s'.Tended owner :=
  ⟨h.toNumbered.mono hdocs hissued, hdocs ▸ h.tidy⟩

/-- Stores stay alike when their documents are the same. -/
theorem Alike.mono (h : Alike owner user known s t) (hs : s'.docs = s.docs)
    (hsi : s.issued ≤ s'.issued) (ht : t'.docs = t.docs) (hti : t.issued ≤ t'.issued)
    (hfailing : s'.failing = t'.failing) : Alike owner user known s' t' :=
  ⟨hfailing, h.left.mono hs hsi, h.right.mono ht hti, by rw [hs, ht]; exact h.twins,
    by rw [hs, ht]; exact h.there⟩

/-- Less may be known. -/
theorem Alike.forget (h : Alike owner user known s t) : Alike owner user [] s t :=
  ⟨h.failing, h.left, h.right, h.twins.imp fun _ _ htwin => ⟨htwin.1, nofun⟩, nofun⟩

/-- The ids that are known are those of documents. -/
theorem Alike.exists_doc (h : Alike owner user known s t) {ids : String × String}
    (hk : ids ∈ known) : ∃ doc doc', Table.get? ids.1 s.docs = some doc ∧
      Table.get? ids.2 t.docs = some doc' := by
  obtain ⟨hs, ht⟩ := h.there ids hk
  obtain ⟨entry, he, hid⟩ := List.mem_map.mp hs
  obtain ⟨entry', he', hid'⟩ := List.mem_map.mp ht
  exact ⟨entry.2, entry'.2, hid ▸ h.left.get?_of_mem (List.mem_of_mem_filter he),
    hid' ▸ h.right.get?_of_mem (List.mem_of_mem_filter he')⟩

/-- Twins remain twins when those of the same ids are changed in the same way. -/
theorem forall₂_amend {l l' : Documents} (h : List.Forall₂ (Twin known) l l')
    {ids : String × String} (hk : ids ∈ known) {changes : Fields}
    (hc : "_id" ∉ Table.keys changes) :
    List.Forall₂ (Twin known) (amend ids.1 changes l) (amend ids.2 changes l') := by
  rw [amend, amend, List.forall₂_map_left_iff, List.forall₂_map_right_iff]
  refine h.imp fun entry entry' htwin => ?_
  by_cases hid : entry.1 = ids.1
  · rw [if_pos hid, if_pos ((htwin.2 ids hk).mp hid)]
    exact ⟨by rw [bare_merge hc, bare_merge hc, htwin.1], htwin.2⟩
  · rw [if_neg hid, if_neg (mt (htwin.2 ids hk).mpr hid)]
    exact htwin

/-- A document of the user is changed. -/
theorem Confined.amend (h : s.Numbered) {id : String} {changes : Fields}
    (hid : id ∈ Table.keys (owned owner user s.docs)) (hc : Harmless owner changes) :
    Confined owner user s { s with docs := amend id changes s.docs } := by
  refine ⟨Nat.le_refl _, fun hnone => hnone, [], ?_, nofun⟩
  have hother : Store.others owner user (Store.amend id changes s.docs)
      = Store.amend id changes (Store.others owner user s.docs) :=
    filter_amend (p := fun doc => !belongs owner user doc)
      (fun doc => congrArg (!·) (belongs_merge hc doc)) id s.docs
  rw [hother, amend_eq_self (notMem_keys_others h.nodup hid), List.append_nil]

/-- A harmless change leaves a store tended. -/
theorem Tended.amend (h : s.Tended owner) (id : String) {changes : Fields}
    (hc : Harmless owner changes) :
    Tended owner { s with docs := amend id changes s.docs } := by
  refine ⟨h.toNumbered.amend hc.1 id rfl rfl, fun entry he => ?_⟩
  obtain ⟨doc, hdoc, hval⟩ := exists_of_mem_amend he
  have htidy : ((Table.get? owner doc).getD .null).IsTidy := h.tidy _ hdoc
  rw [hval]
  split
  · rwa [Table.get?_merge_of_notMem hc.2]
  · exact htidy

/-- Stores stay alike when documents whose ids are known are changed in the same way. -/
theorem Alike.amend (h : Alike owner user known s t) {ids : String × String} (hk : ids ∈ known)
    {changes : Fields} (hc : Harmless owner changes) :
    Alike owner user known { s with docs := amend ids.1 changes s.docs }
      { t with docs := amend ids.2 changes t.docs } := by
  have howned : ∀ id docs, owned owner user (Store.amend id changes docs)
      = Store.amend id changes (owned owner user docs) :=
    filter_amend fun doc => belongs_merge hc doc
  refine ⟨h.failing, h.left.amend _ hc, h.right.amend _ hc, ?_, ?_⟩
  · rw [howned, howned]
    exact forall₂_amend h.twins hk hc.1
  · rw [howned, howned, keys_amend, keys_amend]
    exact h.there

/-- A document of the user is removed. -/
theorem Confined.erase (h : s.Numbered) {id : String}
    (hid : id ∈ Table.keys (owned owner user s.docs)) :
    Confined owner user s { s with docs := Table.erase id s.docs } := by
  refine ⟨Nat.le_refl _, fun hnone => hnone, [], ?_, nofun⟩
  have hkeep : (Store.others owner user s.docs).filter (fun entry => decide (entry.1 ≠ id))
      = Store.others owner user s.docs :=
    List.filter_eq_self.mpr fun entry he => decide_eq_true fun hid' =>
      notMem_keys_others h.nodup hid (hid' ▸ List.mem_map_of_mem he)
  calc Store.others owner user (Table.erase id s.docs)
      = (Store.others owner user s.docs).filter (fun entry => decide (entry.1 ≠ id)) := by
        rw [Table.erase_eq_filter id h.nodup, Store.others, Store.others, List.filter_comm]
    _ = Store.others owner user s.docs ++ [] := by rw [hkeep, List.append_nil]

/-- Stores are alike when documents whose ids are known are removed. -/
theorem Alike.erase (h : Alike owner user known s t) {ids : String × String} (hk : ids ∈ known) :
    Alike owner user [] { s with docs := Table.erase ids.1 s.docs }
      { t with docs := Table.erase ids.2 t.docs } := by
  have hleft : ∀ {s : Store} (id : String), s.Tended owner →
      Tended owner { s with docs := Table.erase id s.docs } := fun id hs =>
    ⟨hs.toNumbered.erase id rfl rfl, fun entry he => hs.tidy entry (Table.mem_of_mem_erase he)⟩
  refine ⟨h.failing, hleft _ h.left, hleft _ h.right, ?_, nofun⟩
  have howned : ∀ {s : Store} (id : String), s.Numbered →
      owned owner user (Table.erase id s.docs)
        = (owned owner user s.docs).filter fun entry => decide (entry.1 ≠ id) := by
    intro s id hs
    rw [Table.erase_eq_filter id hs.nodup, owned, owned, List.filter_comm]
  rw [howned _ h.left.toNumbered, howned _ h.right.toNumbered]
  have hpair : ∀ entry entry', Twin known entry entry' →
      (decide (entry.1 ≠ ids.1) = true ↔ decide (entry'.1 ≠ ids.2) = true) :=
    fun entry entry' htwin => by simpa using not_congr (htwin.2 ids hk)
  exact (List.rel_filter (fun entry entry' htwin => hpair entry entry' htwin) h.twins).imp
    fun _ _ htwin => ⟨htwin.1, nofun⟩

/-- A new document of the user goes to the end of what the user has, or if the user is not the same
as themselves, to that of the others. -/
theorem owned_append {doc : Fields} (hown : Table.get? owner doc = some user) (id : String)
    (docs : Documents) :
    owned owner user (docs ++ [(id, doc)])
        = owned owner user docs ++ (if user.same user then [(id, doc)] else []) ∧
      Store.others owner user (docs ++ [(id, doc)])
        = Store.others owner user docs ++ (if user.same user then [] else [(id, doc)]) := by
  have hb : belongs owner user doc = user.same user := by simp [belongs, satisfies, hown]
  cases hu : user.same user <;> simp [owned, Store.others, List.filter_append, hb, hu]

/-- A document of the user is added. -/
theorem Confined.grown {doc : Fields} (hown : Table.get? owner doc = some user)
    (howner : owner ≠ "_id") (s : Store) : Confined owner user s (s.grown doc) := by
  have hset : Table.get? owner (Table.set "_id" (.str (docId (s.issued + 1))) doc) = some user := by
    rw [Table.get?_set, if_neg (Ne.symm howner), hown]
  refine ⟨Nat.le_succ _, id, _, (owned_append hset _ _).2, fun entry he => ?_⟩
  split at he
  · exact absurd he List.not_mem_nil
  · rw [List.mem_singleton.mp he, hset]

/-- Twins do not have ids that nothing has. -/
theorem forall₂_fresh {l l' : Documents} (h : List.Forall₂ (Twin known) l l')
    {ids : String × String} (hl : ∀ entry ∈ l, entry.1 ≠ ids.1)
    (hl' : ∀ entry ∈ l', entry.1 ≠ ids.2) : List.Forall₂ (Twin (ids :: known)) l l' := by
  have hboth : List.Forall₂ (fun entry entry' =>
      entry.1 ≠ ids.1 ∧ entry'.1 ≠ ids.2 ∧ Twin known entry entry') l l' :=
    (List.forall₂_and_left _ _).mpr ⟨hl, ((List.forall₂_and_left _ _).mpr ⟨hl', h.flip⟩).flip⟩
  refine hboth.imp fun entry entry' htwin => ⟨htwin.2.2.1, ?_⟩
  exact List.forall_mem_cons.mpr ⟨by simp [htwin.1, htwin.2.1], htwin.2.2.2⟩

/-- Stores stay alike when the same document of the user is added to both, and where the user is the
same as themselves, its ids are known from then on. -/
theorem Alike.grown (h : Alike owner user known s t) {doc : Fields}
    (hown : Table.get? owner doc = some user) (howner : owner ≠ "_id") (hu : user.IsTidy) :
    Alike owner user
      (if user.same user then (docId (s.issued + 1), docId (t.issued + 1)) :: known else known)
      (s.grown doc) (t.grown doc) := by
  have hset : ∀ id, Table.get? owner (Table.set "_id" (.str id) doc) = some user := fun id => by
    rw [Table.get?_set, if_neg (Ne.symm howner), hown]
  have htended : ∀ {s : Store}, s.Tended owner → (s.grown doc).Tended owner := by
    refine fun {s} hs => ⟨hs.toNumbered.grown doc, fun entry he => ?_⟩
    rcases List.mem_append.mp he with he | he
    · exact hs.tidy entry he
    · rw [List.mem_singleton.mp he, hset]
      exact hu
  have howned : ∀ s : Store, owned owner user (s.grown doc).docs
      = owned owner user s.docs ++ if user.same user then
        [(docId (s.issued + 1), Table.set "_id" (.str (docId (s.issued + 1))) doc)] else [] :=
    fun s => (owned_append (hset _) _ _).1
  have hfresh : ∀ {s : Store}, s.Tended owner → ∀ entry ∈ owned owner user s.docs,
      entry.1 ≠ docId (s.issued + 1) := fun hs entry he =>
    Table.ne_of_get?_eq_none hs.get?_next entry (List.mem_of_mem_filter he)
  refine ⟨h.failing, htended h.left, htended h.right, ?_, ?_⟩ <;>
    rw [howned, howned] <;> cases user.same user
  · simpa using h.twins
  · refine List.rel_append (forall₂_fresh h.twins (hfresh h.left) (hfresh h.right)) (.cons ?_ .nil)
    refine ⟨by rw [bare_set_id, bare_set_id], List.forall_mem_cons.mpr ⟨by simp, fun ids hk => ?_⟩⟩
    obtain ⟨hs, ht⟩ := h.there ids hk
    obtain ⟨entry, he, hid⟩ := List.mem_map.mp hs
    obtain ⟨entry', he', hid'⟩ := List.mem_map.mp ht
    simp [← hid, ← hid', (hfresh h.left entry he).symm, (hfresh h.right entry' he').symm]
  · simpa using h.there
  · refine List.forall_mem_cons.mpr ⟨by simp [Table.keys], fun ids hk => ?_⟩
    obtain ⟨hs, ht⟩ := h.there ids hk
    simp only [Table.keys, List.map_append, List.mem_append] at hs ht ⊢
    exact ⟨.inl hs, .inl ht⟩

/-- Of twins the first ones that satisfy a condition on documents correspond, and their ids are
known from then on. -/
theorem find?_twins {p : Fields → Bool} (hp : Blind p) {l l' : Documents}
    (h : List.Forall₂ (Twin known) l l') (hl : (Table.keys l).Nodup)
    (hl' : (Table.keys l').Nodup) :
    (l.find? (fun entry => p entry.2) = none ∧ l'.find? (fun entry => p entry.2) = none) ∨
      ∃ entry entry', l.find? (fun entry => p entry.2) = some entry ∧
        l'.find? (fun entry => p entry.2) = some entry' ∧ bare entry.2 = bare entry'.2 ∧
        List.Forall₂ (Twin ((entry.1, entry'.1) :: known)) l l' := by
  induction h with
  | nil => exact .inl ⟨rfl, rfl⟩
  | @cons a a' l l' htwin hrest ih =>
    obtain ⟨ha, hl⟩ : a.1 ∉ Table.keys l ∧ (Table.keys l).Nodup := List.nodup_cons.mp hl
    obtain ⟨ha', hl'⟩ : a'.1 ∉ Table.keys l' ∧ (Table.keys l').Nodup := List.nodup_cons.mp hl'
    have hne : ∀ entry ∈ l, entry.1 ≠ a.1 := fun entry he hid =>
      ha (hid ▸ List.mem_map_of_mem he)
    have hne' : ∀ entry ∈ l', entry.1 ≠ a'.1 := fun entry he hid =>
      ha' (hid ▸ List.mem_map_of_mem he)
    have hpa : p a.2 = p a'.2 := hp.eq htwin.1
    cases hpt : p a.2 with
    | true =>
      refine .inr ⟨a, a', List.find?_cons_of_pos hpt, List.find?_cons_of_pos (hpa ▸ hpt), htwin.1,
        .cons ⟨htwin.1, List.forall_mem_cons.mpr ⟨by simp, htwin.2⟩⟩
          (forall₂_fresh hrest hne hne')⟩
    | false =>
      rw [List.find?_cons_of_neg (by simp [hpt]), List.find?_cons_of_neg (by simp [← hpa, hpt])]
      refine (ih hl hl').imp id fun ⟨entry, entry', he, he', hb, htwins⟩ =>
        ⟨entry, entry', he, he', hb, .cons ⟨htwin.1, List.forall_mem_cons.mpr ⟨?_, htwin.2⟩⟩ htwins⟩
      have hmem := hne entry (List.mem_of_find?_eq_some he)
      have hmem' := hne' entry' (List.mem_of_find?_eq_some he')
      simp [hmem.symm, hmem'.symm]

/-- What a user's criteria find are documents of the user. -/
theorem matching_cons (criteria : Fields) (s : Store) :
    matching ((owner, user) :: criteria) s
      = ((owned owner user s.docs).filter fun entry => satisfies criteria entry.2).map (·.2) := by
  rw [matching, owned, List.filter_map, List.filter_filter]
  congr 1
  refine List.filter_congr fun entry _ => ?_
  simp only [Function.comp, satisfies_cons, Bool.and_comm]

end

/-! ### Two runs of the operations -/

section

variable {α β γ δ : Type} {known : List (String × String)} {act : Effect Store α}
  {act' : Effect Store β} {Q : List (String × String) → α → β → Prop}
  {R : List (String × String) → γ → δ → Prop}

namespace Together

/-- Results that correspond. -/
theorem pure {a : α} {b : β} (h : Q known a b) :
    Together owner user known (Pure.pure a) (Pure.pure b) Q :=
  fun store store' halike => ⟨.refl store, .refl store', .ok halike h⟩

/-- An outcome that is known. -/
theorem ofExcept (outcome : Except Fault α) :
    Together owner user known (Effect.ofExcept outcome) (Effect.ofExcept outcome)
      fun known' a b => known' = known ∧ a = b := by
  intro store store' halike
  refine ⟨.refl store, .refl store', ?_⟩
  cases outcome with
  | ok a => exact .ok halike ⟨rfl, rfl⟩
  | error fault => exact .fault halike.forget

/-- A sequence, by its parts. -/
theorem bind {next : α → Effect Store γ} {next' : β → Effect Store δ}
    (h : Together owner user known act act' Q)
    (hn : ∀ known' a b, Q known' a b → Together owner user known' (next a) (next' b) R) :
    Together owner user known (act >>= next) (act' >>= next') R := by
  intro s t halike
  obtain ⟨hs, ht, hmeets⟩ := h s t halike
  rw [run_bind, run_bind]
  generalize act.run s = run at hs hmeets ⊢
  generalize act'.run t = run' at ht hmeets ⊢
  cases hmeets with
  | fault hafter => exact ⟨hs, ht, .fault hafter⟩
  | ok hafter hQ =>
    obtain ⟨hs', ht', hmeets'⟩ := hn _ _ _ hQ _ _ hafter
    exact ⟨hs.trans hs', ht.trans ht', hmeets'⟩

/-- A sequence whose first part is the same in both runs and tells nothing new. -/
theorem step {act act' : Effect Store α} {next : α → Effect Store γ} {next' : α → Effect Store δ}
    (h : Together owner user known act act' fun known' a b => known' = known ∧ a = b)
    (hn : ∀ a, Together owner user known (next a) (next' a) R) :
    Together owner user known (act >>= next) (act' >>= next') R :=
  h.bind fun _ a _ hQ => by
    obtain ⟨rfl, rfl⟩ := hQ
    exact hn a

end Together

/-- A text in an answer. -/
theorem together_textOf (v : Value) :
    Together owner user known (textOf v) (textOf v) fun known' a b => known' = known ∧ a = b :=
  .ofExcept _

/-- Two texts in an answer. -/
theorem together_texts {R : List (String × String) → γ → γ → Prop} (v w : Value)
    {result : String → String → γ} (h : ∀ a b, R known (result a b) (result a b)) :
    Together owner user known (do return result (← textOf v) (← textOf w))
      (do return result (← textOf v) (← textOf w)) R :=
  .step (together_textOf v) fun a => .step (together_textOf w) fun b => .pure (h a b)

/-- Whether a call of an operation fails depends on the orders alone. -/
theorem exists_run_enter (op : Operation) (orders : List (Operation × Nat)) :
    ∃ outcome failing, (orders = [] → failing = []) ∧ ∀ store : Store, store.failing = orders →
      (enter op).run store = (outcome, { store with failing := failing }) := by
  unfold enter
  cases horder : Table.get? op orders with
  | none => exact ⟨.ok (), orders, id, fun store hs => by subst hs; simp [horder]⟩
  | some n =>
    cases n with
    | zero => exact ⟨.ok (), orders, id, fun store hs => by subst hs; simp [horder]⟩
    | succ n =>
      refine ⟨if n = 0 then .error writeFailed else .ok (), Table.set op n orders, fun hnone => ?_,
        fun store hs => by subst hs; simp [horder, failAt]⟩
      rw [hnone] at horder
      cases horder

/-- So operations are entered in both runs, or in neither. -/
theorem together_enter (op : Operation) :
    Together owner user known (enter op) (enter op) fun known' a b => known' = known ∧ a = b := by
  intro s t h
  obtain ⟨outcome, failing, hfailing, hrun⟩ := exists_run_enter op s.failing
  rw [hrun s rfl, hrun t h.failing.symm]
  have halike : Alike owner user known { s with failing := failing } { t with failing := failing } :=
    h.mono rfl (Nat.le_refl _) rfl (Nat.le_refl _) rfl
  refine ⟨.of_docs_eq rfl (Nat.le_refl _) hfailing,
    .of_docs_eq rfl (Nat.le_refl _) (h.failing ▸ hfailing), ?_⟩
  cases outcome with
  | ok _ => exact .ok halike ⟨rfl, rfl⟩
  | error fault => exact .fault halike.forget

/-- Documents that are found in both runs are the same but for their ids. -/
theorem together_find {criteria : Fields} (hc : "_id" ∉ Table.keys criteria) :
    Together owner user known (find ((owner, user) :: criteria))
      (find ((owner, user) :: criteria))
      fun known' docs docs' => known' = known ∧ docs.map bare = docs'.map bare := by
  refine .step (together_enter .find) fun _ s t h => ⟨.refl s, .refl t, .ok h ⟨rfl, ?_⟩⟩
  have hsat : ∀ entry entry', Twin known entry entry' →
      (satisfies criteria entry.2 = true ↔ satisfies criteria entry'.2 = true) :=
    fun entry entry' htwin => Bool.eq_iff_iff.mp ((blind_satisfies hc).eq htwin.1)
  have hfound := List.rel_filter (fun _ _ htwin => hsat _ _ htwin) h.twins
  rw [matching_cons, matching_cons, List.map_map, List.map_map, ← List.forall₂_eq_eq_eq,
    List.forall₂_map_left_iff, List.forall₂_map_right_iff]
  exact hfound.imp fun _ _ htwin => htwin.1

/-- Two documents of the user are the same but for their ids, which are known to correspond. -/
structure Matched (user : Value) (known : List (String × String)) (doc doc' : Fields) : Prop where
  same_user : user.same user = true
  bare_eq : bare doc = bare doc'
  exists_ids : ∃ ids ∈ known, Table.get? "_id" doc = some (.str ids.1) ∧
    Table.get? "_id" doc' = some (.str ids.2)

/-- They still are when more is known. -/
theorem Matched.mono {known' : List (String × String)} {doc doc' : Fields}
    (h : Matched user known doc doc') (hk : known ⊆ known') : Matched user known' doc doc' := by
  obtain ⟨ids, hmem, hid⟩ := h.exists_ids
  exact ⟨h.same_user, h.bare_eq, ids, hk hmem, hid⟩

/-- What is found in two runs: nothing, or documents that match. -/
inductive Found (user : Value) (known : List (String × String)) :
    Option Fields → Option Fields → Prop
  | none : Found user known none none
  | some {doc doc' : Fields} (h : Matched user known doc doc') :
      Found user known (some doc) (some doc')

/-- A document that is found in both runs is the same but for its id, and its ids are known from
then on. -/
theorem together_findOne {criteria : Fields} (hc : "_id" ∉ Table.keys criteria)
    (hu : user.IsTidy) :
    Together owner user known (findOne ((owner, user) :: criteria))
      (findOne ((owner, user) :: criteria))
      fun known' found found' => known ⊆ known' ∧ Found user known' found found' := by
  have hfind : ∀ criteria : Fields, (find criteria >>= fun docs => pure docs.head?)
      = enter .find >>= fun _ => get >>= fun store => pure (matching criteria store).head? :=
    fun criteria => by simp only [find, bind_assoc, pure_bind]
  unfold findOne
  refine .step (together_enter .findOne) fun _ => ?_
  rw [hfind]
  refine .step (together_enter .find) fun _ s t h => ⟨.refl s, .refl t, ?_⟩
  have hhead : ∀ s : Store, (matching ((owner, user) :: criteria) s).head?
      = ((owned owner user s.docs).find? fun entry => satisfies criteria entry.2).map (·.2) :=
    fun s => by rw [matching_cons, List.head?_map, List.head?_filter]
  change Meets owner user _ (.ok (matching _ s).head?, s) (.ok (matching _ t).head?, t)
  rw [hhead, hhead]
  have hnodup : ∀ {s : Store}, s.Tended owner → (Table.keys (owned owner user s.docs)).Nodup :=
    fun hs => hs.nodup.sublist (List.filter_sublist.map _)
  rcases find?_twins (blind_satisfies hc) h.twins (hnodup h.left) (hnodup h.right) with
    ⟨hnone, hnone'⟩ | ⟨entry, entry', he, he', hb, htwins⟩
  · rw [hnone, hnone']
    exact .ok h ⟨List.Subset.refl _, .none⟩
  · rw [he, he']
    have hmem := List.mem_of_find?_eq_some he
    have hmem' := List.mem_of_find?_eq_some he'
    obtain ⟨hdoc, hbelongs⟩ := List.mem_filter.mp hmem
    obtain ⟨hdoc', -⟩ := List.mem_filter.mp hmem'
    exact .ok ⟨h.failing, h.left, h.right, htwins, List.forall_mem_cons.mpr
      ⟨⟨List.mem_map_of_mem hmem, List.mem_map_of_mem hmem'⟩, h.there⟩⟩
      ⟨List.subset_cons_self _ _, .some ⟨h.left.same_user hu hdoc hbelongs, hb,
        (entry.1, entry'.1), List.mem_cons_self, h.left.named _ hdoc, h.right.named _ hdoc'⟩⟩

/-- The same document of the user can be added in both runs; where the user is the same as
themselves, its ids are known from then on. -/
theorem together_insert {doc : Fields} (hown : Table.get? owner doc = some user)
    (howner : owner ≠ "_id") (hu : user.IsTidy) :
    Together owner user known (insert doc) (insert doc) fun known' id id' =>
      known' = if user.same user then (id, id') :: known else known := by
  rw [insert_eq]
  refine .step (together_enter .insert) fun _ s t h => ?_
  rw [run_inserted h.left.toNumbered, run_inserted h.right.toNumbered]
  cases copy doc with
  | ok _ => exact ⟨.grown hown howner s, .grown hown howner t, .ok (h.grown hown howner hu) rfl⟩
  | error fault =>
    exact ⟨.of_docs_eq rfl (Nat.le_succ _) id, .of_docs_eq rfl (Nat.le_succ _) id,
      .fault (h.forget.mono rfl (Nat.le_succ _) rfl (Nat.le_succ _) h.failing)⟩

/-- Documents whose ids are known to correspond can be changed in the same way. -/
theorem together_update {ids : String × String} (hk : ids ∈ known) {changes : Fields}
    (hc : Harmless owner changes) :
    Together owner user known (update ids.1 changes) (update ids.2 changes)
      fun known' a b => known' = known ∧ a = b := by
  rw [update_eq, update_eq]
  refine .step (together_enter .update) fun _ s t h => ?_
  obtain ⟨doc, doc', hdoc, hdoc'⟩ := h.exists_doc hk
  rw [run_updated h.left.toNumbered hdoc, run_updated h.right.toNumbered hdoc']
  cases copy changes with
  | ok _ =>
    exact ⟨.amend h.left.toNumbered (h.there ids hk).1 hc,
      .amend h.right.toNumbered (h.there ids hk).2 hc, .ok (h.amend hk hc) ⟨rfl, rfl⟩⟩
  | error fault => exact ⟨.refl s, .refl t, .fault h.forget⟩

/-- Documents whose ids are known to correspond can be removed. -/
theorem together_delete {ids : String × String} (hk : ids ∈ known) :
    Together owner user known (delete ids.1) (delete ids.2) fun _ a b => a = b := by
  rw [delete_eq, delete_eq]
  refine .step (together_enter .delete) fun _ s t h => ?_
  obtain ⟨doc, doc', hdoc, hdoc'⟩ := h.exists_doc hk
  rw [run_deleted, run_deleted]
  exact ⟨.erase h.left.toNumbered (h.there ids hk).1, .erase h.right.toNumbered (h.there ids hk).2,
    .ok (h.erase hk) (by rw [Table.has, Table.has, hdoc, hdoc']; rfl)⟩

/-- Transactions restore the documents in both runs, or in neither. -/
theorem together_transaction {act act' : Effect Store α}
    {Q : List (String × String) → α → α → Prop} (h : Together owner user known act act' Q) :
    Together owner user known (transaction act) (transaction act') Q := by
  refine .step (together_enter .transaction) fun _ s t halike => ?_
  obtain ⟨hs, ht, hmeets⟩ := h s t halike
  rw [run_bind_ok (run_get s), run_bind_ok (run_get t), run_bind_ok (run_attempt act s),
    run_bind_ok (run_attempt act' t)]
  generalize act.run s = run at hs hmeets ⊢
  generalize act'.run t = run' at ht hmeets ⊢
  cases hmeets with
  | ok hafter hQ => exact ⟨hs, ht, .ok hafter hQ⟩
  | fault hafter =>
    exact ⟨.of_docs_eq rfl hs.issued hs.orders, .of_docs_eq rfl ht.issued ht.orders,
      .fault (halike.forget.mono rfl hs.issued rfl ht.issued hafter.failing)⟩

end

end Store

end HerdBook
