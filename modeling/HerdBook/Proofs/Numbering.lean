import HerdBook.Proofs.Queries
import HerdBook.Proofs.Tables

/-!
# Documents under their ids

The ids that a store hands out are numbered, and it keeps each document under its own one
(`Store.Numbered`). So an update changes one document, a deletion removes one, and an insertion
appends one.

* `Store.amend`, `Store.grown`: the documents after an update and after an insertion.

## Main results

* `Store.Numbered.get?_next`: the next id is not in use.
* `Store.Numbered.amend`, `Store.Numbered.erase`, `Store.Numbered.grown`: stores stay numbered.
* `Store.run_updated`, `Store.run_deleted`, `Store.run_inserted`: what operations do, once they are
  entered.
-/

namespace HerdBook

open Effect

/-- Texts that end in different numbers differ. -/
theorem toString_inj_of_append {text : String} {m n : Nat}
    (h : text ++ toString m = text ++ toString n) : m = n := by
  have hdigits : Nat.toDigits 10 m = Nat.toDigits 10 n :=
    String.ofList_injective (by simpa [Nat.repr] using h)
  rw [← Nat.ofDigitChars_ten_toDigits (n := m), hdigits, Nat.ofDigitChars_ten_toDigits]

namespace Store

/-- Ids of different numbers differ. -/
theorem docId_inj {m n : Nat} (h : docId m = docId n) : m = n := toString_inj_of_append h

/-- The documents with fields set in the one that is kept under the id. -/
def amend (id : String) (changes : Fields) (docs : Documents) : Documents :=
  docs.map fun entry =>
    if entry.1 = id then (entry.1, Table.merge entry.2 changes) else entry

/-- Each document is kept under its own id, and its id is one of those that were handed out. -/
structure Numbered (store : Store) : Prop where
  nodup : (Table.keys store.docs).Nodup
  named : ∀ entry ∈ store.docs, Table.get? "_id" entry.2 = some (.str entry.1)
  issued : ∀ entry ∈ store.docs, ∃ n ≤ store.issued, entry.1 = docId n

/-- The ids stay the same when a document is changed. -/
theorem keys_amend (id : String) (changes : Fields) (docs : Documents) :
    Table.keys (amend id changes docs) = Table.keys docs := by
  simp only [Table.keys, amend, List.map_map]
  refine List.map_congr_left fun entry _ => ?_
  simp only [Function.comp]
  split <;> rfl

/-- A change under an id that is not there changes nothing. -/
theorem amend_eq_self {id : String} {docs : Documents} (h : id ∉ Table.keys docs)
    (changes : Fields) : amend id changes docs = docs := by
  refine (List.map_congr_left fun entry he => if_neg ?_).trans (List.map_id docs)
  exact fun hid => h (hid ▸ List.mem_map_of_mem he)

/-- A document after a change was there before, changed if it is the one. -/
theorem exists_of_mem_amend {id : String} {changes : Fields} {docs : Documents}
    {entry : String × Fields} (h : entry ∈ amend id changes docs) :
    ∃ doc, (entry.1, doc) ∈ docs ∧
      entry.2 = if entry.1 = id then Table.merge doc changes else doc := by
  obtain ⟨old, hold, rfl⟩ := List.mem_map.mp h
  refine ⟨old.2, ?_, ?_⟩
  · split <;> exact hold
  · split <;> simp_all

/-- The store with a document under the next id. -/
def grown (doc : Fields) (store : Store) : Store :=
  { store with
    docs := store.docs ++ [(docId (store.issued + 1),
      Table.set "_id" (.str (docId (store.issued + 1))) doc)]
    issued := store.issued + 1 }

namespace Numbered

variable {store store' : Store}

/-- A store without documents is numbered. -/
theorem of_docs_eq_nil (h : store.docs = []) : store.Numbered := by
  refine ⟨?_, ?_, ?_⟩ <;> simp [h, Table.keys]

/-- The same documents are numbered where more ids are handed out. -/
theorem mono (h : store.Numbered) (hdocs : store'.docs = store.docs)
    (hissued : store.issued ≤ store'.issued) : store'.Numbered := by
  refine ⟨hdocs ▸ h.nodup, hdocs ▸ h.named, hdocs ▸ fun entry he => ?_⟩
  obtain ⟨n, hn, hid⟩ := h.issued entry he
  exact ⟨n, Nat.le_trans hn hissued, hid⟩

/-- The next id is not in use. -/
theorem get?_next (h : store.Numbered) :
    Table.get? (docId (store.issued + 1)) store.docs = none := by
  refine Table.get?_eq_none _ fun hkey => ?_
  obtain ⟨entry, he, hid⟩ := List.mem_map.mp hkey
  obtain ⟨n, hn, hid'⟩ := h.issued entry he
  exact absurd (docId_inj (hid'.symm.trans hid)) (by omega)

/-- A document that is there is found under its id. -/
theorem get?_of_mem (h : store.Numbered) {entry : String × Fields} (he : entry ∈ store.docs) :
    Table.get? entry.1 store.docs = some entry.2 := Table.get?_of_mem h.nodup he

/-- Changing fields of a document other than its id leaves the store numbered. -/
theorem amend (h : store.Numbered) {changes : Fields} (hc : "_id" ∉ Table.keys changes)
    (id : String) (hdocs : store'.docs = Store.amend id changes store.docs)
    (hissued : store'.issued = store.issued) : store'.Numbered := by
  refine ⟨?_, fun entry he => ?_, fun entry he => ?_⟩
  · rw [hdocs, keys_amend]
    exact h.nodup
  · rw [hdocs] at he
    obtain ⟨doc, hdoc, hval⟩ := exists_of_mem_amend he
    have hname : Table.get? "_id" doc = some (.str entry.1) := h.named _ hdoc
    rw [hval]
    split
    · rw [Table.get?_merge_of_notMem hc, hname]
    · exact hname
  · rw [hdocs] at he
    obtain ⟨doc, hdoc, -⟩ := exists_of_mem_amend he
    rw [hissued]
    exact h.issued (entry.1, doc) hdoc

/-- Removing a document leaves the store numbered. -/
theorem erase (h : store.Numbered) (id : String)
    (hdocs : store'.docs = Table.erase id store.docs) (hissued : store'.issued = store.issued) :
    store'.Numbered := by
  refine ⟨?_, fun entry he => ?_, fun entry he => ?_⟩
  · rw [hdocs, Table.keys_erase]
    exact h.nodup.erase id
  · exact h.named entry (Table.mem_of_mem_erase (hdocs ▸ he))
  · rw [hissued]
    exact h.issued entry (Table.mem_of_mem_erase (hdocs ▸ he))

/-- A document under the next id leaves the store numbered. -/
theorem grown (h : store.Numbered) (doc : Fields) : (store.grown doc).Numbered := by
  refine ⟨?_, fun entry he => ?_, fun entry he => ?_⟩
  · have hfresh := Table.ne_of_get?_eq_none h.get?_next
    rw [Table.keys, Store.grown, List.map_append]
    refine List.nodup_append.mpr ⟨h.nodup, by simp, fun id hid other hother hsame => ?_⟩
    obtain ⟨entry, he, rfl⟩ := List.mem_map.mp hid
    exact hfresh entry he (hsame.trans (List.mem_singleton.mp hother))
  · rcases List.mem_append.mp he with he | he
    · exact h.named entry he
    · obtain rfl := List.mem_singleton.mp he
      rw [Table.get?_set, if_pos rfl]
  · rcases List.mem_append.mp he with he | he
    · obtain ⟨n, hn, hid⟩ := h.issued entry he
      exact ⟨n, Nat.le_succ_of_le hn, hid⟩
    · obtain rfl := List.mem_singleton.mp he
      exact ⟨store.issued + 1, Nat.le_refl _, rfl⟩

end Numbered

/-! ### What the operations do -/

/-- An insertion, once it is entered. -/
def inserted (doc : Fields) : Effect Store String := do
  let id ← issue
  modify (put id (← Effect.ofExcept (copy doc)))
  return id

/-- An update, once it is entered. -/
def updated (id : String) (changes : Fields) : Effect Store Bool := do
  match Table.get? id (← get).docs with
  | none => return false
  | some doc =>
    let changes ← Effect.ofExcept (copy changes)
    modify fun store => { store with docs := Table.set id (Table.merge doc changes) store.docs }
    return true

/-- A deletion, once it is entered. -/
def deleted (id : String) : Effect Store Bool := do
  let found := Table.has id (← get).docs
  modify fun store => { store with docs := Table.erase id store.docs }
  return found

/-- An insertion is entered first. -/
theorem insert_eq (doc : Fields) : insert doc = enter .insert >>= fun _ => inserted doc := rfl

/-- So is an update. -/
theorem update_eq (id : String) (changes : Fields) :
    update id changes = enter .update >>= fun _ => updated id changes := rfl

/-- So is a deletion. -/
theorem delete_eq (id : String) : delete id = enter .delete >>= fun _ => deleted id := rfl

/-- A copy is what is copied. -/
theorem eq_of_copy_eq_ok {fields copied : Fields} (h : copy fields = .ok copied) :
    copied = fields := by
  unfold copy at h
  split at h
  · exact (Except.ok.inj h).symm
  · exact nomatch h

variable {store : Store}

/-- An insertion appends the document under the next id, or fails when it cannot be copied. -/
theorem run_inserted (h : store.Numbered) (doc : Fields) :
    (inserted doc).run store =
      match copy doc with
      | .ok _ => (.ok (docId (store.issued + 1)), store.grown doc)
      | .error fault => (.error fault, { store with issued := store.issued + 1 }) := by
  cases hc : copy doc with
  | error fault =>
    simp only [inserted, issue, run_bind, run_ofStep, hc, run_ofExcept]
  | ok copied =>
    obtain rfl := eq_of_copy_eq_ok hc
    have hset := Table.set_eq_append
      (Table.set "_id" (.str (docId (store.issued + 1))) copied) h.get?_next
    simp only [inserted, issue, run_bind, run_ofStep, hc, run_ofExcept, run_modify, run_pure, put,
      hset, grown]

/-- An update sets fields of the document under the id, or fails when they cannot be copied. -/
theorem run_updated (h : store.Numbered) {id : String} {doc : Fields}
    (hdoc : Table.get? id store.docs = some doc) (changes : Fields) :
    (updated id changes).run store =
      match copy changes with
      | .ok _ => (.ok true, { store with docs := amend id changes store.docs })
      | .error fault => (.error fault, store) := by
  have hmap : Table.set id (Table.merge doc changes) store.docs = amend id changes store.docs := by
    rw [Table.set_eq_map _ h.nodup hdoc]
    refine List.map_congr_left fun entry he => ?_
    split
    · next hid =>
      subst hid
      obtain rfl := Option.some.inj ((h.get?_of_mem he).symm.trans hdoc)
      rfl
    · rfl
  cases hc : copy changes with
  | error fault =>
    simp only [updated, run_bind, run_get, hdoc, hc, run_ofExcept]
  | ok copied =>
    obtain rfl := eq_of_copy_eq_ok hc
    simp only [updated, run_bind, run_get, hdoc, hc, run_ofExcept, run_modify, run_pure, hmap]

/-- A deletion drops the document under the id. -/
theorem run_deleted (id : String) (store : Store) :
    (deleted id).run store
      = (.ok (Table.has id store.docs), { store with docs := Table.erase id store.docs }) := rfl

end Store

end HerdBook
