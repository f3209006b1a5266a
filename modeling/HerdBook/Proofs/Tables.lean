import HerdBook.Table
import Mathlib.Data.List.Basic

/-!
# More about tables

What setting and erasing do to a table as a list: new keys come last, and in a table that has each
key once, setting a key changes one entry and erasing it drops one.
-/

namespace HerdBook

namespace Table

variable {α β : Type} [DecidableEq α]

/-- No entry has a key under which nothing is found. -/
theorem ne_of_get?_eq_none {key : α} {entries : List (α × β)} (h : get? key entries = none) :
    ∀ entry ∈ entries, entry.1 ≠ key := by
  rintro entry he rfl
  have hkey : has entry.1 entries = true :=
    (has_iff_mem_keys entry.1 entries).mpr (List.mem_map_of_mem he)
  simp [has, h] at hkey

/-- A key under which nothing is found is erased to no effect. -/
theorem erase_of_get?_eq_none {key : α} {entries : List (α × β)} (h : get? key entries = none) :
    erase key entries = entries := by
  induction entries with
  | nil => rfl
  | cons entry rest ih =>
    obtain ⟨k, v⟩ := entry
    by_cases hk : k = key
    · simp [get?, hk] at h
    · simp only [get?, hk, if_false] at h
      simp [erase, hk, ih h]

/-- In a table that has each key once, setting a key changes the entry that has it. -/
theorem set_eq_map {key : α} {old : β} (value : β) {entries : List (α × β)}
    (hnodup : (keys entries).Nodup) (h : get? key entries = some old) :
    set key value entries
      = entries.map fun entry => if entry.1 = key then (key, value) else entry := by
  induction entries with
  | nil => exact nomatch h
  | cons entry rest ih =>
    obtain ⟨k, v⟩ := entry
    obtain ⟨hk, hrest⟩ : k ∉ keys rest ∧ (keys rest).Nodup := List.nodup_cons.mp hnodup
    by_cases hkey : k = key
    · subst hkey
      have hne : ∀ entry ∈ rest, entry.1 ≠ k := fun entry he hk' =>
        hk (List.mem_map.mpr ⟨entry, he, hk'⟩)
      have hid : rest.map (fun entry => if entry.1 = k then (k, value) else entry) = rest :=
        (List.map_congr_left fun entry he => if_neg (hne entry he)).trans (List.map_id rest)
      simp [set, hid]
    · simp only [get?, hkey, if_false] at h
      simp [set, hkey, ih hrest h]

/-- A key that is new comes last. -/
theorem set_eq_append {key : α} (value : β) {entries : List (α × β)}
    (h : get? key entries = none) : set key value entries = entries ++ [(key, value)] := by
  induction entries with
  | nil => rfl
  | cons first rest ih =>
    obtain ⟨k, v⟩ := first
    by_cases hk : k = key
    · simp [get?, hk] at h
    · rw [get?, if_neg hk] at h
      rw [set, if_neg hk, ih h, List.cons_append]

/-- Keys that are new come last, in their order. -/
theorem merge_eq_append {base changes : List (α × β)} (h : (keys changes).Nodup)
    (hb : ∀ key ∈ keys changes, get? key base = none) :
    merge base changes = base ++ changes := by
  induction changes generalizing base with
  | nil => exact (List.append_nil base).symm
  | cons entry rest ih =>
    obtain ⟨hnew, hrest⟩ : entry.1 ∉ keys rest ∧ (keys rest).Nodup := List.nodup_cons.mp h
    obtain ⟨hentry, hbase⟩ := List.forall_mem_cons.mp hb
    have hafter : ∀ key ∈ keys rest, get? key (set entry.1 entry.2 base) = none := by
      intro key hkey
      have hne : entry.1 ≠ key := fun heq => hnew (heq ▸ hkey)
      rw [get?_set, if_neg hne, hbase key hkey]
    change merge (set entry.1 entry.2 base) rest = _
    rw [ih hrest hafter, set_eq_append _ hentry, List.append_assoc]
    rfl

/-- A key that no change names is found as it was. -/
theorem get?_merge_of_notMem {key : α} {changes : List (α × β)} (h : key ∉ keys changes)
    (base : List (α × β)) : get? key (merge base changes) = get? key base := by
  induction changes generalizing base with
  | nil => rfl
  | cons entry rest ih =>
    obtain ⟨hne, hrest⟩ := not_or.mp (mt List.mem_cons.mpr h)
    calc get? key (merge base (entry :: rest))
        = get? key (set entry.1 entry.2 base) := ih hrest _
      _ = get? key base := by rw [get?_set, if_neg (Ne.symm hne)]

/-- A key that is in the first part of a table is erased there. -/
theorem erase_append_of_mem {key : α} {entries : List (α × β)} (h : key ∈ keys entries)
    (more : List (α × β)) : erase key (entries ++ more) = erase key entries ++ more := by
  induction entries with
  | nil => exact absurd h List.not_mem_nil
  | cons first rest ih =>
    obtain ⟨k, v⟩ := first
    by_cases hk : k = key
    · simp [erase, hk]
    · have hrest : key ∈ keys rest := (List.mem_cons.mp h).resolve_left (Ne.symm hk)
      simp [erase, hk, ih hrest]

/-- Erasing a key leaves the entries with other keys. -/
theorem erase_eq_filter (key : α) {entries : List (α × β)} (h : (keys entries).Nodup) :
    erase key entries = entries.filter fun entry => entry.1 ≠ key := by
  induction entries with
  | nil => rfl
  | cons first rest ih =>
    obtain ⟨k, v⟩ := first
    have hn : k ∉ keys rest ∧ (keys rest).Nodup := List.nodup_cons.1 h
    by_cases hk : k = key
    · subst hk
      have hrest : ∀ entry ∈ rest, entry.1 ≠ k :=
        fun entry he hek => hn.1 (hek ▸ List.mem_map_of_mem he)
      rw [erase, if_pos rfl, List.filter_cons_of_neg (by simp),
        List.filter_eq_self.mpr fun entry he => decide_eq_true (hrest entry he)]
    · rw [erase, if_neg hk, List.filter_cons_of_pos (by simpa using hk), ih hn.2]

/-- Setting one key and erasing another can be done in either order. -/
theorem erase_set_of_ne {key other : α} (hne : key ≠ other) (value : β) (entries : List (α × β)) :
    erase other (set key value entries) = set key value (erase other entries) := by
  induction entries with
  | nil => simp [set, erase, hne]
  | cons entry rest ih =>
    obtain ⟨k, v⟩ := entry
    by_cases hk : k = key
    · subst hk
      simp [set, erase, hne]
    · by_cases ho : k = other
      · subst ho
        simp [set, erase, hk]
      · simp [set, erase, hk, ho, ih]

/-- What is set under a key is gone when the key is erased. -/
theorem erase_set_self (key : α) (value : β) (entries : List (α × β)) :
    erase key (set key value entries) = erase key entries := by
  induction entries with
  | nil => simp [set, erase]
  | cons entry rest ih =>
    obtain ⟨k, v⟩ := entry
    by_cases hk : k = key <;> simp [set, erase, hk, ih]

end Table

end HerdBook
