/-!
# Tables: entries in the order of their first insertion

A table is a list of key–value pairs. Looking a key up finds its first entry; setting a key that
is present changes the value and keeps the place, setting a new one appends; erasing a key closes
the gap. The laws below say what each operation does to a later look-up, so that no proof has to
open the operations.
-/

namespace HerdBook

namespace Table

variable {α β : Type} [DecidableEq α]

/-- The value of the first entry with the key. -/
def get? (key : α) : List (α × β) → Option β
  | [] => none
  | (k, v) :: rest => if k = key then some v else get? key rest

/-- Whether some entry has the key. -/
def has (key : α) (entries : List (α × β)) : Bool := (get? key entries).isSome

/-- The keys in order. -/
def keys (entries : List (α × β)) : List α := entries.map (·.1)

/-- The entries with the key set to the value: in its place when present, else at the end. -/
def set (key : α) (value : β) : List (α × β) → List (α × β)
  | [] => [(key, value)]
  | (k, v) :: rest => if k = key then (key, value) :: rest else (k, v) :: set key value rest

/-- The entries without the first one that has the key. -/
def erase (key : α) : List (α × β) → List (α × β)
  | [] => []
  | (k, v) :: rest => if k = key then rest else (k, v) :: erase key rest

/-- The entries of `base` with those of `changes` set in order. -/
def merge (base changes : List (α × β)) : List (α × β) :=
  changes.foldl (fun acc entry => set entry.1 entry.2 acc) base

/-- The table that arises by setting the pairs in order. -/
def ofPairs (pairs : List (α × β)) : List (α × β) := merge [] pairs

/-- Nothing is found in the table without entries. -/
@[simp] theorem get?_nil (key : α) : get? key ([] : List (α × β)) = none := rfl

/-- A key that was set reads as its new value, any other key as before. -/
theorem get?_set (key other : α) (value : β) (entries : List (α × β)) :
    get? other (set key value entries) =
      if key = other then some value else get? other entries := by
  induction entries with
  | nil => simp [set, get?]
  | cons entry rest ih =>
    obtain ⟨k, v⟩ := entry
    by_cases hk : k = key
    · subst hk
      by_cases ho : k = other <;> simp [set, get?, ho]
    · by_cases ho : k = other
      · subst ho
        simp [set, get?, hk, Ne.symm hk]
      · simp [set, get?, hk, ho, ih]

/-- A table has exactly its keys. -/
theorem has_iff_mem_keys (key : α) (entries : List (α × β)) :
    has key entries = true ↔ key ∈ keys entries := by
  induction entries with
  | nil => simp [has, keys]
  | cons entry rest ih =>
    obtain ⟨k, v⟩ := entry
    by_cases hk : k = key
    · simp [has, get?, keys, hk]
    · simp only [has, get?, keys, hk, if_false, List.map_cons, List.mem_cons] at ih ⊢
      simp [ih, Ne.symm hk]

/-- Setting a key keeps the order of the keys and appends a new one. -/
theorem keys_set (key : α) (value : β) (entries : List (α × β)) :
    keys (set key value entries)
      = if key ∈ keys entries then keys entries else keys entries ++ [key] := by
  induction entries with
  | nil => simp [set, keys]
  | cons entry rest ih =>
    obtain ⟨k, v⟩ := entry
    by_cases hk : k = key
    · simp [set, keys, hk]
    · simp only [set, keys, hk, if_false, List.map_cons, List.mem_cons, Ne.symm hk, false_or]
        at ih ⊢
      rw [ih]
      split <;> simp_all

/-- Setting a key repeats none. -/
theorem nodup_keys_set (key : α) (value : β) {entries : List (α × β)}
    (h : (keys entries).Nodup) : (keys (set key value entries)).Nodup := by
  rw [keys_set]
  split
  · exact h
  · next hk =>
    refine List.nodup_append.2 ⟨h, by simp, fun a ha b hb hab => hk ?_⟩
    rw [← List.mem_singleton.1 hb, ← hab]
    exact ha

/-- Setting several keys repeats none. -/
theorem nodup_keys_merge {base : List (α × β)} (changes : List (α × β))
    (h : (keys base).Nodup) : (keys (merge base changes)).Nodup := by
  induction changes generalizing base with
  | nil => exact h
  | cons entry rest ih => exact ih (nodup_keys_set entry.1 entry.2 h)

/-- A table that is made by setting pairs has each key once. -/
theorem nodup_keys_ofPairs (pairs : List (α × β)) : (keys (ofPairs pairs)).Nodup :=
  nodup_keys_merge pairs (by simp [keys])

/-- In a table that has each key once, an entry is what is found under its key. -/
theorem get?_of_mem {entries : List (α × β)} (h : (keys entries).Nodup) {entry : α × β}
    (he : entry ∈ entries) : get? entry.1 entries = some entry.2 := by
  induction entries with
  | nil => exact absurd he (by simp)
  | cons first rest ih =>
    obtain ⟨k, v⟩ := first
    have hn : k ∉ keys rest ∧ (keys rest).Nodup := List.nodup_cons.1 h
    rcases List.mem_cons.1 he with rfl | he
    · simp [get?]
    · have hk : k ≠ entry.1 := fun hk => hn.1 (hk ▸ List.mem_map_of_mem he)
      simp [get?, hk, ih hn.2 he]

/-- What is found under a key is an entry of the table. -/
theorem mem_of_get? {key : α} {value : β} {entries : List (α × β)}
    (h : get? key entries = some value) : (key, value) ∈ entries := by
  induction entries with
  | nil => exact absurd h (by simp)
  | cons entry rest ih =>
    obtain ⟨k, v⟩ := entry
    by_cases hk : k = key
    · simp only [get?, hk, if_true, Option.some.injEq] at h
      simp [hk, h]
    · simp only [get?, hk, if_false] at h
      exact List.mem_cons_of_mem _ (ih h)

/-- Setting a key brings in no other entry. -/
theorem eq_or_mem_of_mem_set {key : α} {value : β} {entries : List (α × β)} {entry : α × β}
    (h : entry ∈ set key value entries) : entry = (key, value) ∨ entry ∈ entries := by
  induction entries with
  | nil => exact .inl (List.mem_singleton.1 h)
  | cons first rest ih =>
    obtain ⟨k, v⟩ := first
    by_cases hk : k = key
    · simp only [set, hk, if_true, List.mem_cons] at h
      exact h.imp_right fun hr => List.mem_cons_of_mem _ hr
    · simp only [set, hk, if_false, List.mem_cons] at h
      rcases h with rfl | h
      · exact .inr List.mem_cons_self
      · exact (ih h).imp_right fun hr => List.mem_cons_of_mem _ hr

/-- An entry after several keys are set is one of those set, or was there before. -/
theorem mem_of_mem_merge {base changes : List (α × β)} {entry : α × β}
    (h : entry ∈ merge base changes) : entry ∈ changes ∨ entry ∈ base := by
  induction changes generalizing base with
  | nil => exact .inr h
  | cons first rest ih =>
    rcases ih h with hr | hb
    · exact .inl (List.mem_cons_of_mem _ hr)
    · rcases eq_or_mem_of_mem_set hb with rfl | hb
      · exact .inl List.mem_cons_self
      · exact .inr hb

/-- A key that a table does not have is not found in it. -/
theorem get?_eq_none (key : α) {entries : List (α × β)} (h : key ∉ keys entries) :
    get? key entries = none := by
  have hk : has key entries ≠ true := fun hh => h ((has_iff_mem_keys key entries).1 hh)
  simpa [has] using hk

/-- Erasing a key takes its first entry out of the keys. -/
theorem keys_erase (key : α) (entries : List (α × β)) :
    keys (erase key entries) = (keys entries).erase key := by
  induction entries with
  | nil => rfl
  | cons entry rest ih =>
    obtain ⟨k, v⟩ := entry
    by_cases hk : k = key
    · simp [erase, keys, hk]
    · simp only [erase, keys, hk, if_false, List.map_cons] at ih ⊢
      rw [List.erase_cons_tail (by simpa using hk), ih]

/-- Erasing a key brings in no entry. -/
theorem mem_of_mem_erase {key : α} {entries : List (α × β)} {entry : α × β}
    (h : entry ∈ erase key entries) : entry ∈ entries := by
  induction entries with
  | nil => exact h
  | cons first rest ih =>
    obtain ⟨k, v⟩ := first
    by_cases hk : k = key
    · simp only [erase, hk, if_true] at h
      exact List.mem_cons_of_mem _ h
    · simp only [erase, hk, if_false, List.mem_cons] at h
      exact h.elim (fun he => he ▸ List.mem_cons_self) fun hr => List.mem_cons_of_mem _ (ih hr)

/-- Erasing a key leaves what is found under the others. -/
theorem get?_erase_of_ne {key other : α} (hne : key ≠ other) (entries : List (α × β)) :
    get? other (erase key entries) = get? other entries := by
  induction entries with
  | nil => rfl
  | cons entry rest ih =>
    obtain ⟨k, v⟩ := entry
    by_cases hk : k = key
    · subst hk
      simp [erase, get?, hne]
    · by_cases ho : k = other
      · subst ho
        simp [erase, get?, hk]
      · simp [erase, get?, hk, ho, ih]

/-- In a table that has each key once, an erased key is gone and any other key reads as before. -/
theorem get?_erase (key other : α) {entries : List (α × β)} (h : (keys entries).Nodup) :
    get? other (erase key entries) = if key = other then none else get? other entries := by
  induction entries with
  | nil => simp [erase]
  | cons entry rest ih =>
    obtain ⟨k, v⟩ := entry
    have hn : k ∉ keys rest ∧ (keys rest).Nodup := List.nodup_cons.1 h
    by_cases hk : k = key
    · subst hk
      by_cases ho : k = other
      · subst ho
        simp [erase, get?_eq_none k hn.1]
      · simp [erase, get?, ho]
    · by_cases ho : k = other
      · subst ho
        simp [erase, get?, hk, Ne.symm hk]
      · simp [erase, get?, hk, ho, ih hn.2]

end Table

end HerdBook
