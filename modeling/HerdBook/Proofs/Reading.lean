import HerdBook.Json.Reader
import HerdBook.Proofs.Equivalence
import HerdBook.Proofs.Outcomes

/-!
# What is read is tidy

A JSON text may give an object one name twice. The reader makes a table of the fields, in which the
last value counts, so in what is read no object has a name twice, at any depth (`Value.IsTidy`).
The functions of the reader call each other with less of the budget each time, and so do the proofs.

## Main results

* `Json.isTidy_of_read`: the value of a text is tidy.
-/

namespace HerdBook

namespace Value

/-- A table made of tidy fields is tidy. -/
theorem FieldsAreTidy.ofPairs {fields : Fields} (h : FieldsAreTidy fields) :
    FieldsAreTidy (Table.ofPairs fields) :=
  fieldsAreTidy_iff.mpr fun entry he => (Table.mem_of_mem_merge he).elim
    (fieldsAreTidy_iff.mp h entry) fun hnil => absurd hnil List.not_mem_nil

end Value

namespace Json

open Value

variable {cs rest : List Char} {v : Value}

/-- What is well-formed was found. -/
theorem wellFormed_eq_ok_iff {α : Type} {found : Option α} {a : α} :
    wellFormed found = .ok a ↔ found = some a := by
  cases found <;> simp [wellFormed]

/-- A number is tidy. -/
theorem isTidy_of_number? {negative : Bool} (h : number? negative cs = some (v, rest)) :
    v.IsTidy := by
  unfold number? at h
  extract_lets run whole after at h
  split at h
  · cases h
  dsimp only at h
  split at h
  · split at h
    · cases h
    · obtain ⟨rfl, -⟩ := Prod.mk.inj (Option.some.inj h)
      trivial
  · obtain ⟨rfl, -⟩ := Prod.mk.inj (Option.some.inj h)
    trivial

/-- What a word stands for is tidy. -/
theorem isTidy_of_literal? (h : literal? cs = some (v, rest)) : v.IsTidy := by
  obtain ⟨entry, he, hfound⟩ := List.exists_of_findSome?_eq_some h
  obtain ⟨_, -, hv⟩ := Option.map_eq_some_iff.mp hfound
  obtain ⟨rfl, -⟩ := Prod.mk.inj hv
  have hall : ∀ entry ∈ literals, entry.2.IsTidy := by simp [literals, IsTidy]
  exact hall entry he

mutual

/-- A value that is read is tidy. -/
theorem isTidy_of_value (budget : Nat) {room : Nat} {cs rest : List Char} {v : Value}
    (h : value budget room cs = .ok (v, rest)) : v.IsTidy := by
  cases budget with
  | zero => rw [value] at h; cases h
  | succ budget =>
    unfold value at h
    split at h
    · obtain ⟨_, -, h⟩ := bind_eq_ok_iff.mp h
      obtain ⟨rfl, -⟩ := Prod.mk.inj (Except.ok.inj h)
      trivial
    · split at h
      · cases h
      · obtain ⟨rfl, -⟩ := Prod.mk.inj (Except.ok.inj h)
        trivial
      · obtain ⟨⟨vs, _⟩, hitems, h⟩ := bind_eq_ok_iff.mp h
        obtain ⟨rfl, -⟩ := Prod.mk.inj (Except.ok.inj h)
        exact areTidy_of_items budget hitems
    · split at h
      · cases h
      · obtain ⟨rfl, -⟩ := Prod.mk.inj (Except.ok.inj h)
        exact ⟨.nil, trivial⟩
      · obtain ⟨⟨fs, _⟩, hmembers, h⟩ := bind_eq_ok_iff.mp h
        obtain ⟨rfl, -⟩ := Prod.mk.inj (Except.ok.inj h)
        exact ⟨Table.nodup_keys_ofPairs fs, (fieldsAreTidy_of_members budget hmembers).ofPairs⟩
    · split at h
      · next found hfound => exact isTidy_of_literal? (Except.ok.inj h ▸ hfound)
      · split at h <;> exact isTidy_of_number? (wellFormed_eq_ok_iff.mp h)

/-- The items of a list that is read are tidy. -/
theorem areTidy_of_items (budget : Nat) {room : Nat} {cs rest : List Char} {vs : List Value}
    (h : items budget room cs = .ok (vs, rest)) : AreTidy vs := by
  cases budget with
  | zero => rw [items] at h; cases h
  | succ budget =>
    rw [items] at h
    obtain ⟨⟨v, _⟩, hv, h⟩ := bind_eq_ok_iff.mp h
    dsimp only at h
    split at h
    · obtain ⟨⟨others, _⟩, hothers, h⟩ := bind_eq_ok_iff.mp h
      obtain ⟨rfl, -⟩ := Prod.mk.inj (Except.ok.inj h)
      exact ⟨isTidy_of_value budget hv, areTidy_of_items budget hothers⟩
    · obtain ⟨rfl, -⟩ := Prod.mk.inj (Except.ok.inj h)
      exact ⟨isTidy_of_value budget hv, trivial⟩
    · cases h

/-- The fields of an object that is read have tidy values. -/
theorem fieldsAreTidy_of_members (budget : Nat) {room : Nat} {cs rest : List Char}
    {fields : List (String × Value)} (h : members budget room cs = .ok (fields, rest)) :
    FieldsAreTidy fields := by
  cases budget with
  | zero => rw [members] at h; cases h
  | succ budget =>
    unfold members at h
    split at h
    · obtain ⟨⟨key, _⟩, -, h⟩ := bind_eq_ok_iff.mp h
      dsimp only at h
      split at h
      · obtain ⟨⟨v, _⟩, hv, h⟩ := bind_eq_ok_iff.mp h
        dsimp only at h
        split at h
        · obtain ⟨⟨others, _⟩, hothers, h⟩ := bind_eq_ok_iff.mp h
          obtain ⟨rfl, -⟩ := Prod.mk.inj (Except.ok.inj h)
          exact ⟨isTidy_of_value budget hv, fieldsAreTidy_of_members budget hothers⟩
        · obtain ⟨rfl, -⟩ := Prod.mk.inj (Except.ok.inj h)
          exact ⟨isTidy_of_value budget hv, trivial⟩
        · cases h
      · cases h
    · cases h

end

/-- The value of a JSON text is tidy. -/
theorem isTidy_of_read {s : String} (h : read s = .ok v) : v.IsTidy := by
  obtain ⟨⟨found, _⟩, hvalue, h⟩ := bind_eq_ok_iff.mp h
  dsimp only at h
  split at h
  · exact Except.ok.inj h ▸ isTidy_of_value _ hvalue
  · cases h

end Json

end HerdBook
