import HerdBook.Value.Equality

/-!
# Values that are the same as a third one

`Value.same` compares numbers as quantities, so that a truth value, a whole number and a double may
be one value, and it is no equality of what is written. It is an equivalence all the same where it
tells keys apart: two values that count as the same item as one hashable value count as the same
item (`Value.sameItem_of_sameItem`).
-/

namespace HerdBook

/-- Quantities that are the same as a third one are the same. -/
theorem Amount.same_of_same {a b c : Amount} (ha : a.same c = true) (hb : b.same c = true) :
    a.same b = true := by
  cases a <;> cases b <;> cases c <;> simp_all [Amount.same]

namespace Value

variable {u u' v : Value}

/-- Numbers of the quantity of a third one are of one quantity. -/
theorem sameAmount_of_sameAmount (h : u.sameAmount v = true) (h' : u'.sameAmount v = true) :
    u.sameAmount u' = true := by
  unfold sameAmount at *
  cases hu : u.amount? <;> cases hu' : u'.amount? <;> cases hv : v.amount? <;>
    simp_all only [reduceCtorEq]
  exact Amount.same_of_same h h'

/-- Two numbers are the same when their quantities are. -/
theorem same_of_sameAmount (h : u.sameAmount v = true) : u.same v = true := by
  cases u <;> cases v <;> first | exact h | exact absurd h (by simp [sameAmount, amount?])

/-- What is the same as a number is a number of its quantity. -/
theorem sameAmount_of_same {a : Amount} (hv : v.amount? = some a) (h : u.same v = true) :
    u.sameAmount v = true := by
  cases v with
  | bool b => cases u <;> exact h
  | int n => cases u <;> exact h
  | float x => cases u <;> exact h
  | _ => exact absurd hv (by simp [amount?])

/-- What is the same as a text, a symbol or a placeholder is that itself. -/
theorem eq_of_same (ha : v.amount? = none) (hi : v.items? = none) (hf : v.fields? = none)
    (h : u.same v = true) : u = v := by
  cases v <;> cases u <;> simp_all [same, sameAmount, amount?, items?, fields?]

/-- What is the same as a tuple is a tuple of the same items. -/
theorem exists_tuple_of_same {items : List Value} (h : u.same (.tuple items) = true) :
    ∃ others, u = .tuple others ∧ sameItems others items = true := by
  cases u with
  | tuple others => exact ⟨others, rfl, h⟩
  | _ => exact absurd h (by simp [same, sameAmount, amount?])

/-- Only what is no number is a number that is not one. -/
theorem eq_nan_of_isNaN (h : v.isNaN = true) : v = .float .nan := by
  unfold isNaN at h
  split at h
  · rfl
  · exact absurd h (by simp)

/-- Values that count as the same item as a third one, which is what is no number. -/
theorem isNaN_of_sameItem (hv : v.isNaN = true) (h : u.sameItem v = true) : u.isNaN = true := by
  obtain rfl := eq_nan_of_isNaN hv
  rcases Bool.or_eq_true_iff.mp h with h | h
  · exact (Bool.and_eq_true_iff.mp h).1
  · have hs := sameAmount_of_same (a := .nan) rfl h
    unfold sameAmount at hs
    cases hu : u.amount? <;> rw [hu] at hs
    · exact absurd hs (by simp)
    · next a => cases a <;> exact absurd hs (by simp [amount?, Binary64.amount, Amount.same,
        Binary64.toRat?])

/-- What is no number counts as the same item as itself. -/
theorem sameItem_of_isNaN (h : u.isNaN = true) (h' : u'.isNaN = true) : u.sameItem u' = true := by
  rw [sameItem, h, h']
  rfl

/-- What counts as the same item as a value that is a number or no number at all is the same. -/
theorem same_of_sameItem (hv : v.isNaN = false) (h : u.sameItem v = true) : u.same v = true := by
  rwa [sameItem, hv, Bool.and_false, Bool.false_or] at h

mutual

/-- Values that count as the same item as a hashable value count as the same item. -/
theorem sameItem_of_sameItem (v : Value) {u u' : Value} (hv : v.hashable = true)
    (h : u.sameItem v = true) (h' : u'.sameItem v = true) : u.sameItem u' = true := by
  by_cases hnan : v.isNaN = true
  · exact sameItem_of_isNaN (isNaN_of_sameItem hnan h) (isNaN_of_sameItem hnan h')
  have hs := same_of_sameItem (Bool.eq_false_iff.mpr hnan) h
  have hs' := same_of_sameItem (Bool.eq_false_iff.mpr hnan) h'
  refine Bool.or_eq_true_iff.mpr (.inr ?_)
  have hnumber : ∀ a, v.amount? = some a → u.same u' = true := fun a ha =>
    same_of_sameAmount (sameAmount_of_sameAmount (sameAmount_of_same ha hs)
      (sameAmount_of_same ha hs'))
  have hplain : v.amount? = none → v.items? = none → v.fields? = none → u.same u' = true := by
    intro ha hi hf
    obtain rfl := eq_of_same ha hi hf hs'
    exact hs
  cases v with
  | bool b => exact hnumber _ rfl
  | int n => exact hnumber _ rfl
  | float x => exact hnumber _ rfl
  | null => exact hplain rfl rfl rfl
  | notApplicable => exact hplain rfl rfl rfl
  | str s => exact hplain rfl rfl rfl
  | symbol s => exact hplain rfl rfl rfl
  | list items => exact absurd hv (by simp [hashable])
  | object fields => exact absurd hv (by simp [hashable])
  | tuple items =>
    obtain ⟨us, rfl, hus⟩ := exists_tuple_of_same hs
    obtain ⟨us', rfl, hus'⟩ := exists_tuple_of_same hs'
    exact sameItems_of_sameItems items hv hus hus'

/-- Lists that have the same items as a list of hashable values have the same items. -/
theorem sameItems_of_sameItems (vs : List Value) {us us' : List Value}
    (hv : allHashable vs = true) (h : sameItems us vs = true) (h' : sameItems us' vs = true) :
    sameItems us us' = true := by
  cases vs with
  | nil =>
    cases us <;> cases us' <;> simp_all [sameItems]
  | cons v vs =>
    obtain ⟨hv, hvs⟩ := Bool.and_eq_true_iff.mp hv
    cases us with
    | nil => exact absurd h (by simp [sameItems])
    | cons u us =>
      cases us' with
      | nil => exact absurd h' (by simp [sameItems])
      | cons u' us' =>
        obtain ⟨hu, hus⟩ := Bool.and_eq_true_iff.mp h
        obtain ⟨hu', hus'⟩ := Bool.and_eq_true_iff.mp h'
        exact Bool.and_eq_true_iff.mpr
          ⟨sameItem_of_sameItem v hv hu hu', sameItems_of_sameItems vs hvs hus hus'⟩

end

end Value

end HerdBook
