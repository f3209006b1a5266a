import HerdBook.Value.Equality

/-!
# Values of JSON

The values that a client can send (`Value.IsJson`): no tuples, no symbols, no placeholder, every
float a number, and in an object each name once.

## Main results

* `Value.same_self`: such a value is the same as itself. This does not hold of all values, so it is
  what a rule relies on that matches a field of a request with a field of an action.
-/

namespace HerdBook

namespace Value

mutual

/-- The value can be sent as JSON, and is no float that is no number. -/
def IsJson : Value → Prop
  | .null => True
  | .bool _ => True
  | .int _ => True
  | .float x => x ≠ .nan
  | .str _ => True
  | .list items => AreJson items
  | .object fields => (Table.keys fields).Nodup ∧ FieldsAreJson fields
  | _ => False

/-- Each of the values can be sent as JSON. -/
def AreJson : List Value → Prop
  | [] => True
  | v :: vs => IsJson v ∧ AreJson vs

/-- The value of each of the fields can be sent as JSON. -/
def FieldsAreJson : List (String × Value) → Prop
  | [] => True
  | (_, v) :: rest => IsJson v ∧ FieldsAreJson rest

end

/-- What can be sent is not the placeholder. -/
theorem IsJson.isNotApplicable_eq_false {v : Value} (h : v.IsJson) : v.isNotApplicable = false := by
  cases v <;> simp_all [IsJson, isNotApplicable]

/-- The value of a field that is found can be sent when all can. -/
theorem FieldsAreJson.get? {fields : Fields} (h : FieldsAreJson fields) {name : String} {v : Value}
    (hv : Table.get? name fields = some v) : v.IsJson := by
  induction fields with
  | nil => exact absurd hv (by simp)
  | cons entry rest ih =>
    obtain ⟨k, w⟩ := entry
    by_cases hk : k = name
    · simp only [Table.get?, hk, if_true, Option.some.injEq] at hv
      exact hv ▸ h.1
    · simp only [Table.get?, hk, if_false] at hv
      exact ih h.2 hv

/-- A quantity that is a number is the same as itself. -/
theorem amount_same_self {x : Binary64} (h : x ≠ .nan) : x.amount.same x.amount = true := by
  cases x <;> simp_all [Binary64.amount, Amount.same, Binary64.toRat?]

/-- Fields that are found with values that are the same as themselves are the same as these. -/
theorem sameFields_of_get? {as bs : List (String × Value)}
    (h : ∀ entry ∈ as, Table.get? entry.1 bs = some entry.2 ∧ entry.2.same entry.2 = true) :
    sameFields as bs = true := by
  induction as with
  | nil => simp [sameFields]
  | cons entry rest ih =>
    obtain ⟨k, v⟩ := entry
    rw [List.forall_mem_cons] at h
    simp [sameFields, h.1.1, h.1.2, ih h.2]

mutual

/-- What can be sent as JSON is the same as itself. -/
theorem same_self (v : Value) (h : v.IsJson) : v.same v = true := by
  cases v with
  | null => simp [same]
  | bool b => simp [same, sameAmount, amount?, Amount.same]
  | int n => simp [same, sameAmount, amount?, Amount.same]
  | float x => simp [same, sameAmount, amount?, amount_same_self h]
  | str s => simp [same]
  | list items => simp [same, sameItems_self items h]
  | object fields =>
    have hfields := same_self_of_mem fields h.2
    simp only [same, beq_self_eq_true, Bool.true_and]
    exact sameFields_of_get? fun entry he => ⟨Table.get?_of_mem h.1 he, hfields entry he⟩
  | tuple items => exact absurd h (by simp [IsJson])
  | symbol s => exact absurd h (by simp [IsJson])
  | notApplicable => exact absurd h (by simp [IsJson])

/-- A list that can be sent has the same items as itself. -/
theorem sameItems_self (vs : List Value) (h : AreJson vs) : sameItems vs vs = true := by
  cases vs with
  | nil => simp [sameItems]
  | cons v vs => simp [sameItems, same_self v h.1, sameItems_self vs h.2]

/-- The value of each field that can be sent is the same as itself. -/
theorem same_self_of_mem (fields : List (String × Value)) (h : FieldsAreJson fields) :
    ∀ entry ∈ fields, entry.2.same entry.2 = true := by
  cases fields with
  | nil => simp
  | cons entry rest =>
    obtain ⟨k, v⟩ := entry
    exact List.forall_mem_cons.mpr ⟨same_self v h.1, same_self_of_mem rest h.2⟩

end

end Value

end HerdBook
