import HerdBook.Proofs.Sameness
import HerdBook.Proofs.Json
import Mathlib.Data.List.Perm.Subperm

/-!
# Sameness as an equivalence

An object stands for a finite map, so each of its names stands in it once. A value that is made of
such objects is tidy (`Value.IsTidy`), and all data are: what is read from a text, what a client
sends, what the concepts keep. On tidy values `Value.same` is symmetric; transitive it is on all.
It is reflexive on neither, since what is no number differs from itself: that it does not do as an
item of a collection.

## Main results

* `Value.same_comm`: two tidy values are compared in either order.
* `Value.same_trans`: values that are the same as the same one.
* `Value.same_of_same_both`: a value is the same as two others only when these are the same.
* `Value.sameItem_self`: inside a collection, a tidy value counts as the same item as itself.
-/

namespace HerdBook

namespace Value

mutual

/-- In each object, at any depth, each name stands once. -/
def IsTidy : Value → Prop
  | .list items => AreTidy items
  | .tuple items => AreTidy items
  | .object fields => (Table.keys fields).Nodup ∧ FieldsAreTidy fields
  | _ => True

/-- Each of the values is tidy. -/
def AreTidy : List Value → Prop
  | [] => True
  | v :: vs => IsTidy v ∧ AreTidy vs

/-- The value of each of the fields is tidy. -/
def FieldsAreTidy : List (String × Value) → Prop
  | [] => True
  | (_, v) :: rest => IsTidy v ∧ FieldsAreTidy rest

end

/-- Values are tidy when each of them is. -/
theorem areTidy_iff {items : List Value} : AreTidy items ↔ ∀ v ∈ items, v.IsTidy := by
  induction items with
  | nil => simp [AreTidy]
  | cons v vs ih => simp [AreTidy, ih]

/-- Fields are tidy when the value of each of them is. -/
theorem fieldsAreTidy_iff {fields : Fields} :
    FieldsAreTidy fields ↔ ∀ entry ∈ fields, entry.2.IsTidy := by
  induction fields with
  | nil => simp [FieldsAreTidy]
  | cons entry rest ih => simp [FieldsAreTidy, ih]

/-- What is found among tidy fields is tidy. -/
theorem FieldsAreTidy.get? {fields : Fields} (h : FieldsAreTidy fields) {name : String} {v : Value}
    (hv : Table.get? name fields = some v) : v.IsTidy :=
  fieldsAreTidy_iff.mp h _ (Table.mem_of_get? hv)

/-! ### Numbers -/

/-- Quantities are compared in either order. -/
theorem amount_same_comm (a b : Amount) : a.same b = b.same a := by
  cases a <;> cases b <;> simp [Amount.same, Bool.beq_comm]

/-- So are the quantities of numbers. -/
theorem sameAmount_comm (v w : Value) : v.sameAmount w = w.sameAmount v := by
  unfold sameAmount
  cases v.amount? <;> cases w.amount? <;> simp [amount_same_comm]

/-- What a number is the same as is a number of its quantity. -/
theorem sameAmount_of_same_left {v w : Value} {a : Amount} (hv : v.amount? = some a)
    (h : v.same w = true) : v.sameAmount w = true := by
  cases v with
  | bool | int | float => cases w <;> exact h
  | _ => simp [amount?] at hv

/-- Numbers of one quantity are numbers of the quantity of a third one together. -/
theorem sameAmount_trans {u v w : Value} (h : u.sameAmount v = true)
    (h' : v.sameAmount w = true) : u.sameAmount w = true :=
  sameAmount_of_sameAmount h (by rwa [sameAmount_comm])

/-- The quantity of a number that another one has the quantity of. -/
theorem exists_amount_of_sameAmount {v w : Value} (h : v.sameAmount w = true) :
    ∃ a, w.amount? = some a := by
  unfold sameAmount at h
  cases hv : v.amount? <;> cases hw : w.amount? <;> simp_all

/-- What a text, a symbol or a placeholder is the same as is that itself. -/
theorem eq_of_same_left {v w : Value} (ha : v.amount? = none) (hi : v.items? = none)
    (hf : v.fields? = none) (h : v.same w = true) : w = v := by
  cases v <;> cases w <;> simp_all [same, sameAmount, amount?, items?, fields?]

/-! ### Fields -/

/-- Fields are present among others when each of them is, with an item that counts as the same. -/
theorem sameFields_iff {as bs : Fields} :
    sameFields as bs = true ↔
      ∀ entry ∈ as, ∃ b, Table.get? entry.1 bs = some b ∧ entry.2.sameItem b = true := by
  induction as with
  | nil => simp [sameFields]
  | cons entry rest ih =>
    obtain ⟨k, a⟩ := entry
    rw [sameFields, Bool.and_eq_true, ih, List.forall_mem_cons]
    refine and_congr_left fun _ => ?_
    cases Table.get? k bs with
    | none => simp
    | some b => simp [sameItem]

/-- Two objects with the same number of names, those of the one among those of the other, have the
same names. -/
theorem mem_keys_of_sameFields {as bs : Fields} (has : (Table.keys as).Nodup)
    (hlen : as.length = bs.length) (h : sameFields as bs = true) {key : String}
    (hk : key ∈ Table.keys bs) : key ∈ Table.keys as := by
  have hsub : Table.keys as ⊆ Table.keys bs := by
    intro name hname
    obtain ⟨entry, he, rfl⟩ := List.mem_map.mp hname
    obtain ⟨b, hb, -⟩ := sameFields_iff.mp h entry he
    exact List.mem_map.mpr ⟨_, Table.mem_of_get? hb, rfl⟩
  have hperm : (Table.keys as).Perm (Table.keys bs) :=
    (List.subperm_of_subset has hsub).perm_of_length_le (by simp [Table.keys, hlen])
  exact hperm.mem_iff.mpr hk

/-! ### Symmetry -/

/-- An item that counts as the same does so in either order when sameness does. -/
theorem sameItem_symm_of {v w : Value} (hs : v.same w = true → w.same v = true)
    (h : v.sameItem w = true) : w.sameItem v = true := by
  rcases Bool.or_eq_true_iff.mp h with h | h
  · exact Bool.or_eq_true_iff.mpr (.inl (by rwa [Bool.and_comm]))
  · exact Bool.or_eq_true_iff.mpr (.inr (hs h))

mutual

/-- What a tidy value is the same as is the same as it. -/
theorem same_symm (v : Value) {w : Value} (hv : v.IsTidy) (hw : w.IsTidy)
    (h : v.same w = true) : w.same v = true := by
  cases v with
  | bool | int | float =>
    refine same_of_sameAmount ?_
    rw [sameAmount_comm]
    exact sameAmount_of_same_left rfl h
  | null | notApplicable | str | symbol =>
    obtain rfl := eq_of_same_left rfl rfl rfl h
    exact h
  | list items =>
    cases w with
    | list others => exact sameItems_symm items hv hw h
    | _ => simp [same, sameAmount, amount?] at h
  | tuple items =>
    cases w with
    | tuple others => exact sameItems_symm items hv hw h
    | _ => simp [same, sameAmount, amount?] at h
  | object fields =>
    cases w with
    | object others =>
      obtain ⟨hlen, hfields⟩ := Bool.and_eq_true_iff.mp h
      have hlen : fields.length = others.length := by simpa using hlen
      have hsymm := same_symm_of_mem fields hv.2
      refine Bool.and_eq_true_iff.mpr ⟨by simp [hlen], sameFields_iff.mpr fun entry he => ?_⟩
      obtain ⟨⟨k, a⟩, hmem, rfl⟩ := List.mem_map.mp
        (mem_keys_of_sameFields hv.1 hlen hfields (List.mem_map_of_mem he))
      obtain ⟨b, hb, hab⟩ := sameFields_iff.mp hfields _ hmem
      obtain rfl : b = entry.2 := Option.some.inj (hb.symm.trans (Table.get?_of_mem hw.1 he))
      exact ⟨a, Table.get?_of_mem hv.1 hmem,
        sameItem_symm_of (hsymm _ hmem (fieldsAreTidy_iff.mp hw.2 _ he)) hab⟩
    | _ => simp [same, sameAmount, amount?] at h

/-- Tidy lists that have the same items have them in either order. -/
theorem sameItems_symm (vs : List Value) {ws : List Value} (hv : AreTidy vs) (hw : AreTidy ws)
    (h : sameItems vs ws = true) : sameItems ws vs = true := by
  cases vs with
  | nil => cases ws <;> simp_all [sameItems]
  | cons v vs =>
    cases ws with
    | nil => simp [sameItems] at h
    | cons w ws =>
      obtain ⟨hitem, hrest⟩ := Bool.and_eq_true_iff.mp h
      exact Bool.and_eq_true_iff.mpr ⟨sameItem_symm_of (same_symm v hv.1 hw.1) hitem,
        sameItems_symm vs hv.2 hw.2 hrest⟩

/-- What the value of a tidy field is the same as is the same as it. -/
theorem same_symm_of_mem (fields : List (String × Value)) (hf : FieldsAreTidy fields) :
    ∀ entry ∈ fields, ∀ {w : Value}, w.IsTidy → entry.2.same w = true → w.same entry.2 = true := by
  cases fields with
  | nil => simp
  | cons entry rest =>
    obtain ⟨k, v⟩ := entry
    exact List.forall_mem_cons.mpr ⟨fun hw h => same_symm v hf.1 hw h, same_symm_of_mem rest hf.2⟩

end

/-- Two tidy values are compared in either order. -/
theorem same_comm {v w : Value} (hv : v.IsTidy) (hw : w.IsTidy) : v.same w = w.same v :=
  Bool.eq_iff_iff.mpr ⟨same_symm v hv hw, same_symm w hw hv⟩

/-! ### Transitivity -/

/-- What counts as the same item as what is no number is no number. -/
theorem isNaN_of_sameItem_left {v w : Value} (hv : v.isNaN = true) (h : v.sameItem w = true) :
    w.isNaN = true := by
  obtain rfl := eq_nan_of_isNaN hv
  refine isNaN_of_sameItem hv (sameItem_symm_of (fun hs => same_of_sameAmount ?_) h)
  rw [sameAmount_comm]
  exact sameAmount_of_same_left rfl hs

/-- Items that count as the same as the same one, when sameness is transitive for them. -/
theorem sameItem_trans_of {u v w : Value}
    (hs : u.same v = true → v.same w = true → u.same w = true)
    (h : u.sameItem v = true) (h' : v.sameItem w = true) : u.sameItem w = true := by
  by_cases hv : v.isNaN = true
  · exact sameItem_of_isNaN (isNaN_of_sameItem hv h) (isNaN_of_sameItem_left hv h')
  · have hu := same_of_sameItem (Bool.eq_false_iff.mpr hv) h
    have hw : v.same w = true := by
      simpa [sameItem, Bool.eq_false_iff.mpr hv] using h'
    exact Bool.or_eq_true_iff.mpr (.inr (hs hu hw))

mutual

/-- Values that are the same as the same one. -/
theorem same_trans (u : Value) {v w : Value} (h : u.same v = true) (h' : v.same w = true) :
    u.same w = true := by
  cases u with
  | bool | int | float =>
    have huv := sameAmount_of_same_left rfl h
    obtain ⟨a, ha⟩ := exists_amount_of_sameAmount huv
    exact same_of_sameAmount (sameAmount_trans huv (sameAmount_of_same_left ha h'))
  | null | notApplicable | str | symbol =>
    obtain rfl := eq_of_same_left rfl rfl rfl h
    exact h'
  | list items =>
    cases v with
    | list others =>
      cases w with
      | list third => exact sameItems_trans items h h'
      | _ => simp [same, sameAmount, amount?] at h'
    | _ => simp [same, sameAmount, amount?] at h
  | tuple items =>
    cases v with
    | tuple others =>
      cases w with
      | tuple third => exact sameItems_trans items h h'
      | _ => simp [same, sameAmount, amount?] at h'
    | _ => simp [same, sameAmount, amount?] at h
  | object fields =>
    cases v with
    | object others =>
      cases w with
      | object third =>
        obtain ⟨hlen, hfields⟩ := Bool.and_eq_true_iff.mp h
        obtain ⟨hlen', hfields'⟩ := Bool.and_eq_true_iff.mp h'
        have htrans := same_trans_of_mem fields
        refine Bool.and_eq_true_iff.mpr ⟨by simp_all, sameFields_iff.mpr fun entry he => ?_⟩
        obtain ⟨b, hb, hab⟩ := sameFields_iff.mp hfields entry he
        obtain ⟨c, hc, hbc⟩ := sameFields_iff.mp hfields' _ (Table.mem_of_get? hb)
        exact ⟨c, hc, sameItem_trans_of (htrans entry he) hab hbc⟩
      | _ => simp [same, sameAmount, amount?] at h'
    | _ => simp [same, sameAmount, amount?] at h

/-- Lists that have the same items as the same one. -/
theorem sameItems_trans (us : List Value) {vs ws : List Value} (h : sameItems us vs = true)
    (h' : sameItems vs ws = true) : sameItems us ws = true := by
  cases us with
  | nil => cases vs <;> cases ws <;> simp_all [sameItems]
  | cons u us =>
    cases vs with
    | nil => simp [sameItems] at h
    | cons v vs =>
      cases ws with
      | nil => simp [sameItems] at h'
      | cons w ws =>
        obtain ⟨hitem, hrest⟩ := Bool.and_eq_true_iff.mp h
        obtain ⟨hitem', hrest'⟩ := Bool.and_eq_true_iff.mp h'
        exact Bool.and_eq_true_iff.mpr ⟨sameItem_trans_of (same_trans u) hitem hitem',
          sameItems_trans us hrest hrest'⟩

/-- Values that are the same as the same one as that of a field. -/
theorem same_trans_of_mem (fields : List (String × Value)) :
    ∀ entry ∈ fields, ∀ {v w : Value}, entry.2.same v = true → v.same w = true →
      entry.2.same w = true := by
  cases fields with
  | nil => simp
  | cons entry rest =>
    obtain ⟨k, u⟩ := entry
    exact List.forall_mem_cons.mpr ⟨fun h h' => same_trans u h h', same_trans_of_mem rest⟩

end

/-- Items that count as the same as the same one count as the same. -/
theorem sameItem_trans {u v w : Value} (h : u.sameItem v = true) (h' : v.sameItem w = true) :
    u.sameItem w = true := sameItem_trans_of (same_trans u) h h'

/-- A tidy value is the same as two others only when these are the same. -/
theorem same_of_same_both {u v w : Value} (hw : w.IsTidy) (hu : u.IsTidy)
    (h : w.same u = true) (h' : w.same v = true) : u.same v = true :=
  same_trans u (same_symm w hw hu h) h'

/-! ### What is the same as itself -/

mutual

/-- A tidy value is the same as itself, unless it is no number. -/
theorem same_self_of_isTidy (v : Value) (h : v.IsTidy) (hn : v.isNaN = false) :
    v.same v = true := by
  cases v with
  | null | notApplicable => simp [same]
  | str | symbol => simp [same]
  | bool | int => simp [same, sameAmount, amount?, Amount.same]
  | float x =>
    have hx : x ≠ .nan := fun hx => by simp [hx, isNaN] at hn
    simp [same, sameAmount, amount?, amount_same_self hx]
  | list items | tuple items => simp [same, sameItems_self_of_areTidy items h]
  | object fields =>
    refine Bool.and_eq_true_iff.mpr ⟨by simp, sameFields_iff.mpr fun entry he => ?_⟩
    exact ⟨entry.2, Table.get?_of_mem h.1 he, sameItem_self_of_mem fields h.2 entry he⟩

/-- A tidy list has the same items as itself. -/
theorem sameItems_self_of_areTidy (vs : List Value) (h : AreTidy vs) :
    sameItems vs vs = true := by
  cases vs with
  | nil => simp [sameItems]
  | cons v vs =>
    refine Bool.and_eq_true_iff.mpr ⟨?_, sameItems_self_of_areTidy vs h.2⟩
    cases hn : v.isNaN with
    | true => rfl
    | false => exact same_self_of_isTidy v h.1 hn

/-- The value of each tidy field counts as the same item as itself. -/
theorem sameItem_self_of_mem (fields : List (String × Value)) (h : FieldsAreTidy fields) :
    ∀ entry ∈ fields, entry.2.sameItem entry.2 = true := by
  cases fields with
  | nil => simp
  | cons entry rest =>
    obtain ⟨k, v⟩ := entry
    refine List.forall_mem_cons.mpr ⟨?_, sameItem_self_of_mem rest h.2⟩
    cases hn : v.isNaN with
    | true => exact sameItem_of_isNaN hn hn
    | false => exact Bool.or_eq_true_iff.mpr (.inr (same_self_of_isTidy v h.1 hn))

end

/-- A tidy value counts as the same item as itself. -/
theorem sameItem_self {v : Value} (h : v.IsTidy) : v.sameItem v = true := by
  cases hn : v.isNaN with
  | true => exact sameItem_of_isNaN hn hn
  | false => exact Bool.or_eq_true_iff.mpr (.inr (same_self_of_isTidy v h hn))

mutual

/-- What can be sent as JSON is tidy. -/
theorem isTidy_of_isJson (v : Value) (h : v.IsJson) : v.IsTidy := by
  cases v with
  | list items => exact areTidy_of_areJson items h
  | object fields => exact ⟨h.1, fieldsAreTidy_of_fieldsAreJson fields h.2⟩
  | tuple | symbol | notApplicable => exact absurd h (by simp [IsJson])
  | _ => trivial

/-- So is each of the values of a list. -/
theorem areTidy_of_areJson (vs : List Value) (h : AreJson vs) : AreTidy vs := by
  cases vs with
  | nil => trivial
  | cons v vs => exact ⟨isTidy_of_isJson v h.1, areTidy_of_areJson vs h.2⟩

/-- So is the value of each field. -/
theorem fieldsAreTidy_of_fieldsAreJson (fields : List (String × Value)) (h : FieldsAreJson fields) :
    FieldsAreTidy fields := by
  cases fields with
  | nil => trivial
  | cons entry rest =>
    exact ⟨isTidy_of_isJson entry.2 h.1, fieldsAreTidy_of_fieldsAreJson rest h.2⟩

end

end Value

end HerdBook
