import HerdBook.Proofs.Registers
import Mathlib.Data.List.Pairwise
import Mathlib.Tactic.Tauto

/-!
# Regrouping animals

Animals are regrouped by moving one, by merging a herd into another one, and by splitting some off
into a herd that may be new. All three take animals out of one herd of a user, the source, and put
them into another one, the target (`HerdAction.regrouping?`). Which of them stay in the source and
which come to the target is computed from two lists that have to agree: they do when the animals that
an action is given are those that it finds in them. A text is given as its characters but contains
each of its parts, and a member that is a longer part, or the empty one, is in neither herd
afterwards (`HerdAction.PicksWhole` rules this out).

What is done to the documents is said by the entries of the two herds (`Herds.entryOf?`) and by what
is left when these are taken away (`Herds.apartFrom`).

## Main results

* `Herds.Regrouping.done_of_members`: what has to be known of the two lists.
* `HerdAction.Does.regroups`: what an action on the documents of herds comes to.
* `Concept.regrouping_keeps`: a regrouping that is not refused loses no animal.
-/

namespace HerdBook

open Effect Store

namespace Value

variable {v w : Value} {items : List Value}

/-- Whoever counts as the same as somebody in a list is in it. -/
theorem isIn_iff : v.isIn items = true ↔ ∃ item ∈ items, item.sameItem v = true := List.any_eq_true

/-- So is who counts as the same as one who is in it. -/
theorem isIn_of_sameItem (h : v.isIn items = true) (hw : v.sameItem w = true) :
    w.isIn items = true := by
  obtain ⟨item, hitem, hv⟩ := isIn_iff.mp h
  exact isIn_iff.mpr ⟨item, hitem, sameItem_trans hv hw⟩

/-- Who is listed is in the list. -/
theorem isIn_of_mem (hv : v.IsTidy) (h : v ∈ items) : v.isIn items = true :=
  isIn_iff.mpr ⟨v, h, sameItem_self hv⟩

/-- Who is in a part of a list is in the list. -/
theorem isIn_of_subset {others : List Value} (hsub : items ⊆ others) (h : v.isIn items = true) :
    v.isIn others = true := by
  obtain ⟨item, hitem, hv⟩ := isIn_iff.mp h
  exact isIn_iff.mpr ⟨item, hsub hitem, hv⟩

end Value

namespace Herds

/-! ### Two lists of members -/

variable {members moved : List Value} {animal : Value}

/-- The members who are not among those that are moved. -/
def remaining (members moved : List Value) : List Value :=
  members.filter fun member => !member.isIn moved

/-- In two lists together is who is in one of them. -/
theorem isIn_union : animal.isIn (union members moved) = true ↔
    animal.isIn members = true ∨ animal.isIn moved = true := by
  constructor
  · intro h
    obtain ⟨item, hitem, hv⟩ := Value.isIn_iff.mp h
    rcases List.mem_append.mp hitem with hitem | hitem
    · exact .inl (Value.isIn_iff.mpr ⟨item, hitem, hv⟩)
    · exact .inr (Value.isIn_iff.mpr ⟨item, List.mem_of_mem_filter hitem, hv⟩)
  · rintro (h | h)
    · exact Value.isIn_of_subset (List.subset_append_left _ _) h
    · obtain ⟨item, hitem, hv⟩ := Value.isIn_iff.mp h
      by_cases hin : item.isIn members = true
      · exact Value.isIn_of_subset (List.subset_append_left _ _) (Value.isIn_of_sameItem hin hv)
      · exact Value.isIn_iff.mpr ⟨item, List.mem_append_right _
          (List.mem_filter.mpr ⟨hitem, by simpa using hin⟩), hv⟩

/-- Who is a member remains one or is moved, if only members are moved. -/
theorem isIn_remaining_or (hcame : ∀ animal ∈ moved, animal.isIn members = true) :
    animal.isIn (remaining members moved) = true ∨ animal.isIn moved = true ↔
      animal.isIn members = true := by
  constructor
  · rintro (h | h)
    · exact Value.isIn_of_subset (List.filter_subset_self _) h
    · obtain ⟨item, hitem, hv⟩ := Value.isIn_iff.mp h
      exact Value.isIn_of_sameItem (hcame item hitem) hv
  · intro h
    obtain ⟨member, hmember, hv⟩ := Value.isIn_iff.mp h
    by_cases hin : member.isIn moved = true
    · exact .inr (Value.isIn_of_sameItem hin hv)
    · exact .inl (Value.isIn_iff.mpr ⟨member,
        List.mem_filter.mpr ⟨hmember, by simpa using hin⟩, hv⟩)

/-- Nobody who is moved remains. -/
theorem isIn_remaining_eq_false (hm : Value.AreTidy members) (ht : Value.AreTidy moved)
    (h : animal ∈ moved) : animal.isIn (remaining members moved) = false := by
  refine Bool.eq_false_iff.mpr fun hin => ?_
  obtain ⟨member, hmember, hv⟩ := Value.isIn_iff.mp hin
  obtain ⟨hmember, hout⟩ := List.mem_filter.mp hmember
  have hsymm : animal.sameItem member = true := Value.sameItem_symm_of
    (Value.same_symm member (Value.areTidy_iff.mp hm _ hmember) (Value.areTidy_iff.mp ht _ h)) hv
  simp [Value.isIn_iff.mpr ⟨animal, h, hsymm⟩] at hout

/-- All members but one remain when this one is moved. -/
theorem without_eq_remaining (hm : Value.AreTidy members) (ha : animal.IsJson) :
    without members animal = remaining members [animal] := by
  have hnan : animal.isNaN = false := by
    cases hn : animal.isNaN with
    | false => rfl
    | true => exact absurd rfl (Value.eq_nan_of_isNaN hn ▸ ha)
  refine List.filter_congr fun member hmember => congrArg (! ·) ?_
  rw [Value.same_comm (Value.areTidy_iff.mp hm _ hmember) (Value.isTidy_of_isJson _ ha)]
  simp [Value.isIn, Value.sameItem, hnan]

/-- Nobody remains when all are moved. -/
theorem remaining_self (hm : Value.AreTidy members) : remaining members members = [] := by
  refine List.filter_eq_nil_iff.mpr fun member hmember => ?_
  simp [Value.isIn_of_mem (Value.areTidy_iff.mp hm _ hmember) hmember]

/-- What a test lets through is a filter where the test has an outcome that is known. -/
theorem filterM_eq_filter {test : Value → Except Misuse Bool} {p : Value → Bool}
    {items kept : List Value} (h : filterM test items = .ok kept)
    (hp : ∀ v ∈ items, ∀ holds, test v = .ok holds → holds = p v) : kept = items.filter p := by
  induction items generalizing kept with
  | nil => exact (Except.ok.inj h).symm
  | cons v vs ih =>
    obtain ⟨hv, hvs⟩ := List.forall_mem_cons.mp hp
    obtain ⟨holds, htest, h⟩ := bind_eq_ok_iff.mp h
    obtain ⟨rest, hrest, h⟩ := bind_eq_ok_iff.mp h
    rw [← Except.ok.inj h, ih hrest hvs, hv holds htest]
    cases hpv : p v <;> simp [hpv]

/-! ### What a value contains and what it consists of -/

/-- The characters and halves of a stored text have numbers of characters. -/
theorem lt_of_mem_codesOf {cs : List Char} {n : Nat} (h : n ∈ Half.codesOf cs) : n < 0x110000 := by
  have hchar : ∀ c : Char, c.toNat < 0x110000 := fun c => by
    have h := c.valid
    simp only [UInt32.isValidChar, Nat.isValidChar] at h
    change c.val.toNat < _
    omega
  have hunmarked : ∀ c : Char, Half.unmarked c < 0x110000 := fun c => by
    have := hchar c
    unfold Half.unmarked
    split <;> omega
  induction cs using Half.codesOf.induct with
  | case1 => exact absurd h List.not_mem_nil
  | case2 c => exact List.mem_singleton.mp h ▸ hunmarked c
  | case3 c d rest hmark ih =>
    rw [Half.codesOf, if_pos hmark] at h
    rcases List.mem_cons.mp h with rfl | h
    · exact hchar d
    · exact ih h
  | case4 c d rest hmark ih =>
    rw [Half.codesOf, if_neg hmark] at h
    rcases List.mem_cons.mp h with hn | h
    · exact hn ▸ hunmarked c
    · exact ih h

/-- A text contains each of its characters. -/
theorem contains_character {text : String} {n : Nat} (h : n ∈ Half.codes text) :
    (Value.str text).contains (.str (Half.ofCodes [n])) = .ok true := by
  have hcodes : Half.codes (Half.ofCodes [n]) = [n] := by
    rw [Half.codes, Half.ofCodes, String.toList_ofList]
    exact Half.codesOf_flatMap_written (by simpa using lt_of_mem_codesOf h)
  have hoccurs : ∀ ns : List Nat, n ∈ ns → Value.occursIn [n] ns = true := by
    intro ns hns
    induction ns with
    | nil => exact absurd hns List.not_mem_nil
    | cons m ms ih =>
      rcases List.mem_cons.mp hns with rfl | hns
      · simp [Value.occursIn]
      · simp [Value.occursIn, ih hns]
  simp only [Value.contains, hcodes, hoccurs _ h]

/-- A member is found in what stands for animals just when it is one of them, where no longer part
of a text is a member, nor the empty one. -/
theorem eq_isIn_of_contains {animals member : Value} {moving : List Value} {found : Bool}
    (hmoving : animals.elements = .ok moving) (hfound : animals.contains member = .ok found)
    (hwhole : ∀ text, animals = .str text → found = true →
      ∃ n ∈ Half.codes text, member = .str (Half.ofCodes [n])) :
    found = member.isIn moving := by
  cases animals with
  | list items | tuple items =>
    obtain rfl := Except.ok.inj hmoving
    exact (Except.ok.inj hfound).symm
  | object fields =>
    obtain rfl := Except.ok.inj hmoving
    simp only [Value.contains] at hfound
    split at hfound
    · rw [← Except.ok.inj hfound, Value.isIn, List.any_map]
      rfl
    · cases hfound
  | str text =>
    obtain rfl := Except.ok.inj hmoving
    refine Bool.eq_iff_iff.mpr ⟨fun h => ?_, fun h => ?_⟩
    · obtain ⟨n, hn, rfl⟩ := hwhole text rfl h
      exact Value.isIn_of_mem trivial (List.mem_map_of_mem hn)
    · obtain ⟨item, hitem, hsame⟩ := Value.isIn_iff.mp h
      obtain ⟨n, hn, rfl⟩ := List.mem_map.mp hitem
      obtain rfl := Value.eq_of_same_left rfl rfl rfl
        ((Bool.or_eq_true_iff.mp hsame).resolve_left (by simp [Value.isNaN]))
      rw [contains_character hn] at hfound
      exact (Except.ok.inj hfound).symm
  | _ => cases hmoving

/-- The members that the animals do not contain are those that remain, under the same condition. -/
theorem eq_remaining_of_filterM {animals : Value} {members moving staying : List Value}
    (hmoving : animals.elements = .ok moving)
    (hstaying : filterM (fun member => (animals.contains member).map (!·)) members = .ok staying)
    (hwhole : ∀ member ∈ members, ∀ text, animals = .str text →
      animals.contains member = .ok true →
        ∃ n ∈ Half.codes text, member = .str (Half.ofCodes [n])) :
    staying = remaining members moving := by
  refine filterM_eq_filter hstaying fun member hmem holds h => ?_
  cases hfound : animals.contains member with
  | error misuse =>
    rw [hfound] at h
    cases h
  | ok found =>
    rw [hfound] at h
    obtain rfl := Except.ok.inj h
    refine congrArg (! ·) (eq_isIn_of_contains hmoving hfound fun text htext htrue => ?_)
    exact hwhole member hmem text htext (hfound.trans (congrArg Except.ok htrue))

/-! ### Two herds among the documents -/

/-- The members of a herd are those that were set. -/
theorem membersOf_set (herd : Fields) (members : List Value) :
    membersOf (Table.merge herd [("members", .list members)]) = members :=
  membersOf_eq (by simp [Table.merge, Table.get?_set])

/-- A herd that was archived has none. -/
theorem membersOf_archive (herd : Fields) :
    membersOf (Table.merge herd [("isArchived", .bool true), ("members", .list [])]) = [] :=
  membersOf_eq (by simp [Table.merge, Table.get?_set])

variable {user name source target : Value} {docs docs' : Documents} {herd changes : Fields}
  {id : String}

/-- Whether a document is that of the herd of an owner and a name. -/
def isOf (user name : Value) (doc : Fields) : Bool :=
  satisfies [("userId", user), ("name", name)] doc

/-- The entry of the herd of an owner and a name. -/
def entryOf? (user name : Value) (docs : Documents) : Option (String × Fields) :=
  docs.find? fun entry => isOf user name entry.2

/-- The members of the herd of an owner and a name; nobody when there is none. -/
def membersAt (user name : Value) (docs : Documents) : List Value :=
  ((among? user name docs).map membersOf).getD []

/-- The documents other than those of two herds of a user. -/
def apartFrom (user source target : Value) (docs : Documents) : Documents :=
  docs.filter fun entry => !isOf user source entry.2 && !isOf user target entry.2

/-- The animal is a member of some herd of the user. -/
def Keeps (user animal : Value) (docs : Documents) : Prop :=
  ∃ entry ∈ docs, (ownerOf entry.2).same user = true ∧ animal.isIn (membersOf entry.2) = true

theorem isOf_iff {doc : Fields} : isOf user name doc = true ↔
    (ownerOf doc).same user = true ∧ (nameOf doc).same name = true := by
  simp [isOf, satisfies, ownerOf, nameOf]

/-- What is found is one of the documents, and that of the herd. -/
theorem mem_of_entryOf? {entry : String × Fields} (h : entryOf? user name docs = some entry) :
    entry ∈ docs ∧ isOf user name entry.2 = true :=
  ⟨List.mem_of_find?_eq_some h,
    List.find?_some (p := fun entry : String × Fields => isOf user name entry.2) h⟩

theorem among?_eq_map : among? user name docs = (entryOf? user name docs).map (·.2) := by
  rw [among?, List.find?_map]
  rfl

theorem membersAt_eq (h : entryOf? user name docs = some (id, herd)) :
    membersAt user name docs = membersOf herd := by
  rw [membersAt, among?_eq_map, h]
  rfl

/-- What is found in numbered documents is found under its id. -/
theorem entryOf?_eq {store : Store} (hs : store.Numbered)
    (h : among? user name store.docs = some herd) :
    entryOf? user name store.docs = some (idOf herd, herd) := by
  rw [among?_eq_map] at h
  obtain ⟨entry, he, rfl⟩ := Option.map_eq_some_iff.mp h
  rw [idOf_eq (hs.named entry (List.mem_of_find?_eq_some he))]
  exact he

/-- A herd is the same one after changes of its members or of its archiving. -/
theorem isOf_amended (hi : Internal changes) (id : String) (entry : String × Fields) :
    isOf user name (if entry.1 = id then (entry.1, Table.merge entry.2 changes) else entry).2
      = isOf user name entry.2 := by
  split
  · obtain ⟨howner, hname⟩ := hi.sameHerd_merge entry.2
    rw [Bool.eq_iff_iff, isOf_iff, isOf_iff, howner, hname]
  · rfl

theorem entryOf?_amend (hi : Internal changes) (id : String) :
    entryOf? user name (amend id changes docs) = (entryOf? user name docs).map fun entry =>
      if entry.1 = id then (entry.1, Table.merge entry.2 changes) else entry := by
  rw [entryOf?, amend, List.find?_map]
  exact congrArg (Option.map _) (congrArg (docs.find? ·)
    (funext fun entry => isOf_amended hi id entry))

/-- The changes are found in the herd that is kept under the id. -/
theorem entryOf?_amend_self (hi : Internal changes)
    (h : entryOf? user name docs = some (id, herd)) :
    entryOf? user name (amend id changes docs) = some (id, Table.merge herd changes) := by
  rw [entryOf?_amend hi, h, Option.map_some, if_pos rfl]

/-- Other herds are found as they were. -/
theorem entryOf?_amend_of_ne (hi : Internal changes) {other : String} (hne : id ≠ other)
    (h : entryOf? user name docs = some (id, herd)) :
    entryOf? user name (amend other changes docs) = some (id, herd) := by
  rw [entryOf?_amend hi, h, Option.map_some, if_neg hne]

/-- Changes of one of the two herds leave the others alone. -/
theorem apartFrom_amend (hi : Internal changes) (hnodup : (Table.keys docs).Nodup)
    (hname : name = source ∨ name = target) (h : entryOf? user name docs = some (id, herd)) :
    apartFrom user source target (amend id changes docs) = apartFrom user source target docs := by
  obtain ⟨hmem, hof⟩ := mem_of_entryOf? h
  have hherd := Table.get?_of_mem hnodup hmem
  rw [apartFrom, amend, List.filter_map]
  refine (congrArg (List.map _) (List.filter_congr fun entry _ => ?_)).trans
    ((List.map_congr_left fun entry he => if_neg fun hid => ?_).trans (List.map_id _))
  · simp only [Function.comp, isOf_amended hi]
  · obtain ⟨hmem, hout⟩ := List.mem_filter.mp he
    have hentry := Table.get?_of_mem hnodup hmem
    rw [hid, hherd] at hentry
    rw [← Option.some.inj hentry] at hout
    rcases hname with rfl | rfl <;> simp [hof] at hout

/-- There is one herd of an owner and a name. -/
theorem Registered.entryOf?_eq_of_mem (hr : Registered docs) (hu : user.IsTidy) (hn : name.IsTidy)
    {entry : String × Fields} (he : entry ∈ docs) (hof : isOf user name entry.2 = true) :
    entryOf? user name docs = some entry := by
  cases hfound : entryOf? user name docs with
  | none => exact absurd hof (List.find?_eq_none.mp hfound entry he)
  | some found =>
    obtain ⟨hmem, hof'⟩ := mem_of_entryOf? hfound
    obtain ⟨howner, hname⟩ := isOf_iff.mp hof
    obtain ⟨howner', hname'⟩ := isOf_iff.mp hof'
    obtain ⟨⟨v, hv, hvtidy⟩, ⟨w, hw, hwtidy⟩, -⟩ := hr.complete found hmem
    have hsame : SameHerd entry.2 found.2 := by
      rw [ownerOf, hv] at howner'
      rw [nameOf, hw] at hname'
      rw [SameHerd, ownerOf, ownerOf, nameOf, nameOf, hv, hw]
      exact ⟨Value.same_trans _ howner (Value.same_symm v hvtidy hu howner'),
        Value.same_trans _ hname (Value.same_symm w hwtidy hn hname')⟩
    have hsymm : Std.Symm fun entry entry' : String × Fields =>
        ¬SameHerd entry.2 entry'.2 ∧ ¬SameHerd entry'.2 entry.2 := ⟨fun _ _ h => h.symm⟩
    by_contra hne
    exact (hr.distinct.forall he hmem fun h => hne (h ▸ rfl)).1 hsame

/-- An animal is with a user when it is in one of two herds or in one apart from them. -/
theorem Registered.keeps_iff (hr : Registered docs) (hu : user.IsTidy) (hs : source.IsTidy)
    (ht : target.IsTidy) : Keeps user animal docs ↔
      animal.isIn (membersAt user source docs) = true ∨
      animal.isIn (membersAt user target docs) = true ∨
      Keeps user animal (apartFrom user source target docs) := by
  have hfound : ∀ name, animal.isIn (membersAt user name docs) = true → Keeps user animal docs := by
    intro name hin
    cases he : entryOf? user name docs with
    | none => simp [membersAt, among?_eq_map, he, Value.isIn] at hin
    | some entry =>
      rw [membersAt_eq he] at hin
      obtain ⟨hmem, hof⟩ := mem_of_entryOf? he
      exact ⟨entry, hmem, (isOf_iff.mp hof).1, hin⟩
  constructor
  · rintro ⟨entry, he, howner, hin⟩
    by_cases hsource : isOf user source entry.2 = true
    · exact .inl (membersAt_eq (hr.entryOf?_eq_of_mem hu hs he hsource) ▸ hin)
    by_cases htarget : isOf user target entry.2 = true
    · exact .inr (.inl (membersAt_eq (hr.entryOf?_eq_of_mem hu ht he htarget) ▸ hin))
    · exact .inr (.inr ⟨entry, List.mem_filter.mpr ⟨he, by simp_all⟩, howner, hin⟩)
  · rintro (hin | hin | ⟨entry, he, howner, hin⟩)
    · exact hfound source hin
    · exact hfound target hin
    · exact ⟨entry, List.mem_of_mem_filter he, howner, hin⟩

/-! ### A source and a target -/

/-- Two herds of a user are found under different ids. -/
structure Facing (user source target : Value) (docs : Documents) (a b : String × Fields) :
    Prop where
  nodup : (Table.keys docs).Nodup
  source : entryOf? user source docs = some a
  target : entryOf? user target docs = some b
  ne : a.1 ≠ b.1

variable {a b : String × Fields} {store : Store}

/-- They are so the other way round. -/
theorem Facing.symm (h : Facing user source target docs a b) :
    Facing user target source docs b a :=
  ⟨h.nodup, h.target, h.source, h.ne.symm⟩

/-- The herds apart from two do not depend on the order of these. -/
theorem apartFrom_comm (user source target : Value) (docs : Documents) :
    apartFrom user source target docs = apartFrom user target source docs :=
  List.filter_congr fun _ _ => Bool.and_comm _ _

/-- Changes of both herds are found in each of them, and nowhere else. -/
theorem Facing.amend (h : Facing user source target docs a b) (changes changes' : Fields)
    (hi : Internal changes) (hi' : Internal changes') :
    let docs' := Store.amend b.1 changes' (Store.amend a.1 changes docs)
    membersAt user source docs' = membersOf (Table.merge a.2 changes) ∧
      membersAt user target docs' = membersOf (Table.merge b.2 changes') ∧
      apartFrom user source target docs' = apartFrom user source target docs := by
  intro docs'
  have hsource := entryOf?_amend_self hi h.source
  have htarget := entryOf?_amend_of_ne hi h.ne.symm h.target
  refine ⟨membersAt_eq (entryOf?_amend_of_ne hi' h.ne hsource),
    membersAt_eq (entryOf?_amend_self hi' htarget), ?_⟩
  rw [apartFrom_amend hi' (by rw [keys_amend]; exact h.nodup) (.inr rfl) htarget,
    apartFrom_amend hi h.nodup (.inl rfl) h.source]

/-- Herds of names that are not the same are found under different ids. -/
theorem facing_of_among? (hs : store.Numbered) (hr : Registered store.docs)
    (hsource : source.IsTidy) (hne : source.same target = false) {herd herd' : Fields}
    (h : among? user source store.docs = some herd)
    (h' : among? user target store.docs = some herd') :
    Facing user source target store.docs (idOf herd, herd) (idOf herd', herd') := by
  have he := entryOf?_eq hs h
  have he' := entryOf?_eq hs h'
  refine ⟨hs.nodup, he, he', fun hid => ?_⟩
  obtain ⟨hmem, hof⟩ := mem_of_entryOf? he
  obtain ⟨hmem', hof'⟩ := mem_of_entryOf? he'
  have hget := hs.get?_of_mem hmem
  rw [hid, hs.get?_of_mem hmem'] at hget
  obtain rfl := Option.some.inj hget
  obtain ⟨-, ⟨w, hw, hwtidy⟩, -⟩ := hr.complete _ hmem
  have hname := (isOf_iff.mp hof).2
  have hname' := (isOf_iff.mp hof').2
  rw [nameOf, hw] at hname hname'
  exact Bool.false_ne_true (hne ▸ Value.same_of_same_both hwtidy hsource hname hname')

/-- A new herd is found under its id, by an owner and a name that are the same as themselves. -/
theorem entryOf?_withNew (hu : user.same user = true) (hn : name.same name = true)
    (hnone : among? user name docs = none) (id : String) (description : Value) :
    entryOf? user name (withNew id user name description docs)
      = some (id, Table.set "_id" (.str id) (document user name description)) := by
  rw [among?_eq_map, Option.map_eq_none_iff] at hnone
  have hof : isOf user name (Table.set "_id" (.str id) (document user name description)) = true :=
    isOf_iff.mpr ⟨hu, hn⟩
  rw [entryOf?, withNew, List.find?_append, ← entryOf?, hnone, Option.none_or,
    List.find?_cons, hof]

/-- The target of a split faces the source, and its members and all other herds are those from before
it was there. -/
theorem TargetOf.facing {herd herd' : Fields} (hs : store.Numbered) (hr : Registered store.docs)
    (hsource : source.IsTidy) (htarget : target.same target = true)
    (hne : source.same target = false) (h : among? user source store.docs = some herd)
    (hu : user.IsTidy) (ht : TargetOf user target store.docs herd' docs') :
    ∃ doc, Facing user source target docs' (idOf herd, herd) (idOf herd', doc) ∧
      membersAt user target store.docs = membersOf herd' ∧
      apartFrom user source target docs' = apartFrom user source target store.docs := by
  cases ht with
  | found ht =>
    have hfacing := facing_of_among? hs hr hsource hne h ht.1
    exact ⟨_, hfacing, membersAt_eq hfacing.target, rfl⟩
  | @new id hnone hid =>
    have he := entryOf?_eq hs h
    obtain ⟨hmem, hof⟩ := mem_of_entryOf? he
    obtain ⟨⟨v, hv, hvtidy⟩, -⟩ := hr.complete _ hmem
    have howner := (isOf_iff.mp hof).1
    rw [ownerOf, hv] at howner
    have husame : user.same user = true := Value.same_of_same_both hvtidy hu howner howner
    have hnew := entryOf?_withNew husame htarget hnone id (.str "")
    have hfresh := Table.ne_of_get?_eq_none hid
    refine ⟨_, ⟨?_, ?_, hnew, hfresh _ hmem⟩, by rw [membersAt, hnone]; rfl, ?_⟩
    · rw [Table.keys, withNew, List.map_append]
      refine List.nodup_append.mpr ⟨hs.nodup, by simp, fun key hkey other hother hsame => ?_⟩
      obtain ⟨entry, hentry, rfl⟩ := List.mem_map.mp hkey
      exact hfresh entry hentry (hsame.trans (List.mem_singleton.mp hother))
    · rw [entryOf?, withNew, List.find?_append, ← entryOf?, he, Option.some_or]
    · have hlast := (mem_of_entryOf? hnew).2
      rw [apartFrom, withNew, List.filter_append, List.filter_cons_of_neg (by simp [hlast]),
        List.filter_nil, List.append_nil]
      rfl

/-! ### Regroupings -/

/-- Animals that are moved from one herd of a user to another one. -/
structure Regrouping where
  user : Value
  source : Value
  target : Value
  moved : List Value

/-- The animals have been moved and nothing else: no animal has come to the user or is lost, the
animals are in the target and not in the source, where all others remain, nobody has left the target,
and all other herds are as they were. -/
structure Regrouping.Done (r : Regrouping) (docs docs' : Documents) : Prop where
  conserved : ∀ animal, Keeps r.user animal docs' ↔ Keeps r.user animal docs
  came : ∀ animal ∈ r.moved, animal.isIn (membersAt r.user r.source docs) = true
  gone : ∀ animal ∈ r.moved, animal.isIn (membersAt r.user r.source docs') = false
  arrived : ∀ animal ∈ r.moved, animal.isIn (membersAt r.user r.target docs') = true
  remained : membersAt r.user r.source docs'
    = (membersAt r.user r.source docs).filter fun member => !member.isIn r.moved
  stayed : membersAt r.user r.target docs <+: membersAt r.user r.target docs'
  others : apartFrom r.user r.source r.target docs' = apartFrom r.user r.source r.target docs

/-- The members of a herd are tidy. -/
theorem Registered.areTidy_membersAt (hr : Registered docs) (user name : Value) :
    Value.AreTidy (membersAt user name docs) := by
  unfold membersAt
  cases h : among? user name docs with
  | none => trivial
  | some herd => exact hr.areTidy h

/-- It is enough to know the members of the source and of the target, and that the other herds are as
they were. -/
theorem Regrouping.done_of_members {r : Regrouping} (hr : Registered docs) (hr' : Registered docs')
    (hu : r.user.IsTidy) (hs : r.source.IsTidy) (ht : r.target.IsTidy)
    (hm : Value.AreTidy r.moved)
    (hcame : ∀ animal ∈ r.moved, animal.isIn (membersAt r.user r.source docs) = true)
    (hsource : membersAt r.user r.source docs' = remaining (membersAt r.user r.source docs) r.moved)
    (htarget : membersAt r.user r.target docs' = union (membersAt r.user r.target docs) r.moved)
    (hothers : apartFrom r.user r.source r.target docs' = apartFrom r.user r.source r.target docs) :
    r.Done docs docs' where
  conserved animal := by
    rw [hr'.keeps_iff hu hs ht, hr.keeps_iff hu hs ht, hsource, htarget, hothers, isIn_union,
      ← isIn_remaining_or hcame]
    tauto
  came := hcame
  gone animal h := by
    rw [hsource]
    exact isIn_remaining_eq_false (hr.areTidy_membersAt _ _) hm h
  arrived animal h := by
    rw [htarget]
    exact isIn_union.mpr (.inr (Value.isIn_of_mem (Value.areTidy_iff.mp hm _ h) h))
  remained := hsource
  stayed := htarget ▸ List.prefix_append _ _
  others := hothers

end Herds

open Herds

/-- The regrouping that an action asks for, if it asks for one. In a merger, all members of the herd
that is archived are moved. -/
def HerdAction.regrouping? (docs : Documents) : HerdAction → Option Regrouping
  | .move user source target animal => some ⟨user, source, target, [animal]⟩
  | .merge user keep gone => some ⟨user, gone, keep, membersAt user gone docs⟩
  | .split user source target animals =>
    match animals.elements with
    | .ok moving => some ⟨user, source, target, moving⟩
    | .error _ => none
  | _ => none

/-- Where a text stands for the animals that are split off, the members of the source that are part of
it are characters of it. -/
def HerdAction.PicksWhole (docs : Documents) : HerdAction → Prop
  | .split user source _ (.str text) => ∀ member ∈ membersAt user source docs,
      (Value.str text).contains member = .ok true →
        ∃ n ∈ Half.codes text, member = .str (Half.ofCodes [n])
  | _ => True

namespace Herds

variable {store : Store} {user animal animals : Value} {source target keep gone : Fields}

/-- A move is a regrouping of one animal. -/
theorem done_of_move {sourceName targetName : Value} (hs : store.Numbered)
    (hr : Registered store.docs)
    (hj : Value.AreJson (HerdAction.move user sourceName targetName animal).values)
    (hr' : Registered (withMembers target (union (membersOf target) [animal])
      (withMembers source (without (membersOf source) animal) store.docs)))
    (hne : sourceName.same targetName = false) (hsource : IsActive user sourceName store.docs source)
    (htarget : IsActive user targetName store.docs target)
    (hin : animal.isIn (membersOf source) = true) :
    Regrouping.Done ⟨user, sourceName, targetName, [animal]⟩ store.docs
      (withMembers target (union (membersOf target) [animal])
        (withMembers source (without (membersOf source) animal) store.docs)) := by
  have ht := Value.areTidy_of_areJson _ hj
  have hfacing := facing_of_among? hs hr ht.2.1 hne hsource.1 htarget.1
  obtain ⟨hmembers, hmembers', hothers⟩ := hfacing.amend
    [("members", .list (without (membersOf source) animal))]
    [("members", .list (union (membersOf target) [animal]))]
    (by simp [Internal, Table.keys]) (by simp [Internal, Table.keys])
  refine Regrouping.done_of_members hr hr' ht.1 ht.2.1 ht.2.2.1 ⟨ht.2.2.2.1, trivial⟩ ?_ ?_ ?_
    hothers
  · simpa [membersAt_eq hfacing.source] using hin
  · rw [membersAt_eq hfacing.source]
    exact hmembers.trans ((membersOf_set _ _).trans
      (without_eq_remaining (hr.areTidy hsource.1) hj.2.2.2.1))
  · rw [membersAt_eq hfacing.target]
    exact hmembers'.trans (membersOf_set _ _)

/-- A merger is a regrouping of all members of the herd that is archived. -/
theorem done_of_merge {keepName goneName : Value} (hs : store.Numbered)
    (hr : Registered store.docs)
    (hj : Value.AreJson (HerdAction.merge user keepName goneName).values)
    (hr' : Registered (withArchived gone
      (withMembers keep (union (membersOf keep) (membersOf gone)) store.docs)))
    (hne : keepName.same goneName = false) (hkeep : IsActive user keepName store.docs keep)
    (hgone : IsActive user goneName store.docs gone) :
    Regrouping.Done ⟨user, goneName, keepName, membersAt user goneName store.docs⟩ store.docs
      (withArchived gone
        (withMembers keep (union (membersOf keep) (membersOf gone)) store.docs)) := by
  have ht := Value.areTidy_of_areJson _ hj
  have hfacing := facing_of_among? hs hr ht.2.1 hne hkeep.1 hgone.1
  obtain ⟨hmembers, hmembers', hothers⟩ := hfacing.amend
    [("members", .list (union (membersOf keep) (membersOf gone)))]
    [("isArchived", .bool true), ("members", .list [])]
    (by simp [Internal, Table.keys]) (by simp [Internal, Table.keys])
  have htidy := hr.areTidy_membersAt user goneName
  refine Regrouping.done_of_members hr hr' ht.1 ht.2.2.1 ht.2.1 htidy ?_ ?_ ?_ ?_
  · exact fun animal h => Value.isIn_of_mem (Value.areTidy_iff.mp htidy _ h) h
  · rw [remaining_self htidy]
    exact hmembers'.trans (membersOf_archive _)
  · rw [membersAt_eq hfacing.source, membersAt_eq hfacing.target]
    exact hmembers.trans (membersOf_set _ _)
  · rw [apartFrom_comm, apartFrom_comm user goneName keepName]
    exact hothers

/-- A split is a regrouping of the animals that are given, when those that are found in the list are
among them. -/
theorem done_of_split {sourceName targetName : Value} {docs' : Documents}
    {moving staying : List Value} (hs : store.Numbered) (hr : Registered store.docs)
    (hj : Value.AreJson (HerdAction.split user sourceName targetName animals).values)
    (hr' : Registered (withMembers target (union (membersOf target) moving)
      (withMembers source staying docs')))
    (hne : sourceName.same targetName = false) (hsource : IsActive user sourceName store.docs source)
    (hmoving : animals.elements = .ok moving)
    (hin : ∀ animal ∈ moving, animal.isIn (membersOf source) = true)
    (htarget : TargetOf user targetName store.docs target docs')
    (hstaying : filterM (fun member => (animals.contains member).map (!·)) (membersOf source)
      = .ok staying)
    (hwhole : (HerdAction.split user sourceName targetName animals).PicksWhole store.docs) :
    Regrouping.Done ⟨user, sourceName, targetName, moving⟩ store.docs
      (withMembers target (union (membersOf target) moving)
        (withMembers source staying docs')) := by
  have ht := Value.areTidy_of_areJson _ hj
  obtain ⟨doc, hfacing, hbefore, hapart⟩ := htarget.facing hs hr ht.2.1
    (Value.same_self _ hj.2.2.1) hne hsource.1 ht.1
  obtain ⟨hmembers, hmembers', hothers⟩ := hfacing.amend
    [("members", .list staying)]
    [("members", .list (union (membersOf target) moving))]
    (by simp [Internal, Table.keys]) (by simp [Internal, Table.keys])
  have hmembersAt := membersAt_eq (entryOf?_eq hs hsource.1)
  refine Regrouping.done_of_members hr hr' ht.1 ht.2.1 ht.2.2.1
    (areTidy_elements ht.2.2.2.1 hmoving) ?_ ?_ ?_ (hothers.trans hapart)
  · rw [hmembersAt]
    exact hin
  · rw [hmembersAt]
    refine hmembers.trans ((membersOf_set _ _).trans
      (eq_remaining_of_filterM hmoving hstaying fun member hmem text htext hfound => ?_))
    subst htext
    exact hwhole member (hmembersAt ▸ hmem) hfound
  · rw [hbefore]
    exact hmembers'.trans (membersOf_set _ _)

end Herds

/-- What an action that asks for a regrouping does to the documents is that regrouping. -/
theorem HerdAction.Does.regroups {action : HerdAction} {store : Store} {docs' : Documents}
    {r : Regrouping} (h : action.Does store.docs docs') (hs : store.Numbered)
    (hr : Registered store.docs) (hj : Value.AreJson action.values)
    (hregroup : action.regrouping? store.docs = some r) (hwhole : action.PicksWhole store.docs) :
    r.Done store.docs docs' := by
  have hr' := h.registered hs hr (Value.areTidy_of_areJson _ hj)
  generalize hdocs : store.docs = docs at h hregroup
  cases h with
  | move hne hsource htarget hin =>
    subst hdocs
    exact Option.some.inj hregroup ▸ done_of_move hs hr hj hr' hne hsource htarget hin
  | merge hne hkeep hgone =>
    subst hdocs
    exact Option.some.inj hregroup ▸ done_of_merge hs hr hj hr' hne hkeep hgone
  | @split user sourceName targetName animals _ _ source target moving staying hne hsource hmoving
      hin htarget hstaying =>
    subst hdocs
    obtain rfl : ⟨user, sourceName, targetName, moving⟩ = r := by
      simpa [HerdAction.regrouping?, hmoving] using hregroup
    exact done_of_split hs hr hj hr' hne hsource hmoving hin htarget hstaying hwhole
  | _ => cases hregroup

/-- The action moves animals from one herd to another one. -/
def HerdAction.Regroups : HerdAction → Prop
  | .move .. | .merge .. | .split .. => True
  | _ => False

/-- Such an action that is done asks for a regrouping. -/
theorem HerdAction.Does.exists_regrouping {action : HerdAction} {docs docs' : Documents}
    (h : action.Does docs docs') (hregroups : action.Regroups) :
    ∃ r, action.regrouping? docs = some r := by
  cases h with
  | move | merge => exact ⟨_, rfl⟩
  | split _ _ hmoving => exact ⟨_, by rw [regrouping?, hmoving]⟩
  | _ => exact hregroups.elim

/-- It is refused or it is done. -/
theorem HerdAction.Regroups.leads {action : HerdAction} (h : action.Regroups) {s : Store}
    (hs : s.Numbered) : Leads s action.run (Carries action s.docs) := by
  cases action with
  | move => exact leads_move hs _ _ _ _
  | merge => exact leads_merge hs _ _ _
  | split => exact leads_split hs _ _ _ _
  | _ => exact h.elim

/-- Calls that make a herd of a user, with an animal in it. -/
def Herds.oneMember : List (String × Fields) :=
  [("createHerd", founding "alice"), ("addAnimal", joining)]

/-- The actions that move animals from one herd to another one. -/
def Herds.regroupings : List String := ["moveAnimal", "mergeHerds", "splitHerd"]

/-- A call of one of them asks for it with the values that were sent. -/
theorem HerdAction.isReading_regrouping {name : String} {args : Fields}
    {reading : Except Fault HerdAction} (h : ofCall? name args = some reading)
    (hname : name ∈ Herds.regroupings) (hargs : Value.FieldsAreJson args) :
    Arguments.IsReading reading fun action => action.Regroups ∧ Value.AreJson action.values := by
  simp only [Herds.regroupings, List.mem_cons, List.not_mem_nil, or_false] at hname
  rcases hname with rfl | rfl | rfl <;> obtain rfl := Option.some.inj h
  · exact .exactly (.required fun _ hu => .required fun _ hs => .required fun _ ht =>
      .required fun _ ha => .pure
        ⟨trivial, hargs.get? hu, hargs.get? hs, hargs.get? ht, hargs.get? ha, trivial⟩)
  · exact .exactly (.required fun _ hu => .required fun _ hk => .required fun _ hg =>
      .pure ⟨trivial, hargs.get? hu, hargs.get? hk, hargs.get? hg, trivial⟩)
  · exact .exactly (.required fun _ hu => .required fun _ hs => .required fun _ ht =>
      .required fun _ ha => .pure
        ⟨trivial, hargs.get? hu, hargs.get? hs, hargs.get? ht, hargs.get? ha, trivial⟩)

namespace Concept

variable {limit : Limit} {concept : Concept} {issued : Issued} {name : String} {args : Fields}
  {turn : Turn} {answer : Answer}

/-- Regrouping loses no animal. Whatever the herds have lived through, whichever operations of their
store are ordered to fail, and whatever is sent for each argument of the call: where it is not
refused, the animals that it asks for are moved from the source to the target, and nothing else is
done. Only where a text stands for animals that are split off must no member of the source be in it
without being one of its characters. -/
theorem regrouping_keeps (h : Lives tidyCall .herds limit concept issued)
    (hname : name ∈ Herds.regroupings) (hargs : Value.FieldsAreJson args)
    (hwhole : ∀ action, HerdAction.ofCall? name args = some (.ok action) →
      action.PicksWhole concept.documents)
    (ht : concept.answer? name args issued = some turn) (ha : turn.outcome = .ok answer)
    (hok : ¬answer.Refuses) :
    ∃ action r, HerdAction.ofCall? name args = some (.ok action) ∧
      action.regrouping? concept.documents = some r ∧
      r.Done concept.documents turn.concept.documents := by
  have howner : Kind.owner? .herds = some "userId" := rfl
  have hs : (concept.storeAt issued).Numbered := (h.tended howner).toNumbered
  obtain ⟨act, hact, hruns⟩ := exists_act howner h.kind_eq ht
  obtain ⟨reading, hr, rfl⟩ := Option.map_eq_some_iff.mp hact
  cases reading with
  | error fault => exact nomatch hruns.outcome.symm.trans ha
  | ok action =>
    obtain ⟨hregroups, hj⟩ := (HerdAction.isReading_regrouping hr hname hargs).1 action rfl
    have hrun : action.run.run (concept.storeAt issued)
        = (.ok answer, turn.concept.storeAt turn.issued) :=
      Prod.ext (hruns.outcome.symm.trans ha) hruns.store.symm
    have hdoes := (hregroups.leads hs (concept.storeAt issued).failing answer _ hrun).resolve_left
      hok
    obtain ⟨r, hregroup⟩ := hdoes.exists_regrouping hregroups
    exact ⟨action, r, hr, hregroup,
      hdoes.regroups hs h.registered hj hregroup (hwhole action hr)⟩

/-- An animal that is split off is in the herd that is made for it. -/
theorem regrouping_keeps_split :
    let life := asked .herds defaultLimit Herds.oneMember
    ∃ turn action r, life.1.answer? "splitHerd" Herds.splitting life.2 = some turn ∧
      HerdAction.ofCall? "splitHerd" Herds.splitting = some (.ok action) ∧
      action.regrouping? life.1.documents = some r ∧
      r.Done life.1.documents turn.concept.documents := by
  obtain ⟨turn, answer, ht, ha, hok⟩ : ∃ turn answer,
      (asked .herds defaultLimit Herds.oneMember).1.answer? "splitHerd" Herds.splitting
        (asked .herds defaultLimit Herds.oneMember).2 = some turn ∧
          turn.outcome = .ok answer ∧ answer.refuses = false := ⟨_, _, rfl, rfl, rfl⟩
  have hlife : Lives tidyCall .herds defaultLimit (asked .herds defaultLimit Herds.oneMember).1
      (asked .herds defaultLimit Herds.oneMember).2 := lives_asked _ _ _ (by
    simp [tidyCall, Herds.oneMember, Herds.founding, Herds.joining, Value.FieldsAreTidy,
      Value.IsTidy])
  have hargs : Value.FieldsAreJson Herds.splitting := by
    simp [Herds.splitting, Value.FieldsAreJson, Value.IsJson, Value.AreJson]
  have hwhole : ∀ action, HerdAction.ofCall? "splitHerd" Herds.splitting = some (.ok action) →
      action.PicksWhole (asked .herds defaultLimit Herds.oneMember).1.documents := by
    rintro _ ⟨rfl⟩
    trivial
  obtain ⟨action, r, hr, hregroup, hdone⟩ := regrouping_keeps hlife (by simp [Herds.regroupings])
    hargs hwhole ht ha (by simp [Answer.Refuses, hok])
  exact ⟨turn, action, r, ht, hr, hregroup, hdone⟩

/-- What is known of a text cannot be left out: a member that is a longer part of it leaves the source
and is in no other herd. -/
example : (asked .herds defaultLimit [("createHerd", Herds.founding "alice"),
    ("addAnimal", Table.set "animal" (.str "1") Herds.joining),
    ("addAnimal", Table.set "animal" (.str "2") Herds.joining),
    ("addAnimal", Table.set "animal" (.str "12") Herds.joining),
    ("splitHerd", Table.set "animalsToMove" (.str "12") Herds.splitting)]).1.documents.map
      (Herds.membersOf ·.2) = [[], [.str "1", .str "2"]] := by cbv

end Concept

end HerdBook
