import HerdBook.Proofs.Husbandry
import HerdBook.Proofs.Owners
import Mathlib.Data.List.Pairwise

/-!
# The records of animals

What is true of the documents of the animals at all times: of each owner and animal there is one
record at most, and a record names an animal and a species, one of the sexes and one of the statuses
(`Animals.Registered`).

What the herd book says of an animal is the status and the notes of its record (`Animals.entryOf`).
Four actions bear on it, when they are about that animal (`AnimalAction.Settles`), and
`AnimalAction.Turns` says how: the rest of a success, whatever it writes, leaves the entry as it
was. Since there is one record at most, it does not matter under which of several names that are the
same an owner or an animal is looked for.

## Main results

* `AnimalAction.Does.registered`: what an action leaves.
* `AnimalAction.Does.turns`: what becomes of the entry of an animal.
-/

namespace HerdBook

open Effect Store

namespace Animals

/-! ### Whose a record is -/

/-- The owner and the animal are the same as another owner and animal. -/
def IsSame (user animal user' animal' : Value) : Prop :=
  user.same user' = true ∧ animal.same animal' = true

/-- The record is of that owner and that animal. -/
def IsOf (user animal : Value) (doc : Fields) : Prop :=
  IsSame (fieldOf doc "ownerId") (fieldOf doc "animalId") user animal

/-- A record is looked for by its owner and its animal. -/
theorem satisfies_iff {user animal : Value} {doc : Fields} :
    satisfies [("ownerId", user), ("animalId", animal)] doc = true ↔ IsOf user animal doc := by
  simp [satisfies, IsOf, IsSame, fieldOf]

/-- A document has a field with that property. -/
def Has (doc : Fields) (name : String) (P : Value → Prop) : Prop :=
  ∃ v, Table.get? name doc = some v ∧ P v

/-- What a document has is its field. -/
theorem Has.fieldOf {doc : Fields} {name : String} {P : Value → Prop} (h : Has doc name P) :
    P (fieldOf doc name) := by
  obtain ⟨v, hv, hP⟩ := h
  rwa [Animals.fieldOf, hv]

/-- A record names its owner, an animal and a species, one of the sexes and one of the statuses. -/
structure IsValid (doc : Fields) : Prop where
  owner : Has doc "ownerId" Value.IsTidy
  tidy : Has doc "animalId" Value.IsTidy
  animal : Has doc "animalId" fun v => v.truthy = true
  species : Has doc "species" fun v => v.truthy = true
  sex : Has doc "sex" fun v => ∃ sex ∈ sexes, v = .str sex
  status : Has doc "status" fun v => ∃ status ∈ statuses, v = .str status

/-- Every record is valid, and no two are of one owner and one animal. -/
structure Registered (docs : Documents) : Prop where
  valid : ∀ entry ∈ docs, IsValid entry.2
  distinct : docs.Pairwise fun entry entry' =>
    ¬IsOf (fieldOf entry'.2 "ownerId") (fieldOf entry'.2 "animalId") entry.2 ∧
      ¬IsOf (fieldOf entry.2 "ownerId") (fieldOf entry.2 "animalId") entry'.2

section

variable {user animal user' animal' : Value} {doc : Fields} {docs : Documents}

/-- Being the same does not depend on the order. -/
theorem IsSame.symm (h : IsSame user animal user' animal') (hu : user.IsTidy)
    (ha : animal.IsTidy) (hu' : user'.IsTidy) (ha' : animal'.IsTidy) :
    IsSame user' animal' user animal :=
  ⟨Value.same_symm user hu hu' h.1, Value.same_symm animal ha ha' h.2⟩

/-- Whose a record is does not depend on which of the names that are the same is used. -/
theorem IsOf.of_same (h : IsOf user animal doc) (hs : IsSame user animal user' animal') :
    IsOf user' animal' doc :=
  ⟨Value.same_trans _ h.1 hs.1, Value.same_trans _ h.2 hs.2⟩

/-- A valid record is of one owner and one animal. -/
theorem IsValid.isSame (hv : IsValid doc) (hu : user.IsTidy) (ha : animal.IsTidy)
    (h : IsOf user animal doc) (h' : IsOf user' animal' doc) :
    IsSame user animal user' animal' :=
  ⟨Value.same_of_same_both hv.owner.fieldOf hu h.1 h'.1,
    Value.same_of_same_both hv.tidy.fieldOf ha h.2 h'.2⟩

/-- What is found is a record of the owner and the animal, under some key. -/
theorem exists_of_among? (h : among? user animal docs = some doc) :
    (∃ key, (key, doc) ∈ docs) ∧ IsOf user animal doc := by
  obtain ⟨entry, he, rfl⟩ := List.mem_map.mp (List.mem_of_find?_eq_some h)
  exact ⟨⟨entry.1, he⟩, satisfies_iff.mp (List.find?_some h)⟩

/-- What is found does not depend on which of the names that are the same is used. -/
theorem among?_congr (hs : IsSame user animal user' animal') (hu : user.IsTidy)
    (ha : animal.IsTidy) (hu' : user'.IsTidy) (ha' : animal'.IsTidy) (docs : Documents) :
    among? user animal docs = among? user' animal' docs := by
  refine congrArg (fun p => (docs.map (·.2)).find? p) (funext fun doc => ?_)
  rw [Bool.eq_iff_iff, satisfies_iff, satisfies_iff]
  exact ⟨fun h => h.of_same hs, fun h => h.of_same (hs.symm hu ha hu' ha')⟩

/-- Two records of one owner and one animal are one. -/
theorem Registered.eq_of_isOf (hr : Registered docs) (hu : user.IsTidy) (ha : animal.IsTidy)
    {entry entry' : String × Fields} (he : entry ∈ docs) (he' : entry' ∈ docs)
    (h : IsOf user animal entry.2) (h' : IsOf user animal entry'.2) : entry = entry' := by
  have hsymm : Std.Symm fun entry entry' : String × Fields =>
      ¬IsOf (fieldOf entry'.2 "ownerId") (fieldOf entry'.2 "animalId") entry.2 ∧
        ¬IsOf (fieldOf entry.2 "ownerId") (fieldOf entry.2 "animalId") entry'.2 :=
    ⟨fun _ _ hne => hne.symm⟩
  by_contra hne
  refine (hr.distinct.forall he he' hne).1 ?_
  have hv := hr.valid entry' he'
  exact h.of_same (IsSame.symm h' hv.owner.fieldOf hv.tidy.fieldOf hu ha)

end

/-! ### Changes of records -/

/-- Changes leave alone whose a record is. -/
def Internal (changes : Fields) : Prop :=
  (Table.keys changes).Nodup ∧
    ∀ key ∈ Table.keys changes, key ≠ "_id" ∧ key ≠ "ownerId" ∧ key ≠ "animalId"

section

variable {changes doc : Fields} {docs : Documents} {user animal : Value}

/-- A field after changes is what they set it to, or as it was. -/
theorem fieldOf_merge (hc : Internal changes) (doc : Fields) (name : String) :
    fieldOf (Table.merge doc changes) name
      = (Table.get? name changes).getD (fieldOf doc name) := by
  rw [fieldOf, Table.get?_merge name doc hc.1]
  cases Table.get? name changes <;> rfl

/-- What a document has it has after changes that set it to nothing else. -/
theorem Has.merge {name : String} {P : Value → Prop} (h : Has doc name P) (hc : Internal changes)
    (hP : ∀ v, Table.get? name changes = some v → P v) : Has (Table.merge doc changes) name P := by
  rw [Has, Table.get?_merge name doc hc.1]
  cases hv : Table.get? name changes with
  | none => exact h
  | some v => exact ⟨v, rfl, hP v hv⟩

/-- Such changes do not set the fields that say whose a record is. -/
theorem Internal.get?_eq_none (hc : Internal changes) {name : String}
    (hname : name = "ownerId" ∨ name = "animalId") : Table.get? name changes = none := by
  refine Table.get?_eq_none name fun hkey => ?_
  obtain ⟨-, howner, hanimal⟩ := hc.2 name hkey
  exact hname.elim howner hanimal

/-- These fields are as they were. -/
theorem Internal.fieldOf_merge (hc : Internal changes) (doc : Fields) {name : String}
    (hname : name = "ownerId" ∨ name = "animalId") :
    fieldOf (Table.merge doc changes) name = fieldOf doc name := by
  rw [Animals.fieldOf_merge hc, hc.get?_eq_none hname, Option.getD_none]

/-- A record stays whose it is. -/
theorem isOf_merge_iff (hc : Internal changes) :
    IsOf user animal (Table.merge doc changes) ↔ IsOf user animal doc := by
  rw [IsOf, IsOf, hc.fieldOf_merge doc (.inl rfl), hc.fieldOf_merge doc (.inr rfl)]

/-- A valid record stays valid when species, sex and status are set to what they may be. -/
theorem IsValid.merge (h : IsValid doc) (hc : Internal changes)
    (hspecies : ∀ v, Table.get? "species" changes = some v → v.truthy = true)
    (hsex : ∀ v, Table.get? "sex" changes = some v → ∃ sex ∈ sexes, v = .str sex)
    (hstatus : ∀ v, Table.get? "status" changes = some v → ∃ status ∈ statuses, v = .str status) :
    IsValid (Table.merge doc changes) := by
  have howner := hc.get?_eq_none (.inl rfl)
  have hanimal := hc.get?_eq_none (.inr rfl)
  exact ⟨h.owner.merge hc (by simp [howner]), h.tidy.merge hc (by simp [hanimal]),
    h.animal.merge hc (by simp [hanimal]), h.species.merge hc hspecies, h.sex.merge hc hsex,
    h.status.merge hc hstatus⟩

/-- One of some texts is one of them. -/
theorem exists_of_isOneOf {v : Value} {texts : List String} (h : isOneOf v texts = true) :
    ∃ text ∈ texts, v = .str text := by
  obtain ⟨item, hitem, hsame⟩ := List.any_eq_true.mp h
  obtain ⟨text, htext, rfl⟩ := List.mem_map.mp hitem
  have hsame : (Value.str text).same v = true := hsame
  exact ⟨text, htext, Value.eq_of_same_left rfl rfl rfl hsame⟩

/-- Documents stay registered after changes that leave a record whose it is, and valid. -/
theorem Registered.amend (h : Registered docs) (hc : Internal changes) {id : String}
    (hvalid : ∀ doc, IsValid doc → IsValid (Table.merge doc changes)) :
    Registered (Store.amend id changes docs) := by
  refine ⟨fun entry he => ?_, List.pairwise_map.mpr (h.distinct.imp fun {a b} hab => ?_)⟩
  · obtain ⟨doc, hdoc, hval⟩ := exists_of_mem_amend he
    rw [hval]
    split
    · exact hvalid doc (h.valid _ hdoc)
    · exact h.valid _ hdoc
  · have hsame : ∀ (entry : String × Fields) (name : String),
        name = "ownerId" ∨ name = "animalId" →
        fieldOf (if entry.1 = id then (entry.1, Table.merge entry.2 changes) else entry).2 name
          = fieldOf entry.2 name := by
      intro entry name hname
      split
      · exact hc.fieldOf_merge entry.2 hname
      · rfl
    simp only [IsOf, hsame _ _ (.inl rfl), hsame _ _ (.inr rfl)]
    exact hab

/-- The key under which a document is kept is none of its other fields. -/
theorem fieldOf_set_id (key : String) (doc : Fields) {name : String} (hn : name ≠ "_id") :
    fieldOf (Table.set "_id" (.str key) doc) name = fieldOf doc name := by
  rw [fieldOf, Table.get?_set, if_neg (Ne.symm hn), fieldOf]

/-- Documents stay registered when a valid record is added of an owner and an animal without one. -/
theorem Registered.withNew (h : Registered docs) {key : String}
    (hvalid : IsValid (Table.set "_id" (.str key) doc))
    (hnone : among? (fieldOf doc "ownerId") (fieldOf doc "animalId") docs = none) :
    Registered (withNew key doc docs) := by
  have howner : fieldOf (Table.set "_id" (.str key) doc) "ownerId" = fieldOf doc "ownerId" :=
    fieldOf_set_id key doc (by decide)
  have hanimal : fieldOf (Table.set "_id" (.str key) doc) "animalId" = fieldOf doc "animalId" :=
    fieldOf_set_id key doc (by decide)
  have hnot : ∀ entry ∈ docs, ¬IsOf (fieldOf doc "ownerId") (fieldOf doc "animalId") entry.2 := by
    intro entry he hof
    exact List.find?_eq_none.mp hnone entry.2 (List.mem_map_of_mem he) (satisfies_iff.mpr hof)
  refine ⟨fun entry he => ?_, List.pairwise_append.mpr ⟨h.distinct, List.pairwise_singleton _ _,
    fun entry he entry' he' => ?_⟩⟩
  · rcases List.mem_append.mp he with he | he
    · exact h.valid entry he
    · rw [List.mem_singleton.mp he]
      exact hvalid
  · rw [List.mem_singleton.mp he']
    have hv := h.valid entry he
    have hou := hvalid.owner.fieldOf
    have han := hvalid.tidy.fieldOf
    rw [howner] at hou
    rw [hanimal] at han
    simp only [howner, hanimal, IsOf]
    exact ⟨hnot entry he, fun hof => hnot entry he
      (hof.symm hou han hv.owner.fieldOf hv.tidy.fieldOf)⟩

/-- Fewer documents are registered as well. -/
theorem Registered.sublist {docs' : Documents} (h : Registered docs) (hsub : docs'.Sublist docs) :
    Registered docs' :=
  ⟨fun entry he => h.valid entry (hsub.subset he), h.distinct.sublist hsub⟩

end

/-- What sets the status leaves alone whose a record is. -/
theorem internal_restatement (doc : Fields) (status notes : Value) :
    Internal (restatement doc status notes) := by
  simp [Internal, restatement, Table.keys]

/-- So does what sets the details, -/
theorem internal_correction (species breed birthDate sex : Value) :
    Internal (correction species breed birthDate sex) := by
  simp [Internal, correction, Table.keys]

/-- and what is set when an animal leaves. -/
theorem internal_farewell (departure : Departure) (date remark : String) :
    Internal (farewell departure date remark) := by
  simp [Internal, farewell, Table.keys]

/-- The status of an animal that left is one that a record can have. -/
theorem status_mem_statuses (departure : Departure) : departure.status ∈ statuses := by
  cases departure <;> decide

end Animals

open Animals

/-- The values by which an action looks for records: an owner, and mostly an animal. -/
def AnimalAction.names : AnimalAction → List Value
  | .register user id .. | .present user id => [user, id]
  | .setStatus user animal .. | .edit user animal .. | .retire _ user animal .. => [user, animal]
  | .remove user animal | .lookUp user animal => [user, animal]
  | .presentAll user => [user]

/-- What an action leaves is registered. -/
theorem AnimalAction.Does.registered {store : Store} {action : AnimalAction} {docs' : Documents}
    (h : action.Does store.docs docs') (hs : store.Numbered) (hr : Registered store.docs)
    (ht : Value.AreTidy action.names) : Registered docs' := by
  have herase : ∀ id, (Table.erase id store.docs).Sublist store.docs := fun id => by
    rw [Table.erase_eq_filter id hs.nodup]
    exact List.filter_sublist
  generalize store.docs = docs at h hr herase
  cases h with
  | @register user id species sex birthDate breed notes _ key hid hspecies hsex hnone =>
    exact hr.withNew ⟨⟨user, rfl, ht.1⟩, ⟨id, rfl, ht.2.1⟩, ⟨id, rfl, hid⟩,
      ⟨species, rfl, hspecies⟩, ⟨sex, rfl, exists_of_isOneOf hsex⟩,
      ⟨.str "alive", rfl, _, by decide, rfl⟩⟩ hnone
  | setStatus hstatus =>
    refine hr.amend (internal_restatement _ _ _) fun doc hdoc =>
      hdoc.merge (internal_restatement _ _ _) nofun nofun ?_
    rintro _ ⟨rfl⟩
    exact exists_of_isOneOf hstatus
  | edit hspecies hsex =>
    refine hr.amend (internal_correction _ _ _ _) fun doc hdoc =>
      hdoc.merge (internal_correction _ _ _ _) ?_ ?_ nofun
    · rintro _ ⟨rfl⟩
      exact hspecies
    · rintro _ ⟨rfl⟩
      exact exists_of_isOneOf hsex
  | retire =>
    refine hr.amend (internal_farewell _ _ _) fun doc hdoc =>
      hdoc.merge (internal_farewell _ _ _) nofun nofun ?_
    rintro _ ⟨rfl⟩
    exact ⟨_, status_mem_statuses _, rfl⟩
  | remove => exact hr.sublist (herase _)
  | read => exact hr

/-! ### What the herd book says of an animal -/

namespace Animals

/-- The status and the notes of an animal, if it is in the herd book. -/
def entryOf (user animal : Value) (docs : Documents) : Option (Value × Value) :=
  (among? user animal docs).map fun doc => (fieldOf doc "status", fieldOf doc "notes")

section

variable {user animal user' animal' : Value} {doc changes : Fields} {store : Store}

/-- Documents under one key are one. -/
theorem eq_of_idOf_eq (hs : store.Numbered) {doc' : Fields} {key key' : String}
    (h : (key, doc) ∈ store.docs) (h' : (key', doc') ∈ store.docs) (hid : idOf doc = idOf doc') :
    doc = doc' := by
  rw [idOf_eq (hs.named _ h), idOf_eq (hs.named _ h')] at hid
  have hkey : key = key' := hid
  subst hkey
  exact Option.some.inj ((hs.get?_of_mem h).symm.trans (hs.get?_of_mem h'))

/-- After changes of a record the same one is found, changed if it is the one. -/
theorem among?_amend (hs : store.Numbered) (hc : Internal changes) (id : String) :
    among? user animal (amend id changes store.docs)
      = (among? user animal store.docs).map fun doc =>
        if idOf doc = id then Table.merge doc changes else doc := by
  have hdocs : (amend id changes store.docs).map (·.2)
      = (store.docs.map (·.2)).map fun doc =>
        if idOf doc = id then Table.merge doc changes else doc := by
    rw [amend, List.map_map, List.map_map]
    refine List.map_congr_left fun entry he => ?_
    rw [Function.comp_apply, Function.comp_apply, idOf_eq (hs.named entry he)]
    split <;> rfl
  rw [among?, hdocs, List.find?_map, among?]
  congr 2
  funext doc
  rw [Function.comp_apply, Bool.eq_iff_iff, satisfies_iff, satisfies_iff]
  split
  · exact isOf_merge_iff hc
  · rfl

/-- The entry of the animal whose record is changed is what the changes make of it. -/
theorem entryOf_amend_self (hs : store.Numbered) (h : among? user animal store.docs = some doc)
    (hc : Internal changes) :
    entryOf user animal (amend (idOf doc) changes store.docs)
      = some ((Table.get? "status" changes).getD (fieldOf doc "status"),
        (Table.get? "notes" changes).getD (fieldOf doc "notes")) := by
  rw [entryOf, among?_amend hs hc, h, Option.map_some, if_pos rfl, Option.map_some,
    fieldOf_merge hc, fieldOf_merge hc]

/-- The entry of another animal stays as it was. -/
theorem entryOf_amend_of_not_isSame (hs : store.Numbered) (hr : Registered store.docs)
    (hu : user.IsTidy) (ha : animal.IsTidy) (h : among? user' animal' store.docs = some doc)
    (hc : Internal changes) (hne : ¬IsSame user animal user' animal') :
    entryOf user animal (amend (idOf doc) changes store.docs) = entryOf user animal store.docs := by
  rw [entryOf, entryOf, among?_amend hs hc]
  cases hfound : among? user animal store.docs with
  | none => rfl
  | some found =>
    obtain ⟨⟨key, hkey⟩, hof⟩ := exists_of_among? h
    obtain ⟨⟨key', hkey'⟩, hof'⟩ := exists_of_among? hfound
    have hid : idOf found ≠ idOf doc := fun hid => by
      obtain rfl := eq_of_idOf_eq hs hkey' hkey hid
      exact hne ((hr.valid _ hkey').isSame hu ha hof' hof)
    rw [Option.map_some, if_neg hid]

/-- Where a record is added, it is looked for last. -/
theorem entryOf_withNew (key : String) (doc : Fields) (docs : Documents) :
    entryOf user animal (withNew key doc docs) = (entryOf user animal docs).or
      (if satisfies [("ownerId", user), ("animalId", animal)] doc = true then
        some (fieldOf doc "status", fieldOf doc "notes") else none) := by
  have hsat : satisfies [("ownerId", user), ("animalId", animal)] (Table.set "_id" (.str key) doc)
      = satisfies [("ownerId", user), ("animalId", animal)] doc := by
    rw [Bool.eq_iff_iff, satisfies_iff, satisfies_iff, IsOf, IsOf,
      fieldOf_set_id key doc (by decide), fieldOf_set_id key doc (by decide)]
  rw [entryOf, entryOf, among?, withNew, List.map_append, List.find?_append, Option.map_or]
  congr 1
  rw [List.map_singleton, List.find?_singleton, hsat]
  split
  · rw [Option.map_some, fieldOf_set_id key doc (by decide), fieldOf_set_id key doc (by decide)]
  · rfl

/-- An animal whose record is removed is not in the herd book any more. -/
theorem entryOf_erase_self (hs : store.Numbered) (hr : Registered store.docs) (hu : user.IsTidy)
    (ha : animal.IsTidy) (h : among? user animal store.docs = some doc) :
    entryOf user animal (Table.erase (idOf doc) store.docs) = none := by
  obtain ⟨⟨key, hkey⟩, hof⟩ := exists_of_among? h
  rw [entryOf, Option.map_eq_none_iff, among?, List.find?_eq_none]
  intro found hfound hsat
  obtain ⟨entry, he, rfl⟩ := List.mem_map.mp hfound
  rw [Table.erase_eq_filter _ hs.nodup, List.mem_filter] at he
  have heq := hr.eq_of_isOf hu ha he.1 hkey (satisfies_iff.mp hsat) hof
  have hne : entry.1 ≠ idOf doc := of_decide_eq_true he.2
  rw [heq, idOf_eq (hs.named _ hkey)] at hne
  exact hne rfl

/-- The entry of another animal stays as it was. -/
theorem entryOf_erase_of_not_isSame (hs : store.Numbered) (hr : Registered store.docs)
    (hu : user.IsTidy) (ha : animal.IsTidy) (h : among? user' animal' store.docs = some doc)
    (hne : ¬IsSame user animal user' animal') :
    entryOf user animal (Table.erase (idOf doc) store.docs) = entryOf user animal store.docs := by
  obtain ⟨⟨key, hkey⟩, hof⟩ := exists_of_among? h
  have hfind (docs : Documents) : among? user animal docs
      = (docs.find? fun entry => satisfies [("ownerId", user), ("animalId", animal)] entry.2).map
        (·.2) := List.find?_map
  rw [entryOf, entryOf, hfind, hfind, Table.erase_eq_filter _ hs.nodup, ← List.head?_filter,
    ← List.head?_filter, List.filter_filter]
  congr 3
  refine List.filter_congr fun entry he => ?_
  by_cases hid : entry.1 = idOf doc
  · -- it is the record that is removed, which is not of the animal
    have hdoc : idOf entry.2 = idOf doc := (idOf_eq (hs.named entry he)).trans hid
    have hsame := eq_of_idOf_eq hs he hkey hdoc
    have hsat : satisfies [("ownerId", user), ("animalId", animal)] entry.2 = false := by
      rw [Bool.eq_false_iff, Ne, satisfies_iff, hsame]
      exact fun hof' => hne ((hr.valid _ hkey).isSame hu ha hof' hof)
    rw [hsat, Bool.false_and]
  · simp [hid]

end

end Animals

/-- The action, when it succeeds, bears on what the herd book says of the animal. -/
def AnimalAction.Settles (user animal : Value) : AnimalAction → Prop
  | .register user' animal' .. | .setStatus user' animal' .. | .retire _ user' animal' ..
  | .remove user' animal' => IsSame user animal user' animal'
  | _ => False

/-- What becomes of the entry of an animal when an action succeeds. -/
inductive AnimalAction.Turns (user animal : Value) :
    AnimalAction → Option (Value × Value) → Option (Value × Value) → Prop
  /-- It is entered as alive. -/
  | register {user' id species sex birthDate breed notes : Value}
      (h : IsSame user animal user' id) :
      Turns user animal (.register user' id species sex birthDate breed notes) none
        (some (.str "alive", notes.orElse (.str "")))
  /-- Its status is set, and its notes unless the new ones are empty. -/
  | setStatus {user' animal' status notes : Value} {old : Value × Value}
      (h : IsSame user animal user' animal') :
      Turns user animal (.setStatus user' animal' status notes) (some old)
        (some (status, notes.orElse old.2))
  /-- It was alive, and leaves. -/
  | retire {departure : Departure} {user' animal' date remark : Value} {old : Value × Value}
      {dateText remarkText : String} (h : IsSame user animal user' animal')
      (halive : old.1.same (.str "alive") = true) (hdate : date.text = .ok dateText)
      (hremark : (remark.orElse (.str departure.noRemark)).text = .ok remarkText) :
      Turns user animal (.retire departure user' animal' date remark) (some old)
        (some (.str departure.status, .str (departure.notes dateText remarkText)))
  /-- It is removed. -/
  | remove {user' animal' : Value} {old : Value × Value} (h : IsSame user animal user' animal') :
      Turns user animal (.remove user' animal') (some old) none
  /-- Nothing becomes of it. -/
  | other {action : AnimalAction} {entry : Option (Value × Value)}
      (h : ¬action.Settles user animal) : Turns user animal action entry entry

/-- What an action does that changes the record of one animal: it bears on no other animal, and the
entry of that animal becomes what the changes make of it. -/
theorem AnimalAction.turns_amend {store : Store} {action : AnimalAction}
    {user animal user' animal' : Value} {doc changes : Fields} (hs : store.Numbered)
    (hr : Registered store.docs) (hu : user.IsTidy) (ha : animal.IsTidy) (hu' : user'.IsTidy)
    (ha' : animal'.IsTidy) (hdoc : among? user' animal' store.docs = some doc)
    (hc : Internal changes)
    (hself : IsSame user animal user' animal' →
      action.Turns user animal (some (fieldOf doc "status", fieldOf doc "notes"))
        (some ((Table.get? "status" changes).getD (fieldOf doc "status"),
          (Table.get? "notes" changes).getD (fieldOf doc "notes"))))
    (hother : ¬IsSame user animal user' animal' → ¬action.Settles user animal) :
    action.Turns user animal (entryOf user animal store.docs)
      (entryOf user animal (amend (idOf doc) changes store.docs)) := by
  by_cases hsame : IsSame user animal user' animal'
  · have hfound := (among?_congr hsame hu ha hu' ha' store.docs).trans hdoc
    rw [entryOf_amend_self hs hfound hc, entryOf, hfound]
    exact hself hsame
  · rw [entryOf_amend_of_not_isSame hs hr hu ha hdoc hc hsame]
    exact .other (hother hsame)

/-- What registering an animal does: it is entered as alive, and the others stay as they are. -/
theorem AnimalAction.turns_register
    {user animal user' id species sex birthDate breed notes : Value} (hu : user.IsTidy)
    (ha : animal.IsTidy) (hu' : user'.IsTidy) (hid : id.IsTidy) {docs : Documents}
    (hnone : among? user' id docs = none) (key : String) :
    Turns user animal (.register user' id species sex birthDate breed notes)
      (entryOf user animal docs) (entryOf user animal
        (withNew key (document user' id species sex birthDate breed notes) docs)) := by
  rw [entryOf_withNew]
  by_cases hsame : IsSame user animal user' id
  · -- there was no record of it, and the new one is
    have hold : entryOf user animal docs = none := by
      rw [entryOf, among?_congr hsame hu ha hu' hid, hnone]
      rfl
    rw [hold, Option.none_or, if_pos]
    · exact .register hsame
    · exact satisfies_iff.mpr (hsame.symm hu ha hu' hid)
  · rw [if_neg, Option.or_none]
    · exact .other hsame
    · exact fun hsat => hsame (IsSame.symm (satisfies_iff.mp hsat) hu' hid hu ha)

/-- What removing an animal does: its entry goes, and those of the others stay. -/
theorem AnimalAction.turns_remove {store : Store} {user animal user' animal' : Value} {doc : Fields}
    (hs : store.Numbered) (hr : Registered store.docs) (hu : user.IsTidy) (ha : animal.IsTidy)
    (hu' : user'.IsTidy) (ha' : animal'.IsTidy)
    (hdoc : among? user' animal' store.docs = some doc) :
    Turns user animal (.remove user' animal') (entryOf user animal store.docs)
      (entryOf user animal (Table.erase (idOf doc) store.docs)) := by
  by_cases hsame : IsSame user animal user' animal'
  · have hfound := (among?_congr hsame hu ha hu' ha' store.docs).trans hdoc
    rw [entryOf_erase_self hs hr hu ha hfound, entryOf, hfound]
    exact .remove hsame
  · rw [entryOf_erase_of_not_isSame hs hr hu ha hdoc hsame]
    exact .other hsame

/-- What an action does to the documents it does to the entry of every animal. -/
theorem AnimalAction.Does.turns {store : Store} {action : AnimalAction} {docs' : Documents}
    {user animal : Value} (h : action.Does store.docs docs') (hs : store.Numbered)
    (hr : Registered store.docs) (ht : Value.AreTidy action.names) (hu : user.IsTidy)
    (ha : animal.IsTidy) :
    action.Turns user animal (entryOf user animal store.docs) (entryOf user animal docs') := by
  generalize hdocs : store.docs = docs at h
  cases h with
  | register _ _ _ hnone => exact turns_register hu ha ht.1 ht.2.1 hnone _
  | setStatus _ hdoc =>
    subst hdocs
    exact turns_amend hs hr hu ha ht.1 ht.2.1 hdoc (internal_restatement _ _ _) .setStatus id
  | edit _ _ hdoc =>
    subst hdocs
    exact turns_amend hs hr hu ha ht.1 ht.2.1 hdoc (internal_correction _ _ _ _)
      (fun _ => .other id) fun _ => id
  | retire hdate hremark hdoc halive =>
    subst hdocs
    exact turns_amend hs hr hu ha ht.1 ht.2.1 hdoc (internal_farewell _ _ _)
      (fun hsame => .retire hsame halive hdate hremark) id
  | remove hdoc =>
    subst hdocs
    exact turns_remove hs hr hu ha ht.1 ht.2.1 hdoc
  | read hreads =>
    subst hdocs
    refine .other fun hsettles => ?_
    cases action with
    | present | presentAll | lookUp => exact hsettles
    | _ => exact hreads

end HerdBook
