import HerdBook.Proofs.Herding
import HerdBook.Proofs.Privacy

/-!
# The register of herds

What is true of the documents of the herds at all times: of each owner and name there is one herd at
most, what is archived has no members, and every document has the fields that are read of it
(`Herds.Registered`). Two actions create herds, two archive them, one restores and one removes them,
and five set members; each is one case of `HerdAction.Does`, and what it does is made of a few
changes, with one lemma for each.

A herd lists nobody twice (`Herds.Lists`) as long as nobody asks to split off an animal twice in one
call: the members of the target are compared with the animals that come in, but these are not
compared with each other. What herds are called (`Herds.Called`) is looked at when they are created,
but not when animals are split off into a herd that is new.

## Main results

* `HerdAction.Does.registered`, `HerdAction.Does.lists`, `HerdAction.Does.called`: what an action
  leaves.
* `Concept.Lives.herds_invariant`: what every action leaves holds all the time.
* `Concept.herds_registered`: the documents are a register.
* `Concept.herds_lists`: no herd lists an animal twice, where none is split off twice.
* `Concept.herds_called`: no herd has a blank name, where none is split off into.
-/

namespace HerdBook

open Effect Store

namespace Herds

/-! ### What is kept of a herd -/

/-- The owner that a herd's document names. -/
def ownerOf (herd : Fields) : Value := (Table.get? "userId" herd).getD .null

/-- The name of the herd. -/
def nameOf (herd : Fields) : Value := (Table.get? "name" herd).getD .null

/-- A document has the fields that are read of a herd, an archived one with no members. -/
structure IsComplete (doc : Fields) : Prop where
  owner : ∃ v, Table.get? "userId" doc = some v ∧ v.IsTidy
  name : ∃ v, Table.get? "name" doc = some v ∧ v.IsTidy
  description : ∃ v, Table.get? "description" doc = some v
  members : ∃ items, Table.get? "members" doc = some (.list items) ∧ Value.AreTidy items
  archived : ∃ b, Table.get? "isArchived" doc = some (.bool b) ∧
    (b = true → Table.get? "members" doc = some (.list []))

/-- Two documents are of one herd: they name the same owner and the same name. -/
def SameHerd (doc doc' : Fields) : Prop :=
  (ownerOf doc).same (ownerOf doc') = true ∧ (nameOf doc).same (nameOf doc') = true

/-- Every document is complete, and no two are of one herd. -/
structure Registered (docs : Documents) : Prop where
  complete : ∀ entry ∈ docs, IsComplete entry.2
  distinct : docs.Pairwise fun entry entry' =>
    ¬SameHerd entry.2 entry'.2 ∧ ¬SameHerd entry'.2 entry.2

/-- The members are those that are listed. -/
theorem membersOf_eq {doc : Fields} {items : List Value}
    (h : Table.get? "members" doc = some (.list items)) : membersOf doc = items := by
  rw [membersOf, h]
  rfl

/-- A herd is archived when its document says so. -/
theorem isArchived_eq {doc : Fields} {b : Bool}
    (h : Table.get? "isArchived" doc = some (.bool b)) : isArchived doc = b := by
  rw [isArchived, h]
  rfl

/-- The members of a complete document are tidy. -/
theorem IsComplete.areTidy {doc : Fields} (h : IsComplete doc) :
    Value.AreTidy (membersOf doc) := by
  obtain ⟨items, hitems, htidy⟩ := h.members
  rwa [membersOf_eq hitems]

/-- Changes say who the members are, or whether the herd is archived, and nothing else. -/
def Internal (changes : Fields) : Prop :=
  ∀ key ∈ Table.keys changes, key = "members" ∨ key = "isArchived"

/-- Such changes leave the other fields alone. -/
theorem Internal.get?_merge {changes : Fields} (h : Internal changes) {name : String}
    (hm : name ≠ "members") (ha : name ≠ "isArchived") (doc : Fields) :
    Table.get? name (Table.merge doc changes) = Table.get? name doc :=
  Table.get?_merge_of_notMem (fun hkey => (h name hkey).elim hm ha) doc

/-- A document is complete after such changes when its members and its archiving are as they should
be. -/
theorem IsComplete.merge {doc changes : Fields} (h : IsComplete doc) (hi : Internal changes)
    (hmembers : ∃ items, Table.get? "members" (Table.merge doc changes) = some (.list items) ∧
      Value.AreTidy items)
    (harchived : ∃ b, Table.get? "isArchived" (Table.merge doc changes) = some (.bool b) ∧
      (b = true → Table.get? "members" (Table.merge doc changes) = some (.list []))) :
    IsComplete (Table.merge doc changes) := by
  refine ⟨?_, ?_, ?_, hmembers, harchived⟩
  · rw [hi.get?_merge (by decide) (by decide)]
    exact h.owner
  · rw [hi.get?_merge (by decide) (by decide)]
    exact h.name
  · rw [hi.get?_merge (by decide) (by decide)]
    exact h.description

/-- So it is after its members are set, unless it is archived. -/
theorem IsComplete.setMembers {doc : Fields} (h : IsComplete doc) (ha : isArchived doc = false)
    {members : List Value} (hm : Value.AreTidy members) :
    IsComplete (Table.merge doc [("members", .list members)]) := by
  obtain ⟨b, hb, -⟩ := h.archived
  obtain rfl : false = b := ha.symm.trans (isArchived_eq hb)
  refine h.merge (by simp [Internal, Table.keys]) ⟨members, ?_, hm⟩ ⟨false, ?_, nofun⟩
  · simp [Table.merge, Table.get?_set]
  · simpa [Table.merge, Table.get?_set] using hb

/-- So it is after the herd is archived. -/
theorem IsComplete.archive {doc : Fields} (h : IsComplete doc) :
    IsComplete (Table.merge doc [("isArchived", .bool true), ("members", .list [])]) := by
  refine h.merge (by simp [Internal, Table.keys]) ⟨[], ?_, trivial⟩ ⟨true, ?_, fun _ => ?_⟩ <;>
    simp [Table.merge, Table.get?_set]

/-- So it is after the herd is restored. -/
theorem IsComplete.restore {doc : Fields} (h : IsComplete doc) :
    IsComplete (Table.merge doc [("isArchived", .bool false)]) := by
  obtain ⟨items, hitems, htidy⟩ := h.members
  refine h.merge (by simp [Internal, Table.keys]) ⟨items, ?_, htidy⟩ ⟨false, ?_, nofun⟩
  · simpa [Table.merge, Table.get?_set] using hitems
  · simp [Table.merge, Table.get?_set]

/-- The document of a new herd is complete. -/
theorem isComplete_document {user name : Value} (description : Value) (hu : user.IsTidy)
    (hn : name.IsTidy) (id : String) :
    IsComplete (Table.set "_id" (.str id) (document user name description)) :=
  ⟨⟨user, rfl, hu⟩, ⟨name, rfl, hn⟩, ⟨description, rfl⟩, ⟨[], rfl, trivial⟩, false, rfl, nofun⟩

/-! ### The documents as a register -/

variable {docs : Documents} {herd : Fields} {user name description : Value} {id : String}

/-- A herd remains the same one when such changes are made. -/
theorem Internal.sameHerd_merge {changes : Fields} (h : Internal changes) (doc : Fields) :
    ownerOf (Table.merge doc changes) = ownerOf doc ∧
      nameOf (Table.merge doc changes) = nameOf doc := by
  rw [ownerOf, nameOf, h.get?_merge (by decide) (by decide), h.get?_merge (by decide) (by decide)]
  exact ⟨rfl, rfl⟩

/-- Documents stay registered after such changes of one of them that leave it complete. -/
theorem Registered.amend (h : Registered docs) {changes : Fields} (hi : Internal changes)
    (hcomplete : ∀ doc, (id, doc) ∈ docs → IsComplete (Table.merge doc changes)) :
    Registered (Store.amend id changes docs) := by
  refine ⟨fun entry he => ?_, List.pairwise_map.mpr (h.distinct.imp fun {a b} hab => ?_)⟩
  · obtain ⟨doc, hdoc, hval⟩ := exists_of_mem_amend he
    rw [hval]
    split
    · next hid => exact hcomplete doc (hid ▸ hdoc)
    · exact h.complete _ hdoc
  · have hsame : ∀ entry : String × Fields,
        ownerOf (if entry.1 = id then (entry.1, Table.merge entry.2 changes) else entry).2
            = ownerOf entry.2 ∧
          nameOf (if entry.1 = id then (entry.1, Table.merge entry.2 changes) else entry).2
            = nameOf entry.2 := by
      intro entry
      split
      · exact hi.sameHerd_merge entry.2
      · exact ⟨rfl, rfl⟩
    rw [SameHerd, SameHerd, (hsame a).1, (hsame a).2, (hsame b).1, (hsame b).2]
    exact hab

/-- No document under the id is that of an archived herd. -/
def Unarchived (id : String) (docs : Documents) : Prop :=
  ∀ doc, (id, doc) ∈ docs → isArchived doc = false

/-- Setting the members of a herd archives none. -/
theorem Unarchived.withMembers (h : Unarchived id docs) (herd : Fields) (members : List Value) :
    Unarchived id (Herds.withMembers herd members docs) := by
  intro doc hdoc
  obtain ⟨old, hold, hval⟩ := exists_of_mem_amend hdoc
  have hactive : isArchived old = false := h old hold
  dsimp only at hval
  rw [hval]
  split
  · rwa [isArchived, Table.merge, List.foldl, List.foldl, Table.get?_set, if_neg (by simp)]
  · exact hactive

/-- A new herd is not archived. -/
theorem Unarchived.withNew (h : Unarchived id docs) (id' : String) (user name description : Value) :
    Unarchived id (Herds.withNew id' user name description docs) := by
  intro doc hdoc
  rcases List.mem_append.mp hdoc with hdoc | hdoc
  · exact h doc hdoc
  · obtain ⟨-, rfl⟩ := Prod.mk.inj (List.mem_singleton.mp hdoc)
    rfl

/-- Documents stay registered when members are set of a herd that is not archived. -/
theorem Registered.withMembers (h : Registered docs) (ha : Unarchived (idOf herd) docs)
    {members : List Value} (hm : Value.AreTidy members) :
    Registered (Herds.withMembers herd members docs) :=
  h.amend (by simp [Internal, Table.keys]) fun doc hdoc =>
    (h.complete _ hdoc).setMembers (ha doc hdoc) hm

/-- They stay so when a herd is archived. -/
theorem Registered.withArchived (h : Registered docs) (herd : Fields) :
    Registered (Herds.withArchived herd docs) :=
  h.amend (by simp [Internal, Table.keys]) fun _ hdoc => (h.complete _ hdoc).archive

/-- They stay so when a herd is restored. -/
theorem Registered.withRestored (h : Registered docs) (herd : Fields) :
    Registered (Herds.withRestored herd docs) :=
  h.amend (by simp [Internal, Table.keys]) fun _ hdoc => (h.complete _ hdoc).restore

/-- A herd that is not there is not that of any document. -/
theorem not_sameHerd (h : Registered docs) (hu : user.IsTidy) (hn : name.IsTidy)
    (hnone : among? user name docs = none) {entry : String × Fields} (he : entry ∈ docs)
    (id : String) :
    ¬SameHerd entry.2 (Table.set "_id" (.str id) (document user name description)) ∧
      ¬SameHerd (Table.set "_id" (.str id) (document user name description)) entry.2 := by
  have hsat := List.find?_eq_none.mp hnone entry.2 (List.mem_map_of_mem he)
  have howner : ownerOf (Table.set "_id" (.str id) (document user name description)) = user := rfl
  have hname : nameOf (Table.set "_id" (.str id) (document user name description)) = name := rfl
  obtain ⟨⟨v, hv, hvtidy⟩, ⟨w, hw, hwtidy⟩, -⟩ := h.complete entry he
  rw [SameHerd, SameHerd, howner, hname, ownerOf, nameOf, hv, hw]
  simp only [satisfies, List.all_cons, List.all_nil, hv, hw, Option.getD_some, Bool.and_true,
    Bool.and_eq_true] at hsat ⊢
  rw [Value.same_comm hu hvtidy, Value.same_comm hn hwtidy]
  exact ⟨hsat, hsat⟩

/-- Documents stay registered when a herd is added that is not there. -/
theorem Registered.withNew (h : Registered docs) (hu : user.IsTidy) (hn : name.IsTidy)
    (hnone : among? user name docs = none) (id : String) (description : Value) :
    Registered (Herds.withNew id user name description docs) := by
  refine ⟨fun entry he => ?_, List.pairwise_append.mpr ⟨h.distinct, List.pairwise_singleton _ _,
    fun entry he entry' he' => ?_⟩⟩
  · rcases List.mem_append.mp he with he | he
    · exact h.complete entry he
    · obtain rfl := List.mem_singleton.mp he
      exact isComplete_document description hu hn id
  · obtain rfl := List.mem_singleton.mp he'
    exact not_sameHerd h hu hn hnone he id

/-- Fewer documents are registered as well. -/
theorem Registered.sublist {docs' : Documents} (h : Registered docs) (hsub : docs'.Sublist docs) :
    Registered docs' :=
  ⟨fun entry he => h.complete entry (hsub.subset he), h.distinct.sublist hsub⟩

/-! ### What is found -/

/-- What is found is the document of some id. -/
theorem exists_entry_of_among? (h : among? user name docs = some herd) :
    ∃ entry ∈ docs, entry.2 = herd :=
  List.mem_map.mp (List.mem_of_find?_eq_some h)

/-- A herd that is found active is not archived under its id. -/
theorem IsActive.unarchived {store : Store} (hs : store.Numbered)
    (h : IsActive user name store.docs herd) : Unarchived (idOf herd) store.docs := by
  obtain ⟨entry, he, rfl⟩ := exists_entry_of_among? h.1
  intro doc hdoc
  rw [idOf_eq (hs.named entry he)] at hdoc
  have hdoc' : Table.get? entry.1 store.docs = some doc := hs.get?_of_mem hdoc
  rw [hs.get?_of_mem he] at hdoc'
  exact Option.some.inj hdoc' ▸ h.2

/-- The members of a herd that is found are tidy. -/
theorem Registered.areTidy (hr : Registered docs) (h : among? user name docs = some herd) :
    Value.AreTidy (membersOf herd) := by
  obtain ⟨entry, he, rfl⟩ := exists_entry_of_among? h
  exact (hr.complete entry he).areTidy

/-- So are those of the target of a split. -/
theorem Registered.areTidy_target (hr : Registered docs) {docs' : Documents} {target : Fields}
    (h : TargetOf user name docs target docs') : Value.AreTidy (membersOf target) := by
  cases h with
  | found h => exact hr.areTidy h.1
  | new => exact trivial

/-- The target of a split is not archived, and with it the documents are registered. -/
theorem Registered.target (hr : Registered docs) (hu : user.IsTidy) (hn : name.IsTidy)
    {docs' : Documents} {target : Fields}
    (hunarchived : ∀ {herd}, IsActive user name docs herd → Unarchived (idOf herd) docs)
    (h : TargetOf user name docs target docs') :
    Registered docs' ∧ Unarchived (idOf target) docs' ∧
      ∀ id, Unarchived id docs → Unarchived id docs' := by
  cases h with
  | found h => exact ⟨hr, hunarchived h, fun _ => id⟩
  | @new id hnone hid =>
    have hfresh : Unarchived id docs := fun doc hdoc =>
      absurd rfl (Table.ne_of_get?_eq_none hid _ hdoc)
    exact ⟨hr.withNew hu hn hnone _ _, hfresh.withNew _ _ _ _, fun id h => h.withNew _ _ _ _⟩

/-! ### Lists of members -/

/-- Items of a tidy list are tidy. -/
theorem areTidy_filter {items : List Value} (h : Value.AreTidy items) (p : Value → Bool) :
    Value.AreTidy (items.filter p) :=
  Value.areTidy_iff.mpr fun v hv => Value.areTidy_iff.mp h v (List.mem_of_mem_filter hv)

theorem areTidy_append {items others : List Value} (h : Value.AreTidy items)
    (h' : Value.AreTidy others) : Value.AreTidy (items ++ others) :=
  Value.areTidy_iff.mpr fun v hv => (List.mem_append.mp hv).elim (Value.areTidy_iff.mp h v)
    (Value.areTidy_iff.mp h' v)

theorem areTidy_union {members extra : List Value} (hm : Value.AreTidy members)
    (he : Value.AreTidy extra) : Value.AreTidy (union members extra) :=
  areTidy_append hm (areTidy_filter he _)

/-- What a test lets through is part of the list. -/
theorem filterM_sublist {test : Value → Except Misuse Bool} {items kept : List Value}
    (h : filterM test items = .ok kept) : kept.Sublist items := by
  induction items generalizing kept with
  | nil => exact Except.ok.inj h ▸ List.Sublist.refl _
  | cons v vs ih =>
    obtain ⟨holds, -, h⟩ := bind_eq_ok_iff.mp h
    obtain ⟨rest, hrest, h⟩ := bind_eq_ok_iff.mp h
    obtain rfl := Except.ok.inj h
    split
    · exact (ih hrest).cons_cons v
    · exact (ih hrest).cons v

/-- What a tidy value consists of is tidy. -/
theorem areTidy_elements {v : Value} (h : v.IsTidy) {items : List Value}
    (he : v.elements = .ok items) : Value.AreTidy items := by
  cases v with
  | list others | tuple others => exact Except.ok.inj he ▸ h
  | object fields | str s =>
    obtain rfl := Except.ok.inj he
    refine Value.areTidy_iff.mpr fun v hv => ?_
    obtain ⟨_, -, rfl⟩ := List.mem_map.mp hv
    trivial
  | _ => exact nomatch he

end Herds

/-! ### What actions leave registered -/

/-- The values that an action is asked with. -/
def HerdAction.values : HerdAction → List Value
  | .create user name description => [user, name, description]
  | .add user herd animal | .remove user herd animal => [user, herd, animal]
  | .move user source target animal => [user, source, target, animal]
  | .merge user keep gone => [user, keep, gone]
  | .split user source target animals => [user, source, target, animals]
  | .delete user herd | .restore user herd | .members user herd | .lookUp user herd => [user, herd]
  | .listActive user | .listArchived user => [user]
  | .lookUpActive user herd role => [user, herd, role]

open Herds

/-- Whatever an action that is asked with tidy values does, the documents stay registered. -/
theorem HerdAction.Does.registered {action : HerdAction} {store : Store} {docs' : Documents}
    (h : action.Does store.docs docs') (hs : store.Numbered) (hr : Registered store.docs)
    (ht : Value.AreTidy action.values) : Registered docs' := by
  have hunarchived : ∀ {user name herd}, IsActive user name store.docs herd →
      Unarchived (idOf herd) store.docs := fun ha => ha.unarchived hs
  have herase : ∀ id, (Table.erase id store.docs).Sublist store.docs := fun id => by
    rw [Table.erase_eq_filter id hs.nodup]
    exact List.filter_sublist
  generalize store.docs = docs at h hr hunarchived herase
  cases h with
  | create hname hnone hid => exact hr.withNew ht.1 ht.2.1 hnone _ _
  | add ha hnew =>
    exact hr.withMembers (hunarchived ha) (areTidy_append (hr.areTidy ha.1) ⟨ht.2.2.1, trivial⟩)
  | remove ha hin => exact hr.withMembers (hunarchived ha) (areTidy_filter (hr.areTidy ha.1) _)
  | move hne hsource htarget hin =>
    exact (hr.withMembers (hunarchived hsource) (areTidy_filter (hr.areTidy hsource.1) _)).withMembers
      ((hunarchived htarget).withMembers _ _)
      (areTidy_union (hr.areTidy htarget.1) ⟨ht.2.2.2.1, trivial⟩)
  | merge hne hkeep hgone =>
    exact (hr.withMembers (hunarchived hkeep)
      (areTidy_union (hr.areTidy hkeep.1) (hr.areTidy hgone.1))).withArchived _
  | split hne hsource hmoving hin htarget hstaying =>
    obtain ⟨hr', ha, hstill⟩ := hr.target ht.1 ht.2.2.1 hunarchived htarget
    have hstaying := Value.areTidy_iff.mpr fun v hv =>
      Value.areTidy_iff.mp (hr.areTidy hsource.1) v ((filterM_sublist hstaying).subset hv)
    exact (hr'.withMembers (hstill _ (hunarchived hsource)) hstaying).withMembers
      (ha.withMembers _ _)
      (areTidy_union (hr.areTidy_target htarget) (areTidy_elements ht.2.2.2.1 hmoving))
  | archive ha => exact hr.withArchived _
  | delete ha harch => exact hr.sublist (herase _)
  | restore ha harch => exact hr.withRestored _

/-! ### What actions list once -/

/-- The items are not the same as each other, whichever is compared with which. -/
def Value.AreDistinct (items : List Value) : Prop :=
  items.Pairwise fun v w => v.same w = false ∧ w.same v = false

namespace Herds

variable {docs : Documents} {herd : Fields} {members extra : List Value}

/-- Who is not in a list is not the same as anybody in it. -/
theorem same_eq_false_of_isIn {animal member : Value} (hm : Value.AreTidy members)
    (ha : animal.IsTidy) (hin : animal.isIn members = false) (hmem : member ∈ members) :
    member.same animal = false ∧ animal.same member = false := by
  have hitem : member.sameItem animal = false := by
    simpa using List.any_eq_false.mp hin member hmem
  have hsame : member.same animal = false := (Bool.or_eq_false_iff.mp hitem).2
  exact ⟨hsame, Value.same_comm ha (Value.areTidy_iff.mp hm member hmem) ▸ hsame⟩

/-- Two lists of which each lists everybody once make one that does. -/
theorem areDistinct_union (hm : Value.AreTidy members) (he : Value.AreTidy extra)
    (hdm : Value.AreDistinct members) (hde : Value.AreDistinct extra) :
    Value.AreDistinct (union members extra) := by
  refine List.pairwise_append.mpr ⟨hdm, hde.filter _, fun member hmem animal hanimal => ?_⟩
  obtain ⟨hextra, hin⟩ := List.mem_filter.mp hanimal
  exact same_eq_false_of_isIn hm (Value.areTidy_iff.mp he animal hextra) (by simpa using hin) hmem

/-- Every herd lists its members once. -/
def Lists (docs : Documents) : Prop := ∀ entry ∈ docs, Value.AreDistinct (membersOf entry.2)

/-- So it is after changes of one document that leave its members listed once. -/
theorem Lists.amend (h : Lists docs) {id : String} {changes : Fields}
    (hc : ∀ doc, (id, doc) ∈ docs → Value.AreDistinct (membersOf (Table.merge doc changes))) :
    Lists (Store.amend id changes docs) := by
  intro entry he
  obtain ⟨doc, hdoc, hval⟩ := exists_of_mem_amend he
  rw [hval]
  split
  · next hid => exact hc doc (hid ▸ hdoc)
  · exact h _ hdoc

/-- So it is when members are set that are listed once. -/
theorem Lists.withMembers (h : Lists docs) (herd : Fields) (hm : Value.AreDistinct members) :
    Lists (Herds.withMembers herd members docs) :=
  h.amend fun doc _ => by
    have hget : Table.get? "members" (Table.merge doc [("members", .list members)])
        = some (.list members) := by simp [Table.merge, Table.get?_set]
    rwa [membersOf_eq hget]

/-- So it is when a herd is archived. -/
theorem Lists.withArchived (h : Lists docs) (herd : Fields) :
    Lists (Herds.withArchived herd docs) :=
  h.amend fun doc _ => by
    have hget : Table.get? "members" (Table.merge doc [("isArchived", .bool true),
        ("members", .list [])]) = some (.list []) := by simp [Table.merge, Table.get?_set]
    rw [membersOf_eq hget]
    exact .nil

/-- So it is when a herd is restored. -/
theorem Lists.withRestored (h : Lists docs) (herd : Fields) :
    Lists (Herds.withRestored herd docs) :=
  h.amend fun doc hdoc => by
    have hget : Table.get? "members" (Table.merge doc [("isArchived", .bool false)])
        = Table.get? "members" doc := by simp [Table.merge, Table.get?_set]
    rw [membersOf, hget]
    exact h _ hdoc

/-- So it is when a herd is added. -/
theorem Lists.withNew (h : Lists docs) (id : String) (user name description : Value) :
    Lists (Herds.withNew id user name description docs) := by
  intro entry he
  rcases List.mem_append.mp he with he | he
  · exact h entry he
  · obtain rfl := List.mem_singleton.mp he
    exact .nil

/-- What is found lists its members once. -/
theorem Lists.areDistinct (h : Lists docs) {user name : Value}
    (hf : among? user name docs = some herd) : Value.AreDistinct (membersOf herd) := by
  obtain ⟨entry, he, rfl⟩ := exists_entry_of_among? hf
  exact h entry he

/-- So does the target of a split. -/
theorem Lists.target (h : Lists docs) {user name : Value} {docs' : Documents} {target : Fields}
    (ht : TargetOf user name docs target docs') :
    Lists docs' ∧ Value.AreDistinct (membersOf target) := by
  cases ht with
  | found ha => exact ⟨h, h.areDistinct ha.1⟩
  | new hnone hid => exact ⟨h.withNew _ _ _ _, .nil⟩

end Herds

/-- Nobody is listed twice among the animals that an action splits off. -/
def HerdAction.SplitsOnce : HerdAction → Prop
  | .split _ _ _ animals => ∀ moving, animals.elements = .ok moving → Value.AreDistinct moving
  | _ => True

/-- An action leaves every herd listing its members once, if nobody is listed twice among the animals
that it splits off. -/
theorem HerdAction.Does.lists {action : HerdAction} {docs docs' : Documents}
    (h : action.Does docs docs') (hr : Registered docs) (hl : Lists docs)
    (ht : Value.AreTidy action.values) (ho : action.SplitsOnce) : Lists docs' := by
  cases h with
  | create hname hnone hid => exact hl.withNew _ _ _ _
  | @add user name animal _ herd ha hnew =>
    have hunion : membersOf herd ++ [animal] = union (membersOf herd) [animal] := by
      simp [union, hnew]
    rw [hunion]
    exact hl.withMembers _ (areDistinct_union (hr.areTidy ha.1) ⟨ht.2.2.1, trivial⟩
      (hl.areDistinct ha.1) (List.pairwise_singleton _ _))
  | remove ha hin => exact hl.withMembers _ ((hl.areDistinct ha.1).filter _)
  | move hne hsource htarget hin =>
    exact (hl.withMembers _ ((hl.areDistinct hsource.1).filter _)).withMembers _
      (areDistinct_union (hr.areTidy htarget.1) ⟨ht.2.2.2.1, trivial⟩
        (hl.areDistinct htarget.1) (List.pairwise_singleton _ _))
  | merge hne hkeep hgone =>
    exact (hl.withMembers _ (areDistinct_union (hr.areTidy hkeep.1) (hr.areTidy hgone.1)
      (hl.areDistinct hkeep.1) (hl.areDistinct hgone.1))).withArchived _
  | split hne hsource hmoving hin htarget hstaying =>
    obtain ⟨hl', hdistinct⟩ := hl.target htarget
    exact (hl'.withMembers _ ((hl.areDistinct hsource.1).sublist
      (filterM_sublist hstaying))).withMembers _
        (areDistinct_union (hr.areTidy_target htarget) (areTidy_elements ht.2.2.2.1 hmoving)
          hdistinct (ho _ hmoving))
  | archive ha => exact hl.withArchived _
  | delete ha harch => exact fun entry he => hl entry (Table.mem_of_mem_erase he)
  | restore ha harch => exact hl.withRestored _

/-! ### What herds are called -/

namespace Herds

variable {good : Value → Prop} {docs : Documents}

/-- Every herd has a good name. -/
def Called (good : Value → Prop) (docs : Documents) : Prop := ∀ entry ∈ docs, good (nameOf entry.2)

/-- So it is after changes that leave the names alone. -/
theorem Called.amend (h : Called good docs) {changes : Fields} (hi : Internal changes)
    (id : String) : Called good (Store.amend id changes docs) := by
  intro entry he
  obtain ⟨doc, hdoc, hval⟩ := exists_of_mem_amend he
  have hgood : good (nameOf doc) := h _ hdoc
  rw [hval]
  split
  · rwa [(hi.sameHerd_merge doc).2]
  · exact hgood

/-- So it is when the members of a herd are set. -/
theorem Called.withMembers (h : Called good docs) (herd : Fields) (members : List Value) :
    Called good (Herds.withMembers herd members docs) :=
  h.amend (by simp [Internal, Table.keys]) _

/-- So it is when a herd is added that has one. -/
theorem Called.withNew (h : Called good docs) {name : Value} (hn : good name) (id : String)
    (user description : Value) : Called good (Herds.withNew id user name description docs) := by
  intro entry he
  rcases List.mem_append.mp he with he | he
  · exact h entry he
  · obtain rfl := List.mem_singleton.mp he
    exact hn

/-- So it is with the target of a split, which is new or was there. -/
theorem Called.target (h : Called good docs) {user name : Value} (hn : good name)
    {docs' : Documents} {target : Fields} (ht : TargetOf user name docs target docs') :
    Called good docs' := by
  cases ht with
  | found => exact h
  | new => exact h.withNew hn _ _ _

end Herds

/-- An action leaves every herd with a good name when the names with ink are good, and so is that of
the herd that it splits animals off into. -/
theorem HerdAction.Does.called {good : Value → Prop} {action : HerdAction} {docs docs' : Documents}
    (h : action.Does docs docs') (hc : Called good docs)
    (hink : ∀ text, hasInk text = true → good (.str text))
    (htarget : ∀ user source target animals, action = .split user source target animals →
      good target) : Called good docs' := by
  cases h with
  | create hname hnone hid =>
    obtain ⟨text, rfl, htext⟩ := Value.isBlankName_eq_ok_false_iff.mp hname
    exact hc.withNew (hink text htext) _ _ _
  | add ha hnew => exact hc.withMembers _ _
  | remove ha hin => exact hc.withMembers _ _
  | move hne hsource htarget hin => exact (hc.withMembers _ _).withMembers _ _
  | merge hne hkeep hgone =>
    exact (hc.withMembers _ _).amend (by simp [Internal, Table.keys]) _
  | split hne hsource hmoving hin ht hstaying =>
    exact ((hc.target (htarget _ _ _ _ rfl) ht).withMembers _ _).withMembers _ _
  | archive ha => exact hc.amend (by simp [Internal, Table.keys]) _
  | delete ha harch => exact fun entry he => hc entry (Table.mem_of_mem_erase he)
  | restore ha harch => exact hc.amend (by simp [Internal, Table.keys]) _

/-! ### Whatever the herds live through -/

namespace Arguments

variable {args : Fields}

/-- A required argument of a tidy call is tidy. -/
theorem IsReading.tidy {α : Type} {Q : α → Prop} (hargs : Value.FieldsAreTidy args)
    {parameter : String} {next : Value → Except Fault α}
    (h : ∀ v, v.IsTidy → Table.get? parameter args = some v → IsReading (next v) Q) :
    IsReading (Arguments.required args parameter >>= next) Q :=
  .required fun v hv => h v (hargs.get? hv) hv

/-- An argument with a tidy default is tidy. -/
theorem isTidy_optional (hargs : Value.FieldsAreTidy args) (parameter : String) {default : Value}
    (hd : default.IsTidy) : (optional args parameter default).IsTidy := by
  rw [optional]
  cases hv : Table.get? parameter args with
  | none => exact hd
  | some v => exact hargs.get? hv

end Arguments

/-- What is read of a tidy call is asked with tidy values, and animals are split off by one action
alone. -/
theorem HerdAction.isReading_tidy {name : String} {args : Fields}
    {reading : Except Fault HerdAction} (h : ofCall? name args = some reading)
    (hargs : Value.FieldsAreTidy args) : Arguments.IsReading reading fun action =>
      Value.AreTidy action.values ∧
        ∀ user source target animals, action = .split user source target animals →
          name = "splitHerd" ∧ Table.get? "targetHerdName" args = some target ∧
            Table.get? "animalsToMove" args = some animals := by
  have htexts : Value.IsTidy (.str "") ∧ Value.IsTidy (.str "Herd") := ⟨trivial, trivial⟩
  unfold ofCall? at h
  split at h <;> first | obtain rfl := Option.some.inj h | cases h
  all_goals refine .exactly ?_
  all_goals repeat refine .tidy hargs fun _ _ _ => ?_
  all_goals refine .pure ?_
  all_goals simp_all [values, Value.AreTidy, Arguments.isTidy_optional]

/-- What archives the herd of a user. -/
def Herds.closing : Fields := [("user", .str "alice"), ("herdName", .str "north")]

/-- What splits an animal off into a herd that is new. -/
def Herds.splitting : Fields :=
  [("user", .str "alice"), ("sourceHerdName", .str "north"), ("targetHerdName", .str "calves"),
    ("animalsToMove", .list [.str "a1"])]

namespace Concept

variable {may : String → Fields → Prop} {limit : Limit} {concept : Concept} {issued : Issued}

/-- What holds without documents, and after whatever an action does that the herds may be asked for,
holds all their life. -/
theorem Lives.herds_invariant {P : Documents → Prop}
    (hmay : ∀ name args, may name args → Value.FieldsAreTidy args) (hnil : P [])
    (hstep : ∀ {store : Store} {docs' : Documents} {name : String} {args : Fields}
      {action : HerdAction}, store.Numbered → may name args →
      HerdAction.ofCall? name args = some (.ok action) → action.Does store.docs docs' →
      P store.docs → P docs')
    (h : Lives may .herds limit concept issued) : P concept.documents := by
  induction h with
  | start => exact hnil
  | @call concept issued name args turn hlife hask ht ih =>
    have hnumbered := (Lives.tended (show Kind.owner? .herds = some "userId" from rfl)
      (hlife.mono hmay)).toNumbered
    have hkind := hlife.kind_eq
    cases concept with
    | requests | accounts | animals => exact nomatch hkind
    | herds store =>
      obtain ⟨reading, hr, rfl⟩ := Option.map_eq_some_iff.mp ht
      cases reading with
      | error fault => exact ih
      | ok action =>
        rcases action.does_of_run hnumbered with hsame | hdoes
        · exact (congrArg P hsame).mpr ih
        · exact hstep hnumbered hask hr hdoes ih
  | @order concept issued _ op n ih => cases concept <;> exact ih
  | meanwhile _ _ ih => exact ih

/-- Whatever the herds live through, their documents are registered. -/
theorem Lives.registered (h : Lives tidyCall .herds limit concept issued) :
    Herds.Registered concept.documents := by
  refine h.herds_invariant (fun _ _ hargs => hargs) ⟨nofun, .nil⟩
    fun hs hargs hr hdoes hregistered => ?_
  exact hdoes.registered hs hregistered ((HerdAction.isReading_tidy hr hargs).1 _ rfl).1

/-- The register of herds. Whatever the herds are asked, whichever operations of their store are
ordered to fail: no two documents name the same owner and the same name, an archived herd has no
members, and every document has an owner, a name, a description, a list of members and a flag that
says whether the herd is archived. -/
theorem herds_registered (h : Lives tidyCall .herds limit concept issued) :
    Herds.Registered concept.documents := h.registered

/-- A herd that was emptied and archived is still registered, so no other can be created in its
place. -/
theorem herds_registered_archived :
    let life := asked .herds defaultLimit [("createHerd", Herds.founding "alice"),
      ("addAnimal", Herds.joining), ("deleteHerd", Herds.closing),
      ("createHerd", Herds.founding "alice")]
    life.1.documents.length = 1 ∧ Herds.Registered life.1.documents := by
  intro life
  have hlife : Lives tidyCall .herds defaultLimit life.1 life.2 := lives_asked _ _ _ (by
    simp [tidyCall, Herds.founding, Herds.joining, Herds.closing, Value.FieldsAreTidy,
      Value.IsTidy])
  exact ⟨rfl, herds_registered hlife⟩

/-- A tidy call that lists nobody twice among the animals to split off. -/
def discerningCall : String → Fields → Prop := fun name args =>
  Value.FieldsAreTidy args ∧ (name = "splitHerd" → ∀ animals moving,
    Table.get? "animalsToMove" args = some animals → animals.elements = .ok moving →
    Value.AreDistinct moving)

/-- Lists of members. As long as no call lists an animal twice among those to split off, no herd lists
an animal twice, whatever else the herds are asked and whichever operations of their store are
ordered to fail. -/
theorem herds_lists (h : Lives discerningCall .herds limit concept issued) :
    Herds.Lists concept.documents := by
  suffices hboth : Herds.Registered concept.documents ∧ Herds.Lists concept.documents from hboth.2
  refine h.herds_invariant (P := fun docs => Herds.Registered docs ∧ Herds.Lists docs)
    (fun _ _ hask => hask.1) ⟨⟨nofun, .nil⟩, nofun⟩ fun hs hask hr hdoes hboth => ?_
  obtain ⟨htidy, hsplit⟩ := (HerdAction.isReading_tidy hr hask.1).1 _ rfl
  refine ⟨hdoes.registered hs hboth.1 htidy, hdoes.lists hboth.1 hboth.2 htidy ?_⟩
  cases hdoes with
  | split =>
    obtain ⟨hname, -, hanimals⟩ := hsplit _ _ _ _ rfl
    exact fun moving hmoving => hask.2 hname _ _ hanimals hmoving
  | _ => trivial

/-- An animal that is split off is listed in the new herd once. -/
theorem herds_lists_split :
    let life := asked .herds defaultLimit [("createHerd", Herds.founding "alice"),
      ("addAnimal", Herds.joining), ("splitHerd", Herds.splitting)]
    life.1.documents.length = 2 ∧ Herds.Lists life.1.documents := by
  intro life
  have hsplit : discerningCall "splitHerd" Herds.splitting := by
    refine ⟨by simp [Herds.splitting, Value.FieldsAreTidy, Value.IsTidy, Value.AreTidy], ?_⟩
    rintro - _ moving ⟨rfl⟩ hmoving
    exact Except.ok.inj hmoving ▸ List.pairwise_singleton _ _
  have hlife : Lives discerningCall .herds defaultLimit life.1 life.2 := lives_asked _ _ _ (by
    simpa [discerningCall, Herds.fieldsAreTidy] using hsplit)
  exact ⟨rfl, herds_lists hlife⟩

/-- What is known of the call cannot be left out: an animal that is listed twice among those to split
off is listed twice in the new herd. -/
example : (asked .herds defaultLimit [("createHerd", Herds.founding "alice"),
    ("addAnimal", Herds.joining), ("splitHerd", Table.set "animalsToMove"
      (.list [.str "a1", .str "a1"]) Herds.splitting)]).1.documents.map (Herds.membersOf ·.2)
      = [[], [.str "a1", .str "a1"]] := rfl

/-- A tidy call that splits animals off, if it does, into a herd that is called so. -/
def splitsInto (called : Value → Prop) : String → Fields → Prop := fun name args =>
  Value.FieldsAreTidy args ∧ (name = "splitHerd" → ∀ target,
    Table.get? "targetHerdName" args = some target → called target)

/-- Names of herds. Whatever the herds are asked, and whichever operations of their store are ordered
to fail: the name of every herd is a text with a character that is not blank, or one that somebody
has asked to split animals off into. So there is no blank name where nobody has asked for that. -/
theorem herds_called {called : Value → Prop}
    (h : Lives (splitsInto called) .herds limit concept issued) :
    ∀ entry ∈ concept.documents,
      (∃ text, Herds.nameOf entry.2 = .str text ∧ hasInk text = true) ∨
        called (Herds.nameOf entry.2) := by
  refine h.herds_invariant
    (P := Herds.Called fun name => (∃ text, name = .str text ∧ hasInk text = true) ∨ called name)
    (fun _ _ hask => hask.1) nofun fun _ hask hr hdoes hcalled => ?_
  obtain ⟨-, hsplit⟩ := (HerdAction.isReading_tidy hr hask.1).1 _ rfl
  refine hdoes.called hcalled (fun text htext => .inl ⟨text, rfl, htext⟩) ?_
  intro user source target animals haction
  obtain ⟨hname, htarget, -⟩ := hsplit _ _ _ _ haction
  exact .inr (hask.2 hname target htarget)

/-- An animal that is split off into a herd with a blank name is in the only herd that has one. -/
theorem herds_called_split :
    let life := asked .herds defaultLimit [("createHerd", Herds.founding "alice"),
      ("addAnimal", Herds.joining),
      ("splitHerd", Table.set "targetHerdName" (.str " ") Herds.splitting)]
    life.1.documents.map (Herds.nameOf ·.2) = [.str "north", .str " "] ∧
      ∀ entry ∈ life.1.documents,
        (∃ text, Herds.nameOf entry.2 = .str text ∧ hasInk text = true) ∨
          Herds.nameOf entry.2 = .str " " := by
  intro life
  have hsplit : splitsInto (· = .str " ") "splitHerd"
      (Table.set "targetHerdName" (.str " ") Herds.splitting) := by
    refine ⟨by simp [Herds.splitting, Table.set, Value.FieldsAreTidy, Value.IsTidy,
      Value.AreTidy], ?_⟩
    rintro - _ ⟨rfl⟩
    rfl
  have hlife : Lives (splitsInto (· = .str " ")) .herds defaultLimit life.1 life.2 :=
    lives_asked _ _ _ (by simpa [splitsInto, Herds.fieldsAreTidy] using hsplit)
  exact ⟨rfl, herds_called hlife⟩

end Concept

end HerdBook
