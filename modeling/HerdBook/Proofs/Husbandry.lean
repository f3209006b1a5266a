import HerdBook.Proofs.Herding

/-!
# What actions on animals do

An action on the records of animals that neither fails nor refuses does one thing to the documents,
which `AnimalAction.Does` says for each action, together with what the action has made sure of
before. All other runs leave the documents as they were.

Three fields of a document are about who it is of and are never changed: its id, its owner and the
id of the animal. What an action sets are details, or the status with the notes.

## Main results

* `AnimalAction.does_of_run`: an action that succeeds does what it is for.
* `AnimalAction.docs_of_run`: any other one does nothing.
-/

namespace HerdBook

open Effect Store

namespace Animals

/-! ### What is done to documents -/

/-- The record of that owner and animal among the documents: the first one, if there are more. -/
def among? (user animal : Value) (docs : Documents) : Option Fields :=
  (docs.map (·.2)).find? (satisfies [("ownerId", user), ("animalId", animal)])

/-- The documents with that of a new animal. -/
def withNew (key : String) (doc : Fields) (docs : Documents) : Documents :=
  docs ++ [(key, Table.set "_id" (.str key) doc)]

/-- What sets the status of a record, and its notes unless the new ones are empty. -/
def restatement (doc : Fields) (status notes : Value) : Fields :=
  [("status", status), ("notes", notes.orElse (fieldOf doc "notes"))]

/-- What sets the details of a record. -/
def correction (species breed birthDate sex : Value) : Fields :=
  [("species", species), ("breed", breed.orElse (.str "")),
    ("birthDate", birthDate.orElse .null), ("sex", sex)]

/-- What sets the status and the notes of a record when its animal leaves the herd book. -/
def farewell (departure : Departure) (date remark : String) : Fields :=
  [("status", .str departure.status), ("notes", .str (departure.notes date remark))]

end Animals

open Animals

/-- The action reads records and does nothing else. -/
def AnimalAction.Reads : AnimalAction → Prop
  | .present .. | .presentAll _ | .lookUp .. => True
  | _ => False

/-- What an action on animals does to the documents when it succeeds, and what it has made sure
of. -/
inductive AnimalAction.Does : AnimalAction → Documents → Documents → Prop
  /-- A record is added. -/
  | register {user id species sex birthDate breed notes : Value} {docs : Documents} {key : String}
      (hid : id.truthy = true) (hspecies : species.truthy = true) (hsex : isOneOf sex sexes = true)
      (hnone : among? user id docs = none) (hkey : Table.get? key docs = none) :
      Does (.register user id species sex birthDate breed notes) docs
        (withNew key (document user id species sex birthDate breed notes) docs)
  /-- The status of a record is set. -/
  | setStatus {user animal status notes : Value} {docs : Documents} {doc : Fields}
      (hstatus : isOneOf status statuses = true) (h : among? user animal docs = some doc) :
      Does (.setStatus user animal status notes) docs
        (amend (idOf doc) (restatement doc status notes) docs)
  /-- The details of a record are set. -/
  | edit {user animal species breed birthDate sex : Value} {docs : Documents} {doc : Fields}
      (hspecies : species.truthy = true) (hsex : isOneOf sex sexes = true)
      (h : among? user animal docs = some doc) :
      Does (.edit user animal species breed birthDate sex) docs
        (amend (idOf doc) (correction species breed birthDate sex) docs)
  /-- A living animal leaves the herd book. -/
  | retire {departure : Departure} {user animal date remark : Value} {docs : Documents}
      {doc : Fields} {dateText remarkText : String} (hdate : date.text = .ok dateText)
      (hremark : (remark.orElse (.str departure.noRemark)).text = .ok remarkText)
      (h : among? user animal docs = some doc)
      (halive : (fieldOf doc "status").same (.str "alive") = true) :
      Does (.retire departure user animal date remark) docs
        (amend (idOf doc) (farewell departure dateText remarkText) docs)
  /-- A record is removed. -/
  | remove {user animal : Value} {docs : Documents} {doc : Fields}
      (h : among? user animal docs = some doc) :
      Does (.remove user animal) docs (Table.erase (idOf doc) docs)
  /-- Records are read. -/
  | read {action : AnimalAction} {docs : Documents} (h : action.Reads) : Does action docs docs

namespace Animals

variable {s : Store}

theorem leads_owned? (user animal : Value) :
    Leads s (owned? user animal) fun found t => t = s ∧ found = among? user animal s.docs :=
  leads_findOne _

theorem leads_change (h : s.Numbered) (doc changes : Fields) :
    Leads s (change doc changes) fun _ t =>
      t = { s with docs := amend (idOf doc) changes s.docs } :=
  (leads_update h _ _).bind fun _ _ ht => .pure ht

/-- A text in an answer is that of the value. -/
theorem leads_text (v : Value) : Leads s (textOf v) fun text t => t = s ∧ v.text = .ok text :=
  .ofExcept fun _ h => ⟨rfl, mapError_eq_ok_iff.mp h⟩

/-! ### The actions -/

/-- The answer is a refusal, or what has been done to the documents is what the action does. -/
def Carries (action : AnimalAction) (docs : Documents) (answer : Answer) (t : Store) : Prop :=
  answer.Refuses ∨ action.Does docs t.docs

theorem leads_notFound {Q : Answer → Store → Prop} (user animal : Value)
    (h : ∀ answer, answer.Refuses → Q answer s) : Leads s (notFound user animal) Q :=
  leads_texts _ _ fun _ _ => h _ rfl

theorem leads_invalid {Q : Answer → Store → Prop} (what : String) (v : Value)
    (expected : List String) (h : ∀ answer, answer.Refuses → Q answer s) :
    Leads s (invalid what v expected) Q :=
  (leads_textOf v).read fun _ _ => .pure (h _ rfl)

/-- What goes on with the record of an animal carries an action out, since it is refused where there
is no such record. -/
theorem leads_withRecord {action : AnimalAction} {next : Fields → Effect Store Answer}
    (user animal : Value) (h : ∀ doc, among? user animal s.docs = some doc →
      Leads s (next doc) (Carries action s.docs)) :
    Leads s (owned? user animal >>= fun found => match found with
      | none => notFound user animal
      | some doc => next doc) (Carries action s.docs) := by
  refine (leads_owned? user animal).read fun found hfound => ?_
  cases found with
  | none => exact leads_notFound _ _ fun _ => .inl
  | some doc => exact h doc hfound.symm

theorem leads_register (hs : s.Numbered) (user id species sex birthDate breed notes : Value) :
    Leads s (register user id species sex birthDate breed notes)
      (Carries (.register user id species sex birthDate breed notes) s.docs) := by
  unfold register
  split
  · exact .pure (.inl rfl)
  next hid =>
  split
  · exact .pure (.inl rfl)
  next hspecies =>
  split
  · exact leads_invalid _ _ _ fun _ => .inl
  next hsex =>
  refine Leads.bind (Q := fun taken t => taken = false →
    (AnimalAction.register user id species sex birthDate breed notes).Does s.docs t.docs)
    (leads_transaction ((leads_owned? user id).read fun found hfound => ?_)) ?_
  · cases found with
    | some doc => exact .pure nofun
    | none =>
      refine (leads_insert hs _).bind fun key t ht => .pure fun _ => ?_
      obtain ⟨rfl, rfl⟩ := ht
      exact .register (by simpa using hid) (by simpa using hspecies) (by simpa using hsex)
        hfound.symm hs.get?_next
  · intro taken t hdoes
    cases taken with
    | true => exact leads_texts _ _ fun _ _ => .inl rfl
    | false => exact .pure (.inr (hdoes rfl))

theorem leads_setStatus (hs : s.Numbered) (user animal status notes : Value) :
    Leads s (setStatus user animal status notes)
      (Carries (.setStatus user animal status notes) s.docs) := by
  unfold setStatus
  split
  · exact leads_invalid _ _ _ fun _ => .inl
  next hstatus =>
  refine leads_withRecord user animal fun doc hdoc =>
    (leads_change hs doc _).weaken fun _ t ht => .inr ?_
  subst ht
  exact .setStatus (by simpa using hstatus) hdoc

theorem leads_edit (hs : s.Numbered) (user animal species breed birthDate sex : Value) :
    Leads s (edit user animal species breed birthDate sex)
      (Carries (.edit user animal species breed birthDate sex) s.docs) := by
  unfold edit
  split
  · exact .pure (.inl rfl)
  next hspecies =>
  split
  · exact leads_invalid _ _ _ fun _ => .inl
  next hsex =>
  refine leads_withRecord user animal fun doc hdoc =>
    (leads_change hs doc _).weaken fun _ t ht => .inr ?_
  subst ht
  exact .edit (by simpa using hspecies) (by simpa using hsex) hdoc

theorem leads_retire (hs : s.Numbered) (departure : Departure) (user animal date remark : Value) :
    Leads s (retire departure user animal date remark)
      (Carries (.retire departure user animal date remark) s.docs) := by
  refine (leads_text date).read fun dateText hdate => (leads_text _).read fun remarkText hremark =>
    leads_withRecord user animal fun doc hdoc => ?_
  dsimp only
  split
  · exact (leads_textOf _).read fun _ _ => (leads_textOf _).read fun _ _ =>
      (leads_textOf _).read fun _ _ => .pure (.inl rfl)
  next halive =>
  refine (leads_change hs doc _).weaken fun _ t ht => .inr ?_
  subst ht
  exact .retire hdate hremark hdoc (by simpa using halive)

theorem leads_remove (user animal : Value) :
    Leads s (remove user animal) (Carries (.remove user animal) s.docs) := by
  refine leads_withRecord user animal fun doc hdoc =>
    (leads_delete _).bind fun _ t ht => .pure (.inr ?_)
  subst ht
  exact .remove hdoc

end Animals

/-- What only reads changes no document. -/
theorem AnimalAction.Reads.retains {action : AnimalAction} (h : action.Reads) :
    Moves (Retains Store.docs) action.run := by
  cases action with
  | present => exact retains_present _ _
  | presentAll => exact .bind (retains_find _) fun _ => .pure _
  | lookUp => exact .bind (retains_owned? _ _) fun _ => .pure _
  | _ => exact h.elim

variable {store : Store} {action : AnimalAction}

/-- An action on animals that answers without a refusal does to the documents what it is for. -/
theorem AnimalAction.does_of_run (hs : store.Numbered) {answer : Answer} {t : Store}
    (hrun : action.run.run store = (.ok answer, t)) (ha : ¬answer.Refuses) :
    action.Does store.docs t.docs := by
  have hwrites (h : Leads store action.run (Carries action store.docs)) :
      action.Does store.docs t.docs := (h store.failing answer t hrun).resolve_left ha
  have hreads (h : action.Reads) : action.Does store.docs t.docs := by
    have hsame : (action.run.run store).2.docs = store.docs := h.retains store
    rw [hrun] at hsame
    rw [show t.docs = store.docs from hsame]
    exact .read h
  cases action with
  | register => exact hwrites (leads_register hs _ _ _ _ _ _ _)
  | setStatus => exact hwrites (leads_setStatus hs _ _ _ _)
  | edit => exact hwrites (leads_edit hs _ _ _ _ _ _)
  | retire => exact hwrites (leads_retire hs _ _ _ _ _)
  | remove => exact hwrites (leads_remove _ _)
  | present | presentAll | lookUp => exact hreads trivial

/-- An action on animals that ends in a fault or refuses changes no document. -/
theorem AnimalAction.docs_of_run
    (h : ∀ answer, (action.run.run store).1 = .ok answer → answer.Refuses) :
    (action.run.run store).2.docs = store.docs := by
  obtain ⟨herror, hok⟩ := action.undoes_run store
  cases hout : (action.run.run store).1 with
  | error fault => exact herror fault hout
  | ok answer => exact hok answer hout (h answer hout)

end HerdBook
