import HerdBook.Proofs.Calls

/-!
# What the concepts answer

An action of a concept ends in an ordinary fault, in a refusal with a reason, or in fields without
an error. This is shown with one law for each way in which effects are put together
(`Effect.Ensures`), together with what the actions keep of the documents.

## Main results

* `Store.ensures_insert`, `Store.ensures_update`, `Store.ensures_transaction`: the operations of a
  store keep a property of its documents.
* `HerdAction.ensures_run`, `AnimalAction.ensures_run`, `AccountAction.ensures_run`: what actions
  answer.
* `Concept.exists_turn`: what a call of a concept answers that routes ask for.
-/

namespace HerdBook

/-- A name that is not blank is a text with ink. -/
theorem Value.isBlankName_eq_ok_false_iff {v : Value} :
    v.isBlankName = .ok false ↔ ∃ name, v = .str name ∧ hasInk name = true := by
  constructor
  · intro h
    unfold Value.isBlankName at h
    split at h
    · exact nomatch h
    · split at h
      · next name _ => exact ⟨name, rfl, by simpa using Except.ok.inj h⟩
      · exact nomatch h
  · rintro ⟨name, rfl, hink⟩
    have hne : name ≠ "" := by
      rintro rfl
      exact nomatch hink
    simp [Value.isBlankName, Value.truthy, hne, hink]

namespace Effect

variable {σ τ α β : Type}

/-- From a state with the first property the computation ends in one that has it too, and in an
ordinary fault or in a result with the second property. -/
def Ensures (P : σ → Prop) (act : Effect σ α) (Q : α → Prop) : Prop :=
  ∀ s, P s → P (act.run s).2 ∧ (∀ a, (act.run s).1 = .ok a → Q a) ∧
    ∀ fault, (act.run s).1 = .error fault → fault.IsOrdinary

namespace Ensures

variable {P : σ → Prop} {Q Q' : α → Prop} {R : β → Prop} {act : Effect σ α}
  {next : α → Effect σ β}

/-- A result that has the property. -/
theorem pure {a : α} (h : Q a) : Ensures P (Pure.pure a : Effect σ α) Q :=
  fun _ hs => ⟨hs, fun _ ha => Except.ok.inj ha ▸ h, nofun⟩

/-- An outcome that is known. -/
theorem ofExcept {outcome : Except Fault α} (hok : ∀ a, outcome = .ok a → Q a)
    (herror : ∀ fault, outcome = .error fault → fault.IsOrdinary) :
    Ensures P (Effect.ofExcept outcome) Q := fun _ hs => ⟨hs, hok, herror⟩

/-- A sequence, by its parts. -/
theorem bind (h : Ensures P act Q) (hn : ∀ a, Q a → Ensures P (next a) R) :
    Ensures P (act >>= next) R := by
  intro s hs
  obtain ⟨hP, hQ, hE⟩ := h s hs
  rw [run_bind]
  rcases hrun : act.run s with ⟨fault | a, t⟩
  · rw [hrun] at hP hE
    exact ⟨hP, nofun, fun _ hf => Except.error.inj hf ▸ hE fault rfl⟩
  · rw [hrun] at hP hQ
    exact hn a (hQ a rfl) t hP

/-- A result of which more is known. -/
theorem weaken (h : Ensures P act Q) (hQ : ∀ a, Q a → Q' a) : Ensures P act Q' :=
  fun s hs => ⟨(h s hs).1, fun a ha => hQ a ((h s hs).2.1 a ha), (h s hs).2.2⟩

/-- What is read is the state. -/
theorem get : Ensures P (MonadState.get : Effect σ σ) P :=
  fun _ hs => ⟨hs, fun _ ha => Except.ok.inj ha ▸ hs, nofun⟩

/-- The outcome of a computation as a value. -/
theorem attempt (h : Ensures P act Q) :
    Ensures P (Effect.attempt act) fun outcome => (∀ a, outcome = .ok a → Q a) ∧
      ∀ fault, outcome = .error fault → fault.IsOrdinary :=
  fun s hs => ⟨(h s hs).1, fun _ ha => Except.ok.inj ha ▸ (h s hs).2, nofun⟩

/-- A computation on a part of the state. -/
theorem focus {O : τ → Prop} {Q : α → Prop} {get : σ → τ} {put : τ → σ → σ} {act : Effect τ α}
    (h : Ensures O act Q) (hget : ∀ s, P s → O (get s)) (hput : ∀ s t, P s → O t → P (put t s)) :
    Ensures P (Effect.focus get put act) Q := by
  intro s hs
  obtain ⟨hO, hQ, hE⟩ := h (get s) (hget s hs)
  exact ⟨hput s _ hs hO, hQ, hE⟩

end Ensures

/-- A change that keeps the property. -/
theorem ensures_modify {P : σ → Prop} {f : σ → σ} (h : ∀ s, P s → P (f s)) :
    Ensures P (modify f : Effect σ PUnit) fun _ => True :=
  fun s hs => ⟨h s hs, fun _ _ => trivial, nofun⟩

/-- A misuse is an ordinary fault. -/
theorem ensures_misuse {P : σ → Prop} {Q : α → Prop} {outcome : Except Misuse α}
    (h : ∀ a, outcome = .ok a → Q a) :
    Ensures P (Effect.ofExcept (outcome.mapError Fault.misuse)) Q := by
  refine .ofExcept (fun a ha => h a (mapError_eq_ok_iff.mp ha)) fun fault hf => ?_
  cases outcome with
  | ok a => exact nomatch hf
  | error kind => exact .inl ⟨kind, (Except.error.inj hf).symm⟩

/-- The text of a value in an answer. -/
theorem ensures_textOf {P : σ → Prop} (v : Value) :
    Ensures P (textOf v : Effect σ String) fun _ => True :=
  ensures_misuse fun _ _ => trivial

/-- A name with ink is a text. -/
theorem ensures_isBlankName {σ : Type} {P : σ → Prop} (name : Value) :
    Ensures P (Effect.ofExcept name.isBlankName) fun blank => blank = false → ∃ s, name = .str s :=
      by
  unfold Value.isBlankName
  split
  · exact .ofExcept (fun _ ha h => nomatch (Except.ok.inj ha).trans h) nofun
  · cases name with
    | str text => exact .ofExcept (fun _ _ _ => ⟨text, rfl⟩) nofun
    | _ => exact .ofExcept nofun fun _ hf => .inl ⟨_, (Except.error.inj hf).symm⟩

end Effect

/-! ### Stores -/

namespace Store

open Effect

variable {D : Fields → Prop} {α : Type}

/-- All documents have the property. -/
def Holds (D : Fields → Prop) (store : Store) : Prop := ∀ entry ∈ store.docs, D entry.2

/-- A call of an operation fails or leaves the documents alone. -/
theorem ensures_enter (op : Operation) : Ensures (Holds D) (enter op) fun _ => True := by
  intro store hs
  unfold enter
  rw [run_ofStep]
  split
  · next n _ =>
    refine ⟨hs, fun _ _ => trivial, fun fault hf => ?_⟩
    dsimp only at hf
    split at hf
    · exact .inr (Except.error.inj hf).symm
    · exact nomatch hf
  · exact ⟨hs, fun _ _ => trivial, nofun⟩

/-- What is found are documents that satisfy the criteria. -/
theorem ensures_find (criteria : Fields) :
    Ensures (Holds D) (find criteria) fun docs =>
      ∀ doc ∈ docs, D doc ∧ satisfies criteria doc = true := by
  refine (ensures_enter .find).bind fun _ _ => Ensures.get.bind fun store hs => .pure fun doc hd =>
    ?_
  obtain ⟨hmem, hsat⟩ := List.mem_filter.mp hd
  obtain ⟨entry, he, rfl⟩ := List.mem_map.mp hmem
  exact ⟨hs entry he, hsat⟩

/-- So is what is found first. -/
theorem ensures_findOne (criteria : Fields) :
    Ensures (Holds D) (findOne criteria) fun found =>
      ∀ doc, found = some doc → D doc ∧ satisfies criteria doc = true :=
  (ensures_enter .findOne).bind fun _ _ => (ensures_find criteria).bind fun _ hd =>
    .pure fun doc h => hd doc (List.mem_of_mem_head? h)

/-- A copy of fields is the fields. -/
theorem ensures_copy {P : Store → Prop} (fields : Fields) :
    Ensures P (Effect.ofExcept (copy fields)) fun copied => copied = fields := by
  unfold copy
  split
  · exact .ofExcept (fun _ ha => (Except.ok.inj ha).symm) nofun
  · exact .ofExcept nofun fun _ hf => .inl ⟨_, (Except.error.inj hf).symm⟩

/-- An insertion keeps the property when the new document has it. -/
theorem ensures_insert {doc : Fields} (h : ∀ id, D (Table.set "_id" (.str id) doc)) :
    Ensures (Holds D) (insert doc) fun _ => True := by
  have hissue : Ensures (Holds D) issue fun _ => True := fun _ hs => ⟨hs, fun _ _ => trivial, nofun⟩
  refine (ensures_enter .insert).bind fun _ _ => hissue.bind fun id _ =>
    (ensures_copy doc).bind fun copied hc => ?_
  subst hc
  refine (ensures_modify fun store hs entry he => ?_).bind fun _ _ => .pure trivial
  rcases Table.eq_or_mem_of_mem_set he with rfl | he
  · exact h id
  · exact hs entry he

/-- An update keeps the property when changed documents keep it. -/
theorem ensures_update {id : String} {changes : Fields}
    (h : ∀ doc, D doc → D (Table.merge doc changes)) :
    Ensures (Holds D) (update id changes) fun _ => True := by
  refine (ensures_enter .update).bind fun _ _ => Ensures.get.bind fun store hs => ?_
  split
  · exact .pure trivial
  · next doc hdoc =>
    have hd : D doc := hs _ (Table.mem_of_get? hdoc)
    refine (ensures_copy changes).bind fun copied hc => ?_
    subst hc
    refine (ensures_modify fun store hs entry he => ?_).bind fun _ _ => .pure trivial
    rcases Table.eq_or_mem_of_mem_set he with rfl | he
    · exact h doc hd
    · exact hs entry he

/-- A deletion keeps every property. -/
theorem ensures_delete (id : String) : Ensures (Holds D) (delete id) fun _ => True := by
  refine (ensures_enter .delete).bind fun _ _ => Ensures.get.bind fun _ _ =>
    (ensures_modify fun store hs entry he => hs entry ?_).bind fun _ _ => .pure trivial
  exact Table.mem_of_mem_erase he

/-- A transaction keeps what its steps keep. -/
theorem ensures_transaction {Q : α → Prop} {act : Effect Store α} (h : Ensures (Holds D) act Q) :
    Ensures (Holds D) (transaction act) Q := by
  refine (ensures_enter .transaction).bind fun _ _ => Ensures.get.bind fun before hbefore =>
    h.attempt.bind fun outcome ho => ?_
  cases outcome with
  | ok result => exact .pure (ho.1 result rfl)
  | error fault =>
    exact (ensures_modify fun _ _ => hbefore).bind fun _ _ =>
      .ofExcept nofun fun _ hf => Except.error.inj hf ▸ ho.2 fault rfl

end Store

/-! ### Answers -/

/-- The answer is a refusal with a reason. -/
def Answer.IsRefusal (answer : Answer) : Prop :=
  ∃ reason, answer.value = .object [("error", .str reason)]

/-- An answer as concepts give them: a refusal, or fields without an error that hold something under
the names. -/
def Answer.IsProper (names : List String) (answer : Answer) : Prop :=
  answer.IsRefusal ∨
    ∃ out, answer.value = .object out ∧ Table.get? "error" out = none ∧
      ∀ n ∈ names, ∃ v, Table.get? n out = some v ∧ v.isNotApplicable = false

/-- A refusal is such an answer. -/
theorem Answer.isProper_refusal (names : List String) (reason : String) :
    (Answer.refusal reason).IsProper names := .inl ⟨reason, rfl⟩

/-- So is an answer that says nothing. -/
theorem Answer.isProper_done : Answer.done.IsProper [] := .inr ⟨[], rfl, rfl, by simp⟩

/-- So is an answer with one field. -/
theorem Answer.isProper_fields {name : String} {v : Value} (hn : name ≠ "error")
    (hv : v.isNotApplicable = false) : (Answer.fields [(name, v)]).IsProper [name] := by
  refine .inr ⟨[(name, v)], rfl, by simp [Table.get?, hn], fun n hmem => ⟨v, ?_, hv⟩⟩
  rw [List.mem_singleton.mp hmem]
  simp [Table.get?]

/-- A turn that ends so is one of those that rules can answer with. -/
theorem Concept.Turn.isProper_of_outcome {names : List String} {turn : Concept.Turn}
    (hok : ∀ a, turn.outcome = .ok a → a.IsProper names)
    (herror : ∀ fault, turn.outcome = .error fault → fault.IsOrdinary) : turn.IsProper names := by
  rcases hout : turn.outcome with fault | a
  · exact .failed hout (herror fault hout)
  · obtain ⟨value, notes⟩ := a
    rcases hok _ hout with ⟨reason, hv⟩ | ⟨out, hv, herr, hshown⟩
    · obtain rfl : value = _ := hv
      exact .refused hout
    · obtain rfl : value = _ := hv
      exact .succeeded hout herr hshown

/-! ### Herds -/

namespace Herds

open Effect Store

/-- What is stored of a herd lists its members. -/
def IsHerd (doc : Fields) : Prop :=
  ∀ v, Table.get? "members" doc = some v → v.isNotApplicable = false

/-- A herd whose members are set is one. -/
theorem isHerd_set_members {doc : Fields} (members : List Value) :
    IsHerd (Table.set "members" (.list members) doc) := by
  intro v hv
  rw [Table.get?_set, if_pos rfl] at hv
  rw [← Option.some.inj hv]
  rfl

/-- A herd remains one when other fields are set. -/
theorem IsHerd.set {doc : Fields} (h : IsHerd doc) {name : String} (hn : name ≠ "members")
    (v : Value) : IsHerd (Table.set name v doc) := by
  intro w hw
  rw [Table.get?_set, if_neg hn] at hw
  exact h w hw

/-- A new document is one. -/
theorem isHerd_document (user name description : Value) (id : String) :
    IsHerd (Table.set "_id" (.str id) (document user name description)) := by
  intro v hv
  rw [Table.get?_set, if_neg (by decide)] at hv
  rw [← Option.some.inj hv]
  rfl

variable {names : List String}

/-- The property of the store of the herds. -/
abbrev Sound (store : Store) : Prop := Holds IsHerd store

theorem ensures_herd? (user name : Value) :
    Ensures Sound (herd? user name) fun found => ∀ doc, found = some doc → IsHerd doc :=
  (ensures_findOne _).weaken fun _ h doc hd => (h doc hd).1

theorem ensures_setMembers (herd : Fields) (members : List Value) :
    Ensures Sound (setMembers herd members) fun _ => True :=
  (ensures_update fun _ _ => isHerd_set_members members).bind fun _ _ => .pure trivial

theorem ensures_archive (herd : Fields) : Ensures Sound (archive herd) fun _ => True :=
  (ensures_update fun _ _ => isHerd_set_members []).bind fun _ _ => .pure trivial

theorem ensures_notFound (user herdName : Value) :
    Ensures Sound (notFound user herdName) (Answer.IsProper names) :=
  (ensures_textOf _).bind fun _ _ => (ensures_textOf _).bind fun _ _ =>
    .pure (Answer.isProper_refusal _ _)

/-- A herd that may be changed, or a refusal. -/
theorem ensures_active (user name role : Value) :
    Ensures Sound (active user name role) fun found =>
      ∀ refusal, found = .error refusal → refusal.IsRefusal := by
  refine (ensures_herd? user name).bind fun found _ => ?_
  cases found with
  | none =>
    exact (ensures_textOf _).bind fun _ _ => (ensures_textOf _).bind fun _ _ =>
      (ensures_textOf _).bind fun _ _ => .pure fun _ h => Except.error.inj h ▸ ⟨_, rfl⟩
  | some herd =>
    dsimp only
    split
    · exact .pure nofun
    · exact (ensures_textOf _).bind fun _ _ => (ensures_textOf _).bind fun _ _ =>
        .pure fun _ h => Except.error.inj h ▸ ⟨_, rfl⟩

/-- A regrouping that fails is refused. -/
theorem ensures_reporting {act : Effect Store Answer} (h : Ensures Sound act
    (Answer.IsProper names))
    (action reason : String) :
    Ensures Sound (reporting action reason act) (Answer.IsProper names) := by
  refine h.attempt.bind fun outcome ho => ?_
  cases outcome with
  | ok answer => exact .pure (ho.1 answer rfl)
  | error fault => exact .pure (.inl ⟨reason, rfl⟩)

theorem ensures_create (user name description : Value) :
    Ensures Sound (create user name description) (Answer.IsProper ["herdName"]) := by
  refine (ensures_isBlankName name).bind fun blank hb => ?_
  cases blank with
  | true => exact .pure (Answer.isProper_refusal _ _)
  | false =>
    refine Ensures.bind (Q := fun _ => True)
      (ensures_transaction ((ensures_herd? user name).bind fun found _ => ?_)) fun taken _ => ?_
    · cases found with
      | some _ => exact .pure trivial
      | none => exact (ensures_insert (isHerd_document _ _ _)).bind fun _ _ => .pure trivial
    cases taken with
    | true =>
      exact (ensures_textOf _).bind fun _ _ => (ensures_textOf _).bind fun _ _ =>
        .pure (Answer.isProper_refusal _ _)
    | false =>
      obtain ⟨text, rfl⟩ := hb rfl
      exact .pure (Answer.isProper_fields (by decide) rfl)

theorem ensures_add (user herdName animal : Value) :
    Ensures Sound (add user herdName animal) (Answer.IsProper []) := by
  refine (ensures_active _ _ _).bind fun found hfound => ?_
  cases found with
  | error refusal => exact .pure (.inl (hfound refusal rfl))
  | ok herd =>
    dsimp only
    split
    · exact (ensures_textOf _).bind fun _ _ => (ensures_textOf _).bind fun _ _ =>
        .pure (Answer.isProper_refusal _ _)
    · exact (ensures_setMembers _ _).bind fun _ _ => .pure Answer.isProper_done

theorem ensures_remove (user herdName animal : Value) :
    Ensures Sound (remove user herdName animal) (Answer.IsProper []) := by
  refine (ensures_active _ _ _).bind fun found hfound => ?_
  cases found with
  | error refusal => exact .pure (.inl (hfound refusal rfl))
  | ok herd =>
    dsimp only
    split
    · exact (ensures_textOf _).bind fun _ _ => (ensures_textOf _).bind fun _ _ =>
        .pure (Answer.isProper_refusal _ _)
    · exact (ensures_setMembers _ _).bind fun _ _ => .pure Answer.isProper_done

theorem ensures_move (user sourceName targetName animal : Value) :
    Ensures Sound (move user sourceName targetName animal) (Answer.IsProper []) := by
  unfold move
  split
  · exact .pure (Answer.isProper_refusal _ _)
  refine (ensures_active _ _ _).bind fun found hfound => ?_
  cases found with
  | error refusal => exact .pure (.inl (hfound refusal rfl))
  | ok source =>
    refine (ensures_active _ _ _).bind fun found hfound => ?_
    cases found with
    | error refusal => exact .pure (.inl (hfound refusal rfl))
    | ok target =>
      dsimp only
      split
      · exact (ensures_textOf _).bind fun _ _ => (ensures_textOf _).bind fun _ _ =>
          .pure (Answer.isProper_refusal _ _)
      · exact ensures_reporting (ensures_transaction ((ensures_setMembers _ _).bind fun _ _ =>
          (ensures_setMembers _ _).bind fun _ _ => .pure Answer.isProper_done)) _ _

theorem ensures_merge (user keepName goneName : Value) :
    Ensures Sound (merge user keepName goneName) (Answer.IsProper []) := by
  unfold merge
  split
  · exact .pure (Answer.isProper_refusal _ _)
  refine ensures_reporting (ensures_transaction ((ensures_active _ _ _).bind
    fun found hfound => ?_)) _ _
  cases found with
  | error refusal => exact .pure (.inl (hfound refusal rfl))
  | ok keep =>
    refine (ensures_herd? _ _).bind fun gone _ => ?_
    cases gone with
    | none => exact ensures_notFound _ _
    | some gone =>
      dsimp only
      split
      · exact (ensures_textOf _).bind fun _ _ => .pure (Answer.isProper_refusal _ _)
      · exact (ensures_setMembers _ _).bind fun _ _ => (ensures_archive _).bind fun _ _ =>
          .pure Answer.isProper_done

theorem ensures_splitTarget (user targetName : Value) :
    Ensures Sound (splitTarget user targetName) fun found =>
      ∀ refusal, found = .error refusal → refusal.IsRefusal := by
  refine (ensures_herd? _ _).bind fun target _ => ?_
  cases target with
  | none => exact (ensures_insert (isHerd_document _ _ _)).bind fun _ _ => .pure nofun
  | some target =>
    dsimp only
    split
    · exact .pure nofun
    · exact (ensures_textOf _).bind fun _ _ =>
        .pure fun _ h => Except.error.inj h ▸ ⟨_, rfl⟩

theorem ensures_allTexts {P : Store → Prop} (values : List Value) :
    Ensures P (Effect.ofExcept (allTexts values)) fun _ => True := by
  refine .ofExcept (fun _ _ => trivial) fun fault hf => ?_
  induction values generalizing fault with
  | nil => exact nomatch hf
  | cons v vs ih =>
    cases v with
    | str s =>
      cases hvs : allTexts vs with
      | ok texts =>
        rw [allTexts, hvs] at hf
        exact nomatch hf
      | error other =>
        rw [allTexts, hvs] at hf
        exact ih fault (hvs.trans hf)
    | _ => exact .inl ⟨_, (Except.error.inj hf).symm⟩

theorem ensures_split (user sourceName targetName animals : Value) :
    Ensures Sound (split user sourceName targetName animals) (Answer.IsProper []) := by
  unfold split
  split
  · exact .pure (Answer.isProper_refusal _ _)
  split
  · exact .pure (Answer.isProper_refusal _ _)
  refine (ensures_active _ _ _).bind fun found hfound => ?_
  cases found with
  | error refusal => exact .pure (.inl (hfound refusal rfl))
  | ok source =>
    refine (ensures_misuse fun _ _ => trivial).bind fun moving (_ : True) => ?_
    dsimp only
    split
    · exact (ensures_allTexts _).bind fun _ _ => (ensures_textOf _).bind fun _ _ =>
        .pure (Answer.isProper_refusal _ _)
    refine ensures_reporting (ensures_transaction ((ensures_splitTarget _ _).bind
      fun found hfound => ?_)) _ _
    cases found with
    | error refusal => exact .pure (.inl (hfound refusal rfl))
    | ok target =>
      exact (ensures_misuse fun _ _ => trivial).bind fun _ (_ : True) =>
        (ensures_setMembers _ _).bind fun _ _ => (ensures_setMembers _ _).bind fun _ _ =>
          .pure Answer.isProper_done

theorem ensures_delete (user herdName : Value) :
    Ensures Sound (delete user herdName) (Answer.IsProper []) := by
  refine (ensures_herd? _ _).bind fun herd _ => ?_
  cases herd with
  | none => exact ensures_notFound _ _
  | some herd =>
    dsimp only
    split
    · exact (Store.ensures_delete _).bind fun _ _ => .pure Answer.isProper_done
    · exact (ensures_archive _).bind fun _ _ => .pure Answer.isProper_done

theorem ensures_restore (user herdName : Value) :
    Ensures Sound (restore user herdName) (Answer.IsProper []) := by
  refine (ensures_herd? _ _).bind fun herd _ => ?_
  cases herd with
  | none => exact ensures_notFound _ _
  | some herd =>
    dsimp only
    split
    · exact (ensures_textOf _).bind fun _ _ => .pure (Answer.isProper_refusal _ _)
    · exact (ensures_update fun _ h => h.set (by decide) _).bind fun _ _ =>
        .pure Answer.isProper_done

theorem ensures_members (user herdName : Value) :
    Ensures Sound (members user herdName) (Answer.IsProper ["animals"]) := by
  refine (ensures_herd? _ _).bind fun herd hherd => ?_
  cases herd with
  | none => exact ensures_notFound _ _
  | some herd =>
    refine .pure (Answer.isProper_fields (by decide) ?_)
    cases hm : Table.get? "members" herd with
    | none => rfl
    | some v => exact hherd herd rfl v hm

theorem ensures_list (user : Value) (archived : Bool) :
    Ensures Sound (list user archived) (Answer.IsProper ["herds"]) :=
  (ensures_find _).bind fun _ _ => .pure (Answer.isProper_fields (by decide) rfl)

end Herds

/-! ### Animals -/

namespace Animals

open Effect Store

/-- Nothing is asked of the documents of animals. -/
abbrev Sound (store : Store) : Prop := Holds (fun _ => True) store

variable {names : List String}

theorem ensures_owned? (user animal : Value) :
    Ensures Sound (owned? user animal) fun _ => True :=
  (ensures_findOne _).weaken fun _ _ => trivial

theorem ensures_notFound (user animal : Value) :
    Ensures Sound (notFound user animal) (Answer.IsProper names) :=
  (ensures_textOf _).bind fun _ _ => (ensures_textOf _).bind fun _ _ =>
    .pure (Answer.isProper_refusal _ _)

theorem ensures_invalid (what : String) (v : Value) (expected : List String) :
    Ensures Sound (invalid what v expected) (Answer.IsProper names) :=
  (ensures_textOf _).bind fun _ _ => .pure (Answer.isProper_refusal _ _)

theorem ensures_change (doc changes : Fields) :
    Ensures Sound (change doc changes) (Answer.IsProper []) :=
  (ensures_update fun _ _ => trivial).bind fun _ _ => .pure Answer.isProper_done

theorem ensures_register {user id species sex birthDate breed notes : Value}
    (hid : id.isNotApplicable = false) :
    Ensures Sound (register user id species sex birthDate breed notes)
      (Answer.IsProper ["animal"]) := by
  unfold register
  split
  · exact .pure (Answer.isProper_refusal _ _)
  split
  · exact .pure (Answer.isProper_refusal _ _)
  split
  · exact ensures_invalid _ _ _
  refine Ensures.bind (Q := fun _ => True)
    (ensures_transaction ((ensures_owned? user id).bind fun found _ => ?_)) fun taken _ => ?_
  · cases found with
    | some _ => exact .pure trivial
    | none => exact (ensures_insert fun _ => trivial).bind fun _ _ => .pure trivial
  cases taken with
  | true =>
    exact (ensures_textOf _).bind fun _ _ => (ensures_textOf _).bind fun _ _ =>
      .pure (Answer.isProper_refusal _ _)
  | false => exact .pure (Answer.isProper_fields (by decide) hid)

theorem ensures_setStatus (user animal status notes : Value) :
    Ensures Sound (setStatus user animal status notes) (Answer.IsProper []) := by
  unfold setStatus
  split
  · exact ensures_invalid _ _ _
  refine (ensures_owned? _ _).bind fun found _ => ?_
  cases found with
  | none => exact ensures_notFound _ _
  | some doc => exact ensures_change _ _

theorem ensures_edit (user animal species breed birthDate sex : Value) :
    Ensures Sound (edit user animal species breed birthDate sex) (Answer.IsProper []) := by
  unfold edit
  split
  · exact .pure (Answer.isProper_refusal _ _)
  split
  · exact ensures_invalid _ _ _
  refine (ensures_owned? _ _).bind fun found _ => ?_
  cases found with
  | none => exact ensures_notFound _ _
  | some doc => exact ensures_change _ _

theorem ensures_retire (departure : Departure) (user animal date remark : Value) :
    Ensures Sound (retire departure user animal date remark) (Answer.IsProper []) := by
  refine (ensures_textOf _).bind fun _ _ => (ensures_textOf _).bind fun _ _ =>
    (ensures_owned? _ _).bind fun found _ => ?_
  cases found with
  | none => exact ensures_notFound _ _
  | some doc =>
    dsimp only
    split
    · exact (ensures_textOf _).bind fun _ _ => (ensures_textOf _).bind fun _ _ =>
        (ensures_textOf _).bind fun _ _ => .pure (Answer.isProper_refusal _ _)
    · exact ensures_change _ _

theorem ensures_remove (user animal : Value) :
    Ensures Sound (remove user animal) (Answer.IsProper []) := by
  refine (ensures_owned? _ _).bind fun found _ => ?_
  cases found with
  | none => exact ensures_notFound _ _
  | some doc => exact (ensures_delete _).bind fun _ _ => .pure Answer.isProper_done

theorem ensures_present (user id : Value) :
    Ensures Sound (AnimalAction.run (.present user id)) (Answer.IsProper ["animal"]) := by
  refine (ensures_owned? _ _).bind fun found _ => ?_
  cases found with
  | none => exact ensures_notFound _ _
  | some doc => exact .pure (Answer.isProper_fields (by decide) rfl)

theorem ensures_presentAll (user : Value) :
    Ensures Sound (AnimalAction.run (.presentAll user)) (Answer.IsProper ["animals"]) :=
  (ensures_find _).bind fun _ _ => .pure (Answer.isProper_fields (by decide) rfl)

end Animals

/-! ### Accounts -/

namespace Accounts

open Effect Store

/-- What is stored of a user has a name, which is a text. -/
def IsUser (doc : Fields) : Prop := ∃ name, Table.get? "username" doc = some (.str name)

/-- The documents are those of users, and the sessions are those of somebody. -/
structure Sound (accounts : Accounts) : Prop where
  users : Holds IsUser accounts.users
  sessions : ∀ entry ∈ accounts.sessions, entry.2.isNotApplicable = false

variable {names : List String} {α : Type} {Q : α → Prop}

/-- What keeps the documents keeps the accounts. -/
theorem ensures_onUsers {act : Effect Store α} (h : Ensures (Holds IsUser) act Q) :
    Ensures Sound (onUsers act) Q :=
  h.focus (fun _ hs => hs.users) fun _ _ hs ht => ⟨ht, hs.sessions⟩

/-- What has no bytes is a misuse. -/
theorem isOrdinary_of_encodable {v : Value} {fault : Fault} (h : encodable v = .error fault) :
    fault.IsOrdinary := by
  cases v with
  | str s =>
    rw [encodable] at h
    split at h
    · exact nomatch h
    · exact .inl ⟨_, (Except.error.inj h).symm⟩
  | _ => exact .inl ⟨_, (Except.error.inj h).symm⟩

/-- So is a password that no key can be derived from. -/
theorem ensures_keyOf {P : Accounts → Prop} (derive : String → String → String)
    (password salt : Value) :
    Ensures P (Effect.ofExcept (keyOf derive password salt)) fun _ => True := by
  refine .ofExcept (fun _ _ => trivial) fun fault hf => ?_
  unfold keyOf at hf
  cases hp : encodable password with
  | error other =>
    rw [hp] at hf
    exact Except.error.inj hf ▸ isOrdinary_of_encodable hp
  | ok text =>
    rw [hp] at hf
    cases hs : encodable salt with
    | error other =>
      rw [hs] at hf
      exact Except.error.inj hf ▸ isOrdinary_of_encodable hs
    | ok text' =>
      rw [hs] at hf
      exact nomatch hf

/-- Who is found by a token is somebody. -/
theorem Sound.userOf {accounts : Accounts} (hs : accounts.Sound) {token user : Value}
    (h : Accounts.userOf token accounts = .ok (some user)) : user.isNotApplicable = false := by
  unfold Accounts.userOf at h
  split at h
  · obtain ⟨v, hv, hsome⟩ := Option.bind_eq_some_iff.mp (Except.ok.inj h)
    split at hsome
    · exact nomatch hsome
    · exact Option.some.inj hsome ▸ hs.sessions _ (Table.mem_of_get? hv)
  · split at h
    · exact nomatch h
    · exact nomatch h

/-- So is who is logged in with it. -/
theorem Sound.standing {accounts : Accounts} (hs : accounts.Sound) {token user : Value}
    (h : accounts.standing token = .ok (.ok user)) : user.isNotApplicable = false := by
  unfold Accounts.standing at h
  split at h
  · exact nomatch h
  · cases hu : Accounts.userOf token accounts with
    | error fault =>
      rw [hu] at h
      exact nomatch h
    | ok found =>
      rw [hu] at h
      cases found with
      | none => exact nomatch h
      | some other =>
        obtain rfl : other = user := Except.ok.inj (Except.ok.inj h)
        exact hs.userOf hu

/-- Looking a token up fails only as a misuse, and finds somebody. -/
theorem ensures_userOf {accounts : Accounts} (hs : accounts.Sound) (token : Value) :
    Ensures Sound (Effect.ofExcept (Accounts.userOf token accounts)) fun found =>
      ∀ user, found = some user → user.isNotApplicable = false := by
  refine .ofExcept (fun found hf user hu => hs.userOf (hu ▸ hf)) fun fault hf => ?_
  unfold Accounts.userOf at hf
  split at hf
  · exact nomatch hf
  · split at hf
    · exact nomatch hf
    · exact .inl ⟨_, (Except.error.inj hf).symm⟩

theorem ensures_register (derive : String → String → String) (username password : Value) :
    Ensures Sound (register derive username password) (Answer.IsProper ["user"]) := by
  refine (ensures_isBlankName username).bind fun blank hb => ?_
  cases blank with
  | true => exact .pure (Answer.isProper_refusal _ _)
  | false =>
    obtain ⟨text, rfl⟩ := hb rfl
    rw [if_neg Bool.false_ne_true]
    split
    · exact .pure (Answer.isProper_refusal _ _)
    refine (ensures_onUsers (ensures_findOne _)).bind fun found _ => ?_
    cases found with
    | some doc => exact (ensures_textOf _).bind fun _ _ => .pure (Answer.isProper_refusal _ _)
    | none =>
      exact Ensures.get.bind fun _ _ => (ensures_keyOf _ _ _).bind fun _ _ =>
        (ensures_onUsers (ensures_insert fun _ => ⟨text, rfl⟩)).bind fun _ _ =>
          .pure (Answer.isProper_fields (by decide) rfl)

/-- A user whose name is looked up has that name, so it is something. -/
theorem isNotApplicable_of_satisfies {doc : Fields} {name : Value} (h : IsUser doc)
    (hs : satisfies [("username", name)] doc = true) : name.isNotApplicable = false := by
  obtain ⟨text, ht⟩ := h
  cases name with
  | notApplicable => simp [satisfies, ht, Value.same, Value.sameAmount, Value.amount?] at hs
  | _ => rfl

theorem ensures_login (derive : String → String → String) (username password : Value) :
    Ensures Sound (login derive username password) (Answer.IsProper ["token"]) := by
  refine (ensures_onUsers (ensures_findOne _)).bind fun found hfound => ?_
  cases found with
  | none => exact .pure (Answer.isProper_refusal _ _)
  | some user =>
    refine (ensures_keyOf _ _ _).bind fun key _ => ?_
    split
    · exact .pure (Answer.isProper_refusal _ _)
    refine Ensures.get.bind fun accounts _ => (ensures_modify fun state hs => ?_).bind fun _ _ =>
      .pure (Answer.isProper_fields (by decide) rfl)
    refine ⟨hs.users, fun entry he => ?_⟩
    rcases Table.eq_or_mem_of_mem_set he with rfl | he
    · exact isNotApplicable_of_satisfies (hfound user rfl).1 (hfound user rfl).2
    · exact hs.sessions entry he

theorem ensures_verify (token : Value) :
    Ensures Sound (verify token) (Answer.IsProper ["user"]) := by
  unfold verify
  split
  · exact .pure (Answer.isProper_refusal _ _)
  refine Ensures.get.bind fun accounts hs => (ensures_userOf hs token).bind fun found hfound => ?_
  cases found with
  | none => exact .pure (Answer.isProper_refusal _ _)
  | some user => exact .pure (Answer.isProper_fields (by decide) (hfound user rfl))

theorem ensures_logout (token : Value) : Ensures Sound (logout token) (Answer.IsProper []) := by
  refine Ensures.get.bind fun accounts hs => ?_
  split
  · exact .pure (Answer.isProper_refusal _ _)
  refine Ensures.get.bind fun accounts hs => (ensures_userOf hs token).bind fun found _ => ?_
  cases token with
  | str text =>
    refine (ensures_modify fun state hs => ⟨hs.users, fun entry he =>
      hs.sessions entry (Table.mem_of_mem_erase he)⟩).bind fun _ _ => ?_
    cases found with
    | none => exact .pure (Answer.isProper_refusal _ _)
    | some user => exact .pure Answer.isProper_done
  | _ =>
    cases found with
    | none => exact .pure (Answer.isProper_refusal _ _)
    | some user => exact .pure Answer.isProper_done

end Accounts

/-! ### Calls -/

namespace Arguments

variable {α : Type} {args : Fields} {Q : α → Prop}

/-- Reading a call yields something with the property, or fails because of the arguments. -/
def IsReading (reading : Except Fault α) (Q : α → Prop) : Prop :=
  (∀ a, reading = .ok a → Q a) ∧ ∀ fault, reading = .error fault → fault.IsOrdinary

/-- What is read in the end. -/
theorem IsReading.pure {a : α} (h : Q a) : IsReading (Pure.pure a) Q :=
  ⟨fun _ ha => Except.ok.inj ha ▸ h, nofun⟩

/-- The parameters are checked first. -/
theorem IsReading.exactly {parameters : List String} {next : Unit → Except Fault α}
    (h : IsReading (next ()) Q) : IsReading (Arguments.exactly parameters args >>= next) Q := by
  unfold Arguments.exactly
  split
  · exact h
  · exact ⟨nofun, fun _ hf => .inl ⟨_, (Except.error.inj hf).symm⟩⟩

/-- A required argument is one of the arguments. -/
theorem IsReading.required {parameter : String} {next : Value → Except Fault α}
    (h : ∀ v, Table.get? parameter args = some v → IsReading (next v) Q) :
    IsReading (Arguments.required args parameter >>= next) Q := by
  unfold Arguments.required
  cases hv : Table.get? parameter args with
  | some v => exact h v hv
  | none => exact ⟨nofun, fun _ hf => .inl ⟨_, (Except.error.inj hf).symm⟩⟩

/-- The computation that a call stands for ensures what each action that may be read ensures. -/
theorem IsReading.ensures {σ β : Type} {P : σ → Prop} {R : β → Prop} {reading : Except Fault α}
    {act : α → Effect σ β} (h : IsReading reading Q) (hact : ∀ a, Q a → Effect.Ensures P (act a) R)
      :
    Effect.Ensures P (Effect.ofExcept reading >>= act) R :=
  (Effect.Ensures.ofExcept h.1 h.2).bind hact

end Arguments

open Effect Arguments

/-- The fields that a success of the action shows. -/
def HerdAction.shown? : HerdAction → Option (List String)
  | .create .. => some ["herdName"]
  | .members .. => some ["animals"]
  | .listActive _ | .listArchived _ => some ["herds"]
  | .lookUp .. | .lookUpActive .. => none
  | _ => some []

/-- The actions on herds that are asked for by routes, with what they show. -/
def HerdAction.offered : List (String × List String) :=
  [("createHerd", ["herdName"]), ("addAnimal", []), ("removeAnimal", []), ("moveAnimal", []),
    ("mergeHerds", []), ("splitHerd", []), ("deleteHerd", []), ("restoreHerd", []),
    ("_viewComposition", ["animals"]), ("_listActiveHerds", ["herds"]),
    ("_listArchivedHerds", ["herds"])]

/-- An action on herds answers as concepts do. -/
theorem HerdAction.ensures_run {action : HerdAction} {names : List String}
    (h : action.shown? = some names) : Ensures Herds.Sound action.run (Answer.IsProper names) := by
  cases action with
  | lookUp | lookUpActive => exact nomatch h
  | create => exact Option.some.inj h ▸ Herds.ensures_create _ _ _
  | add => exact Option.some.inj h ▸ Herds.ensures_add _ _ _
  | remove => exact Option.some.inj h ▸ Herds.ensures_remove _ _ _
  | move => exact Option.some.inj h ▸ Herds.ensures_move _ _ _ _
  | merge => exact Option.some.inj h ▸ Herds.ensures_merge _ _ _
  | split => exact Option.some.inj h ▸ Herds.ensures_split _ _ _ _
  | delete => exact Option.some.inj h ▸ Herds.ensures_delete _ _
  | restore => exact Option.some.inj h ▸ Herds.ensures_restore _ _
  | members => exact Option.some.inj h ▸ Herds.ensures_members _ _
  | listActive => exact Option.some.inj h ▸ Herds.ensures_list _ _
  | listArchived => exact Option.some.inj h ▸ Herds.ensures_list _ _

/-- Such an action can be called by its name. -/
theorem HerdAction.exists_reading {name : String} {names : List String}
    (h : (name, names) ∈ offered) (args : Fields) :
    ∃ reading, ofCall? name args = some reading ∧
      IsReading reading fun action => action.shown? = some names := by
  simp only [offered, List.mem_cons, Prod.mk.injEq, List.not_mem_nil, or_false] at h
  rcases h with ⟨rfl, rfl⟩ | ⟨rfl, rfl⟩ | ⟨rfl, rfl⟩ | ⟨rfl, rfl⟩ | ⟨rfl, rfl⟩ | ⟨rfl, rfl⟩ |
    ⟨rfl, rfl⟩ | ⟨rfl, rfl⟩ | ⟨rfl, rfl⟩ | ⟨rfl, rfl⟩ | ⟨rfl, rfl⟩
  · exact ⟨_, rfl, .exactly (.required fun _ _ => .required fun _ _ => .pure rfl)⟩
  · exact ⟨_, rfl, .exactly (.required fun _ _ => .required fun _ _ => .required fun _ _ =>
      .pure rfl)⟩
  · exact ⟨_, rfl, .exactly (.required fun _ _ => .required fun _ _ => .required fun _ _ =>
      .pure rfl)⟩
  · exact ⟨_, rfl, .exactly (.required fun _ _ => .required fun _ _ => .required fun _ _ =>
      .required fun _ _ => .pure rfl)⟩
  · exact ⟨_, rfl, .exactly (.required fun _ _ => .required fun _ _ => .required fun _ _ =>
      .pure rfl)⟩
  · exact ⟨_, rfl, .exactly (.required fun _ _ => .required fun _ _ => .required fun _ _ =>
      .required fun _ _ => .pure rfl)⟩
  · exact ⟨_, rfl, .exactly (.required fun _ _ => .required fun _ _ => .pure rfl)⟩
  · exact ⟨_, rfl, .exactly (.required fun _ _ => .required fun _ _ => .pure rfl)⟩
  · exact ⟨_, rfl, .exactly (.required fun _ _ => .required fun _ _ => .pure rfl)⟩
  · exact ⟨_, rfl, .exactly (.required fun _ _ => .pure rfl)⟩
  · exact ⟨_, rfl, .exactly (.required fun _ _ => .pure rfl)⟩

/-- The fields that a success of the action shows. -/
def AnimalAction.shown? : AnimalAction → Option (List String)
  | .register _ id .. => if id.isNotApplicable then none else some ["animal"]
  | .present .. => some ["animal"]
  | .presentAll _ => some ["animals"]
  | .lookUp .. => none
  | _ => some []

/-- The actions on animals that are asked for by routes, with what they show. -/
def AnimalAction.offered : List (String × List String) :=
  [("registerAnimal", ["animal"]), ("updateStatus", []), ("editDetails", []),
    ("markAsTransferred", []), ("markAsDeceased", []), ("markAsSold", []), ("removeAnimal", []),
    ("_getAnimal", ["animal"]), ("_getAllAnimals", ["animals"])]

/-- An action on animals answers as concepts do. -/
theorem AnimalAction.ensures_run {action : AnimalAction} {names : List String}
    (h : action.shown? = some names) : Ensures Animals.Sound action.run (Answer.IsProper names) :=
      by
  cases action with
  | lookUp => exact nomatch h
  | register user id =>
    rw [shown?] at h
    split at h
    · exact nomatch h
    · next hid => exact Option.some.inj h ▸ Animals.ensures_register (by simpa using hid)
  | setStatus => exact Option.some.inj h ▸ Animals.ensures_setStatus _ _ _ _
  | edit => exact Option.some.inj h ▸ Animals.ensures_edit _ _ _ _ _ _
  | retire => exact Option.some.inj h ▸ Animals.ensures_retire _ _ _ _ _
  | remove => exact Option.some.inj h ▸ Animals.ensures_remove _ _
  | present => exact Option.some.inj h ▸ Animals.ensures_present _ _
  | presentAll => exact Option.some.inj h ▸ Animals.ensures_presentAll _

/-- Such an action can be called by its name, with arguments none of which is the placeholder. -/
theorem AnimalAction.exists_reading {name : String} {names : List String} {args : Fields}
    (h : (name, names) ∈ offered)
    (hargs : ∀ entry ∈ args, entry.2.isNotApplicable = false) :
    ∃ reading, ofCall? name args = some reading ∧
      IsReading reading fun action => action.shown? = some names := by
  simp only [offered, List.mem_cons, Prod.mk.injEq, List.not_mem_nil, or_false] at h
  rcases h with ⟨rfl, rfl⟩ | ⟨rfl, rfl⟩ | ⟨rfl, rfl⟩ | ⟨rfl, rfl⟩ | ⟨rfl, rfl⟩ | ⟨rfl, rfl⟩ |
    ⟨rfl, rfl⟩ | ⟨rfl, rfl⟩ | ⟨rfl, rfl⟩
  · refine ⟨_, rfl, .exactly (.required fun _ _ => .required fun id hid => .required fun _ _ =>
      .required fun _ _ => .pure ?_)⟩
    rw [shown?, hargs _ (Table.mem_of_get? hid)]
    rfl
  · exact ⟨_, rfl, .exactly (.required fun _ _ => .required fun _ _ => .required fun _ _ =>
      .pure rfl)⟩
  · exact ⟨_, rfl, .exactly (.required fun _ _ => .required fun _ _ => .required fun _ _ =>
      .required fun _ _ => .required fun _ _ => .required fun _ _ => .pure rfl)⟩
  · exact ⟨_, rfl, .exactly (.required fun _ _ => .required fun _ _ => .required fun _ _ =>
      .pure rfl)⟩
  · exact ⟨_, rfl, .exactly (.required fun _ _ => .required fun _ _ => .required fun _ _ =>
      .pure rfl)⟩
  · exact ⟨_, rfl, .exactly (.required fun _ _ => .required fun _ _ => .required fun _ _ =>
      .pure rfl)⟩
  · exact ⟨_, rfl, .exactly (.required fun _ _ => .required fun _ _ => .pure rfl)⟩
  · exact ⟨_, rfl, .exactly (.required fun _ _ => .required fun _ _ => .pure rfl)⟩
  · exact ⟨_, rfl, .exactly (.required fun _ _ => .pure rfl)⟩

/-- The fields that a success of the action shows. -/
def AccountAction.shown? : AccountAction → Option (List String)
  | .register .. | .verify _ => some ["user"]
  | .login .. => some ["token"]
  | .logout _ => some []
  | .username _ | .deriveKey .. => none

/-- The actions on accounts that are asked for by routes, with what they show. -/
def AccountAction.offered : List (String × List String) :=
  [("register", ["user"]), ("login", ["token"]), ("verify", ["user"]), ("logout", [])]

/-- An action on accounts answers as concepts do. -/
theorem AccountAction.ensures_run {action : AccountAction} {names : List String}
    (derive : String → String → String) (h : action.shown? = some names) :
    Ensures Accounts.Sound (action.run derive) (Answer.IsProper names) := by
  cases action with
  | username | deriveKey => exact nomatch h
  | register => exact Option.some.inj h ▸ Accounts.ensures_register _ _ _
  | login => exact Option.some.inj h ▸ Accounts.ensures_login _ _ _
  | verify => exact Option.some.inj h ▸ Accounts.ensures_verify _
  | logout => exact Option.some.inj h ▸ Accounts.ensures_logout _

/-- Such an action can be called by its name. -/
theorem AccountAction.exists_reading {name : String} {names : List String}
    (h : (name, names) ∈ offered) (args : Fields) :
    ∃ reading, ofCall? name args = some reading ∧
      IsReading reading fun action => action.shown? = some names := by
  simp only [offered, List.mem_cons, Prod.mk.injEq, List.not_mem_nil, or_false] at h
  rcases h with ⟨rfl, rfl⟩ | ⟨rfl, rfl⟩ | ⟨rfl, rfl⟩ | ⟨rfl, rfl⟩
  · exact ⟨_, rfl, .exactly (.required fun _ _ => .required fun _ _ => .pure rfl)⟩
  · exact ⟨_, rfl, .exactly (.required fun _ _ => .required fun _ _ => .pure rfl)⟩
  · exact ⟨_, rfl, .exactly (.required fun _ _ => .pure rfl)⟩
  · exact ⟨_, rfl, .exactly (.required fun _ _ => .pure rfl)⟩

/-- Whatever is read of a call on herds, the herds are left as they should be. -/
theorem HerdAction.keeps (reading : Except Fault HerdAction) (store : Store)
    (hs : Herds.Sound store) :
    Herds.Sound ((Effect.ofExcept reading >>= HerdAction.run).run store).2 := by
  cases reading with
  | error fault => exact hs
  | ok action =>
    change Herds.Sound (action.run.run store).2
    cases action with
    | lookUp user herd =>
      exact ((Herds.ensures_herd? user herd).bind fun _ _ => .pure trivial :
        Ensures Herds.Sound (HerdAction.lookUp user herd).run fun _ => True) store hs |>.1
    | lookUpActive user herd role =>
      refine ((Herds.ensures_active user herd role).bind fun found _ => ?_ :
        Ensures Herds.Sound (HerdAction.lookUpActive user herd role).run fun _ => True) store hs
          |>.1
      cases found with
      | error refusal => exact .pure trivial
      | ok herd => exact .pure trivial
    | _ => exact (HerdAction.ensures_run rfl store hs).1

/-- Whatever is read of a call on accounts, the accounts are left as they should be. -/
theorem AccountAction.keeps (derive : String → String → String)
    (reading : Except Fault AccountAction) (accounts : Accounts) (hs : accounts.Sound) :
    ((Effect.ofExcept reading >>= AccountAction.run derive).run accounts).2.Sound := by
  cases reading with
  | error fault => exact hs
  | ok action =>
    change ((action.run derive).run accounts).2.Sound
    cases action with
    | username user =>
      refine ((Accounts.ensures_onUsers (Store.ensures_findOne _)).bind fun found _ => ?_ :
        Ensures Accounts.Sound (Accounts.nameOf user) fun _ => True) accounts hs |>.1
      cases found with
      | none => exact (ensures_textOf _).bind fun _ _ => .pure trivial
      | some doc => exact .pure trivial
    | deriveKey password salt =>
      exact ((Accounts.ensures_keyOf derive password salt).bind fun _ _ => .pure trivial :
        Ensures Accounts.Sound ((AccountAction.deriveKey password salt).run derive)
          fun _ => True) accounts hs |>.1
    | _ => exact (AccountAction.ensures_run derive rfl accounts hs).1

/-! ### Turns -/

namespace Concept

/-- The actions of a kind of concept that are asked for by routes, with what they show. -/
def Kind.offered : Kind → List (String × List String)
  | .requests => []
  | .accounts => AccountAction.offered
  | .herds => HerdAction.offered
  | .animals => AnimalAction.offered

/-- What the concept keeps is as its actions leave it. -/
def Sound : Concept → Prop
  | .requests _ => True
  | .accounts state => state.Sound
  | .herds store => Herds.Sound store
  | .animals store => Animals.Sound store

/-- The actions that routes ask for are answered as concepts do. -/
theorem exists_turn (concept : Concept) (name : String) (names : List String) (args : Fields)
    (hs : concept.Sound) (h : (name, names) ∈ concept.kind.offered)
    (hargs : ∀ entry ∈ args, entry.2.isNotApplicable = false) (issued : Issued) :
    ∃ turn, concept.answer? name args issued = some turn ∧ turn.IsProper names := by
  cases concept with
  | requests state => exact nomatch h
  | accounts state =>
    obtain ⟨reading, hr, hreading⟩ := AccountAction.exists_reading h args
    have hends := (hreading.ensures fun _ => AccountAction.ensures_run KeyDerivation.deriveHex)
      { state with
        users := { state.users with issued := issued.documents }
        tokens := issued.tokens } ⟨hs.users, hs.sessions⟩
    exact ⟨_, by rw [answer?, hr]; rfl, Turn.isProper_of_outcome hends.2.1 hends.2.2⟩
  | herds store =>
    obtain ⟨reading, hr, hreading⟩ := HerdAction.exists_reading h args
    have hends := (hreading.ensures fun _ => HerdAction.ensures_run)
      { store with issued := issued.documents } hs
    exact ⟨_, by rw [answer?, hr]; rfl, Turn.isProper_of_outcome hends.2.1 hends.2.2⟩
  | animals store =>
    obtain ⟨reading, hr, hreading⟩ := AnimalAction.exists_reading h hargs
    have hends := (hreading.ensures fun _ => AnimalAction.ensures_run)
      { store with issued := issued.documents } hs
    exact ⟨_, by rw [answer?, hr]; rfl, Turn.isProper_of_outcome hends.2.1 hends.2.2⟩

/-- So a call of such an action is answered, when it is made. -/
theorem isProper_of_answer? {concept : Concept} {name : String} {names : List String}
    {args : Fields} {issued : Issued} {turn : Turn} (hs : concept.Sound)
    (h : (name, names) ∈ concept.kind.offered)
    (hargs : ∀ entry ∈ args, entry.2.isNotApplicable = false)
    (ht : concept.answer? name args issued = some turn) : turn.IsProper names := by
  obtain ⟨turn', ht', hproper⟩ := exists_turn concept name names args hs h hargs issued
  exact Option.some.inj (ht'.symm.trans ht) ▸ hproper

/-- Every call of a concept leaves it as its actions do. -/
theorem Sound.turn {concept : Concept} (hs : concept.Sound) {action : String} {args : Fields}
    {issued : Issued} {turn : Turn} (h : concept.answer? action args issued = some turn) :
    turn.concept.Sound := by
  cases concept with
  | requests state =>
    obtain ⟨reading, -, rfl⟩ := Option.map_eq_some_iff.mp h
    trivial
  | accounts state =>
    obtain ⟨reading, -, rfl⟩ := Option.map_eq_some_iff.mp h
    exact AccountAction.keeps KeyDerivation.deriveHex reading
      { state with
        users := { state.users with issued := issued.documents }
        tokens := issued.tokens } ⟨hs.users, hs.sessions⟩
  | herds store =>
    obtain ⟨reading, -, rfl⟩ := Option.map_eq_some_iff.mp h
    exact HerdAction.keeps reading { store with issued := issued.documents } hs
  | animals store =>
    obtain ⟨reading, -, rfl⟩ := Option.map_eq_some_iff.mp h
    exact fun _ _ => trivial

end Concept

end HerdBook
