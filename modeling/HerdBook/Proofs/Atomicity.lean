import HerdBook.Proofs.Histories
import HerdBook.Proofs.Tables

/-!
# Actions are all-or-nothing

An action of the herds, of the animals or of the accounts that refuses, or that ends in a fault,
leaves the documents and the sessions as they were. This is so whatever it is asked with, and
whichever operations of the store are ordered to fail, at whichever of their calls.

Most actions write once, and their last step does it. Those that write twice do so in a transaction,
and refuse in it before they write.

* `Effect.Undoes`: a computation that comes to nothing has changed nothing.
* `Effect.Prudent`: what is asked of the inside of a transaction, whose faults do not matter.

## Main results

* `Store.undoes_transaction`: a transaction is all-or-nothing when it is prudent.
* `HerdAction.undoes_run`, `AnimalAction.undoes_run`, `AccountAction.undone_run`: so is every action.
* `Concept.answer_undone`: so is every call of a concept, whatever the orders to fail are.
-/

namespace HerdBook

namespace Effect

variable {σ τ κ α β : Type}

/-- What is kept of the state is the same afterwards. -/
def Retains (kept : σ → κ) (s s' : σ) : Prop := kept s' = kept s

instance (kept : σ → κ) : IsPreorder σ (Retains kept) where
  refl _ := rfl
  trans _ _ _ h h' := h'.trans h

/-- If the run has ended in a fault, or in a result that counts as bad, what is kept of the state is
the same as before. -/
def Undone (kept : σ → κ) (bad : α → Prop) (s : σ) (run : Except Fault α × σ) : Prop :=
  (∀ fault, run.1 = .error fault → kept run.2 = kept s) ∧
    ∀ a, run.1 = .ok a → bad a → kept run.2 = kept s

/-- The computation is all-or-nothing: each of its runs that comes to nothing changes nothing. -/
def Undoes (kept : σ → κ) (act : Effect σ α) (bad : α → Prop) : Prop :=
  ∀ s, Undone kept bad s (act.run s)

/-- When the computation ends in a bad result, what is kept of the state is the same as before. -/
def Prudent (kept : σ → κ) (act : Effect σ α) (bad : α → Prop) : Prop :=
  ∀ s a, (act.run s).1 = .ok a → bad a → kept (act.run s).2 = kept s

/-- The computation never ends in a bad result. -/
def Never (act : Effect σ α) (bad : α → Prop) : Prop :=
  ∀ s a, (act.run s).1 = .ok a → ¬bad a

section

variable {kept : σ → κ} {act : Effect σ α} {next : α → Effect σ β} {bad : β → Prop}

/-- What is read changes nothing. -/
theorem retains_get : Moves (Retains kept) (MonadState.get : Effect σ σ) := fun _ => rfl

/-- What changes nothing is all-or-nothing. -/
theorem Undoes.of_retains {bad : α → Prop} (h : Moves (Retains kept) act) :
    Undoes kept act bad := fun s => ⟨fun _ _ => h s, fun _ _ _ => h s⟩

/-- What comes after a computation that changes nothing is what counts. -/
theorem Undoes.after (h : Moves (Retains kept) act) (hn : ∀ a, Undoes kept (next a) bad) :
    Undoes kept (act >>= next) bad := by
  intro s
  have hs : kept (act.run s).2 = kept s := h s
  rw [run_bind]
  rcases hrun : act.run s with ⟨fault | a, t⟩ <;> rw [hrun] at hs
  · exact ⟨fun _ _ => hs, nofun⟩
  · obtain ⟨herror, hok⟩ := hn a t
    exact ⟨fun fault hf => (herror fault hf).trans hs, fun b hb hbad => (hok b hb hbad).trans hs⟩

/-- A computation that is all-or-nothing may be the last one that changes anything: where it came to
nothing, the rest is all-or-nothing, and where it did not, the rest yields what is not bad. -/
theorem Undoes.last {N : α → Prop} (h : Undoes kept act N)
    (hbad : ∀ a, N a → Undoes kept (next a) bad)
    (hgood : ∀ a, ¬N a → ∃ b, next a = pure b ∧ ¬bad b) : Undoes kept (act >>= next) bad := by
  intro s
  obtain ⟨herror, hok⟩ := h s
  rw [run_bind]
  rcases hrun : act.run s with ⟨fault | a, t⟩ <;> rw [hrun] at herror hok
  · exact ⟨fun _ _ => herror fault rfl, nofun⟩
  · by_cases hnothing : N a
    · obtain ⟨herror', hok'⟩ := hbad a hnothing t
      have hs : kept t = kept s := hok a rfl hnothing
      exact ⟨fun fault hf => (herror' fault hf).trans hs,
        fun b hb hb' => (hok' b hb hb').trans hs⟩
    · obtain ⟨b, hnext, hb⟩ := hgood a hnothing
      dsimp only
      rw [hnext]
      exact ⟨nofun, fun c hc hc' => absurd (Except.ok.inj hc ▸ hc') hb⟩

/-- So it is when nothing was done because a condition held. -/
theorem Undoes.unless {act : Effect σ Bool} {next : Bool → Effect σ β}
    (h : Undoes kept act fun held => held = true) (htrue : Moves (Retains kept) (next true))
    (hfalse : ∃ b, next false = pure b ∧ ¬bad b) : Undoes kept (act >>= next) bad := by
  refine h.last (fun held hheld => hheld ▸ .of_retains htrue) fun held hheld => ?_
  obtain rfl : held = false := by simpa using hheld
  exact hfalse

/-- After a step that is all-or-nothing, a result that is not bad. -/
theorem Undoes.finally {b : β} (h : Undoes kept act fun _ => False) (hb : ¬bad b) :
    Undoes kept (act >>= fun _ => pure b) bad :=
  h.last (fun _ hn => hn.elim) fun _ _ => ⟨b, rfl, hb⟩

/-- What yields no fault and no bad result may do as it likes. -/
theorem Undoes.of_sure {bad : α → Prop} (h : ∀ s, ∃ a, (act.run s).1 = .ok a ∧ ¬bad a) :
    Undoes kept act bad := by
  intro s
  obtain ⟨a, ha, hbad⟩ := h s
  rw [Undone, ha]
  exact ⟨nofun, fun b hb hb' => absurd (Except.ok.inj hb ▸ hb') hbad⟩

/-- What changes nothing is prudent. -/
theorem Prudent.of_retains {bad : α → Prop} (h : Moves (Retains kept) act) :
    Prudent kept act bad := fun s _ _ _ => h s

/-- What never ends badly is prudent. -/
theorem Prudent.of_never {bad : α → Prop} (h : Never act bad) : Prudent kept act bad :=
  fun s a ha hbad => absurd hbad (h s a ha)

/-- What comes after a computation that changes nothing is what counts. -/
theorem Prudent.after (h : Moves (Retains kept) act) (hn : ∀ a, Prudent kept (next a) bad) :
    Prudent kept (act >>= next) bad := by
  intro s b hb hbad
  have hs : kept (act.run s).2 = kept s := h s
  rw [run_bind] at hb ⊢
  rcases hrun : act.run s with ⟨fault | a, t⟩ <;> rw [hrun] at hs hb
  · exact nomatch hb
  · exact (hn a t b hb hbad).trans hs

/-- A result that is not bad. -/
theorem Never.pure {b : β} (hb : ¬bad b) : Never (Pure.pure b : Effect σ β) bad :=
  fun _ _ hc hbad => hb (Except.ok.inj hc ▸ hbad)

/-- The end of a sequence counts. -/
theorem Never.after (act : Effect σ α) (hn : ∀ a, Never (next a) bad) : Never (act >>= next) bad := by
  intro s b hb
  rw [run_bind] at hb
  rcases hrun : act.run s with ⟨fault | a, t⟩ <;> rw [hrun] at hb
  · exact nomatch hb
  · exact hn a t b hb

/-- A prudent computation goes on prudently: where it came to nothing, the rest changes nothing, and
where it did not, the rest never ends badly. -/
theorem Prudent.bind {nothing : α → Prop} (h : Prudent kept act nothing)
    (hbad : ∀ a, nothing a → Moves (Retains kept) (next a))
    (hgood : ∀ a, ¬nothing a → Never (next a) bad) : Prudent kept (act >>= next) bad := by
  intro s b hb hbad'
  have hs := h s
  rw [run_bind] at hb ⊢
  rcases hrun : act.run s with ⟨fault | a, t⟩ <;> rw [hrun] at hs hb
  · exact nomatch hb
  · by_cases hnothing : nothing a
    · exact (hbad a hnothing t).trans (hs a rfl hnothing)
    · exact absurd hbad' (hgood a hnothing t b hb)

/-- A part of the state that changes nothing changes nothing of the whole. -/
theorem retains_focus {κ' : Type} {kept' : τ → κ'} {get : σ → τ} {put : τ → σ → σ}
    {act : Effect τ α} (h : Moves (Retains kept') act)
    (hput : ∀ s t, kept' t = kept' (get s) → kept (put t s) = kept s) :
    Moves (Retains kept) (Effect.focus get put act) := fun s => hput s _ (h (get s))

/-- What is all-or-nothing on a part of the state is so on the whole. -/
theorem Undoes.focus {κ' : Type} {kept' : τ → κ'} {get : σ → τ} {put : τ → σ → σ}
    {act : Effect τ α} {bad : α → Prop} (h : Undoes kept' act bad)
    (hput : ∀ s t, kept' t = kept' (get s) → kept (put t s) = kept s) :
    Undoes kept (Effect.focus get put act) bad := fun s =>
  ⟨fun fault hf => hput s _ ((h (get s)).1 fault hf),
    fun a ha hbad => hput s _ ((h (get s)).2 a ha hbad)⟩

end

end Effect

open Effect

/-! ### Stores -/

namespace Store

variable {α : Type}

/-- A call of an operation changes no document. -/
theorem retains_enter (op : Operation) : Moves (Retains Store.docs) (enter op) := by
  intro store
  unfold enter
  rw [run_ofStep]
  split <;> rfl

/-- Nor does looking for documents. -/
theorem retains_find (criteria : Fields) : Moves (Retains Store.docs) (find criteria) :=
  .bind (retains_enter .find) fun _ => .bind retains_get fun _ => .pure _

/-- Nor does looking for the first one. -/
theorem retains_findOne (criteria : Fields) : Moves (Retains Store.docs) (findOne criteria) :=
  .bind (retains_enter .findOne) fun _ => .bind (retains_find criteria) fun _ => .pure _

/-- An insertion that fails changes nothing. -/
theorem undoes_insert (doc : Fields) : Undoes Store.docs (insert doc) fun _ => False := by
  refine .after (retains_enter .insert) fun _ => .after (fun _ => rfl) fun id => ?_
  refine .after (.ofExcept _) fun copied => .of_sure fun _ => ⟨id, rfl, not_false⟩

/-- Nor does an update that fails. -/
theorem undoes_update (id : String) (changes : Fields) :
    Undoes Store.docs (update id changes) fun _ => False := by
  refine .after (retains_enter .update) fun _ => .after retains_get fun store => ?_
  split
  · exact .of_retains (.pure _)
  · exact .after (.ofExcept _) fun copied => .of_sure fun _ => ⟨true, rfl, not_false⟩

/-- Nor does a deletion that fails. -/
theorem undoes_delete (id : String) : Undoes Store.docs (delete id) fun _ => False :=
  .after (retains_enter .delete) fun _ => .after retains_get fun _ =>
    .of_sure fun _ => ⟨_, rfl, not_false⟩

/-- A transaction is all-or-nothing when bad results come before anything is changed. -/
theorem undoes_transaction {act : Effect Store α} {bad : α → Prop}
    (h : Prudent Store.docs act bad) : Undoes Store.docs (transaction act) bad := by
  refine .after (retains_enter .transaction) fun _ store => ?_
  rw [run_bind_ok (run_get store), run_bind_ok (run_attempt act store)]
  rcases hrun : act.run store with ⟨fault | a, store'⟩
  · exact ⟨fun _ _ => rfl, nofun⟩
  · refine ⟨nofun, fun b hb hbad => ?_⟩
    obtain rfl : a = b := Except.ok.inj hb
    have hkept := h store a (by rw [hrun]) hbad
    rwa [hrun] at hkept

end Store

/-! ### Answers -/

/-- The answer is bad news: it carries an error. -/
def Answer.Refuses (answer : Answer) : Prop := answer.refuses = true

/-- Success is not. -/
theorem Answer.not_refuses_done : ¬Answer.done.Refuses := Bool.false_ne_true

/-- Nor are fields that are no error. -/
theorem Answer.not_refuses_fields {name : String} (hn : name ≠ "error") (v : Value) :
    ¬(Answer.fields [(name, v)]).Refuses := by
  simp [Answer.Refuses, Answer.refuses, Answer.fields, Table.has, Table.get?, hn]

/-- A text in an answer changes nothing. -/
theorem retains_textOf {σ κ : Type} {kept : σ → κ} (v : Value) :
    Moves (Retains kept) (textOf v) := .ofExcept _

/-- Nor do two of them. -/
theorem retains_texts {σ κ α : Type} {kept : σ → κ} (v w : Value) (result : String → String → α) :
    Moves (Retains kept) (do return result (← textOf v) (← textOf w)) :=
  .bind (retains_textOf v) fun _ => .bind (retains_textOf w) fun _ => .pure _

/-! ### Herds -/

namespace Herds

open Store

theorem retains_herd? (user name : Value) : Moves (Retains Store.docs) (herd? user name) :=
  retains_findOne _

theorem retains_notFound (user herdName : Value) :
    Moves (Retains Store.docs) (notFound user herdName) :=
  retains_texts _ _ _

theorem retains_active (user name role : Value) :
    Moves (Retains Store.docs) (active user name role) := by
  refine .bind (retains_herd? user name) fun found => ?_
  cases found with
  | none => exact .bind (retains_textOf _) fun _ => retains_texts _ _ _
  | some herd =>
    dsimp only
    split
    · exact .pure _
    · exact retains_texts _ _ _

theorem undoes_setMembers (herd : Fields) (members : List Value) :
    Undoes Store.docs (setMembers herd members) fun _ => False :=
  (undoes_update _ _).finally not_false

theorem undoes_archive (herd : Fields) : Undoes Store.docs (archive herd) fun _ => False :=
  (undoes_update _ _).finally not_false

/-- A regrouping that fails is refused, and has changed nothing. -/
theorem undoes_reporting {act : Effect Store Answer} (h : Undoes Store.docs act Answer.Refuses)
    (action reason : String) :
    Undoes Store.docs (reporting action reason act) Answer.Refuses := by
  intro store
  obtain ⟨herror, hok⟩ := h store
  unfold reporting
  rw [run_bind_ok (run_attempt act store)]
  rcases hrun : act.run store with ⟨fault | a, store'⟩ <;> rw [hrun] at herror hok
  · exact ⟨nofun, fun _ _ _ => herror fault rfl⟩
  · exact ⟨nofun, fun b hb hbad => hok b hb hbad⟩

theorem undoes_create (user name description : Value) :
    Undoes Store.docs (create user name description) Answer.Refuses := by
  refine .after (.ofExcept _) fun blank => ?_
  cases blank with
  | true => exact .of_retains (.pure _)
  | false =>
    refine .unless (undoes_transaction (.after (retains_herd? user name) fun found => ?_))
      (retains_texts _ _ _) ⟨_, rfl, Answer.not_refuses_fields (by decide) name⟩
    cases found with
    | some herd => exact .of_retains (.pure _)
    | none => exact .of_never (.after _ fun _ => .pure (by simp))

theorem undoes_add (user herdName animal : Value) :
    Undoes Store.docs (add user herdName animal) Answer.Refuses := by
  refine .after (retains_active _ _ _) fun found => ?_
  cases found with
  | error refusal => exact .of_retains (.pure _)
  | ok herd =>
    dsimp only
    split
    · exact .of_retains (retains_texts _ _ _)
    · exact (undoes_setMembers _ _).finally Answer.not_refuses_done

theorem undoes_remove (user herdName animal : Value) :
    Undoes Store.docs (remove user herdName animal) Answer.Refuses := by
  refine .after (retains_active _ _ _) fun found => ?_
  cases found with
  | error refusal => exact .of_retains (.pure _)
  | ok herd =>
    dsimp only
    split
    · exact .of_retains (retains_texts _ _ _)
    · exact (undoes_setMembers _ _).finally Answer.not_refuses_done

theorem undoes_move (user sourceName targetName animal : Value) :
    Undoes Store.docs (move user sourceName targetName animal) Answer.Refuses := by
  unfold move
  split
  · exact .of_retains (.pure _)
  refine .after (retains_active _ _ _) fun found => ?_
  cases found with
  | error refusal => exact .of_retains (.pure _)
  | ok source =>
    refine .after (retains_active _ _ _) fun found => ?_
    cases found with
    | error refusal => exact .of_retains (.pure _)
    | ok target =>
      dsimp only
      split
      · exact .of_retains (retains_texts _ _ _)
      · exact undoes_reporting (undoes_transaction (.of_never
          (.after _ fun _ => .after _ fun _ => .pure Answer.not_refuses_done))) _ _

theorem undoes_merge (user keepName goneName : Value) :
    Undoes Store.docs (merge user keepName goneName) Answer.Refuses := by
  unfold merge
  split
  · exact .of_retains (.pure _)
  refine undoes_reporting (undoes_transaction (.after (retains_active _ _ _) fun found => ?_)) _ _
  cases found with
  | error refusal => exact .of_retains (.pure _)
  | ok keep =>
    refine .after (retains_herd? _ _) fun gone => ?_
    cases gone with
    | none => exact .of_retains (retains_notFound _ _)
    | some gone =>
      dsimp only
      split
      · exact .of_retains (.bind (retains_textOf _) fun _ => .pure _)
      · exact .of_never (.after _ fun _ => .after _ fun _ => .pure Answer.not_refuses_done)

/-- What is split off goes into a herd that is there, or the herd is inserted first. -/
theorem prudent_splitTarget (user targetName : Value) :
    Prudent Store.docs (splitTarget user targetName) fun found =>
      ∃ refusal, found = .error refusal := by
  refine .after (retains_herd? _ _) fun found => ?_
  cases found with
  | none => exact .of_never (.after _ fun _ => .pure (by simp))
  | some target =>
    dsimp only
    split
    · exact .of_retains (.pure _)
    · exact .of_retains (.bind (retains_textOf _) fun _ => .pure _)

theorem undoes_split (user sourceName targetName animals : Value) :
    Undoes Store.docs (split user sourceName targetName animals) Answer.Refuses := by
  unfold split
  split
  · exact .of_retains (.pure _)
  split
  · exact .of_retains (.pure _)
  refine .after (retains_active _ _ _) fun found => ?_
  cases found with
  | error refusal => exact .of_retains (.pure _)
  | ok source =>
    refine .after (.ofExcept _) fun moving => ?_
    dsimp only
    split
    · exact .of_retains (.bind (.ofExcept _) fun _ => .bind (retains_textOf _) fun _ => .pure _)
    refine undoes_reporting (undoes_transaction (.bind (prudent_splitTarget _ _) ?_ ?_)) _ _
    · rintro found ⟨refusal, rfl⟩
      exact .pure _
    · intro found hfound
      cases found with
      | error refusal => exact absurd ⟨refusal, rfl⟩ hfound
      | ok target =>
        exact .after _ fun _ => .after _ fun _ => .after _ fun _ => .pure Answer.not_refuses_done

theorem undoes_delete (user herdName : Value) :
    Undoes Store.docs (delete user herdName) Answer.Refuses := by
  refine .after (retains_herd? _ _) fun found => ?_
  cases found with
  | none => exact .of_retains (retains_notFound _ _)
  | some herd =>
    dsimp only
    split
    · exact (Store.undoes_delete _).finally Answer.not_refuses_done
    · exact (undoes_archive _).finally Answer.not_refuses_done

theorem undoes_restore (user herdName : Value) :
    Undoes Store.docs (restore user herdName) Answer.Refuses := by
  refine .after (retains_herd? _ _) fun found => ?_
  cases found with
  | none => exact .of_retains (retains_notFound _ _)
  | some herd =>
    dsimp only
    split
    · exact .of_retains (.bind (retains_textOf _) fun _ => .pure _)
    · exact (undoes_update _ _).finally Answer.not_refuses_done

theorem retains_members (user herdName : Value) :
    Moves (Retains Store.docs) (members user herdName) := by
  refine .bind (retains_herd? _ _) fun found => ?_
  cases found with
  | none => exact retains_notFound _ _
  | some herd => exact .pure _

theorem retains_list (user : Value) (archived : Bool) :
    Moves (Retains Store.docs) (list user archived) :=
  .bind (retains_find _) fun _ => .pure _

theorem retains_lookUp (user herd : Value) :
    Moves (Retains Store.docs) (HerdAction.lookUp user herd).run :=
  .bind (retains_herd? _ _) fun _ => .pure _

theorem retains_lookUpActive (user herd role : Value) :
    Moves (Retains Store.docs) (HerdAction.lookUpActive user herd role).run := by
  refine .bind (retains_active _ _ _) fun found => ?_
  cases found with
  | error refusal => exact .pure _
  | ok herd => exact .pure _

end Herds

/-- Every action on herds is all-or-nothing. -/
theorem HerdAction.undoes_run (action : HerdAction) :
    Undoes Store.docs action.run Answer.Refuses := by
  cases action with
  | create => exact Herds.undoes_create _ _ _
  | add => exact Herds.undoes_add _ _ _
  | remove => exact Herds.undoes_remove _ _ _
  | move => exact Herds.undoes_move _ _ _ _
  | merge => exact Herds.undoes_merge _ _ _
  | split => exact Herds.undoes_split _ _ _ _
  | delete => exact Herds.undoes_delete _ _
  | restore => exact Herds.undoes_restore _ _
  | members => exact .of_retains (Herds.retains_members _ _)
  | listActive => exact .of_retains (Herds.retains_list _ _)
  | listArchived => exact .of_retains (Herds.retains_list _ _)
  | lookUp => exact .of_retains (Herds.retains_lookUp _ _)
  | lookUpActive => exact .of_retains (Herds.retains_lookUpActive _ _ _)

/-! ### Animals -/

namespace Animals

open Store

theorem retains_owned? (user animal : Value) : Moves (Retains Store.docs) (owned? user animal) :=
  retains_findOne _

theorem retains_notFound (user animal : Value) :
    Moves (Retains Store.docs) (notFound user animal) :=
  retains_texts _ _ _

theorem retains_invalid (what : String) (v : Value) (expected : List String) :
    Moves (Retains Store.docs) (invalid what v expected) :=
  .bind (retains_textOf _) fun _ => .pure _

theorem undoes_change (doc changes : Fields) :
    Undoes Store.docs (change doc changes) Answer.Refuses :=
  (undoes_update _ _).finally Answer.not_refuses_done

theorem undoes_register (user id species sex birthDate breed notes : Value) :
    Undoes Store.docs (register user id species sex birthDate breed notes) Answer.Refuses := by
  unfold register
  split
  · exact .of_retains (.pure _)
  split
  · exact .of_retains (.pure _)
  split
  · exact .of_retains (retains_invalid _ _ _)
  refine .unless (undoes_transaction (.after (retains_owned? user id) fun found => ?_))
    (retains_texts _ _ _) ⟨_, rfl, Answer.not_refuses_fields (by decide) id⟩
  cases found with
  | some doc => exact .of_retains (.pure _)
  | none => exact .of_never (.after _ fun _ => .pure (by simp))

theorem undoes_setStatus (user animal status notes : Value) :
    Undoes Store.docs (setStatus user animal status notes) Answer.Refuses := by
  unfold setStatus
  split
  · exact .of_retains (retains_invalid _ _ _)
  refine .after (retains_owned? _ _) fun found => ?_
  cases found with
  | none => exact .of_retains (retains_notFound _ _)
  | some doc => exact undoes_change _ _

theorem undoes_edit (user animal species breed birthDate sex : Value) :
    Undoes Store.docs (edit user animal species breed birthDate sex) Answer.Refuses := by
  unfold edit
  split
  · exact .of_retains (.pure _)
  split
  · exact .of_retains (retains_invalid _ _ _)
  refine .after (retains_owned? _ _) fun found => ?_
  cases found with
  | none => exact .of_retains (retains_notFound _ _)
  | some doc => exact undoes_change _ _

theorem undoes_retire (departure : Departure) (user animal date remark : Value) :
    Undoes Store.docs (retire departure user animal date remark) Answer.Refuses := by
  refine .after (retains_textOf _) fun _ => .after (retains_textOf _) fun _ =>
    .after (retains_owned? _ _) fun found => ?_
  cases found with
  | none => exact .of_retains (retains_notFound _ _)
  | some doc =>
    dsimp only
    split
    · exact .of_retains (.bind (retains_textOf _) fun _ => retains_texts _ _ _)
    · exact undoes_change _ _

theorem undoes_remove (user animal : Value) :
    Undoes Store.docs (remove user animal) Answer.Refuses := by
  refine .after (retains_owned? _ _) fun found => ?_
  cases found with
  | none => exact .of_retains (retains_notFound _ _)
  | some doc => exact (undoes_delete _).finally Answer.not_refuses_done

theorem retains_present (user id : Value) :
    Moves (Retains Store.docs) (AnimalAction.run (.present user id)) := by
  refine .bind (retains_owned? _ _) fun found => ?_
  cases found with
  | none => exact retains_notFound _ _
  | some doc => exact .pure _

end Animals

/-- Every action on animals is all-or-nothing. -/
theorem AnimalAction.undoes_run (action : AnimalAction) :
    Undoes Store.docs action.run Answer.Refuses := by
  cases action with
  | register => exact Animals.undoes_register _ _ _ _ _ _ _
  | setStatus => exact Animals.undoes_setStatus _ _ _ _
  | edit => exact Animals.undoes_edit _ _ _ _ _ _
  | retire => exact Animals.undoes_retire _ _ _ _ _
  | remove => exact Animals.undoes_remove _ _
  | present => exact .of_retains (Animals.retains_present _ _)
  | presentAll => exact .of_retains (.bind (Store.retains_find _) fun _ => .pure _)
  | lookUp => exact .of_retains (.bind (Animals.retains_owned? _ _) fun _ => .pure _)

/-! ### Accounts -/

namespace Accounts

/-- What the accounts keep: the documents of the users, and the sessions. -/
def kept (accounts : Accounts) : Documents × List (String × Value) :=
  (accounts.users.docs, accounts.sessions)

/-- Everybody who has a session is somebody. -/
def Attended (accounts : Accounts) : Prop :=
  ∀ entry ∈ accounts.sessions, entry.2.isNull = false

variable {α : Type} {act : Effect Store α}

theorem retains_onUsers (h : Moves (Retains Store.docs) act) :
    Moves (Retains kept) (onUsers act) :=
  retains_focus h fun s _ ht => congrArg (·, s.sessions) ht

theorem undoes_onUsers {bad : α → Prop} (h : Undoes Store.docs act bad) :
    Undoes kept (onUsers act) bad :=
  h.focus fun s _ ht => congrArg (·, s.sessions) ht

theorem undoes_register (derive : String → String → String) (username password : Value) :
    Undoes kept (register derive username password) Answer.Refuses := by
  refine .after (.ofExcept _) fun blank => ?_
  cases blank with
  | true => exact .of_retains (.pure _)
  | false =>
    rw [if_neg Bool.false_ne_true]
    split
    · exact .of_retains (.pure _)
    refine .after (retains_onUsers (Store.retains_findOne _)) fun found => ?_
    cases found with
    | some doc => exact .of_retains (.bind (retains_textOf _) fun _ => .pure _)
    | none =>
      exact .after retains_get fun _ => .after (.ofExcept _) fun _ =>
        (undoes_onUsers (Store.undoes_insert _)).finally
          (Answer.not_refuses_fields (by decide) username)

theorem undoes_login (derive : String → String → String) (username password : Value) :
    Undoes kept (login derive username password) Answer.Refuses := by
  refine .after (retains_onUsers (Store.retains_findOne _)) fun found => ?_
  cases found with
  | none => exact .of_retains (.pure _)
  | some user =>
    refine .after (.ofExcept _) fun key => ?_
    split
    · exact .of_retains (.pure _)
    · exact .after retains_get fun accounts => .of_sure fun _ =>
        ⟨_, rfl, Answer.not_refuses_fields (by decide) _⟩

theorem retains_verify (token : Value) : Moves (Retains kept) (verify token) := by
  unfold verify
  split
  · exact .pure _
  refine .bind retains_get fun _ => .bind (.ofExcept _) fun found => ?_
  cases found with
  | none => exact .pure _
  | some user => exact .pure _

theorem retains_nameOf (user : Value) : Moves (Retains kept) (nameOf user) := by
  refine .bind (retains_onUsers (Store.retains_findOne _)) fun found => ?_
  cases found with
  | none => exact .bind (retains_textOf _) fun _ => .pure _
  | some doc => exact .pure _

/-- A token that nobody is found by has no session, where everybody who has one is somebody. -/
theorem Attended.get?_eq_none {accounts : Accounts} (h : accounts.Attended) {token : String}
    (hu : userOf (.str token) accounts = .ok none) : Table.get? token accounts.sessions = none := by
  cases hv : Table.get? token accounts.sessions with
  | none => rfl
  | some user =>
    have hnull : user.isNull = false := h _ (Table.mem_of_get? hv)
    simp [userOf, hv, hnull] at hu

/-- Logging out is all-or-nothing, where everybody who has a session is somebody. -/
theorem Attended.undone_logout {accounts : Accounts} (h : accounts.Attended) (token : Value) :
    Undone kept Answer.Refuses accounts ((logout token).run accounts) := by
  unfold logout
  rw [run_bind_ok (run_get accounts)]
  split
  · exact ⟨nofun, fun _ _ _ => rfl⟩
  rw [run_bind_ok (run_get accounts)]
  cases hu : userOf token accounts with
  | error fault => exact ⟨fun _ _ => rfl, nofun⟩
  | ok found =>
    cases found with
    | some user =>
      have hdone : ∀ act : Effect Accounts PUnit, (∀ s, (act.run s).1 = .ok ⟨⟩) →
          Undone kept Answer.Refuses accounts ((act >>= fun _ => pure .done).run accounts) := by
        intro act hact
        have hsure : Undoes kept act fun _ => False := .of_sure fun s => ⟨⟨⟩, hact s, not_false⟩
        exact hsure.finally Answer.not_refuses_done accounts
      cases token with
      | str text => exact hdone (modify _) fun _ => rfl
      | _ => exact hdone (pure ⟨⟩) fun _ => rfl
    | none =>
      cases token with
      | str text =>
        have herase := Table.erase_of_get?_eq_none (h.get?_eq_none hu)
        exact ⟨nofun, fun _ _ _ => congrArg (accounts.users.docs, ·) herase⟩
      | _ => exact ⟨nofun, fun _ _ _ => rfl⟩

end Accounts

/-- Every action on accounts is all-or-nothing, where everybody who has a session is somebody. -/
theorem AccountAction.undone_run (derive : String → String → String) (action : AccountAction)
    {accounts : Accounts} (h : accounts.Attended) :
    Undone Accounts.kept Answer.Refuses accounts ((action.run derive).run accounts) := by
  cases action with
  | register => exact Accounts.undoes_register _ _ _ accounts
  | login => exact Accounts.undoes_login _ _ _ accounts
  | verify => exact Undoes.of_retains (Accounts.retains_verify _) accounts
  | logout token => exact h.undone_logout token
  | username => exact Undoes.of_retains (Accounts.retains_nameOf _) accounts
  | deriveKey => exact Undoes.of_retains (.bind (.ofExcept _) fun _ => .pure _) accounts

/-! ### Everybody who has a session is somebody -/

namespace Accounts

/-- No session is opened. -/
def Closes (accounts accounts' : Accounts) : Prop :=
  ∀ entry ∈ accounts'.sessions, entry ∈ accounts.sessions

instance : IsPreorder Accounts Closes where
  refl _ _ he := he
  trans _ _ _ h h' entry he := h entry (h' entry he)

theorem closes_onUsers {α : Type} (act : Effect Store α) : Moves Closes (onUsers act) :=
  fun _ _ he => he

/-- What leaves the sessions alone opens none. -/
theorem closes_of_retains {α : Type} {act : Effect Accounts α} (h : Moves (Retains kept) act) :
    Moves Closes act := by
  intro accounts entry he
  have hsessions : (act.run accounts).2.sessions = accounts.sessions :=
    congrArg Prod.snd (h accounts)
  rwa [hsessions] at he

theorem closes_register (derive : String → String → String) (username password : Value) :
    Moves Closes (register derive username password) := by
  refine .bind (.ofExcept _) fun blank => ?_
  cases blank with
  | true => exact .pure _
  | false =>
    rw [if_neg Bool.false_ne_true]
    split
    · exact .pure _
    refine .bind (closes_onUsers _) fun found => ?_
    cases found with
    | some doc => exact .bind (.ofExcept _) fun _ => .pure _
    | none =>
      exact .bind (fun _ _ he => he) fun _ => .bind (.ofExcept _) fun _ =>
        .bind (closes_onUsers _) fun _ => .pure _

theorem closes_logout (token : Value) : Moves Closes (logout token) := by
  refine .bind (fun _ _ he => he) fun accounts => ?_
  split
  · exact .pure _
  refine .bind (fun _ _ he => he) fun _ => .bind (.ofExcept _) fun found => ?_
  cases token with
  | str text =>
    refine .bind (fun _ _ he => Table.mem_of_mem_erase he) fun _ => ?_
    cases found with
    | none => exact .pure _
    | some user => exact .pure _
  | _ =>
    cases found with
    | none => exact .pure _
    | some user => exact .pure _

/-- A user who is found by a name has one, so the name is something. -/
theorem isNull_of_satisfies {doc : Fields} {name : Value} (h : IsUser doc)
    (hs : Store.satisfies [("username", name)] doc = true) : name.isNull = false := by
  obtain ⟨text, ht⟩ := h
  cases name with
  | null => simp [Store.satisfies, ht, Value.same, Value.sameAmount, Value.amount?] at hs
  | _ => rfl

/-- Logging in opens a session of somebody. -/
theorem ensures_login_attended (derive : String → String → String) (username password : Value) :
    Ensures (fun accounts => Store.Holds IsUser accounts.users ∧ accounts.Attended)
      (login derive username password) fun _ => True := by
  refine Ensures.bind ((Store.ensures_findOne [("username", username)]).focus
    (fun _ hs => hs.1) fun _ _ hs ht => ⟨ht, hs.2⟩) fun found hfound => ?_
  cases found with
  | none => exact .pure trivial
  | some user =>
    refine (ensures_keyOf _ _ _).bind fun key _ => ?_
    split
    · exact .pure trivial
    refine Ensures.get.bind fun accounts _ => (ensures_modify fun state hs => ?_).bind fun _ _ =>
      .pure trivial
    refine ⟨hs.1, fun entry he => ?_⟩
    rcases Table.eq_or_mem_of_mem_set he with rfl | he
    · exact isNull_of_satisfies (hfound user rfl).1 (hfound user rfl).2
    · exact hs.2 entry he

/-- Whatever is asked of the accounts, everybody who has a session is somebody. -/
theorem Attended.run {accounts : Accounts} (h : accounts.Attended) (hs : accounts.Sound)
    (derive : String → String → String) (reading : Except Fault AccountAction) :
    ((Effect.ofExcept reading >>= AccountAction.run derive).run accounts).2.Attended := by
  cases reading with
  | error fault => exact h
  | ok action =>
    change ((action.run derive).run accounts).2.Attended
    have hcloses : Moves Closes (action.run derive) →
        ((action.run derive).run accounts).2.Attended :=
      fun hc entry he => h entry (hc accounts entry he)
    cases action with
    | register => exact hcloses (closes_register _ _ _)
    | login => exact (ensures_login_attended _ _ _ accounts ⟨hs.users, h⟩).1.2
    | verify => exact hcloses (closes_of_retains (retains_verify _))
    | logout => exact hcloses (closes_logout _)
    | username => exact hcloses (closes_of_retains (retains_nameOf _))
    | deriveKey => exact hcloses (.bind (.ofExcept _) fun _ => .pure _)

end Accounts

/-! ### Calls -/

namespace Concept

/-- The sessions that a concept keeps. -/
def sessions : Concept → List (String × Value)
  | .accounts state => state.sessions
  | _ => []

/-- Everybody who has a session is somebody. -/
def Attended (concept : Concept) : Prop := ∀ entry ∈ concept.sessions, entry.2.isNull = false

/-- The call has come to nothing: it ended in a fault, or the answer carries an error. -/
def Turn.Fails (turn : Turn) : Prop :=
  (∃ fault, turn.outcome = .error fault) ∨ ∃ answer, turn.outcome = .ok answer ∧ answer.Refuses

variable {may : String → Fields → Prop} {kind : Kind} {limit : Limit} {concept : Concept}
  {issued : Issued}

/-- So it is whatever a concept lives through. -/
theorem Lives.attended (h : Lives may kind limit concept issued) : concept.Attended := by
  induction h with
  | start => cases kind <;> exact nofun
  | @call concept issued _ _ turn h _ ht ih =>
    cases concept with
    | accounts state =>
      obtain ⟨reading, -, rfl⟩ := Option.map_eq_some_iff.mp ht
      have hnumbered : Accounts.Attended { state with
          users := { state.users with issued := issued.documents }
          tokens := issued.tokens } := ih
      exact hnumbered.run ⟨h.sound.users, h.sound.sessions⟩ KeyDerivation.deriveHex reading
    | requests | herds | animals =>
      obtain ⟨reading, -, rfl⟩ := Option.map_eq_some_iff.mp ht
      exact nofun
  | @order concept _ _ op n ih => cases concept <;> exact ih
  | meanwhile _ _ ih => exact ih

/-- A run that is undone leaves no trace of a call that fails. -/
theorem Turn.Fails.kept_eq {σ κ : Type} {kept : σ → κ} {state : σ} {turn : Turn} {state' : σ}
    (h : turn.Fails) (hu : Undone kept Answer.Refuses state (turn.outcome, state')) :
    kept state' = kept state := by
  rcases h with ⟨fault, hf⟩ | ⟨answer, ha, hrefuses⟩
  · exact hu.1 fault hf
  · exact hu.2 answer ha hrefuses

/-- Calls are all-or-nothing. Whatever a concept has lived through, whatever it is asked, and
whichever operations of its store are ordered to fail: a call that fails leaves the documents, with
their ids and in their order, and the sessions as they were. -/
theorem answer_undone (h : Lives may kind limit concept issued) (orders : List (Operation × Nat))
    {action : String} {args : Fields} {turn : Turn}
    (ht : (concept.ordered orders).answer? action args issued = some turn) (hf : turn.Fails) :
    turn.concept.documents = concept.documents ∧ turn.concept.sessions = concept.sessions := by
  cases concept with
  | requests state =>
    obtain ⟨reading, -, rfl⟩ := Option.map_eq_some_iff.mp ht
    exact ⟨rfl, rfl⟩
  | accounts state =>
    obtain ⟨reading, -, rfl⟩ := Option.map_eq_some_iff.mp ht
    cases reading with
    | error fault => exact ⟨rfl, rfl⟩
    | ok action =>
      exact Prod.mk.inj (hf.kept_eq (AccountAction.undone_run _ action h.attended))
  | herds store =>
    obtain ⟨reading, -, rfl⟩ := Option.map_eq_some_iff.mp ht
    exact ⟨hf.kept_eq (Undoes.after (.ofExcept reading) HerdAction.undoes_run _), rfl⟩
  | animals store =>
    obtain ⟨reading, -, rfl⟩ := Option.map_eq_some_iff.mp ht
    exact ⟨hf.kept_eq (Undoes.after (.ofExcept reading) AnimalAction.undoes_run _), rfl⟩

end Concept

/-- Calls that make two herds of a user, with an animal in the first one. -/
def Herds.twoHerds : List (String × Fields) :=
  [("createHerd", [("user", .str "alice"), ("name", .str "north")]),
    ("createHerd", [("user", .str "alice"), ("name", .str "south")]),
    ("addAnimal", [("user", .str "alice"), ("herdName", .str "north"), ("animal", .str "a1")])]

/-- What moves the animal from the first herd to the second one. -/
def Herds.moving : Fields :=
  [("user", .str "alice"), ("sourceHerdName", .str "north"), ("targetHerdName", .str "south"),
    ("animal", .str "a1")]

/-- When the second of the two updates of a move fails, the animal is where it was. -/
theorem Concept.answer_undone_moving :
    let life := asked .herds defaultLimit Herds.twoHerds
    ∃ turn, (life.1.ordered [(.update, 2)]).answer? "moveAnimal" Herds.moving life.2 = some turn ∧
      turn.Fails ∧ turn.concept.documents = life.1.documents ∧
        turn.concept.sessions = life.1.sessions := by
  obtain ⟨turn, ht, hf⟩ : ∃ turn, ((asked .herds defaultLimit Herds.twoHerds).1.ordered
      [(.update, 2)]).answer? "moveAnimal" Herds.moving (asked .herds defaultLimit Herds.twoHerds).2
        = some turn ∧ turn.Fails := ⟨_, rfl, .inr ⟨_, rfl, rfl⟩⟩
  have hlife : Lives anyCall .herds defaultLimit (asked .herds defaultLimit Herds.twoHerds).1
      (asked .herds defaultLimit Herds.twoHerds).2 := lives_asked _ _ _ fun _ _ => trivial
  exact ⟨turn, ht, hf, answer_undone hlife _ ht hf⟩

end HerdBook
