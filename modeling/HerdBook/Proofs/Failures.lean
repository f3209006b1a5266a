import HerdBook.Proofs.Atomicity
import HerdBook.Proofs.Privacy

/-!
# When the store fails

An operation that is ordered to fail counts its calls down and fails at the call at which the count
runs out (`Store.enter`). So what has failed in a run is read off the counts before and after it
(`ComesDue`), and nothing has to be added to the runs.

A regrouping reports such a failure as a refusal, but only from its transaction on. Merging begins
with the transaction; moving has looked for both herds before it, splitting off for the source. The
failures of these look-ups are passed on (`HerdAction.Worded` says how many there are).

* `Store.Heeds`: in what computations a failure is not lost.
* `Store.Calls`: what calls some operations once, and does nothing else with the store.
* `Store.Reports`: what becomes of a failure when the first look-ups pass it on.

## Main results

* `Herds.reports_reporting`: a failure of what heeds failures is reported.
* `HerdAction.Worded.reports`: so it is in every regrouping, but for the exposed look-ups.
* `Concept.regrouping_falters`: what a regrouping comes to when its store fails, and when it ends in
  a fault.
-/

namespace HerdBook

open Effect

/-- The operations that a look-up calls, each once. -/
def Operation.looksUp : Operation → Bool
  | .findOne | .find => true
  | _ => false

/-- With the first orders, the operation is to fail at its call number `n`, counted from 0, and it has
failed when the second ones are left. -/
def ComesDue (op : Operation) (n : Nat) (orders orders' : List (Operation × Nat)) : Prop :=
  Table.get? op orders = some (n + 1) ∧ Table.get? op orders' = some 0

/-- Nothing comes due while the orders stay. -/
theorem not_comesDue_self (op : Operation) (n : Nat) (orders : List (Operation × Nat)) :
    ¬ComesDue op n orders orders := by
  rintro ⟨h, h'⟩
  exact nomatch h.symm.trans h'

namespace Effect

variable {σ α β : Type} {act : Effect σ α} {next : α → Effect σ β}

/-- The computation yields something, and does nothing. -/
def Calm (act : Effect σ α) : Prop := ∀ s, ∃ a, act.run s = (.ok a, s)

theorem Calm.pure (a : α) : Calm (Pure.pure a : Effect σ α) := fun _ => ⟨a, rfl⟩

theorem Calm.bind (h : Calm act) (hn : ∀ a, Calm (next a)) : Calm (act >>= next) := by
  intro s
  obtain ⟨a, ha⟩ := h s
  obtain ⟨b, hb⟩ := hn a s
  exact ⟨b, by rw [run_bind_ok ha, hb]⟩

end Effect

/-- A text is its own text. -/
theorem calm_textOf {σ : Type} (text : String) : Calm (textOf (.str text) : Effect σ String) :=
  fun _ => ⟨text, rfl⟩

namespace Store

variable {α β : Type} {act : Effect Store α} {next : α → Effect Store β}

/-! ### Counting down -/

/-- The store after a call of the operation, as far as failing goes. -/
def called (op : Operation) (s : Store) : Store := ((enter op).run s).2

/-- A call leaves the operation with one call less to go, and the others as they are. -/
theorem get?_called (op other : Operation) (s : Store) :
    Table.get? other (called op s).failing
      = if op = other then (Table.get? op s.failing).map (· - 1) else Table.get? other s.failing := by
  unfold called enter
  rw [run_ofStep]
  split
  · next n hn => rw [failAt, Table.get?_set, hn]; rfl
  · next hn =>
    split
    · next heq =>
      subst heq
      cases hv : Table.get? op s.failing with
      | none => rfl
      | some m =>
        cases m with
        | zero => rfl
        | succ m => exact absurd hv (hn m)
    · rfl

/-- The call fails exactly when it is the one that is due. -/
theorem run_enter (op : Operation) (s : Store) :
    (enter op).run s
      = (if Table.get? op s.failing = some 1 then .error writeFailed else .ok (), called op s) := by
  refine Prod.ext ?_ rfl
  unfold enter
  rw [run_ofStep]
  split
  · next n hn => simp [hn]
  · next hn => rw [if_neg fun h => hn 0 h]

/-! ### What is not lost -/

/-- When an operation fails, the computation ends in that failure. -/
def Heeds (act : Effect Store α) : Prop :=
  ∀ s op n, Table.get? op s.failing = some (n + 1) →
    ∃ m, Table.get? op (act.run s).2.failing = some m ∧
      (m = 0 → (act.run s).1 = .error writeFailed)

/-- When an operation has failed in a run, the run has ended in that failure. -/
theorem Heeds.outcome_eq (h : Heeds act) {s : Store} {op : Operation} {n : Nat}
    (hd : ComesDue op n s.failing (act.run s).2.failing) :
    (act.run s).1 = .error writeFailed := by
  obtain ⟨m, hm, hfails⟩ := h s op n hd.1
  exact hfails (Option.some.inj (hm.symm.trans hd.2))

/-- In what leaves the orders alone nothing fails. -/
theorem Heeds.of_retains (h : Moves (Retains Store.failing) act) : Heeds act := by
  intro s op n hn
  have hsame : (act.run s).2.failing = s.failing := h s
  exact ⟨n + 1, by rw [hsame, hn], nofun⟩

/-- The call of an operation. -/
theorem heeds_enter (op : Operation) : Heeds (enter op) := by
  intro s other n hn
  rw [run_enter, get?_called]
  by_cases heq : op = other
  · subst heq
    rw [if_pos rfl, hn]
    refine ⟨n, rfl, ?_⟩
    rintro rfl
    simp
  · rw [if_neg heq, hn]
    exact ⟨n + 1, rfl, nofun⟩

/-- A sequence: what fails in its first part ends it there. -/
theorem Heeds.bind (h : Heeds act) (hn : ∀ a, Heeds (next a)) : Heeds (act >>= next) := by
  intro s op n hs
  obtain ⟨m, hm, hfails⟩ := h s op n hs
  rcases hrun : act.run s with ⟨fault | a, t⟩ <;> rw [hrun] at hm hfails
  · rw [run_bind_error hrun]
    exact ⟨m, hm, fun hzero => congrArg Except.error (Except.error.inj (hfails hzero))⟩
  · rw [run_bind_ok hrun]
    cases m with
    | zero => exact nomatch hfails rfl
    | succ m => exact hn a t op m hm

/-- After the call of an operation. -/
theorem Heeds.afterEnter (op : Operation) {next : Unit → Effect Store β}
    (h : Moves (Retains Store.failing) (next ())) : Heeds (enter op >>= next) :=
  (heeds_enter op).bind fun _ => .of_retains h

theorem heeds_find (criteria : Fields) : Heeds (find criteria) :=
  .afterEnter .find (.bind retains_get fun _ => .pure _)

theorem heeds_findOne (criteria : Fields) : Heeds (findOne criteria) :=
  (heeds_enter .findOne).bind fun _ => (heeds_find criteria).bind fun _ => .of_retains (.pure _)

theorem heeds_insert (doc : Fields) : Heeds (insert doc) := by
  refine .afterEnter .insert (.bind (fun _ => rfl) fun id => .bind (.ofExcept _) fun copied => ?_)
  exact .bind (fun _ => rfl) fun _ => .pure _

theorem heeds_update (id : String) (changes : Fields) : Heeds (update id changes) := by
  refine .afterEnter .update (.bind retains_get fun store => ?_)
  split
  · exact .pure _
  · exact .bind (.ofExcept _) fun _ => .bind (fun _ => rfl) fun _ => .pure _

/-- A transaction puts documents back, but no orders. -/
theorem Heeds.transaction (h : Heeds act) : Heeds (transaction act) := by
  refine (heeds_enter .transaction).bind fun _ s op n hn => ?_
  obtain ⟨m, hm, hfails⟩ := h s op n hn
  rw [run_bind_ok (run_get s), run_bind_ok (run_attempt act s)]
  rcases hrun : act.run s with ⟨fault | a, t⟩ <;> rw [hrun] at hm hfails
  · exact ⟨m, hm, fun hzero => congrArg Except.error (Except.error.inj (hfails hzero))⟩
  · exact ⟨m, hm, fun hzero => nomatch hfails hzero⟩

/-! ### Calling operations once -/

/-- What comes of calling each of some operations once: one of them fails, or all count down and
something is yielded. -/
inductive Called (ops : Operation → Bool) (s : Store) : Except Fault α × Store → Prop
  /-- It fails because it was due. -/
  | failed {t : Store} (hdue : ∃ op, ops op = true ∧ ComesDue op 0 s.failing t.failing)
      (honly : ∀ op n, ComesDue op n s.failing t.failing → ops op = true ∧ n = 0) :
      Called ops s (.error writeFailed, t)
  /-- None was due, and each has one call less to go. -/
  | passed {a : α} {t : Store} (hnone : ∀ op, ops op = true → Table.get? op s.failing ≠ some 1)
      (hcounts : ∀ op, Table.get? op t.failing = if ops op then
        (Table.get? op s.failing).map (· - 1) else Table.get? op s.failing) :
      Called ops s (.ok a, t)

/-- The computation calls each of these operations once and does not fail otherwise. -/
def Calls (ops : Operation → Bool) (act : Effect Store α) : Prop := ∀ s, Called ops s (act.run s)

/-- A call calls one operation. -/
theorem calls_enter (op : Operation) : Calls (op == ·) (enter op) := by
  intro s
  rw [run_enter]
  split
  · next hone =>
    refine .failed ⟨op, by simp, hone, by simp [get?_called, hone]⟩ fun other n hdue => ?_
    obtain ⟨hn, hzero⟩ := hdue
    by_cases heq : op = other
    · subst heq
      exact ⟨by simp, by simpa [hone] using hn.symm⟩
    · rw [get?_called, if_neg heq, hn] at hzero
      cases hzero
  · next hnone =>
    refine .passed (fun other hother => ?_) fun other => ?_
    · obtain rfl : op = other := by simpa using hother
      exact hnone
    · rw [get?_called]
      by_cases heq : op = other <;> simp [heq]

/-- What does nothing calls none. -/
theorem Calls.of_calm (h : Calm act) : Calls (fun _ => false) act := by
  intro s
  obtain ⟨a, ha⟩ := h s
  rw [ha]
  exact .passed nofun fun _ => rfl

/-- What comes due after some operations have been called once was due before, and one call later if
it is one of them. -/
theorem comesDue_of_counted {ops : Operation → Bool} {s t : Store} {op : Operation} {n : Nat}
    {orders : List (Operation × Nat)}
    (hcounts : ∀ op, Table.get? op t.failing = if ops op then
      (Table.get? op s.failing).map (· - 1) else Table.get? op s.failing)
    (hdue : ComesDue op n t.failing orders) :
    ComesDue op (if ops op then n + 1 else n) s.failing orders := by
  obtain ⟨hn, hzero⟩ := hdue
  refine ⟨?_, hzero⟩
  rw [hcounts] at hn
  cases hop : ops op with
  | false => simpa [hop] using hn
  | true =>
    rw [if_pos hop] at hn
    obtain ⟨m, hm, hpred⟩ := Option.map_eq_some_iff.mp hn
    rw [hm, if_pos rfl, Option.some.injEq]
    omega

/-- What comes due, and not yet while some operations are called once, comes due afterwards. -/
theorem exists_comesDue_of_counted {ops : Operation → Bool} {s t : Store} {op : Operation} {n : Nat}
    {orders : List (Operation × Nat)}
    (hnone : ∀ op, ops op = true → Table.get? op s.failing ≠ some 1)
    (hcounts : ∀ op, Table.get? op t.failing = if ops op then
      (Table.get? op s.failing).map (· - 1) else Table.get? op s.failing)
    (hdue : ComesDue op n s.failing orders) :
    ∃ m, n = (if ops op then m + 1 else m) ∧ ComesDue op m t.failing orders := by
  obtain ⟨hn, hzero⟩ := hdue
  cases hop : ops op with
  | false => exact ⟨n, rfl, by simpa [hcounts, hop] using hn, hzero⟩
  | true =>
    obtain ⟨m, rfl⟩ : ∃ m, n = m + 1 :=
      Nat.exists_eq_succ_of_ne_zero fun hzero => hnone op hop (by rw [hn, hzero])
    exact ⟨m, rfl, by simp [hcounts, hop, hn], hzero⟩

/-- A sequence calls the operations of both of its parts. -/
theorem Calls.bind {ops ops' : Operation → Bool} (h : Calls ops act)
    (hn : ∀ a, Calls ops' (next a)) (hapart : ∀ op, ops op = true → ops' op = false) :
    Calls (fun op => ops op || ops' op) (act >>= next) := by
  have hother : ∀ op, ops' op = true → ops op = false := fun op hop =>
    Bool.eq_false_iff.mpr fun hfirst => nomatch (hapart op hfirst).symm.trans hop
  intro s
  rw [run_bind]
  have hs := h s
  generalize act.run s = run at hs
  cases hs with
  | failed hdue honly =>
    obtain ⟨op, hop, hdue⟩ := hdue
    exact .failed ⟨op, by simp [hop], hdue⟩ fun other n hother =>
      (honly other n hother).imp (by simp +contextual) id
  | @passed a t hnone hcounts =>
    dsimp only
    have ht := hn a t
    generalize (next a).run t = run at ht
    cases ht with
    | failed hdue honly =>
      obtain ⟨op, hop, hdue⟩ := hdue
      have hfirst := comesDue_of_counted hcounts hdue
      rw [hother op hop] at hfirst
      refine .failed ⟨op, by simp [hop], hfirst⟩ fun other n hdue => ?_
      obtain ⟨m, rfl, hlater⟩ := exists_comesDue_of_counted hnone hcounts hdue
      obtain ⟨hsecond, rfl⟩ := honly other m hlater
      simp [hsecond, hother other hsecond]
    | passed hnone' hcounts' =>
      refine .passed (fun op hop => ?_) fun op => ?_
      · rcases Bool.or_eq_true_iff.mp hop with hop | hop
        · exact hnone op hop
        · have hkept := hcounts op
          rw [hother op hop, if_neg Bool.false_ne_true] at hkept
          exact hkept ▸ hnone' op hop
      · rw [hcounts', hcounts]
        cases hfirst : ops op with
        | false => simp
        | true => simp [hapart op hfirst]

/-- So does one that goes on with what does nothing. -/
theorem Calls.calm {ops : Operation → Bool} (h : Calls ops act) (hn : ∀ a, Calm (next a)) :
    Calls ops (act >>= next) := by
  simpa using h.bind (fun a => .of_calm (hn a)) fun _ _ => rfl

/-- The first document that satisfies criteria is looked up by calling two operations. -/
theorem calls_findOne (criteria : Fields) : Calls Operation.looksUp (findOne criteria) := by
  have hfind : Calls (Operation.find == ·) (find criteria) :=
    (calls_enter .find).calm fun _ s => ⟨_, rfl⟩
  have hops : (fun op => Operation.findOne == op || Operation.find == op) = Operation.looksUp := by
    funext op
    cases op <;> rfl
  rw [← hops]
  refine (calls_enter .findOne).bind (fun _ => hfind.calm fun _ => .pure _) fun op hop => ?_
  cases op <;> first | rfl | exact nomatch hop

/-! ### What becomes of a failure -/

/-- A failure of one of the first `exposed` look-ups is passed on, any other one is reported, and the
computation does not end in a fault otherwise. -/
structure Reports (exposed : Nat) (report : Answer) (act : Effect Store Answer) : Prop where
  falters : ∀ s op n, ComesDue op n s.failing (act.run s).2.failing →
    (act.run s).1 = if op.looksUp ∧ n < exposed then .error writeFailed else .ok report
  passes : ∀ s fault, (act.run s).1 = .error fault →
    ∃ op n, op.looksUp ∧ n < exposed ∧ ComesDue op n s.failing (act.run s).2.failing

variable {exposed : Nat} {report : Answer} {reply : Effect Store Answer}

/-- Where nothing is done, nothing fails. -/
theorem Reports.of_calm (h : Calm reply) (exposed : Nat) (report : Answer) :
    Reports exposed report reply := by
  constructor
  · intro s op n hdue
    obtain ⟨answer, hrun⟩ := h s
    rw [hrun] at hdue
    exact absurd hdue (not_comesDue_self _ _ _)
  · intro s fault hf
    obtain ⟨answer, hrun⟩ := h s
    rw [hrun] at hf
    exact nomatch hf

/-- A value that is known comes first. -/
theorem Reports.afterValue {a : α} {next : α → Effect Store Answer}
    (h : Reports exposed report (next a)) :
    Reports exposed report (Effect.ofExcept (.ok a) >>= next) := h

/-- A look-up more comes first. -/
theorem Reports.afterLookUp {next : α → Effect Store Answer} (h : Calls Operation.looksUp act)
    (hn : ∀ a, Reports exposed report (next a)) :
    Reports (exposed + 1) report (act >>= next) := by
  constructor
  · intro s op n hdue
    rw [run_bind] at hdue ⊢
    have hs := h s
    generalize act.run s = run at hs hdue ⊢
    cases hs with
    | failed hfailed honly =>
      obtain ⟨hop, rfl⟩ := honly op n hdue
      simp [hop]
    | @passed a t hnone hcounts =>
      obtain ⟨m, rfl, hlater⟩ := exists_comesDue_of_counted hnone hcounts hdue
      have hfalters := (hn a).falters t op m hlater
      cases hop : op.looksUp <;> simpa [hop] using hfalters
  · intro s fault hf
    rw [run_bind] at hf ⊢
    have hs := h s
    generalize act.run s = run at hs hf ⊢
    cases hs with
    | failed hfailed honly =>
      obtain ⟨op, hop, hdue⟩ := hfailed
      exact ⟨op, 0, hop, Nat.succ_pos _, hdue⟩
    | @passed a t hnone hcounts =>
      obtain ⟨op, n, hop, hlt, hdue⟩ := (hn a).passes t fault hf
      have hfirst := comesDue_of_counted hcounts hdue
      rw [if_pos hop] at hfirst
      exact ⟨op, n + 1, hop, Nat.succ_lt_succ hlt, hfirst⟩

end Store

open Store

namespace Herds

/-! ### Regroupings -/

/-- What is reported of a regrouping that fails. -/
def reported (action reason : String) : Answer :=
  { Answer.refusal reason with notes := [.concept .error (action ++ " failed")] }

/-- A regrouping that is reported on answers what it answers itself, or else that it failed. -/
theorem run_reporting (action reason : String) (act : Effect Store Answer) (s : Store) :
    (reporting action reason act).run s
      = (.ok ((act.run s).1.toOption.getD (reported action reason)), (act.run s).2) := by
  unfold reporting
  rw [run_bind_ok (run_attempt act s)]
  rcases act.run s with ⟨fault | answer, t⟩ <;> rfl

/-- A failure of what heeds failures is reported. -/
theorem reports_reporting {act : Effect Store Answer} (h : Heeds act) (action reason : String) :
    Reports 0 (reported action reason) (reporting action reason act) := by
  constructor
  · intro s op n hdue
    rw [run_reporting] at hdue ⊢
    rw [h.outcome_eq hdue]
    simp [Except.toOption]
  · intro s fault hf
    rw [run_reporting] at hf
    cases hf

theorem heeds_herd? (user name : Value) : Heeds (herd? user name) := heeds_findOne _

theorem heeds_active (user name role : Value) : Heeds (active user name role) := by
  refine (heeds_herd? user name).bind fun found => ?_
  cases found with
  | none => exact .of_retains (.bind (.ofExcept _) fun _ => retains_texts _ _ _)
  | some herd =>
    dsimp only
    split
    · exact .of_retains (.pure _)
    · exact .of_retains (retains_texts _ _ _)

theorem heeds_setMembers (herd : Fields) (members : List Value) :
    Heeds (setMembers herd members) := (heeds_update _ _).bind fun _ => .of_retains (.pure _)

theorem heeds_archive (herd : Fields) : Heeds (archive herd) :=
  (heeds_update _ _).bind fun _ => .of_retains (.pure _)

theorem heeds_splitTarget (user targetName : Value) : Heeds (splitTarget user targetName) := by
  refine (heeds_herd? user targetName).bind fun found => ?_
  cases found with
  | none => exact (heeds_insert _).bind fun _ => .of_retains (.pure _)
  | some target =>
    dsimp only
    split
    · exact .of_retains (.pure _)
    · exact .of_retains (.bind (retains_textOf _) fun _ => .pure _)

/-- A herd that is asked for in words is looked up once. -/
theorem calls_active (user name role : String) :
    Calls Operation.looksUp (active (.str user) (.str name) (.str role)) := by
  refine (calls_findOne _).calm fun found => ?_
  cases found with
  | none =>
    exact (calm_textOf _).bind fun _ => (calm_textOf _).bind fun _ => (calm_textOf _).bind fun _ =>
      .pure _
  | some herd =>
    dsimp only
    split
    · exact .pure _
    · exact (calm_textOf _).bind fun _ => (calm_textOf _).bind fun _ => .pure _

/-- Texts are texts. -/
theorem exists_allTexts {items : List Value} (h : ∀ v ∈ items, ∃ text, v = .str text) :
    ∃ texts, allTexts items = .ok texts := by
  induction items with
  | nil => exact ⟨[], rfl⟩
  | cons v vs ih =>
    obtain ⟨⟨text, rfl⟩, hrest⟩ := List.forall_mem_cons.mp h
    obtain ⟨texts, htexts⟩ := ih hrest
    exact ⟨text :: texts, by rw [allTexts, htexts]; rfl⟩

theorem reports_move (user source target animal : String) :
    Reports 2 (reported "moveAnimal" "Failed to move animal due to a storage error.")
      (move (.str user) (.str source) (.str target) (.str animal)) := by
  unfold move
  split
  · exact .of_calm (.pure _) _ _
  refine .afterLookUp (calls_active _ _ _) fun found => ?_
  cases found with
  | error refusal => exact .of_calm (.pure _) _ _
  | ok source =>
    refine .afterLookUp (calls_active _ _ _) fun found => ?_
    cases found with
    | error refusal => exact .of_calm (.pure _) _ _
    | ok target =>
      dsimp only
      split
      · exact .of_calm ((calm_textOf _).bind fun _ => (calm_textOf _).bind fun _ => .pure _) _ _
      · exact reports_reporting (Heeds.transaction ((heeds_setMembers _ _).bind fun _ =>
          (heeds_setMembers _ _).bind fun _ => .of_retains (.pure _))) _ _

theorem reports_merge (user keep gone : String) :
    Reports 0 (reported "mergeHerds" "Failed to merge herds due to a storage error.")
      (merge (.str user) (.str keep) (.str gone)) := by
  unfold merge
  split
  · exact .of_calm (.pure _) _ _
  refine reports_reporting (Heeds.transaction ((heeds_active _ _ _).bind fun found => ?_)) _ _
  cases found with
  | error refusal => exact .of_retains (.pure _)
  | ok keep =>
    refine (heeds_herd? _ _).bind fun found => ?_
    cases found with
    | none => exact .of_retains (retains_texts _ _ _)
    | some gone =>
      dsimp only
      split
      · exact .of_retains (.bind (retains_textOf _) fun _ => .pure _)
      · exact (heeds_setMembers _ _).bind fun _ => (heeds_archive _).bind fun _ =>
          .of_retains (.pure _)

theorem reports_split (user source target : String) (animals : List String) :
    Reports 1 (reported "splitHerd" "Failed to split herd due to a storage error.")
      (split (.str user) (.str source) (.str target) (.list (animals.map .str))) := by
  unfold split
  split
  · exact .of_calm (.pure _) _ _
  split
  · exact .of_calm (.pure _) _ _
  refine .afterLookUp (calls_active _ _ _) fun found => ?_
  cases found with
  | error refusal => exact .of_calm (.pure _) _ _
  | ok source =>
    refine .afterValue (a := animals.map Value.str) ?_
    dsimp only
    split
    · have hmissing : ∀ v ∈ (animals.map Value.str).filter fun animal =>
          !animal.isIn (membersOf source), ∃ text, v = .str text := fun v hv => by
        obtain ⟨text, -, rfl⟩ := List.mem_map.mp (List.mem_of_mem_filter hv)
        exact ⟨text, rfl⟩
      obtain ⟨texts, htexts⟩ := exists_allTexts hmissing
      rw [htexts]
      exact .afterValue (.of_calm ((calm_textOf _).bind fun _ => .pure _) _ _)
    · refine reports_reporting (Heeds.transaction ((heeds_splitTarget _ _).bind fun found => ?_)) _ _
      cases found with
      | error refusal => exact .of_retains (.pure _)
      | ok target =>
        exact (Heeds.of_retains (.ofExcept _)).bind fun _ => (heeds_setMembers _ _).bind fun _ =>
          (heeds_setMembers _ _).bind fun _ => .of_retains (.pure _)

end Herds

open Herds

/-- A regrouping that is asked for in words: with texts, and with a list of texts for the animals that
are split off. With it stands how many look-ups are exposed, which come before its transaction, and
what it reports when it fails. -/
inductive HerdAction.Worded : HerdAction → Nat → Answer → Prop
  | move (user source target animal : String) :
      Worded (.move (.str user) (.str source) (.str target) (.str animal)) 2
        (reported "moveAnimal" "Failed to move animal due to a storage error.")
  | merge (user keep gone : String) :
      Worded (.merge (.str user) (.str keep) (.str gone)) 0
        (reported "mergeHerds" "Failed to merge herds due to a storage error.")
  | split (user source target : String) (animals : List String) :
      Worded (.split (.str user) (.str source) (.str target) (.list (animals.map .str))) 1
        (reported "splitHerd" "Failed to split herd due to a storage error.")

/-- It reports failures, but for those of the exposed look-ups. -/
theorem HerdAction.Worded.reports {action : HerdAction} {exposed : Nat} {report : Answer}
    (h : action.Worded exposed report) : Reports exposed report action.run := by
  cases h with
  | move => exact reports_move _ _ _ _
  | merge => exact reports_merge _ _ _
  | split => exact reports_split _ _ _ _

/-- What it reports is a refusal. -/
theorem HerdAction.Worded.refuses {action : HerdAction} {exposed : Nat} {report : Answer}
    (h : action.Worded exposed report) : report.Refuses := by
  cases h <;> rfl

namespace Concept

variable {concept : Concept} {name : String} {args : Fields} {action : HerdAction} {exposed : Nat}
  {report : Answer}

/-- When the store fails. Whatever the herds are, whichever operations of their store are ordered to
fail, and whatever regrouping is asked for in words: when an operation comes to fail, at whichever of
its calls, the documents stay as they were. The failure is reported as a refusal, unless it is that of
a look-up before the transaction, which is passed on; and there is no other fault in which a
regrouping ends. -/
theorem regrouping_falters (hk : concept.kind = .herds)
    (hr : HerdAction.ofCall? name args = some (.ok action)) (hw : action.Worded exposed report)
    (issued : Issued) :
    ∃ turn, concept.answer? name args issued = some turn ∧
      (∀ op n, ComesDue op n concept.orders turn.concept.orders →
        turn.concept.documents = concept.documents ∧
          turn.outcome = if op.looksUp ∧ n < exposed then .error writeFailed else .ok report) ∧
      ∀ fault, turn.outcome = .error fault →
        ∃ op n, op.looksUp ∧ n < exposed ∧ ComesDue op n concept.orders turn.concept.orders := by
  have howner : Kind.owner? .herds = some "userId" := rfl
  have hact : Kind.act? name args .herds = some action.run := by rw [Kind.act?, hr]; rfl
  obtain ⟨turn, ht, hruns⟩ := exists_runs howner hk hact issued
  have horders : turn.concept.orders = (action.run.run (concept.storeAt issued)).2.failing :=
    congrArg Store.failing hruns.store
  have hdocs : turn.concept.documents = (action.run.run (concept.storeAt issued)).2.docs :=
    congrArg Store.docs hruns.store
  refine ⟨turn, ht, fun op n hdue => ?_, fun fault hf => ?_⟩
  · rw [horders] at hdue
    have houtcome := hw.reports.falters (concept.storeAt issued) op n hdue
    obtain ⟨herror, hrefused⟩ := action.undoes_run (concept.storeAt issued)
    refine ⟨hdocs.trans ?_, hruns.outcome.trans houtcome⟩
    split at houtcome
    · exact herror _ houtcome
    · exact hrefused _ houtcome hw.refuses
  · rw [horders]
    exact hw.reports.passes (concept.storeAt issued) fault (hruns.outcome ▸ hf)

/-- Moving an animal finds that the second of its updates fails: the animal is where it was, and the
user is told so. -/
theorem regrouping_falters_moving :
    let life := asked .herds defaultLimit twoHerds
    let herds := life.1.ordered [(.update, 2)]
    ∃ turn, herds.answer? "moveAnimal" moving life.2 = some turn ∧
      ComesDue .update 1 herds.orders turn.concept.orders ∧
      turn.concept.documents = herds.documents ∧
      turn.outcome = .ok
        (reported "moveAnimal" "Failed to move animal due to a storage error.") := by
  intro life herds
  have hkind : herds.kind = .herds := rfl
  have hr : HerdAction.ofCall? "moveAnimal" moving = some (.ok
      (.move (.str "alice") (.str "north") (.str "south") (.str "a1"))) := rfl
  obtain ⟨turn, ht, hfalters, -⟩ := regrouping_falters hkind hr (.move _ _ _ _) life.2
  have hdue : ComesDue .update 1 herds.orders turn.concept.orders := by
    obtain rfl := Option.some.inj ht
    exact ⟨rfl, rfl⟩
  obtain ⟨hdocs, houtcome⟩ := hfalters .update 1 hdue
  exact ⟨turn, ht, hdue, hdocs, houtcome⟩

/-- When the second of its look-ups fails, the failure is passed on. -/
example :
    let life := asked .herds defaultLimit twoHerds
    ((life.1.ordered [(.findOne, 2)]).answer? "moveAnimal" moving life.2).map (·.outcome)
      = some (.error writeFailed) := rfl

end Concept

end HerdBook
