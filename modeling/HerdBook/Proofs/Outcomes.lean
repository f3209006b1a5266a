import HerdBook.Rule.Stage
import Mathlib.Order.Defs.Unbundled

/-!
# Laws of outcomes and effects

How a sequence that may fail is taken apart: `bind_eq_ok_iff` for outcomes, and for effects
`Effect.run_bind_ok`, `Effect.run_bind_error` (forwards) and `Effect.exists_of_run_bind`
(backwards).

## Main definitions

* `Effect.Upholds P act Q`, `Effect.Keeps P act`: every run of `act` keeps the property `P` of the
  state, and its results have the property `Q`.
* `Effect.Moves R act`: every run of `act`, however it ends, moves the state along the relation
  `R`. For a relation that is reflexive and transitive this is closed under all the ways in which
  effects are put together, so that an operation of the engine is covered by covering its parts.
* `Effect.Yields shows act before outcome after`: what a run comes to, where all that is known of a
  state is the picture it shows.
-/

namespace HerdBook

/-- A sequence of two outcomes is a success exactly when both are. -/
theorem bind_eq_ok_iff {ε α β : Type} {x : Except ε α} {next : α → Except ε β} {b : β} :
    x >>= next = .ok b ↔ ∃ a, x = .ok a ∧ next a = .ok b := by
  cases x with
  | ok a => exact ⟨fun h => ⟨a, rfl, h⟩, fun ⟨_, ha, h⟩ => Except.ok.inj ha ▸ h⟩
  | error e => exact ⟨(nomatch ·), fun ⟨_, ha, _⟩ => nomatch ha⟩

/-- A sequence of two outcomes fails where one of them does. -/
theorem bind_eq_error_iff {ε α β : Type} {x : Except ε α} {next : α → Except ε β} {e : ε} :
    x >>= next = .error e ↔ x = .error e ∨ ∃ a, x = .ok a ∧ next a = .error e := by
  cases x with
  | ok a =>
    refine ⟨fun h => .inr ⟨a, rfl, h⟩, fun h => ?_⟩
    rcases h with h | ⟨b, hb, h⟩
    · cases h
    · obtain rfl : a = b := Except.ok.inj hb
      exact h
  | error d =>
    refine ⟨fun h => .inl (congrArg Except.error (Except.error.inj h)), fun h => ?_⟩
    rcases h with h | ⟨b, hb, -⟩
    · exact congrArg Except.error (Except.error.inj h)
    · cases hb

/-- A success that is renamed where it fails is the same success. -/
theorem mapError_eq_ok_iff {ε δ α : Type} {x : Except ε α} {f : ε → δ} {a : α} :
    x.mapError f = .ok a ↔ x = .ok a := by
  cases x with
  | ok b =>
    change (Except.ok b : Except δ α) = .ok a ↔ _
    simp only [Except.ok.injEq]
  | error e =>
    change (Except.error (f e) : Except δ α) = .ok a ↔ _
    simp only [reduceCtorEq]

/-- A failure that is renamed is that of a failure. -/
theorem exists_of_mapError {ε δ α : Type} {x : Except ε α} {f : ε → δ} {d : δ}
    (h : x.mapError f = .error d) : ∃ e, x = .error e ∧ f e = d := by
  cases x with
  | ok a => cases h
  | error e => exact ⟨e, rfl, Except.error.inj h⟩

namespace Effect

variable {σ α β : Type}

/-! ### Taking a sequence apart -/

/-- After a success, a sequence is its second part. -/
theorem run_bind_ok {act : Effect σ α} {next : α → Effect σ β} {s t : σ} {a : α}
    (h : act.run s = (.ok a, t)) : (act >>= next).run s = (next a).run t := by
  rw [run_bind, h]

/-- After a fault, a sequence is over. -/
theorem run_bind_error {act : Effect σ α} {next : α → Effect σ β} {s t : σ} {fault : Fault}
    (h : act.run s = (.error fault, t)) : (act >>= next).run s = (.error fault, t) := by
  rw [run_bind, h]

/-- A sequence that succeeds has a first part that does, and a second one from there. -/
theorem exists_of_run_bind {act : Effect σ α} {next : α → Effect σ β} {s u : σ} {b : β}
    (h : (act >>= next).run s = (.ok b, u)) :
    ∃ a t, act.run s = (.ok a, t) ∧ (next a).run t = (.ok b, u) := by
  rw [run_bind] at h
  rcases hs : act.run s with ⟨_ | a, t⟩ <;> rw [hs] at h
  · exact absurd (congrArg Prod.fst h) (by simp)
  · exact ⟨a, t, rfl, h⟩

/-- The outcome that an attempt yields is that of the computation. -/
theorem run_of_run_attempt {act : Effect σ α} {s t : σ} {outcome : Except Fault α}
    (h : (attempt act).run s = (.ok outcome, t)) : act.run s = (outcome, t) := by
  rw [run_attempt] at h
  obtain ⟨houtcome, hstate⟩ := Prod.mk.inj h
  exact Prod.ext (Except.ok.inj houtcome) hstate

/-- The fault that is reported of several outcomes is one of theirs. -/
theorem mem_of_allOrFirstFault {outcomes : List (Except Fault α)} {fault : Fault}
    (h : allOrFirstFault outcomes = .error fault) : .error fault ∈ outcomes := by
  induction outcomes with
  | nil => cases h
  | cons outcome rest ih =>
    cases outcome with
    | error other =>
      obtain rfl : other = fault := Except.error.inj h
      exact List.mem_cons_self
    | ok a =>
      rw [allOrFirstFault] at h
      cases hrest : allOrFirstFault rest with
      | ok results =>
        rw [hrest] at h
        cases h
      | error other =>
        rw [hrest] at h
        obtain rfl : other = fault := Except.error.inj h
        exact List.mem_cons_of_mem _ (ih hrest)

/-! ### Properties that every run keeps -/

/-- From a state with the property a run ends in one that has it, and its result, if there is one,
has another property. -/
def Upholds (P : σ → Prop) (act : Effect σ α) (Q : α → Prop) : Prop :=
  ∀ s, P s → P (act.run s).2 ∧ ∀ a, (act.run s).1 = .ok a → Q a

/-- From a state with the property every run ends in one that has it. -/
abbrev Keeps (P : σ → Prop) (act : Effect σ α) : Prop := Upholds P act fun _ => True

namespace Upholds

variable {P : σ → Prop} {Q Q' : α → Prop} {R : β → Prop} {act : Effect σ α}
  {next : α → Effect σ β}

/-- A run that is known ends in a state with the property. -/
theorem of_run (h : Upholds P act Q) {s t : σ} {outcome : Except Fault α} (hs : P s)
    (hr : act.run s = (outcome, t)) : P t := by
  have ht := (h s hs).1
  rwa [hr] at ht

/-- What changes nothing keeps every property. -/
theorem ofExcept {outcome : Except Fault α} (h : ∀ a, outcome = .ok a → Q a) :
    Upholds P (Effect.ofExcept outcome) Q := fun _ hs => ⟨hs, h⟩

/-- Yielding a result changes nothing. -/
theorem pure {a : α} (h : Q a) : Upholds P (Pure.pure a : Effect σ α) Q :=
  fun _ hs => ⟨hs, fun _ ha => Except.ok.inj ha ▸ h⟩

/-- Ending in a fault changes nothing. -/
theorem throw (fault : Fault) : Upholds P (MonadExcept.throw fault : Effect σ α) Q :=
  fun _ hs => ⟨hs, nofun⟩

/-- What is read is a state with the property. -/
theorem get : Upholds P (MonadState.get : Effect σ σ) P :=
  fun _ hs => ⟨hs, fun _ ha => Except.ok.inj ha ▸ hs⟩

/-- A change that keeps the property. -/
theorem modify {f : σ → σ} (h : ∀ s, P s → P (f s)) : Keeps P (modify f : Effect σ PUnit) :=
  fun s hs => ⟨h s hs, fun _ _ => trivial⟩

/-- A sequence keeps the property when its first part does and, whatever that yields, its second
part does. -/
theorem bind (h : Upholds P act Q) (hn : ∀ a, Q a → Upholds P (next a) R) :
    Upholds P (act >>= next) R := by
  intro s hs
  obtain ⟨hP, hQ⟩ := h s hs
  rw [run_bind]
  rcases hrun : act.run s with ⟨fault | a, t⟩ <;> rw [hrun] at hP hQ
  · exact ⟨hP, nofun⟩
  · exact hn a (hQ a rfl) t hP

/-- A result of which less is said. -/
theorem weaken (h : Upholds P act Q) (hQ : ∀ a, Q a → Q' a) : Upholds P act Q' :=
  fun s hs => ⟨(h s hs).1, fun a ha => hQ a ((h s hs).2 a ha)⟩

/-- Of the result nothing need be said. -/
theorem keeps (h : Upholds P act Q) : Keeps P act := h.weaken fun _ _ => trivial

/-- What would come after a fault does not count. -/
theorem throw_bind (fault : Fault) (next : α → Effect σ β) :
    Upholds P ((MonadExcept.throw fault : Effect σ α) >>= next) R :=
  bind (Q := fun _ => False) (throw fault) fun _ ha => ha.elim

/-- Turning a fault into a value changes no state. -/
theorem attempt (h : Upholds P act Q) : Keeps P (Effect.attempt act) :=
  fun s hs => ⟨(h s hs).1, fun _ _ => trivial⟩

/-- What is done at the end, whatever the outcome is. -/
theorem ensuring (h : Upholds P act Q) {last : σ → σ} (hl : ∀ s, P s → P (last s)) :
    Upholds P (Effect.ensuring act last) Q := fun s hs => ⟨hl _ (h s hs).1, (h s hs).2⟩

/-- A list of computations, each run to its end. -/
theorem attemptAll {each : β → Effect σ α} {items : List β} (h : ∀ b ∈ items, Keeps P (each b)) :
    Keeps P (Effect.attemptAll each items) := by
  induction items with
  | nil => exact pure trivial
  | cons b bs ih =>
    rw [List.forall_mem_cons] at h
    exact bind h.1.attempt fun _ _ => bind (ih h.2) fun _ _ => pure trivial

/-- Waiting for computations keeps what all of them and the wait keep. -/
theorem gather {wait : Wait σ} {each : β → Effect σ α} (hb : Keeps P wait.before)
    (ha : Keeps P wait.after) {items : List β} (h : ∀ b ∈ items, Keeps P (each b)) :
    Keeps P (Effect.gather wait each items) := by
  unfold Effect.gather
  split
  · exact pure trivial
  · exact bind hb fun _ _ => bind (attemptAll h) fun _ _ => bind ha fun _ _ =>
      ofExcept fun _ _ => trivial

/-- The stages of a rule keep what the adapters they ask and the wait for them keep. -/
theorem applyAll {κ : Type} (adapters : Adapters σ κ) (stages : List (Stage κ))
    (hcall : ∀ adapter inputs outputs, .query adapter inputs outputs ∈ stages →
      ∀ args, Keeps P (adapters.call adapter args))
    (hb : Keeps P adapters.wait.before) (ha : Keeps P adapters.wait.after)
    (frames : List Frame) : Keeps P (Stage.applyAll adapters stages frames) := by
  induction stages generalizing frames with
  | nil => exact pure trivial
  | cons stage rest ih =>
    unfold Stage.applyAll
    split
    · exact pure trivial
    have hrest := ih fun adapter inputs outputs hmem =>
      hcall adapter inputs outputs (List.mem_cons_of_mem _ hmem)
    refine bind (Q := fun _ => True) ?_ fun kept _ => hrest kept
    cases stage with
    | filter test => exact ofExcept fun _ _ => trivial
    | map change => exact ofExcept fun _ _ => trivial
    | query adapter inputs outputs =>
      refine bind (gather hb ha fun frame _ => ?_) fun _ _ => pure trivial
      refine bind (ofExcept fun _ _ => trivial) fun args (_ : True) =>
        bind (Q := fun _ => True) ?_ fun _ _ => ofExcept fun _ _ => trivial
      refine bind (hcall adapter inputs outputs List.mem_cons_self args).attempt fun outcome _ => ?_
      cases outcome with
      | ok answer => exact ofExcept fun _ _ => trivial
      | error fault => exact throw _

end Upholds

/-! ### Relations that every run respects -/

/-- Every run moves the state along the relation. -/
def Moves (R : σ → σ → Prop) (act : Effect σ α) : Prop := ∀ s, R s (act.run s).2

namespace Moves

variable {R : σ → σ → Prop} {act : Effect σ α} {next : α → Effect σ β}

/-- A run that is known moves the state along the relation. -/
theorem of_run (h : Moves R act) {s t : σ} {outcome : Except Fault α}
    (hr : act.run s = (outcome, t)) : R s t := by
  have ht := h s
  rwa [hr] at ht

/-- A relation that is reflexive is respected by what changes nothing. -/
theorem ofExcept [Std.Refl R] (outcome : Except Fault α) : Moves R (Effect.ofExcept outcome) :=
  fun s => refl s

/-- Yielding a result changes nothing. -/
theorem pure [Std.Refl R] (a : α) : Moves R (Pure.pure a : Effect σ α) :=
  fun s => refl s

/-- Ending in a fault changes nothing. -/
theorem throw [Std.Refl R] (fault : Fault) : Moves R (MonadExcept.throw fault : Effect σ α) :=
  fun s => refl s

/-- What would come after a fault does not count. -/
theorem throw_bind [Std.Refl R] (fault : Fault) (next : α → Effect σ β) :
    Moves R ((MonadExcept.throw fault : Effect σ α) >>= next) := by
  intro s
  rw [run_bind, run_throw]
  exact refl s

/-- A sequence moves along a transitive relation when its first part does and, whatever that yields,
its second part does. -/
theorem bind_of_ok [IsTrans σ R] (h : Moves R act)
    (hn : ∀ s a t, act.run s = (.ok a, t) → Moves R (next a)) : Moves R (act >>= next) := by
  intro s
  rw [run_bind]
  have ht := h s
  rcases hs : act.run s with ⟨_ | a, t⟩ <;> rw [hs] at ht
  · exact ht
  · exact IsTrans.trans _ _ _ ht (hn s a t hs t)

/-- A sequence moves along a transitive relation when both of its parts do. -/
theorem bind [IsTrans σ R] (h : Moves R act) (hn : ∀ a, Moves R (next a)) :
    Moves R (act >>= next) := bind_of_ok h fun _ a _ _ => hn a

/-- What is read changes nothing, so only what is done with it counts. -/
theorem get_bind {next : σ → Effect σ β} {s : σ} (h : R s ((next s).run s).2) :
    R s ((MonadState.get >>= next : Effect σ β).run s).2 := by
  rw [run_bind]
  exact h

/-- Turning a fault into a value changes no state. -/
theorem attempt (h : Moves R act) : Moves R (Effect.attempt act) := fun s => h s

/-- A relation that is reflexive and transitive is moved along by what keeps being related to any
state. -/
theorem iff_keeps [IsPreorder σ R] : Moves R act ↔ ∀ s, Keeps (R s) act :=
  ⟨fun h _ t ht => ⟨IsTrans.trans _ _ _ ht (h t), fun _ _ => trivial⟩,
    fun h s => (h s s (refl s)).1⟩

/-- A list of computations, each run to its end, moves along a relation that each moves along. -/
theorem attemptAll [IsPreorder σ R] {each : β → Effect σ α}
    {items : List β} (h : ∀ b ∈ items, Moves R (each b)) :
    Moves R (Effect.attemptAll each items) :=
  iff_keeps.mpr fun s => Upholds.attemptAll fun b hb => iff_keeps.mp (h b hb) s

/-- Waiting for computations moves along a relation that all of them and the wait move along. -/
theorem gather [IsPreorder σ R] {wait : Wait σ} {each : β → Effect σ α}
    (hb : Moves R wait.before) (ha : Moves R wait.after) {items : List β}
    (h : ∀ b ∈ items, Moves R (each b)) : Moves R (Effect.gather wait each items) :=
  iff_keeps.mpr fun s => Upholds.gather (iff_keeps.mp hb s) (iff_keeps.mp ha s)
    fun b hmem => iff_keeps.mp (h b hmem) s

/-- The stages of a rule move along a relation that the adapters they ask and the wait for them move
along. -/
theorem applyAll [IsPreorder σ R] {κ : Type} (adapters : Adapters σ κ) (stages : List (Stage κ))
    (hcall : ∀ adapter inputs outputs, .query adapter inputs outputs ∈ stages →
      ∀ args, Moves R (adapters.call adapter args))
    (hb : Moves R adapters.wait.before) (ha : Moves R adapters.wait.after)
    (frames : List Frame) : Moves R (Stage.applyAll adapters stages frames) :=
  iff_keeps.mpr fun s => Upholds.applyAll adapters stages
    (fun adapter inputs outputs hmem args =>
      iff_keeps.mp (hcall adapter inputs outputs hmem args) s)
    (iff_keeps.mp hb s) (iff_keeps.mp ha s) frames

end Moves

/-! ### What a run comes to -/

/-- On every state that shows the first picture, the computation ends with the outcome and leaves a
state that shows the second one. -/
def Yields {τ : Type} (shows : σ → τ → Prop) (act : Effect σ α) (before : τ)
    (outcome : Except Fault α) (after : τ) : Prop :=
  ∀ s, shows s before → ∃ s', act.run s = (outcome, s') ∧ shows s' after

namespace Yields

variable {τ : Type} {shows : σ → τ → Prop} {act : Effect σ α} {next : α → Effect σ β}
  {before between after : τ} {outcome : Except Fault β}

/-- What is yielded without a computation. -/
theorem ofExcept (outcome : Except Fault α) (picture : τ) :
    Yields shows (Effect.ofExcept outcome) picture outcome picture :=
  fun s h => ⟨s, rfl, h⟩

/-- A sequence goes on after a success. -/
theorem bind {a : α} (h : Yields shows act before (.ok a) between)
    (hn : Yields shows (next a) between outcome after) :
    Yields shows (act >>= next) before outcome after := by
  intro s hs
  obtain ⟨t, ht, hshows⟩ := h s hs
  rw [run_bind_ok ht]
  exact hn t hshows

/-- A sequence is over after a fault. -/
theorem bind_error {fault : Fault} (h : Yields shows act before (.error fault) after) :
    Yields shows (act >>= next) before (.error fault) after := by
  intro s hs
  obtain ⟨t, ht, hshows⟩ := h s hs
  exact ⟨t, run_bind_error ht, hshows⟩

/-- The outcome of a computation as a value. -/
theorem attempt {outcome : Except Fault α} (h : Yields shows act before outcome after) :
    Yields shows (Effect.attempt act) before (.ok outcome) after := by
  intro s hs
  obtain ⟨t, ht, hshows⟩ := h s hs
  exact ⟨t, by rw [run_attempt, ht], hshows⟩

/-- What is read of the state is a state that shows the picture. -/
theorem get_bind {next : σ → Effect σ β}
    (h : ∀ s, shows s before → Yields shows (next s) before outcome after) :
    Yields shows (get >>= next) before outcome after := by
  intro s hs
  rw [run_bind_ok (run_get s)]
  exact h s hs s hs

/-- Nobody waits for nothing. -/
theorem gather_nil (wait : Wait σ) (each : β → Effect σ α) (picture : τ) :
    Yields shows (Effect.gather wait each []) picture (.ok []) picture :=
  fun s h => ⟨s, rfl, h⟩

/-- The wait for one computation is a wait, the computation, and a wait. -/
theorem gather_one {wait : Wait σ} {each : β → Effect σ α} {item : β}
    {outcome : Except Fault α} (hb : Yields shows wait.before before (.ok ()) before)
    (h : Yields shows (each item) before outcome after)
    (ha : Yields shows wait.after after (.ok ()) after) :
    Yields shows (Effect.gather wait each [item]) before (outcome.map fun a => [a]) after := by
  have hlast : allOrFirstFault [outcome] = outcome.map fun a => [a] := by
    cases outcome <;> rfl
  have hall : Yields shows (attemptAll each [item]) before (.ok [outcome]) after :=
    bind h.attempt (bind (ofExcept (.ok []) after) (ofExcept (.ok [outcome]) after))
  refine bind hb (bind hall (bind ha ?_))
  rw [hlast]
  exact ofExcept _ after

end Yields

end Effect

end HerdBook
