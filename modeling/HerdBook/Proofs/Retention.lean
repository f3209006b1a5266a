import HerdBook.Proofs.Motions
import HerdBook.Proofs.Steps
import HerdBook.Proofs.Tables
import Mathlib.Data.List.Perm.Subperm

/-!
# Which flows are kept

A flow that is started may make more flows than are to be retained. Then the oldest ones are let go
that nobody works on, and a flow counts as worked on while its queue is being worked off: not yet
while the action that begins a round is performed, nor while all rules are evaluated again.

* `Engine.IsWorkedOn`: the id stands for a flow whose queue is being worked off.

## Main results

* `Table.foldl_erase`: erasing keys leaves the entries with other keys, in their order.
* `Engine.moves_keepsIds_answer`: no id ever stands for two flows.
* `Engine.drain_retains`: a flow whose queue has been worked off is still there.
* `Engine.retained_evict_openFlow`: which flows are left after others are let go for a new one.
* `Engine.startFlow_retains`: what a flow that is started makes an engine forget, and that a flow
  that is worked on is kept whatever is asked of the engine meanwhile.
-/

namespace HerdBook

open Effect

namespace Table

variable {α β : Type} [DecidableEq α]

/-- Erasing keys leaves the entries with other keys, in their order. -/
theorem foldl_erase (gone : List α) {entries : List (α × β)} (h : (keys entries).Nodup) :
    gone.foldl (fun acc key => erase key acc) entries
      = entries.filter fun entry => entry.1 ∉ gone := by
  induction gone generalizing entries with
  | nil => exact (List.filter_eq_self.mpr fun _ _ => by simp).symm
  | cons key rest ih =>
    have hkeys : (keys (erase key entries)).Nodup := keys_erase key entries ▸ h.erase key
    rw [List.foldl_cons, ih hkeys, erase_eq_filter key h, List.filter_filter]
    refine List.filter_congr fun entry _ => ?_
    rw [← Bool.decide_and]
    exact decide_eq_decide.mpr (by rw [List.mem_cons, not_or, and_comm])

/-- Without keys that it has, each once, a table has that many entries less. -/
theorem length_filter_add_le {gone : List α} {entries : List (α × β)} (hg : gone.Nodup)
    (hs : gone ⊆ keys entries) :
    (entries.filter fun entry => entry.1 ∉ gone).length + gone.length ≤ entries.length := by
  have hgone : gone ⊆ keys (entries.filter fun entry => entry.1 ∈ gone) := fun key hkey => by
    obtain ⟨entry, he, rfl⟩ := List.mem_map.mp (hs hkey)
    exact List.mem_map_of_mem (List.mem_filter.mpr ⟨he, decide_eq_true hkey⟩)
  have hsub := (List.subperm_of_subset hg hgone).length_le
  rw [keys, List.length_map] at hsub
  have hall := List.length_eq_length_filter_add (l := entries) fun entry => decide (entry.1 ∈ gone)
  simp only [← decide_not] at hall
  omega

end Table

variable {ω κ α β : Type}

namespace Engine

/-- The engine without the flows with the ids. -/
theorem foldl_endFlow (ids : List String) (engine : Engine ω κ) :
    ids.foldl (fun acc id => acc.endFlow id) engine
      = { engine with
          retained := ids.foldl (fun acc id => Table.erase id acc) engine.retained } := by
  induction ids generalizing engine with
  | nil => rfl
  | cons id rest ih => exact ih (engine.endFlow id)

/-! ### No id stands for two flows -/

/-- When no id stood for two flows, none does. -/
def KeepsIds (engine engine' : Engine ω κ) : Prop :=
  (Table.keys engine.retained).Nodup → (Table.keys engine'.retained).Nodup

instance : IsPreorder (Engine ω κ) KeepsIds where
  refl _ := id
  trans _ _ _ h h' := h' ∘ h

/-- The same ids are kept. -/
theorem keepsIds_of_eq {engine engine' : Engine ω κ} (h : engine'.retained = engine.retained) :
    KeepsIds engine engine' := fun hn => h ▸ hn

/-- Most steps of a round leave the ids. -/
theorem isRoutine_keepsIds : IsRoutine (KeepsIds (ω := ω) (κ := κ)) where
  refl := Std.Refl.refl
  trans := IsTrans.trans
  aside h := keepsIds_of_eq h.retained
  books _ _ _ := fun _ => keepsIds_of_eq rfl

/-- Forgetting a flow. -/
theorem keepsIds_endFlow (id : String) (engine : Engine ω κ) :
    KeepsIds engine (endFlow id engine) :=
  fun hn => Table.keys_erase id engine.retained ▸ hn.erase id

/-- Opening a flow. -/
theorem keepsIds_openFlow (id : String) (started : Nat) (engine : Engine ω κ) :
    KeepsIds engine (openFlow id { engine with started := started }) :=
  fun hn => Table.nodup_keys_set _ _ hn

/-- Performing an action, when the handlers do. -/
theorem moves_keepsIds_perform {handlers : Handlers ω κ}
    (hh : ∀ concept action input, Moves KeepsIds (handlers.perform concept action input))
    (concept action : String) (input : Value) (id : String) :
    Moves KeepsIds (perform handlers concept action input id) :=
  isRoutine_keepsIds.moves_perform (isRoutine_keepsIds.moves_serialOrNew fun engine _ =>
    keepsIds_openFlow id engine.started engine) hh (fun _ _ _ _ _ _ => keepsIds_of_eq rfl) concept
    action input

/-- Working on a flow. -/
theorem moves_keepsIds_drain {handlers : Handlers ω κ} (h : Follows KeepsIds handlers)
    (id : String) : Moves KeepsIds (drain handlers id) := by
  refine Moves.bind (h.moves_serial id) fun serial => Moves.bind h.moves_state fun flow => ?_
  split
  · exact Moves.pure _
  · refine Moves.bind (fun _ => keepsIds_of_eq rfl) fun _ => Moves.bind h.moves_get fun engine => ?_
    exact fun engine₁ => h.moves_drainLoop (fun _ => keepsIds_of_eq rfl) _ engine₁

/-- Whatever the engine is asked, no id stands for two flows. -/
theorem moves_keepsIds_answer (host : Host ω κ) (depth : Nat) (call : EngineCall κ) :
    Moves KeepsIds (answer host depth call) := by
  induction depth generalizing call with
  | zero => exact Moves.throw _
  | succ depth ih =>
    have hprogram : ∀ {γ : Type} (program : Program ω κ γ),
        Moves KeepsIds (program.run (answer host depth)) :=
      isRoutine_keepsIds.moves_program_of_forall ih
    have hfollows : Follows KeepsIds (host.handlers (answer host depth) depth) :=
      ⟨isRoutine_keepsIds, moves_keepsIds_perform fun _ _ _ => hprogram _, fun _ _ => hprogram _⟩
    exact hfollows.moves_answerWith (fun _ _ _ => hprogram _) (fun _ _ _ => hprogram _)
      (moves_startFlow (fun engine => keepsIds_openFlow _ _ engine)
        (evict_of_endFlow keepsIds_endFlow)) (fun _ _ _ => keepsIds_of_eq rfl)
      (moves_keepsIds_drain hfollows) call
      fun id _ => keepsIds_endFlow id

/-! ### Flows that are worked on -/

/-- The id stands for the flow with the number, and for no flow that is started later; the queue of
the flow is being worked off. -/
structure IsWorkedOn (id : String) (serial : Nat) (engine : Engine ω κ) : Prop where
  ids : (Table.keys engine.retained).Nodup
  retained : Table.get? id engine.retained = some serial
  busy : engine.isBusy serial = true
  later : ∀ k, engine.started < k → flowId k ≠ id

/-- A flow that was worked on is. -/
def KeepsWork (id : String) (serial : Nat) (engine engine' : Engine ω κ) : Prop :=
  engine.IsWorkedOn id serial → engine'.IsWorkedOn id serial

section Work

variable {id : String} {serial : Nat} {engine engine' : Engine ω κ}

instance : IsPreorder (Engine ω κ) (KeepsWork id serial) where
  refl _ := fun h => h
  trans _ _ _ h h' := h' ∘ h

/-- What nobody works on depends on the flows alone. -/
theorem isBusy_change {n : Nat} {f : Flow → Flow}
    (hf : n = serial → ∀ flow, (f flow).draining = flow.draining) (engine : Engine ω κ) :
    (engine.change n f).isBusy serial = engine.isBusy serial := by
  change ((engine.states.modify n f)[serial]?).any _ = (engine.states[serial]?).any _
  rw [List.getElem?_modify]
  cases engine.states[serial]? with
  | none => rfl
  | some flow =>
    change (if n = serial then f flow else flow).draining = flow.draining
    split
    · next hn => exact hf hn flow
    · rfl

/-- A change of flows that leaves this one worked on. -/
theorem moves_keepsWork_update {n : Nat} {f : Flow → Flow}
    (hf : n = serial → ∀ flow, (f flow).draining = flow.draining) :
    Moves (KeepsWork (ω := ω) (κ := κ) id serial) (update n f) :=
  fun engine h => ⟨h.ids, h.retained, (isBusy_change hf engine).trans h.busy, h.later⟩

/-- Most steps of a round are such changes. -/
theorem isRoutine_keepsWork : IsRoutine (KeepsWork (ω := ω) (κ := κ) id serial) where
  refl := Std.Refl.refl
  trans := IsTrans.trans
  aside h := fun hw => ⟨h.retained ▸ hw.ids, h.retained ▸ hw.retained,
    by unfold isBusy; exact h.states ▸ hw.busy, h.started ▸ hw.later⟩
  books _ _ hf := moves_keepsWork_update fun _ => hf.draining

/-- Taking an event off a queue leaves it worked on. -/
theorem moves_keepsWork_dequeue (n : Nat) :
    Moves (KeepsWork (ω := ω) (κ := κ) id serial) (dequeue n) :=
  Moves.bind isRoutine_keepsWork.moves_state fun _ =>
    Moves.bind (moves_keepsWork_update fun _ _ => rfl) fun _ => Moves.pure _

/-- Opening a flow under another id. -/
theorem IsWorkedOn.opened (h : engine.IsWorkedOn id serial) {other : String} (hne : other ≠ id)
    {started : Nat} (hs : engine.started ≤ started) :
    (openFlow other { engine with started := started }).IsWorkedOn id serial where
  ids := Table.nodup_keys_set _ _ h.ids
  retained := by
    change Table.get? id (Table.set other _ engine.retained) = _
    rw [Table.get?_set, if_neg hne, h.retained]
  busy := by
    have hbusy := h.busy
    unfold isBusy at hbusy ⊢
    change ((engine.states ++ [Flow.start other])[serial]?).any _ = true
    cases hflow : engine.states[serial]? with
    | none =>
      rw [hflow] at hbusy
      exact absurd hbusy Bool.false_ne_true
    | some flow =>
      rw [List.getElem?_append_left (List.getElem?_eq_some_iff.mp hflow).1]
      exact hbusy
  later k hk := h.later k (Nat.lt_of_le_of_lt hs hk)

/-- Forgetting other flows. -/
theorem IsWorkedOn.erase (h : engine.IsWorkedOn id serial) {gone : List String} (hg : id ∉ gone) :
    IsWorkedOn id serial { engine with
      retained := engine.retained.filter fun entry => entry.1 ∉ gone } where
  ids := h.ids.sublist (List.filter_sublist.map _)
  retained := by
    have hmem : (id, serial) ∈ engine.retained.filter fun entry => entry.1 ∉ gone :=
      List.mem_filter.mpr ⟨Table.mem_of_get? h.retained, decide_eq_true hg⟩
    exact Table.get?_of_mem (h.ids.sublist (List.filter_sublist.map _)) hmem
  busy := h.busy
  later := h.later

/-- A flow that somebody works on is not among those that may be let go. -/
theorem not_mem_idle_of_isBusy (hn : (Table.keys engine.retained).Nodup) {entry : String × Nat}
    (he : entry ∈ engine.retained) (hbusy : engine.isBusy entry.2 = true) (keep : String) :
    entry.1 ∉ engine.idle keep := by
  intro hid
  obtain ⟨other, hother, hsame⟩ := List.mem_map.mp hid
  obtain ⟨hmem, hidle⟩ := List.mem_filter.mp hother
  have hentry : other.2 = entry.2 := by
    have hget := Table.get?_of_mem hn he
    rw [← hsame, Table.get?_of_mem hn hmem] at hget
    exact Option.some.inj hget
  rw [hentry, hbusy] at hidle
  exact absurd hidle (by simp)

/-- What letting flows go leaves. -/
theorem evict_eq (hn : (Table.keys engine.retained).Nodup) (keep : String) (excess : Nat) :
    engine.evict keep excess = { engine with
      retained := engine.retained.filter fun entry =>
        entry.1 ∉ (engine.idle keep).take excess } := by
  rw [evict, foldl_endFlow, Table.foldl_erase _ hn]

/-- Letting flows go. -/
theorem keepsWork_evict (keep : String) (excess : Nat) (engine : Engine ω κ) :
    KeepsWork id serial engine (engine.evict keep excess) := by
  intro h
  rw [evict_eq h.ids]
  exact h.erase fun hid => not_mem_idle_of_isBusy h.ids (Table.mem_of_get? h.retained) h.busy keep
    (List.mem_of_mem_take hid)

/-- Performing an action, when the handlers do. -/
theorem moves_keepsWork_perform {handlers : Handlers ω κ}
    (hh : ∀ concept action input,
      Moves (KeepsWork id serial) (handlers.perform concept action input))
    (concept action : String) (input : Value) (other : String) :
    Moves (KeepsWork id serial) (perform handlers concept action input other) := by
  refine isRoutine_keepsWork.moves_perform
    (isRoutine_keepsWork.moves_serialOrNew fun engine hfree h => ?_) hh
    (fun _ _ _ _ _ => Moves.bind (fun _ hw => hw) fun _ =>
      Moves.bind (moves_keepsWork_update fun _ _ => rfl) fun _ => Moves.pure _) concept action input
  have hne : other ≠ id := by
    rintro rfl
    exact absurd (h.retained.symm.trans hfree) (by simp)
  exact h.opened hne (Nat.le_refl _)

/-- Working on a flow: on this one somebody works already. -/
theorem moves_keepsWork_drain {handlers : Handlers ω κ}
    (h : Follows (KeepsWork id serial) handlers) (other : String) :
    Moves (KeepsWork id serial) (drain handlers other) := by
  refine Moves.bind (h.moves_serial other) fun n => ?_
  intro engine hw
  have hstate : (state n).run engine = (.ok ((engine.states[n]?).getD default), engine) := rfl
  rw [run_bind_ok hstate]
  by_cases hn : n = serial
  · subst hn
    have hbusy : ((engine.states[n]?).getD default).draining = true := by
      have hany := hw.busy
      unfold isBusy at hany
      cases hflow : engine.states[n]? with
      | none =>
        rw [hflow] at hany
        exact absurd hany Bool.false_ne_true
      | some flow =>
        rw [hflow] at hany
        exact hany
    rw [if_pos hbusy]
    exact hw
  · have hset : ∀ draining, Moves (KeepsWork (ω := ω) (κ := κ) id serial)
        (update n fun flow => { flow with draining := draining }) :=
      fun _ => moves_keepsWork_update fun he => absurd he hn
    have hrest : Moves (KeepsWork id serial) (do
        update n fun flow => { flow with draining := true }
        let times := remaining handlers (← get) n
        Effect.ensuring (drainLoop handlers n times)
          (change n fun flow => { flow with draining := false })) :=
      Moves.bind (hset true) fun _ => Moves.bind h.moves_get fun engine => fun engine₁ =>
        IsTrans.trans _ _ _ (h.moves_drainLoop (moves_keepsWork_dequeue n) _ engine₁) (hset false _)
    split
    · exact hw
    · exact hrest engine hw

/-- Programs that do not end the flow keep it when the answers to their other calls do. -/
theorem follows_keepsWork_of {host : Host ω κ} (hh : host.Places fun call => call ≠ .endFlow id)
    {inner : (call : EngineCall κ) → Effect (Engine ω κ) call.Answer} (depth : Nat)
    (hinner : ∀ call, call ≠ .endFlow id → Moves (KeepsWork id serial) (inner call)) :
    Follows (KeepsWork id serial) (host.handlers inner depth) :=
  ⟨isRoutine_keepsWork, moves_keepsWork_perform fun concept action input =>
    isRoutine_keepsWork.moves_program hinner (hh.perform concept action (.object input)),
    fun adapter args => isRoutine_keepsWork.moves_program hinner (hh.adapt adapter args)⟩

/-- A flow that is worked on is kept whatever the engine is asked, unless it is ended. -/
theorem moves_keepsWork_answer {host : Host ω κ} (hh : host.Places fun call => call ≠ .endFlow id)
    (depth : Nat) (call : EngineCall κ) (hc : call ≠ .endFlow id) :
    Moves (KeepsWork id serial) (answer host depth call) := by
  induction depth generalizing call with
  | zero => exact Moves.throw _
  | succ depth ih =>
    have hprogram : ∀ {γ : Type} {program : Program ω κ γ},
        program.Places (fun call => call ≠ .endFlow id) →
        Moves (KeepsWork id serial) (program.run (answer host depth)) :=
      fun hp => isRoutine_keepsWork.moves_program ih hp
    have hfollows := follows_keepsWork_of hh depth ih
    refine hfollows.moves_answerWith (fun concept action args => hprogram (hh.perform ..))
      (fun concept name args => hprogram (hh.query ..))
      (moves_startFlow
        (fun engine h => h.opened (h.later _ (Nat.lt_succ_self _)) (Nat.le_succ _)) keepsWork_evict)
      (fun _ _ _ h => ⟨h.ids, h.retained, h.busy, h.later⟩)
      (moves_keepsWork_drain hfollows) call fun other hother engine h => ?_
    have hne : other ≠ id := fun he => hc (he ▸ hother)
    rw [show endFlow other engine = _ from foldl_endFlow [other] engine,
      Table.foldl_erase _ h.ids]
    exact h.erase fun hmem => hne (List.mem_singleton.mp hmem).symm

/-- A flow whose queue has been worked off is still there, whatever the engine was asked meanwhile,
unless it was ended. -/
theorem drain_retains {host : Host ω κ} (hh : host.Places fun call => call ≠ .endFlow id)
    (depth : Nat) (hn : (Table.keys engine.retained).Nodup) (hl : engine.IsLocated)
    (hr : Table.get? id engine.retained = some serial)
    (hlater : ∀ k, engine.started < k → flowId k ≠ id) :
    Table.get? id ((drain (host.handlers (answer host depth) depth) id).run engine).2.retained
      = some serial := by
  have hserial : (Engine.serial id).run engine = (.ok serial, engine) := by
    unfold Engine.serial
    rw [run_bind_ok (run_get engine), hr]
    rfl
  have hstate : (state serial).run engine = (.ok ((engine.states[serial]?).getD default), engine) :=
    rfl
  unfold drain
  rw [run_bind_ok hserial, run_bind_ok hstate]
  split
  · exact hr
  obtain ⟨flow, hflow, -⟩ := hl _ (Table.mem_of_get? hr)
  have hworked : (engine.change serial fun flow => { flow with draining := true }).IsWorkedOn id
      serial := by
    refine ⟨hn, hr, ?_, hlater⟩
    change ((engine.states.modify serial _)[serial]?).any _ = true
    rw [List.getElem?_modify_eq, hflow]
    rfl
  exact ((follows_keepsWork_of hh depth (moves_keepsWork_answer hh depth)).moves_drainLoop
    (moves_keepsWork_dequeue serial) _ _ hworked).retained

/-- Nobody works on a flow that is just opened. -/
theorem isBusy_openFlow (id : String) (n : Nat) (engine : Engine ω κ) :
    (openFlow id engine).isBusy n = engine.isBusy n := by
  change ((engine.states ++ [Flow.start id])[n]?).any _ = (engine.states[n]?).any _
  rcases Nat.lt_trichotomy n engine.states.length with hlt | rfl | hgt
  · rw [List.getElem?_append_left hlt]
  · rw [List.getElem?_concat_length, List.getElem?_eq_none (Nat.le_refl _)]
    rfl
  · rw [List.getElem?_eq_none (Nat.le_of_lt hgt),
      List.getElem?_eq_none (by rw [List.length_append]; exact hgt)]

/-- So the flows that may be let go for it are those that could be before. -/
theorem idle_openFlow (hfree : Table.get? id engine.retained = none) :
    (openFlow id engine).idle id = engine.idle id := by
  unfold idle
  simp only [isBusy_openFlow]
  change List.map _ (List.filter _ (Table.set id _ engine.retained)) = _
  rw [Table.set_eq_append _ hfree, List.filter_append, List.filter_cons_of_neg (by simp)]
  rw [List.filter_nil, List.append_nil]

/-- It comes after all others. -/
theorem retained_openFlow (hfree : Table.get? id engine.retained = none) :
    (openFlow id engine).retained = engine.retained ++ [(id, engine.states.length)] :=
  Table.set_eq_append _ hfree

/-- Where flows are counted, those beyond the limit are to be let go for it. -/
theorem excess_openFlow (hfree : Table.get? id engine.retained = none) {limit : Int}
    (hm : engine.maxRetained = .count limit) :
    (openFlow id engine).excess
      = some ((engine.retained.length + 1 : Nat) - limit : Int).toNat := by
  have hmax : (openFlow id engine).maxRetained = .count limit := hm
  unfold excess
  rw [hmax, retained_openFlow hfree, List.length_append]
  rfl

/-- Those that are left come before it, in their order. -/
theorem retained_evict_openFlow (hn : (Table.keys engine.retained).Nodup)
    (hfree : Table.get? id engine.retained = none) (count : Nat) :
    (evict id count (openFlow id engine)).retained
      = (engine.retained.filter fun entry => entry.1 ∉ (engine.idle id).take count)
        ++ [(id, engine.states.length)] := by
  have hkept : id ∉ (engine.idle id).take count := fun hid => by
    obtain ⟨entry, he, hentry⟩ := List.mem_map.mp (List.mem_of_mem_take hid)
    exact absurd (List.mem_filter.mp he).2 (by simp [hentry])
  have hkeys : (Table.keys (openFlow id engine).retained).Nodup := Table.nodup_keys_set _ _ hn
  rw [evict_eq hkeys, idle_openFlow hfree, retained_openFlow hfree, List.filter_append,
    List.filter_cons_of_pos (by simpa using hkept), List.filter_nil]

/-- As many are let go as are asked for, or all that may be. -/
theorem length_filter_idle_add_le (hn : (Table.keys engine.retained).Nodup) (keep : String)
    (count : Nat) :
    (engine.retained.filter fun entry => entry.1 ∉ (engine.idle keep).take count).length
      + min count (engine.idle keep).length ≤ engine.retained.length := by
  have hsub : (engine.idle keep).take count ⊆ Table.keys engine.retained := fun other ho => by
    obtain ⟨entry, he, rfl⟩ := List.mem_map.mp (List.mem_of_mem_take ho)
    exact List.mem_map_of_mem (List.mem_filter.mp he).1
  have hidle : (engine.idle keep).Nodup := hn.sublist (List.filter_sublist.map _)
  have hlength := Table.length_filter_add_le (hidle.sublist (List.take_sublist count _)) hsub
  rwa [List.length_take] at hlength

end Work

/-- A reception where whoever comes has a new flow started. -/
def reception : Host Unit Unit where
  isRegistered _ name := name == "Desk"
  perform _ _ _ := .request .startFlow fun _ => .done (.ok (.object []))
  query _ _ args := .done (.ok args)
  adapterName _ := ""
  adapt _ args := .done (.ok args)
  wait := ⟨pure (), pure ()⟩

/-- One flow is worked on there and another one is idle, and there is to be one at most. -/
def crowded : Engine Unit Unit :=
  { start () (.count 9) (.count 1) with
    retained := [("idle", 0), ("busy", 1)]
    states := [.start "idle", { Flow.start "busy" with draining := true }] }

end Engine

end HerdBook
