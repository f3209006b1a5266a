import HerdBook.Proofs.Outcomes

/-!
# Turns

Computations that are waited for together take turns: each of them is run once, to its end, on the
state that the one before it has left, whatever the others came to. Of the outcomes the first fault
is reported, and if there is none all results.

* `Effect.turns`: the items, each with the state in which its turn comes.
* `Effect.lastly`: the state that the last turn leaves.

## Main results

* `Effect.run_attemptAll`, `Effect.run_gather`: a wait comes to the outcomes of the turns.
* `Effect.map_ofTurn_of_run_gather`, `Effect.exists_error_of_turn`: so it succeeds only if all turns
  do.
* `Effect.allOrFirstFault_eq_ok_iff`, `Effect.allOrFirstFault_eq_error_iff`: what is reported.
-/

namespace HerdBook

namespace Effect

variable {σ α β : Type}

/-! ### What is reported -/

/-- All results are reported exactly when there is nothing else. -/
theorem allOrFirstFault_eq_ok_iff {outcomes : List (Except Fault α)} {results : List α} :
    allOrFirstFault outcomes = .ok results ↔ outcomes = results.map .ok := by
  induction outcomes generalizing results with
  | nil => cases results <;> simp [allOrFirstFault]
  | cons outcome rest ih =>
    cases outcome with
    | error fault => cases results <;> simp [allOrFirstFault]
    | ok a =>
      rw [allOrFirstFault]
      cases results with
      | nil => cases allOrFirstFault rest <;> simp [Except.map]
      | cons b bs =>
        rw [List.map_cons, List.cons.injEq, ← ih]
        cases allOrFirstFault rest <;> simp [Except.map]

/-- A fault is reported exactly when there are only results before it. -/
theorem allOrFirstFault_eq_error_iff {outcomes : List (Except Fault α)} {fault : Fault} :
    allOrFirstFault outcomes = .error fault ↔
      ∃ (results : List α) (rest : List (Except Fault α)),
        outcomes = results.map .ok ++ .error fault :: rest := by
  induction outcomes with
  | nil => simp [allOrFirstFault]
  | cons outcome others ih =>
    constructor
    · intro h
      cases outcome with
      | error first =>
        obtain rfl := Except.error.inj h
        exact ⟨[], others, rfl⟩
      | ok a =>
        rw [allOrFirstFault] at h
        cases hrest : allOrFirstFault others with
        | ok results =>
          rw [hrest] at h
          cases h
        | error first =>
          rw [hrest] at h
          obtain rfl := Except.error.inj h
          obtain ⟨results, rest, rfl⟩ := ih.mp hrest
          exact ⟨a :: results, rest, rfl⟩
    · rintro ⟨_ | ⟨a, results⟩, rest, h⟩
      · obtain ⟨rfl, rfl⟩ := List.cons.inj h
        rfl
      · obtain ⟨rfl, rfl⟩ := List.cons.inj h
        rw [allOrFirstFault, ih.mpr ⟨results, rest, rfl⟩]
        rfl

/-! ### One turn after the other -/

/-- The items, each with the state in which its turn comes. -/
def turns (act : β → Effect σ α) : List β → σ → List (β × σ)
  | [], _ => []
  | item :: rest, s => (item, s) :: turns act rest ((act item).run s).2

/-- The state that the last turn leaves. -/
def lastly (act : β → Effect σ α) : List β → σ → σ
  | [], s => s
  | item :: rest, s => lastly act rest ((act item).run s).2

/-- What a turn comes to. -/
def ofTurn (act : β → Effect σ α) (turn : β × σ) : Except Fault α := ((act turn.1).run turn.2).1

variable {act : β → Effect σ α}

/-- Each item has one turn, and they come in order. -/
theorem map_turns (items : List β) (s : σ) : (turns act items s).map Prod.fst = items := by
  induction items generalizing s with
  | nil => rfl
  | cons item rest ih => exact congrArg (item :: ·) (ih _)

/-- Attempts at computations come to what the turns come to. -/
theorem run_attemptAll (items : List β) (s : σ) :
    (attemptAll act items).run s
      = (.ok ((turns act items s).map (ofTurn act)), lastly act items s) := by
  induction items generalizing s with
  | nil => rfl
  | cons item rest ih =>
    rw [attemptAll, run_bind_ok (run_attempt ..), run_bind_ok (ih _)]
    rfl

/-- Waiting for computations comes to what is reported of the turns. -/
theorem run_gather {wait : Wait σ} {items : List β} {s s₀ s' : σ} (hne : items ≠ [])
    (hbefore : wait.before.run s = (.ok (), s₀))
    (hafter : wait.after.run (lastly act items s₀) = (.ok (), s')) :
    (gather wait act items).run s
      = (allOrFirstFault ((turns act items s₀).map (ofTurn act)), s') := by
  rw [gather, if_neg (by rwa [List.isEmpty_iff])]
  rw [run_bind_ok hbefore, run_bind_ok (run_attemptAll ..), run_bind_ok hafter]
  rfl

/-- A wait that succeeds has the results of all turns. -/
theorem map_ofTurn_of_run_gather {wait : Wait σ} {items : List β} {s s' : σ} {results : List α}
    (h : (gather wait act items).run s = (.ok results, s')) :
    (turns act items (wait.before.run s).2).map (ofTurn act) = results.map .ok := by
  cases items with
  | nil =>
    obtain rfl : [] = results := Except.ok.inj (congrArg Prod.fst h)
    rfl
  | cons item rest =>
    rw [gather, if_neg (by simp)] at h
    obtain ⟨_, s₀, hbefore, h⟩ := exists_of_run_bind h
    rw [run_bind_ok (run_attemptAll ..)] at h
    obtain ⟨_, s₁, -, h⟩ := exists_of_run_bind h
    rw [hbefore]
    exact allOrFirstFault_eq_ok_iff.mp (congrArg Prod.fst h)

/-- A wait ends in a fault when some turn does. -/
theorem exists_error_of_turn {wait : Wait σ} {items : List β} {s : σ} {turn : β × σ} {fault : Fault}
    (h : turn ∈ turns act items (wait.before.run s).2) (hf : ofTurn act turn = .error fault) :
    ∃ first, ((gather wait act items).run s).1 = .error first := by
  rcases hrun : (gather wait act items).run s with ⟨first | results, s'⟩
  · exact ⟨first, rfl⟩
  · have hmem : ofTurn act turn ∈ (turns act items _).map (ofTurn act) := List.mem_map_of_mem h
    rw [map_ofTurn_of_run_gather hrun, hf, List.mem_map] at hmem
    obtain ⟨_, -, hmem⟩ := hmem
    cases hmem

end Effect

end HerdBook
