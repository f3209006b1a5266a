import HerdBook.Proofs.Privacy
import HerdBook.Proofs.Records
import Mathlib.Data.List.Induction

/-!
# Animals leave the herd book once

The animals are asked one thing after the other (`AnimalStep`), while their store is ordered to fail
and documents get ids elsewhere. Between two departures of an animal somebody has said that it is
alive again, or has removed its record; and from a departure until somebody sets the status or
removes the record, the status and the notes are those of the departure. Both are said of the entry
of the animal, which only a success that bears on it changes (`Animals.turns_of_step`): a condition
on the entry that each such success keeps holds for as long as nothing else succeeds
(`Animals.exists_entry_append`).

Owners and animals are compared as the store compares them, so that `1` and `true` are one owner.

* `AnimalAction.Resets`, `AnimalAction.Reopens`: what ends the time after a departure, and what
  makes room for another one.

## Main results

* `Animals.ofSteps_upholds`: what is promised of the herd book after any steps.
-/

namespace HerdBook

open Effect Store Animals

/-- What happens to the animals. -/
inductive AnimalStep where
  | call (action : AnimalAction)
  /-- The store is ordered to fail at one of its next operations. -/
  | order (op : Operation) (n : Nat)
  /-- Elsewhere documents get ids. -/
  | elsewhere (documents : Nat)

namespace AnimalStep

/-- The animals after a step. -/
def after : AnimalStep → Store → Store
  | call action, store => (action.run.run store).2
  | order op n, store => store.failAt op n
  | elsewhere documents, store => { store with issued := store.issued + documents }

/-- What a call looks for is tidy. -/
def IsTidy : AnimalStep → Prop
  | call action => Value.AreTidy action.names
  | _ => True

end AnimalStep

/-- The action sets the status of the animal, or removes its record. -/
def AnimalAction.Resets (user animal : Value) : AnimalAction → Prop
  | .setStatus user' animal' .. | .remove user' animal' => IsSame user animal user' animal'
  | _ => False

/-- The action says that the animal is alive, or removes its record. -/
def AnimalAction.Reopens (user animal : Value) : AnimalAction → Prop
  | .setStatus user' animal' status _ => IsSame user animal user' animal' ∧ status = .str "alive"
  | .remove user' animal' => IsSame user animal user' animal'
  | _ => False

namespace Animals

/-- The animals that steps lead to when there are none yet. -/
def ofSteps (steps : List AnimalStep) : Store :=
  steps.foldl (fun store step => step.after store) Store.empty

/-- The action, when it is asked after these steps, answers without a refusal. -/
def Succeeds (before : List AnimalStep) (action : AnimalAction) : Prop :=
  ∃ answer, (action.run.run (ofSteps before)).1 = .ok answer ∧ ¬answer.Refuses

variable {steps before between : List AnimalStep} {step : AnimalStep} {action : AnimalAction}
  {user animal : Value}

/-! ### One step -/

/-- One more step. -/
theorem ofSteps_append_singleton (steps : List AnimalStep) (step : AnimalStep) :
    ofSteps (steps ++ [step]) = step.after (ofSteps steps) := by
  rw [ofSteps, List.foldl_append]
  rfl

/-- What succeeds does what it is for. -/
theorem Succeeds.does (h : Succeeds steps action) (hs : (ofSteps steps).Numbered) :
    action.Does (ofSteps steps).docs (ofSteps (steps ++ [.call action])).docs := by
  obtain ⟨answer, hanswer, hrefuses⟩ := h
  rw [ofSteps_append_singleton]
  exact AnimalAction.does_of_run hs (Prod.ext hanswer rfl) hrefuses

/-- A step that is no success changes no document. -/
theorem docs_of_not_succeeds (h : ∀ action, step = .call action → ¬Succeeds steps action) :
    (ofSteps (steps ++ [step])).docs = (ofSteps steps).docs := by
  rw [ofSteps_append_singleton]
  cases step with
  | call action =>
    refine AnimalAction.docs_of_run fun answer hanswer => ?_
    by_contra hrefuses
    exact h action rfl ⟨answer, hanswer, hrefuses⟩
  | order | elsewhere => rfl

/-- After any steps the documents are under their ids, and registered. -/
theorem ofSteps_kept (ht : ∀ step ∈ steps, step.IsTidy) :
    Tended "ownerId" (ofSteps steps) ∧ Registered (ofSteps steps).docs := by
  induction steps using List.reverseRecOn with
  | nil => exact ⟨⟨.of_docs_eq_nil rfl, nofun⟩, nofun, .nil⟩
  | append_singleton steps step ih =>
    rw [List.forall_mem_append, List.forall_mem_singleton] at ht
    obtain ⟨htended, hregistered⟩ := ih ht.1
    constructor
    · rw [ofSteps_append_singleton]
      cases step with
      | call action =>
        have hasker : action.asker.IsTidy := by
          cases action <;> exact (show Value.AreTidy _ from ht.2).1
        exact (action.together_run hasker _ _ (Alike.refl htended)).2.2.alike.left
      | order op n => exact htended.mono rfl (Nat.le_refl _)
      | elsewhere documents => exact htended.mono rfl (Nat.le_add_right _ _)
    · by_cases hsucceeds : ∃ action, step = .call action ∧ Succeeds steps action
      · obtain ⟨action, rfl, hsucceeds⟩ := hsucceeds
        exact (hsucceeds.does htended.toNumbered).registered htended.toNumbered hregistered ht.2
      · rw [docs_of_not_succeeds fun action hstep hs => hsucceeds ⟨action, hstep, hs⟩]
        exact hregistered

/-- What a step does to the entry of an animal it does by a success that bears on it. -/
theorem turns_of_step (ht : ∀ other ∈ steps ++ [step], other.IsTidy) (hu : user.IsTidy)
    (ha : animal.IsTidy) :
    (∃ action, step = .call action ∧ Succeeds steps action ∧
      action.Turns user animal (entryOf user animal (ofSteps steps).docs)
        (entryOf user animal (ofSteps (steps ++ [step])).docs)) ∨
      (ofSteps (steps ++ [step])).docs = (ofSteps steps).docs := by
  rw [List.forall_mem_append, List.forall_mem_singleton] at ht
  obtain ⟨htended, hregistered⟩ := ofSteps_kept ht.1
  by_cases hsucceeds : ∃ action, step = .call action ∧ Succeeds steps action
  · obtain ⟨action, rfl, hsucceeds⟩ := hsucceeds
    exact .inl ⟨action, rfl, hsucceeds,
      (hsucceeds.does htended.toNumbered).turns htended.toNumbered hregistered ht.2 hu ha⟩
  · exact .inr (docs_of_not_succeeds fun action hstep hs => hsucceeds ⟨action, hstep, hs⟩)

/-- Who retires an animal is the same as themselves, and so is the animal, since its record is found
under these names. -/
theorem Succeeds.isSame_retire {departure : Departure} {date remark : Value}
    (ht : ∀ step ∈ steps, step.IsTidy) (hu : user.IsTidy) (ha : animal.IsTidy)
    (h : Succeeds steps (.retire departure user animal date remark)) :
    IsSame user animal user animal := by
  obtain ⟨htended, hregistered⟩ := ofSteps_kept ht
  have hdoes := h.does htended.toNumbered
  generalize (ofSteps (steps ++ _)).docs = docs' at hdoes
  cases hdoes with
  | retire hdate hremark hdoc halive =>
    obtain ⟨⟨key, hkey⟩, hof⟩ := exists_of_among? hdoc
    exact (hregistered.valid _ hkey).isSame hu ha hof hof
  | read hreads => exact hreads.elim

/-- A departure sets the entry of the animal. -/
theorem Succeeds.entryOf_retire {departure : Departure} {date remark : Value}
    (ht : ∀ step ∈ steps ++ [.call (.retire departure user animal date remark)], step.IsTidy)
    (h : Succeeds steps (.retire departure user animal date remark)) :
    ∃ dateText remarkText, date.text = .ok dateText ∧
      (remark.orElse (.str departure.noRemark)).text = .ok remarkText ∧
      entryOf user animal
          (ofSteps (steps ++ [.call (.retire departure user animal date remark)])).docs
        = some (.str departure.status, .str (departure.notes dateText remarkText)) := by
  rw [List.forall_mem_append, List.forall_mem_singleton] at ht
  obtain ⟨htended, hregistered⟩ := ofSteps_kept ht.1
  obtain ⟨hu, ha, -⟩ : user.IsTidy ∧ animal.IsTidy ∧ True := ht.2
  have hturns := (h.does htended.toNumbered).turns htended.toNumbered hregistered ht.2 hu ha
  generalize entryOf user animal (ofSteps steps).docs = old at hturns
  generalize hnew : entryOf user animal (ofSteps (steps ++ _)).docs = new at hturns ⊢
  cases hturns with
  | retire _ _ hdate hremark => exact ⟨_, _, hdate, hremark, rfl⟩
  | other hnot => exact absurd (h.isSame_retire ht.1 hu ha) hnot

/-! ### Many steps -/

/-- A condition on the entry of an animal holds after more steps when every success among them that
bears on the animal keeps it. -/
theorem exists_entry_append {P : Value × Value → Prop}
    (ht : ∀ step ∈ before ++ between, step.IsTidy) (hu : user.IsTidy) (ha : animal.IsTidy)
    (hbefore : ∃ entry, entryOf user animal (ofSteps before).docs = some entry ∧ P entry)
    (hkeep : ∀ early action late, between = early ++ .call action :: late →
      Succeeds (before ++ early) action → ∀ entry new, P entry →
      action.Turns user animal (some entry) new → ∃ entry', new = some entry' ∧ P entry') :
    ∃ entry, entryOf user animal (ofSteps (before ++ between)).docs = some entry ∧ P entry := by
  induction between using List.reverseRecOn with
  | nil => rwa [List.append_nil]
  | append_singleton between step ih =>
    rw [← List.append_assoc] at ht ⊢
    obtain ⟨entry, hentry, hP⟩ := ih (fun other hother => ht other (List.mem_append_left _ hother))
      fun early action late hsplit => hkeep early action (late ++ [step]) (by rw [hsplit]; simp)
    rcases turns_of_step ht hu ha with ⟨action, rfl, hsucceeds, hturns⟩ | hdocs
    · rw [hentry] at hturns
      exact hkeep between action [] rfl hsucceeds entry _ hP hturns
    · rw [hdocs]
      exact ⟨entry, hentry, hP⟩

/-- An animal that left is not alive. -/
theorem same_status_alive (departure : Departure) :
    (Value.str departure.status).same (.str "alive") = false := by
  cases departure <;> decide

section

variable {departure departure' : Departure} {date remark user' animal' date' remark' : Value}

/-- Until somebody sets the status or removes the record, the entry is that of the departure. -/
theorem Succeeds.entryOf_append
    (ht : ∀ step ∈ before ++ [.call (.retire departure user animal date remark)] ++ between,
      step.IsTidy)
    (h : Succeeds before (.retire departure user animal date remark))
    (hnone : ∀ early action late, between = early ++ .call action :: late →
      action.Resets user animal →
      ¬Succeeds (before ++ [.call (.retire departure user animal date remark)] ++ early) action) :
    ∃ dateText remarkText, date.text = .ok dateText ∧
      (remark.orElse (.str departure.noRemark)).text = .ok remarkText ∧
      entryOf user animal
          (ofSteps (before ++ [.call (.retire departure user animal date remark)] ++ between)).docs
        = some (.str departure.status, .str (departure.notes dateText remarkText)) := by
  obtain ⟨hu, ha, -⟩ : user.IsTidy ∧ animal.IsTidy ∧ True := ht
    (.call (.retire departure user animal date remark)) (by simp)
  obtain ⟨dateText, remarkText, hdate, hremark, hentry⟩ := h.entryOf_retire fun step hstep =>
    ht step (List.mem_append_left _ hstep)
  refine ⟨dateText, remarkText, hdate, hremark, ?_⟩
  have hstays := exists_entry_append
    (P := fun entry => entry = (.str departure.status, .str (departure.notes dateText remarkText)))
    ht hu ha ⟨_, hentry, rfl⟩ (by
      rintro early action late hsplit hsucceeds entry new rfl hturns
      cases hturns with
      | setStatus hsame => exact absurd hsucceeds (hnone early _ late hsplit hsame)
      | retire _ halive => exact absurd halive (by simp [same_status_alive])
      | remove hsame => exact absurd hsucceeds (hnone early _ late hsplit hsame)
      | other => exact ⟨_, rfl, rfl⟩)
  obtain ⟨entry, hentry, rfl⟩ := hstays
  exact hentry

/-- An animal leaves again only when somebody has said that it is alive, or has removed its record.
-/
theorem Succeeds.exists_reopens
    (ht : ∀ step ∈ before ++ [.call (.retire departure user animal date remark)] ++ between ++
      [.call (.retire departure' user' animal' date' remark')], step.IsTidy)
    (hsame : IsSame user animal user' animal')
    (h : Succeeds before (.retire departure user animal date remark))
    (h' : Succeeds (before ++ [.call (.retire departure user animal date remark)] ++ between)
      (.retire departure' user' animal' date' remark')) :
    ∃ early action late, between = early ++ .call action :: late ∧ action.Reopens user animal ∧
      Succeeds (before ++ [.call (.retire departure user animal date remark)] ++ early) action := by
  by_contra hnone
  rw [List.forall_mem_append, List.forall_mem_singleton] at ht
  obtain ⟨ht, htlast⟩ := ht
  obtain ⟨hu, ha, -⟩ : user.IsTidy ∧ animal.IsTidy ∧ True := ht
    (.call (.retire departure user animal date remark)) (by simp)
  obtain ⟨_, _, -, -, hentry⟩ := h.entryOf_retire fun step hstep =>
    ht step (List.mem_append_left _ hstep)
  -- Until somebody says otherwise the animal is not alive.
  have hgone := exists_entry_append (P := fun entry => entry.1.same (.str "alive") = false)
    ht hu ha ⟨_, hentry, same_status_alive departure⟩ (by
      intro early action late hsplit hsucceeds entry new hP hturns
      cases hturns with
      | @setStatus _ _ status _ _ hsame' =>
        refine ⟨_, rfl, Bool.eq_false_iff.mpr fun halive => hnone ?_⟩
        have hstatus : status = .str "alive" := Value.eq_of_same rfl rfl rfl halive
        exact ⟨early, _, late, hsplit, ⟨hsame', hstatus⟩, hsucceeds⟩
      | retire _ halive => exact absurd halive (by simp [hP])
      | remove hsame' => exact absurd ⟨early, _, late, hsplit, hsame', hsucceeds⟩ hnone
      | other => exact ⟨entry, rfl, hP⟩)
  obtain ⟨entry, hentry, hgone⟩ := hgone
  obtain ⟨htended, hregistered⟩ := ofSteps_kept ht
  have hturns := (h'.does htended.toNumbered).turns htended.toNumbered hregistered htlast hu ha
  rw [hentry] at hturns
  generalize entryOf user animal (ofSteps (_ ++ [_])).docs = new at hturns
  cases hturns with
  | retire _ halive => exact absurd halive (by simp [hgone])
  | other hnot => exact hnot hsame

end

/-- What is promised of the herd book after steps. -/
structure Upholds (steps : List AnimalStep) : Prop where
  /-- No two records are of one owner and one animal; each names an animal and a species, one of the
  sexes and one of the statuses. -/
  registered : Registered (ofSteps steps).docs
  /-- Between two departures of an animal somebody has said that it is alive, or has removed its
  record. -/
  once : ∀ before departure user animal date remark between departure' user' animal' date' remark'
      later,
    steps = before ++ [.call (.retire departure user animal date remark)] ++ between ++
      [.call (.retire departure' user' animal' date' remark')] ++ later →
    IsSame user animal user' animal' →
    Succeeds before (.retire departure user animal date remark) →
    Succeeds (before ++ [.call (.retire departure user animal date remark)] ++ between)
      (.retire departure' user' animal' date' remark') →
    ∃ early action late, between = early ++ .call action :: late ∧ action.Reopens user animal ∧
      Succeeds (before ++ [.call (.retire departure user animal date remark)] ++ early) action
  /-- From a departure until somebody sets the status or removes the record, the status and the
  notes are those of the departure. -/
  stays : ∀ before departure user animal date remark between,
    steps = before ++ [.call (.retire departure user animal date remark)] ++ between →
    Succeeds before (.retire departure user animal date remark) →
    (∀ early action late, between = early ++ .call action :: late → action.Resets user animal →
      ¬Succeeds (before ++ [.call (.retire departure user animal date remark)] ++ early) action) →
    ∃ dateText remarkText, date.text = .ok dateText ∧
      (remark.orElse (.str departure.noRemark)).text = .ok remarkText ∧
      entryOf user animal (ofSteps steps).docs
        = some (.str departure.status, .str (departure.notes dateText remarkText))

/-- The herd book keeps what is promised, whatever the animals are asked in whichever order, and
whichever operations of their store are ordered to fail. -/
theorem ofSteps_upholds (steps : List AnimalStep) (ht : ∀ step ∈ steps, step.IsTidy) :
    Upholds steps := by
  refine ⟨(ofSteps_kept ht).2, ?_, ?_⟩
  · rintro before departure user animal date remark between departure' user' animal' date' remark'
      later rfl hsame h h'
    exact h.exists_reopens (fun step hstep => ht step (List.mem_append_left _ hstep)) hsame h'
  · rintro before departure user animal date remark between rfl h hnone
    exact h.entryOf_append ht hnone

/-- A ewe is sold, and then said to have died, which is rejected; her details are corrected; the
sale is taken back, and she is transferred. -/
def soldAndBack : List AnimalStep :=
  [.call (.register (.str "alice") (.str "a1") (.str "sheep") (.str "female") .null (.str "")
      (.str "")),
    .call (.retire .sold (.str "alice") (.str "a1") (.str "2024-05-01") (.str "to bob")),
    .call (.retire .deceased (.str "alice") (.str "a1") (.str "2024-05-02") (.str "")),
    .call (.edit (.str "alice") (.str "a1") (.str "goat") (.str "alpine") .null (.str "neutered")),
    .call (.setStatus (.str "alice") (.str "a1") (.str "alive") (.str "sale fell through")),
    .call (.retire .transferred (.str "alice") (.str "a1") (.str "2024-06-01") (.str ""))]

/-- She stays sold through the rejected call and the correction, and leaves again after she is said
to be alive. -/
theorem ofSteps_upholds_soldAndBack :
    (∀ step ∈ soldAndBack, step.IsTidy) ∧ Upholds soldAndBack ∧
      entryOf (.str "alice") (.str "a1") (ofSteps (soldAndBack.take 4)).docs
        = some (.str "sold", .str "Sold on 2024-05-01. Buyer notes: to bob.") ∧
      entryOf (.str "alice") (.str "a1") (ofSteps soldAndBack).docs
        = some (.str "transferred", .str "Transferred on 2024-06-01. Recipient notes: None.") := by
  have ht : ∀ step ∈ soldAndBack, step.IsTidy := by
    simp [soldAndBack, AnimalStep.IsTidy, AnimalAction.names, Value.AreTidy, Value.IsTidy]
  exact ⟨ht, ofSteps_upholds soldAndBack ht, rfl, rfl⟩

end Animals

end HerdBook
