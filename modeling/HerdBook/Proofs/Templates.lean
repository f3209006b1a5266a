import HerdBook.Proofs.Outcomes
import HerdBook.Rule.Basic

/-!
# Why templates cannot be filled in

A template names symbols (`Value.Names`), and filling it in fails at one of them that has no real
value: the frame does not bind it, or binds it to the placeholder (`Frame.Lacks`). There is no other
fault, and the fault tells the symbol.

## Main results

* `Value.exists_names_of_fill`: what a template fails at.
* `Rule.exists_names_of_dispatches`: what the actions of a rule fail at.
-/

namespace HerdBook

variable {κ α β γ ε : Type}

/-- What goes through a list, needs something of every item and fails at nothing else, fails at one of
the items. -/
theorem exists_mem_of_eq_error {f : β → Except ε α} {go : List β → Except ε γ} {made : γ}
    {next : β → α → γ → γ} {items : List β} {e : ε} (h : go items = .error e)
    (hnil : go [] = .ok made)
    (hgo : ∀ b rest, go (b :: rest) = f b >>= fun a => go rest >>= fun c => .ok (next b a c)) :
    ∃ b ∈ items, f b = .error e := by
  induction items with
  | nil => exact nomatch hnil.symm.trans h
  | cons b rest ih =>
    rw [hgo] at h
    rcases bind_eq_error_iff.mp h with hb | ⟨_, -, h⟩
    · exact ⟨b, List.mem_cons_self, hb⟩
    · rcases bind_eq_error_iff.mp h with hrest | ⟨_, -, h⟩
      · obtain ⟨c, hc, hfails⟩ := ih hrest
        exact ⟨c, List.mem_cons_of_mem _ hc, hfails⟩
      · exact nomatch h

/-- The frame has no real value for the symbol, and that is the fault. -/
inductive Frame.Lacks (frame : Frame) (s : Symbol) : Fault → Prop
  /-- The symbol is not bound. -/
  | unbound (h : frame.get? s = none) :
      Lacks frame s (.unbound s.text (frame.symbols.map Symbol.text))
  /-- The symbol is bound to the placeholder. -/
  | inapplicable (h : frame.get? s = some .notApplicable) : Lacks frame s (.inapplicable s.text)

/-- What a symbol is needed for fails when the frame lacks a value for it. -/
theorem Frame.lacks_of_use {frame : Frame} {s : Symbol} {fault : Fault}
    (h : frame.use s = .error fault) : frame.Lacks s fault := by
  rcases bind_eq_error_iff.mp h with h | ⟨v, hv, h⟩
  · unfold Frame.read at h
    cases hs : frame.get? s with
    | none =>
      rw [hs] at h
      exact Except.error.inj h ▸ .unbound hs
    | some v =>
      rw [hs] at h
      exact nomatch h
  · unfold Frame.read at hv
    cases hs : frame.get? s with
    | none =>
      rw [hs] at hv
      exact nomatch hv
    | some w =>
      rw [hs] at hv
      obtain rfl := Except.ok.inj hv
      split at h
      · next hna =>
        cases w with
        | notApplicable => exact Except.error.inj h ▸ .inapplicable hs
        | _ => exact nomatch hna
      · exact nomatch h

/-- Such a fault aborts the rule. -/
theorem Frame.Lacks.abortsRule {frame : Frame} {s : Symbol} {fault : Fault}
    (h : frame.Lacks s fault) : fault.abortsRule = true := by
  cases h <;> rfl

namespace Value

/-- The symbol occurs in the template. -/
inductive Names (s : Symbol) : Value → Prop where
  | symbol : Names s (.symbol s)
  | list {items : List Value} {v : Value} (h : v ∈ items) (hv : Names s v) : Names s (.list items)
  | tuple {items : List Value} {v : Value} (h : v ∈ items) (hv : Names s v) : Names s (.tuple items)
  | object {fields : Fields} {entry : String × Value} (h : entry ∈ fields) (hv : Names s entry.2) :
    Names s (.object fields)

/-- A list of templates fails at one of them. -/
theorem exists_mem_of_fillItems {frame : Frame} {items : List Value} {fault : Fault}
    (h : fillItems frame items = .error fault) : ∃ v ∈ items, v.fill frame = .error fault :=
  exists_mem_of_eq_error h rfl fun _ _ => rfl

/-- So do the templates of fields. -/
theorem exists_mem_of_fillFields {frame : Frame} {fields : Fields} {fault : Fault}
    (h : fillFields frame fields = .error fault) :
    ∃ entry ∈ fields, entry.2.fill frame = .error fault :=
  exists_mem_of_eq_error h rfl fun _ _ => rfl

/-- A template that cannot be filled in names a symbol that the frame lacks a value for. -/
theorem exists_names_of_fill {frame : Frame} {fault : Fault} (template : Value)
    (h : template.fill frame = .error fault) : ∃ s, template.Names s ∧ frame.Lacks s fault := by
  cases template with
  | symbol s => exact ⟨s, .symbol, Frame.lacks_of_use h⟩
  | list items =>
    cases hitems : fillItems frame items <;> rw [fill, hitems] at h <;> cases h
    obtain ⟨v, hv, hfails⟩ := exists_mem_of_fillItems hitems
    obtain ⟨s, hs, hlacks⟩ := exists_names_of_fill v hfails
    exact ⟨s, .list hv hs, hlacks⟩
  | tuple items =>
    cases hitems : fillItems frame items <;> rw [fill, hitems] at h <;> cases h
    obtain ⟨v, hv, hfails⟩ := exists_mem_of_fillItems hitems
    obtain ⟨s, hs, hlacks⟩ := exists_names_of_fill v hfails
    exact ⟨s, .tuple hv hs, hlacks⟩
  | object fields =>
    cases hfields : fillFields frame fields <;> rw [fill, hfields] at h <;> cases h
    obtain ⟨entry, he, hfails⟩ := exists_mem_of_fillFields hfields
    obtain ⟨s, hs, hlacks⟩ := exists_names_of_fill entry.2 hfails
    exact ⟨s, .object he hs, hlacks⟩
  | _ => cases h
termination_by sizeOf template
decreasing_by
  · have := List.sizeOf_lt_of_mem hv
    simp_all
    omega
  · have := List.sizeOf_lt_of_mem hv
    simp_all
    omega
  · have := List.sizeOf_lt_of_mem he
    obtain ⟨name, v⟩ := entry
    simp_all
    omega

end Value

/-- The actions of the frames are not all known when a template names a symbol that one of the frames
lacks a value for, and only then. -/
theorem Rule.exists_names_of_dispatches {rule : Rule κ} {frames : List Frame} {fault : Fault}
    (h : rule.dispatches frames = .error fault) :
    ∃ frame ∈ frames, ∃ template ∈ rule.actions, ∃ s, template.args.Names s ∧
      frame.Lacks s fault := by
  obtain ⟨frame, hframe, hactions⟩ : ∃ frame ∈ frames,
      fillActions frame rule.actions = .error fault :=
    exists_mem_of_eq_error h rfl fun _ _ => rfl
  obtain ⟨template, htemplate, hfill⟩ : ∃ template ∈ rule.actions,
      template.args.fill frame = .error fault :=
    exists_mem_of_eq_error hactions rfl fun _ _ => rfl
  obtain ⟨s, hs, hlacks⟩ := template.args.exists_names_of_fill hfill
  exact ⟨frame, hframe, template, htemplate, s, hs, hlacks⟩

end HerdBook
