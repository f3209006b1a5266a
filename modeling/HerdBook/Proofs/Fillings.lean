import HerdBook.Proofs.Consultations
import HerdBook.Proofs.Templates

/-!
# What a template is filled with

The symbols of a template stand in it in some order (`Value.occurring`), and filling it in looks
them up in that order. So it fails at the first of them that the frame lacks a value for, and tells
which one that is; without such a symbol it has a result, of the shape of the template
(`Value.Filled`). Nothing of the frame counts but what it holds for these symbols.

Both outcomes are said at once of a computation that needs the symbols of a list
(`Frame.Resolves`), and one that needs the symbols of two lists, one after the other, is put
together from two (`Frame.Resolves.bind`); the proof then follows the template.

## Main results

* `Value.resolves_fill`: what becomes of a template.
* `Value.fill_congr`: frames that agree on the symbols of a template fill it in alike.
* `Value.fill_fails_at_first_and_else_describes`: the two together.
-/

namespace HerdBook

variable {α β : Type}

/-! ### The symbols of a template -/

namespace Value

mutual

/-- The symbols of a template where a value is to be put, from left to right. -/
def occurring : Value → List Symbol
  | .symbol s => [s]
  | .list items => occurringItems items
  | .tuple items => occurringItems items
  | .object fields => occurringFields fields
  | _ => []

/-- Those of the templates of a list. -/
def occurringItems : List Value → List Symbol
  | [] => []
  | v :: vs => occurring v ++ occurringItems vs

/-- Those of the templates of fields. -/
def occurringFields : List (String × Value) → List Symbol
  | [] => []
  | (_, v) :: rest => occurring v ++ occurringFields rest

end

/-- The value is the template with what the frame holds for its symbols put in. What is put in is
not looked at, and a tuple has become a list. -/
inductive Filled (frame : Frame) : Value → Value → Prop
  | symbol {s : Symbol} {v : Value} (h : frame.get? s = some v) : Filled frame (.symbol s) v
  | list {items made : List Value} (h : List.Forall₂ (Filled frame) items made) :
    Filled frame (.list items) (.list made)
  | tuple {items made : List Value} (h : List.Forall₂ (Filled frame) items made) :
    Filled frame (.tuple items) (.list made)
  | object {fields made : Fields} (hkeys : Table.keys made = Table.keys fields)
      (h : List.Forall₂ (Filled frame) (fields.map Prod.snd) (made.map Prod.snd)) :
    Filled frame (.object fields) (.object made)
  | literal {v : Value} (hs : v.symbol? = none) (hi : v.items? = none) (hf : v.fields? = none) :
    Filled frame v v

end Value

/-! ### Computations that need symbols -/

namespace Frame

variable {frame other : Frame} {s : Symbol} {symbols more : List Symbol}

/-- A symbol has no usable value when the frame lacks one. -/
theorem use_eq_error_iff {fault : Fault} : frame.use s = .error fault ↔ frame.Lacks s fault := by
  refine ⟨lacks_of_use, fun h => ?_⟩
  cases h with
  | unbound h => simp only [use, read, h]; rfl
  | inapplicable h => simp only [use, read, h]; rfl

/-- Its usable value is the one that the frame holds. -/
theorem get?_of_use {v : Value} (h : frame.use s = .ok v) : frame.get? s = some v := by
  obtain ⟨w, hw, h⟩ := bind_eq_ok_iff.mp h
  split at h
  · exact nomatch h
  · obtain rfl := Except.ok.inj h
    unfold read at hw
    split at hw
    · next hs => exact hs.trans (congrArg some (Except.ok.inj hw))
    · exact nomatch hw

/-- A symbol with a usable value is bound, and not to the placeholder. -/
theorem get?_ne_of_use {v : Value} (h : frame.use s = .ok v) :
    frame.get? s ≠ none ∧ frame.get? s ≠ some .notApplicable := by
  refine ⟨fun hs => ?_, fun hs => ?_⟩
  · exact nomatch h.symm.trans (use_eq_error_iff.mpr (.unbound hs))
  · exact nomatch h.symm.trans (use_eq_error_iff.mpr (.inapplicable hs))

/-- A symbol that a frame lacks a value for is not bound, or bound to the placeholder. -/
theorem Lacks.get?_eq {fault : Fault} (h : frame.Lacks s fault) :
    frame.get? s = none ∨ frame.get? s = some .notApplicable := by
  cases h with
  | unbound h => exact .inl h
  | inapplicable h => exact .inr h

/-- The usable value of a symbol is the same in each frame that holds the same for it. -/
theorem use_congr (h : other.get? s = frame.get? s) {v : Value} (hv : frame.use s = .ok v) :
    other.use s = .ok v := by
  have hs := get?_of_use hv
  rw [← hv]
  simp only [use, read, h, hs]

/-- A computation needs the symbols in their order and nothing else: it fails at the first one that
the frame lacks a value for, and has a result as described when there is none. -/
def Resolves (frame : Frame) (symbols : List Symbol) (described : α → Prop) :
    Except Fault α → Prop
  | .ok a => (∀ s ∈ symbols, ∃ v, frame.use s = .ok v) ∧ described a
  | .error fault => ∃ before s after, symbols = before ++ s :: after ∧
      (∀ t ∈ before, ∃ v, frame.use t = .ok v) ∧ frame.Lacks s fault

/-- What is needed for one symbol. -/
theorem resolves_use (s : Symbol) :
    frame.Resolves [s] (fun v => frame.get? s = some v) (frame.use s) := by
  cases h : frame.use s with
  | ok v => exact ⟨by simp [h], get?_of_use h⟩
  | error fault => exact ⟨[], s, [], rfl, nofun, lacks_of_use h⟩

/-- What needs no symbol. -/
theorem resolves_ok {described : α → Prop} {a : α} (h : described a) :
    frame.Resolves [] described (.ok a) :=
  ⟨nofun, h⟩

/-- What needs some symbols first and then, for what comes next, further ones. -/
theorem Resolves.bind {described : α → Prop} {next : β → Prop} {x : Except Fault α}
    {f : α → Except Fault β} (hx : frame.Resolves symbols described x)
    (hf : ∀ a, described a → frame.Resolves more next (f a)) :
    frame.Resolves (symbols ++ more) next (x >>= f) := by
  cases x with
  | error fault =>
    obtain ⟨before, s, after, rfl, hbefore, hlacks⟩ := hx
    exact ⟨before, s, after ++ more, by simp, hbefore, hlacks⟩
  | ok a =>
    obtain ⟨hused, ha⟩ := hx
    show frame.Resolves (symbols ++ more) next (f a)
    have ha := hf a ha
    cases h : f a with
    | error fault =>
      rw [h] at ha
      obtain ⟨before, s, after, rfl, hbefore, hlacks⟩ := ha
      refine ⟨symbols ++ before, s, after, by simp, fun t ht => ?_, hlacks⟩
      exact (List.mem_append.mp ht).elim (hused t) (hbefore t)
    | ok b =>
      rw [h] at ha
      exact ⟨fun t ht => (List.mem_append.mp ht).elim (hused t) (ha.1 t), ha.2⟩

/-- A result may be described in other words. -/
theorem Resolves.imp {described next : α → Prop} {x : Except Fault α}
    (hx : frame.Resolves symbols described x) (hnext : ∀ a, described a → next a) :
    frame.Resolves symbols next x := by
  cases x with
  | error _ => exact hx
  | ok a => exact ⟨hx.1, hnext a hx.2⟩

/-- What is made of a result needs what the result needs. -/
theorem Resolves.map {described : α → Prop} {next : β → Prop} {x : Except Fault α} {f : α → β}
    (hx : frame.Resolves symbols described x) (hf : ∀ a, described a → next (f a)) :
    frame.Resolves symbols next (x.map f) := by
  have := hx.bind fun a ha => resolves_ok (hf a ha)
  rwa [List.append_nil] at this

end Frame

/-! ### Filling in -/

namespace Value

variable {frame other : Frame}

mutual

/-- Filling in a template needs its symbols, from left to right, and makes what the relation
describes. -/
theorem resolves_fill (frame : Frame) :
    ∀ template : Value, frame.Resolves template.occurring (Filled frame template)
      (template.fill frame)
  | .symbol s => (frame.resolves_use s).imp fun _ h => .symbol h
  | .list items => (resolves_fillItems frame items).map fun _ h => .list h
  | .tuple items => (resolves_fillItems frame items).map fun _ h => .tuple h
  | .object fields => (resolves_fillFields frame fields).map fun _ h => .object h.1 h.2
  | .null => Frame.resolves_ok (.literal rfl rfl rfl)
  | .bool _ => Frame.resolves_ok (.literal rfl rfl rfl)
  | .int _ => Frame.resolves_ok (.literal rfl rfl rfl)
  | .float _ => Frame.resolves_ok (.literal rfl rfl rfl)
  | .str _ => Frame.resolves_ok (.literal rfl rfl rfl)
  | .notApplicable => Frame.resolves_ok (.literal rfl rfl rfl)

/-- So do the templates of a list. -/
theorem resolves_fillItems (frame : Frame) :
    ∀ items : List Value, frame.Resolves (occurringItems items)
      (List.Forall₂ (Filled frame) items) (fillItems frame items)
  | [] => Frame.resolves_ok .nil
  | v :: vs =>
    (resolves_fill frame v).bind fun _ hv =>
      (resolves_fillItems frame vs).map fun _ hvs => .cons hv hvs

/-- So do the templates of fields, and the names of the fields stay. -/
theorem resolves_fillFields (frame : Frame) :
    ∀ fields : List (String × Value), frame.Resolves (occurringFields fields)
      (fun made => Table.keys made = Table.keys fields ∧
        List.Forall₂ (Filled frame) (fields.map Prod.snd) (made.map Prod.snd))
      (fillFields frame fields)
  | [] => Frame.resolves_ok ⟨rfl, .nil⟩
  | (k, v) :: rest =>
    (resolves_fill frame v).bind fun _ hv =>
      (resolves_fillFields frame rest).map fun _ h =>
        ⟨congrArg (k :: ·) h.1, .cons hv h.2⟩

end

mutual

/-- A frame with the same usable values for the symbols of a template fills it in alike. -/
theorem fill_congr : ∀ template : Value,
    (∀ s ∈ template.occurring, other.use s = frame.use s) →
      template.fill other = template.fill frame
  | .symbol s, h => h s List.mem_cons_self
  | .list items, h => by rw [fill, fill, fillItems_congr items h]
  | .tuple items, h => by rw [fill, fill, fillItems_congr items h]
  | .object fields, h => by rw [fill, fill, fillFields_congr fields h]
  | .null, _ | .bool _, _ | .int _, _ | .float _, _ | .str _, _ | .notApplicable, _ => rfl

/-- So it does the templates of a list. -/
theorem fillItems_congr : ∀ items : List Value,
    (∀ s ∈ occurringItems items, other.use s = frame.use s) →
      fillItems other items = fillItems frame items
  | [], _ => rfl
  | v :: vs, h => by
    rw [fillItems, fillItems, fill_congr v fun s hs => h s (List.mem_append_left _ hs),
      fillItems_congr vs fun s hs => h s (List.mem_append_right _ hs)]

/-- So it does the templates of fields. -/
theorem fillFields_congr : ∀ fields : List (String × Value),
    (∀ s ∈ occurringFields fields, other.use s = frame.use s) →
      fillFields other fields = fillFields frame fields
  | [], _ => rfl
  | (k, v) :: rest, h => by
    rw [fillFields, fillFields, fill_congr v fun s hs => h s (List.mem_append_left _ hs),
      fillFields_congr rest fun s hs => h s (List.mem_append_right _ hs)]

end

/-- What was filled in by one frame is filled in alike by each frame that holds the same for the
symbols of the template. -/
theorem fill_eq_of_agrees {template v : Value} (h : template.fill frame = .ok v)
    (hagrees : ∀ s ∈ template.occurring, other.get? s = frame.get? s) :
    template.fill other = .ok v := by
  have hresolves := resolves_fill frame template
  rw [h] at hresolves
  rw [← h]
  refine fill_congr template fun s hs => ?_
  obtain ⟨w, hw⟩ := hresolves.1 s hs
  rw [hw]
  exact Frame.use_congr (hagrees s hs) hw

/-- Filling in a template fails exactly when the frame lacks a value for one of its symbols: it does
not bind it, or only to the placeholder. The fault is that of the first such symbol from left to
right. Else the result is the template with the values of its symbols put in, and each frame that
holds the same for these symbols, as one that extends this frame does, has the same result. -/
theorem fill_fails_at_first_and_else_describes (template : Value) (frame : Frame) :
    ((∃ fault, template.fill frame = .error fault) ↔
      ∃ s ∈ template.occurring, frame.get? s = none ∨ frame.get? s = some .notApplicable) ∧
    (∀ fault, template.fill frame = .error fault →
      ∃ before s after, template.occurring = before ++ s :: after ∧
        (∀ t ∈ before, frame.get? t ≠ none ∧ frame.get? t ≠ some .notApplicable) ∧
        frame.Lacks s fault) ∧
    (∀ v, template.fill frame = .ok v →
      template.Filled frame v ∧
      (∀ other : Frame, (∀ s ∈ template.occurring, other.get? s = frame.get? s) →
        template.fill other = .ok v) ∧
      ∀ other : Frame, frame.Extends other → template.fill other = .ok v) := by
  have hresolves := resolves_fill frame template
  cases h : template.fill frame with
  | error fault =>
    rw [h] at hresolves
    obtain ⟨before, s, after, hsymbols, hbefore, hlacks⟩ := hresolves
    have hs : s ∈ template.occurring := hsymbols ▸ List.mem_append_right _ List.mem_cons_self
    refine ⟨⟨fun _ => ⟨s, hs, hlacks.get?_eq⟩, fun _ => ⟨fault, rfl⟩⟩, fun other hother => ?_,
      nofun⟩
    obtain rfl := Except.error.inj hother
    refine ⟨before, s, after, hsymbols, fun t ht => ?_, hlacks⟩
    obtain ⟨v, hv⟩ := hbefore t ht
    exact Frame.get?_ne_of_use hv
  | ok v =>
    rw [h] at hresolves
    obtain ⟨hused, hfilled⟩ := hresolves
    refine ⟨⟨nofun, fun ⟨s, hs, hlacks⟩ => ?_⟩, nofun, fun other hother => ?_⟩
    · obtain ⟨w, hw⟩ := hused s hs
      obtain ⟨hbound, hreal⟩ := Frame.get?_ne_of_use hw
      exact (hlacks.elim hbound hreal).elim
    · obtain rfl := Except.ok.inj hother
      refine ⟨hfilled, fun other => fill_eq_of_agrees h, fun other hextends => ?_⟩
      refine fill_eq_of_agrees h fun s hs => ?_
      obtain ⟨w, hw⟩ := hused s hs
      have hs := Frame.get?_of_use hw
      exact (hextends s w hs).trans hs.symm

/-- Of two symbols without a value, the one that stands further left is told, also when it stands
deeper: here it is the one that is bound to the placeholder. -/
example (x y : Symbol) :
    (Value.object [("deep", .tuple [.int 1, .symbol x]), ("flat", .symbol y)]).fill
      (Frame.empty.bind x .notApplicable) = .error (.inapplicable x.text) := by
  simp [fill, fillFields, fillItems, Frame.use, Frame.read, Frame.get?, Frame.bind, Frame.empty,
    Table.set, Table.get?, isNotApplicable, bind, Except.bind, Except.map]

end Value

end HerdBook
