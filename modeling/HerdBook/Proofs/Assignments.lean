import HerdBook.Proofs.Bindings
import HerdBook.Proofs.Joins
import Mathlib.Data.List.Forall2
import Mathlib.Data.List.Lex
import Mathlib.Data.List.Nodup

/-!
# A join finds the consistent assignments

`Pattern.combinations` threads frames through the patterns of a rule. What it finds can be said
without frames: the events that are assigned to the patterns are pairwise distinct, each fits its
pattern, and all data that the patterns' symbols meet agree with the first datum that their symbol
met (`Pattern.IsAssignment`).

## Main results

* `Frame.unify?_decides`, `Pattern.exists_match?_decides`: what unifying and matching come to.
* `Pattern.Finds.continueAll`: one more pattern extends each assignment in every possible way.
* `Pattern.combinations_finds`: the join finds exactly the assignments, each once, in the
  lexicographic order of the places of their events, each with a frame that binds exactly the
  symbols that met a datum, to the first one they met.
-/

namespace HerdBook

/-! ### The data that symbols meet -/

namespace Value

/-- The fields of an object; no other value has any. -/
def entries : Value → Fields
  | .object fields => fields
  | _ => []

/-- An object has its fields. -/
@[simp] theorem entries_object (fields : Fields) : (object fields).entries = fields := rfl

/-- The symbol that a value is. -/
def symbol? : Value → Option Symbol
  | .symbol s => some s
  | _ => none

/-- A literal wants a datum that is the same; the placeholder also does without one. -/
def IsMetBy (literal : Value) : Option Value → Prop
  | some got => literal.same got = true
  | none => literal = .notApplicable

/-- What data that are an object must hold of what a pattern wants: the literals are met, and where
all fields are required the symbols meet a datum. -/
def Admits (presence : Presence) (pattern data : Fields) : Prop :=
  ∀ entry ∈ pattern,
    (entry.2.symbol? = none → entry.2.IsMetBy (Table.get? entry.1 data)) ∧
      (entry.2.symbol? ≠ none → presence = .required → (Table.get? entry.1 data).isSome = true)

/-- The symbols of a pattern that meet a datum, with that datum, in the order of the fields. -/
def sightings (pattern data : Fields) : List (Symbol × Value) :=
  pattern.filterMap fun entry =>
    entry.2.symbol?.bind fun s => (Table.get? entry.1 data).map fun got => (s, got)

/-- One field more that a pattern wants. -/
theorem admits_cons {presence : Presence} {field : String} {want : Value} {rest data : Fields} :
    Admits presence ((field, want) :: rest) data ↔
      ((want.symbol? = none → want.IsMetBy (Table.get? field data)) ∧
        (want.symbol? ≠ none → presence = .required → (Table.get? field data).isSome = true)) ∧
      Admits presence rest data :=
  List.forall_mem_cons

/-- In a field that the data lack nothing is met. -/
theorem sightings_cons_none {field : String} {data : Fields} (hd : Table.get? field data = none)
    (want : Value) (rest : Fields) :
    sightings ((field, want) :: rest) data = sightings rest data := by
  refine List.filterMap_cons_none ?_
  rw [hd]
  cases want.symbol? <;> rfl

/-- A literal meets nothing. -/
theorem sightings_cons_literal {want : Value} (hw : want.symbol? = none) (field : String)
    (rest data : Fields) : sightings ((field, want) :: rest) data = sightings rest data :=
  List.filterMap_cons_none (by rw [hw]; rfl)

/-- A symbol meets the datum of its field. -/
theorem sightings_cons_symbol {field : String} {data : Fields} {got : Value}
    (hd : Table.get? field data = some got) (s : Symbol) (rest : Fields) :
    sightings ((field, .symbol s) :: rest) data = (s, got) :: sightings rest data :=
  List.filterMap_cons_some (by rw [hd]; rfl)

/-- The value that is a symbol. -/
theorem eq_symbol {want : Value} {s : Symbol} (h : want.symbol? = some s) : want = .symbol s := by
  cases want with
  | symbol t => exact congrArg Value.symbol (Option.some.inj h)
  | _ => exact absurd h (by simp [symbol?])

/-- A literal is satisfied without a datum only when it is the placeholder. -/
theorem allowsAbsent_literal {want : Value} (h : want.symbol? = none) (presence : Presence) :
    presence.allowsAbsent want = true ↔ want = .notApplicable := by
  cases want with
  | symbol t => exact absurd h (by simp [symbol?])
  | notApplicable => simp [Presence.allowsAbsent]
  | _ => simp [Presence.allowsAbsent]

end Value

/-- A result is there exactly when a condition holds, and is then as described. -/
def Decides {α : Type} (condition : Prop) (described : α → Prop) : Option α → Prop
  | some a => condition ∧ described a
  | none => ¬condition

/-- The condition may be put otherwise. -/
theorem Decides.congr {α : Type} {condition other : Prop} {described : α → Prop}
    {result : Option α} (h : Decides condition described result) (hiff : condition ↔ other) :
    Decides other described result := by
  obtain rfl : condition = other := propext hiff
  exact h

/-- The result may be described otherwise. -/
theorem Decides.imp {α : Type} {condition : Prop} {described described' : α → Prop}
    {result : Option α} (h : Decides condition described result)
    (hd : ∀ a, described a → described' a) : Decides condition described' result := by
  cases result with
  | none => exact h
  | some a => exact h.imp_right (hd a)

/-- What is made of the result is described accordingly. -/
theorem Decides.map {α β : Type} {condition : Prop} {described : α → Prop} {described' : β → Prop}
    {f : α → β} {result : Option α} (h : Decides condition described result)
    (hf : ∀ a, described a → described' (f a)) : Decides condition described' (result.map f) := by
  cases result with
  | none => exact h
  | some a => exact h.imp_right (hf a)

/-- Every datum that a symbol meets agrees with the one that is known for it, or else with the first
one it met. -/
def Consistent (known : Symbol → Option Value) (seen : List (Symbol × Value)) : Prop :=
  ∀ before s got after, seen = before ++ (s, got) :: after →
    ∀ first, (known s).or (Table.get? s before) = some first → first.same got = true

section Consistent

variable {known : Symbol → Option Value} {seen : List (Symbol × Value)} {s : Symbol} {got : Value}

/-- Where no symbol meets a datum, all is consistent. -/
theorem consistent_nil : Consistent known [] := fun before _ _ _ h =>
  absurd h (by cases before <;> simp)

/-- The first datum is held against what is known, and is then known itself. -/
theorem consistent_cons :
    Consistent known ((s, got) :: seen) ↔
      (∀ first, known s = some first → first.same got = true) ∧
        Consistent (fun t => (known t).or (Table.get? t [(s, got)])) seen := by
  have hknown : ∀ t before, (known t).or (Table.get? t ((s, got) :: before))
      = ((known t).or (Table.get? t [(s, got)])).or (Table.get? t before) := by
    intro t before
    rw [Option.or_assoc, ← Table.get?_append]
    rfl
  constructor
  · intro h
    refine ⟨fun first hf => h [] s got seen rfl first (by rw [hf]; rfl), ?_⟩
    intro before t other after hs first hf
    refine h ((s, got) :: before) t other after (by rw [hs]; rfl) first ?_
    rw [hknown]
    exact hf
  · rintro ⟨hfirst, hrest⟩ before t other after hs first hf
    cases before with
    | nil =>
      obtain ⟨hpair, -⟩ := List.cons.inj hs
      obtain ⟨rfl, rfl⟩ := Prod.mk.inj hpair
      exact hfirst first (by simpa [Table.get?] using hf)
    | cons entry before =>
      obtain ⟨hpair, hseen⟩ := List.cons.inj hs
      rw [← hpair, hknown] at hf
      exact hrest before t other after hseen first hf

/-- The data met later are held against what was known or met before. -/
theorem consistent_append {more : List (Symbol × Value)} :
    Consistent known (seen ++ more) ↔
      Consistent known seen ∧ Consistent (fun t => (known t).or (Table.get? t seen)) more := by
  induction seen generalizing known with
  | nil =>
    have hnil : (fun t => (known t).or (Table.get? t ([] : List (Symbol × Value)))) = known :=
      funext fun t => by simp
    rw [hnil]
    exact (and_iff_right consistent_nil).symm
  | cons entry seen ih =>
    obtain ⟨s, got⟩ := entry
    have hknown : (fun t => ((known t).or (Table.get? t [(s, got)])).or (Table.get? t seen))
        = fun t => (known t).or (Table.get? t ((s, got) :: seen)) := funext fun t => by
      rw [Option.or_assoc, ← Table.get?_append]
      rfl
    rw [List.cons_append, consistent_cons, consistent_cons, ih, hknown, and_assoc]

end Consistent

/-! ### Unifying -/

namespace Frame

variable {frame : Frame} {seen made : List (Symbol × Value)}

/-- The bindings made are of the symbols that met a datum and that the frame does not bind. -/
structure Makes (frame : Frame) (seen made : List (Symbol × Value)) : Prop where
  nodup : (Table.keys made).Nodup
  get? : ∀ s, Table.get? s made = if frame.binds s then none else Table.get? s seen

/-- Before a symbol has met a datum, no binding is made. -/
theorem makes_nil (frame : Frame) : frame.Makes [] [] := ⟨List.nodup_nil, fun s => by simp⟩

/-- What is known of a symbol while bindings are made. -/
theorem Makes.known (h : frame.Makes seen made) (s : Symbol) :
    (frame.get? s).or (Table.get? s made) = (frame.get? s).or (Table.get? s seen) := by
  rw [h.get?, binds]
  cases frame.get? s <;> rfl

/-- A symbol that is known already needs no new binding. -/
theorem Makes.keep (h : frame.Makes seen made) {s : Symbol} {got first : Value}
    (hs : (frame.get? s).or (Table.get? s seen) = some first) :
    frame.Makes (seen ++ [(s, got)]) made := by
  refine ⟨h.nodup, fun t => ?_⟩
  rw [h.get?, Table.get?_append]
  by_cases hb : frame.binds t = true
  · rw [if_pos hb, if_pos hb]
  · rw [if_neg hb, if_neg hb]
    by_cases hst : s = t
    · subst hst
      rw [binds, Option.not_isSome_iff_eq_none] at hb
      rw [hb, Option.none_or] at hs
      rw [hs]
      rfl
    · simp [Table.get?, hst]

/-- A symbol that is not known yet is bound. -/
theorem Makes.add (h : frame.Makes seen made) {s : Symbol} {got : Value}
    (hs : (frame.get? s).or (Table.get? s seen) = none) :
    frame.Makes (seen ++ [(s, got)]) (made ++ [(s, got)]) := by
  obtain ⟨hframe, hseen⟩ := Option.or_eq_none_iff.mp hs
  have hmade : Table.get? s made = none := by
    rw [h.get?, hseen, ite_self]
  have hnew : s ∉ Table.keys made := fun hmem => by
    have hhas := (Table.has_iff_mem_keys s made).mpr hmem
    simp [Table.has, hmade] at hhas
  refine ⟨?_, fun t => ?_⟩
  · rw [Table.keys, List.map_append]
    refine List.nodup_append.mpr ⟨h.nodup, by simp, fun a ha b hb hab => hnew ?_⟩
    obtain rfl : b = s := by simpa using hb
    exact hab ▸ ha
  · rw [Table.get?_append, Table.get?_append, h.get?]
    by_cases hst : s = t
    · subst hst
      simp [binds, hframe, hseen, Table.get?]
    · simp [Table.get?, hst]

/-- The frame that is extended by the bindings made knows the symbols that met a datum as well. -/
theorem Makes.get?_extend (h : frame.Makes seen made) (s : Symbol) :
    (frame.extend made).get? s = (frame.get? s).or (Table.get? s seen) := by
  refine (Table.get?_merge s frame.bindings h.nodup).trans ?_
  rw [h.get?, binds]
  cases hs : frame.get? s with
  | none => rw [Frame.get?] at hs; simp [hs]
  | some v => rw [Frame.get?] at hs; simp [hs]

/-- A literal is held against a datum. -/
theorem unifyDatum_literal {want : Value} (h : want.symbol? = none) (got : Value) :
    frame.unifyDatum made want got = if want.same got then some made else none := by
  cases want with
  | symbol t => exact absurd h (by simp [Value.symbol?])
  | _ => rfl

/-- Holding these fields of a pattern against data, from whatever has been met so far, makes bindings
exactly when the data hold what the pattern wants and all data met agree. -/
def UnifiesFields (frame : Frame) (presence : Presence) (data pattern : Fields) : Prop :=
  ∀ seen made, frame.Makes seen made →
    Decides (Value.Admits presence pattern data ∧
        Consistent (fun s => (frame.get? s).or (Table.get? s seen)) (Value.sightings pattern data))
      (frame.Makes (seen ++ Value.sightings pattern data))
      (frame.unifyFields presence data pattern made)

variable {presence : Presence} {data rest : Fields} {field : String} {want got : Value}

/-- So it does where the pattern wants nothing. -/
theorem unifiesFields_nil : frame.UnifiesFields presence data [] := by
  intro seen made h
  refine ⟨⟨fun entry he => absurd he (by simp), consistent_nil⟩, ?_⟩
  rw [Value.sightings, List.filterMap_nil, List.append_nil]
  exact h

/-- A field that the data lack is held against nothing: a symbol meets no datum, and what is wanted
must do without one. -/
theorem UnifiesFields.cons_none (ih : frame.UnifiesFields presence data rest)
    (hd : Table.get? field data = none) :
    frame.UnifiesFields presence data ((field, want) :: rest) := by
  intro seen made h
  rw [Value.admits_cons, Value.sightings_cons_none hd, unifyFields, hd]
  dsimp only
  have hallows : presence.allowsAbsent want = true ↔
      (want.symbol? = none → want.IsMetBy none) ∧ (want.symbol? ≠ none → presence ≠ .required) := by
    cases hw : want.symbol? with
    | none => simp [Value.allowsAbsent_literal hw, Value.IsMetBy]
    | some s => cases presence <;> simp [Value.eq_symbol hw, Presence.allowsAbsent]
  by_cases ha : presence.allowsAbsent want = true
  · rw [if_pos ha]
    obtain ⟨hmet, hoptional⟩ := hallows.mp ha
    refine (ih seen made h).congr (and_congr_left' (and_iff_right ⟨hmet, ?_⟩).symm)
    exact fun hw hp => absurd hp (hoptional hw)
  · rw [if_neg ha]
    rintro ⟨⟨⟨hmet, hoptional⟩, -⟩, -⟩
    exact ha (hallows.mpr ⟨hmet, fun hw hp => absurd (hoptional hw hp) (by simp)⟩)

/-- A literal is held against the datum of its field. -/
theorem UnifiesFields.cons_literal (ih : frame.UnifiesFields presence data rest)
    (hd : Table.get? field data = some got) (hw : want.symbol? = none) :
    frame.UnifiesFields presence data ((field, want) :: rest) := by
  intro seen made h
  rw [Value.admits_cons, Value.sightings_cons_literal hw, unifyFields, hd]
  dsimp only
  rw [unifyDatum_literal hw]
  by_cases hs : want.same got = true
  · rw [if_pos hs, Option.bind_some]
    have hmet : want.IsMetBy (some got) := hs
    exact (ih seen made h).congr (by simp [hw, hmet])
  · rw [if_neg hs, Option.bind_none]
    exact fun hall => hs (hall.1.1.1 hw)

/-- A symbol meets the datum of its field: it is bound to it, or it agrees with what is known. -/
theorem UnifiesFields.cons_symbol (ih : frame.UnifiesFields presence data rest)
    (hd : Table.get? field data = some got) (s : Symbol) :
    frame.UnifiesFields presence data ((field, .symbol s) :: rest) := by
  intro seen made h
  have hknown : (fun t => ((frame.get? t).or (Table.get? t seen)).or (Table.get? t [(s, got)]))
      = fun t => (frame.get? t).or (Table.get? t (seen ++ [(s, got)])) := funext fun t => by
    rw [Table.get?_append, Option.or_assoc]
  rw [Value.admits_cons, Value.sightings_cons_symbol hd, consistent_cons, hknown, unifyFields, hd]
  dsimp only
  rw [unifyDatum, h.known, List.append_cons seen (s, got) (Value.sightings rest data)]
  cases hk : (frame.get? s).or (Table.get? s seen) with
  | none =>
    refine (ih _ _ (h.add hk)).congr ?_
    simp [Value.symbol?]
  | some first =>
    dsimp only
    by_cases hs : first.same got = true
    · rw [if_pos hs, Option.bind_some]
      refine (ih _ _ (h.keep hk)).congr ?_
      simp [Value.symbol?, hs]
    · rw [if_neg hs, Option.bind_none]
      exact fun hall => hs (hall.2.1 first rfl)

/-- Holding the fields of a pattern against data makes bindings exactly when the data hold what it
wants and all data met agree. -/
theorem unifiesFields (frame : Frame) (presence : Presence) (data pattern : Fields) :
    frame.UnifiesFields presence data pattern := by
  induction pattern with
  | nil => exact unifiesFields_nil
  | cons entry rest ih =>
    obtain ⟨field, want⟩ := entry
    cases hd : Table.get? field data with
    | none => exact ih.cons_none hd
    | some got =>
      cases hw : want.symbol? with
      | none => exact ih.cons_literal hd hw
      | some s =>
        obtain rfl := Value.eq_symbol hw
        exact ih.cons_symbol hd s

/-- Unifying a pattern with data extends the frame exactly when the data hold what the pattern wants
and all data met agree; the symbols are then known by the first datum they met. -/
theorem unify?_decides (frame : Frame) (presence : Presence) (pattern data : Fields) :
    Decides (Value.Admits presence pattern data ∧
        Consistent frame.get? (Value.sightings pattern data))
      (fun extended => ∀ s, extended.get? s
        = (frame.get? s).or (Table.get? s (Value.sightings pattern data)))
      (frame.unify? presence pattern data) := by
  have hnone : (fun s => (frame.get? s).or (Table.get? s ([] : List (Symbol × Value))))
      = frame.get? := funext fun s => by simp
  have h := unifiesFields frame presence data pattern [] [] frame.makes_nil
  rw [hnone, List.nil_append] at h
  exact h.map fun made hmade s => hmade.get?_extend s

end Frame

/-! ### Patterns and events -/

/-- The input of an event is an object, and so is its output once there is one. -/
def Event.IsTyped (event : Event) : Prop :=
  ∃ input, event.input = .object input ∧
    (event.output = .null ∨ ∃ output, event.output = .object output)

namespace Pattern

variable {pattern : Pattern} {event : Event} {frame : Frame}

/-- Both halves of the pattern are objects. -/
def IsTyped (pattern : Pattern) : Prop :=
  ∃ inputs outputs, pattern.inputs = .object inputs ∧ pattern.outputs = .object outputs

/-- The event is a completed action of the pattern's kind and holds what its literals and its named
outputs want. What symbols meet is not compared here. -/
structure Fits (pattern : Pattern) (event : Event) : Prop where
  concept : event.concept = pattern.concept
  action : event.action = pattern.action
  answered : event.output ≠ .null
  inputs : Value.Admits .optional pattern.inputs.entries event.input.entries
  outputs : Value.Admits .required pattern.outputs.entries event.output.entries

/-- What the symbols of the pattern meet in the event, in the input before the output. -/
def sightings (pattern : Pattern) (event : Event) : List (Symbol × Value) :=
  Value.sightings pattern.inputs.entries event.input.entries ++
    Value.sightings pattern.outputs.entries event.output.entries

/-- An event that fits the pattern is one that it concerns. -/
theorem Fits.concerns_eq_true (h : pattern.Fits event) (he : event.IsTyped) :
    pattern.concerns event = true := by
  obtain ⟨-, -, hanswer⟩ := he
  obtain ⟨output, houtput⟩ := hanswer.resolve_left h.answered
  simp [concerns, h.concept, h.action, houtput, Value.isNull]

/-- The output of an event that the pattern concerns is there. -/
theorem output_ne_null (hc : pattern.concerns event = true) : event.output ≠ .null := by
  intro hnull
  simp [concerns, hnull, Value.isNull] at hc

/-- An event that the pattern concerns fits it exactly when it holds what is wanted. -/
theorem fits_iff (hc : pattern.concerns event = true) :
    pattern.Fits event ↔
      Value.Admits .optional pattern.inputs.entries event.input.entries ∧
        Value.Admits .required pattern.outputs.entries event.output.entries :=
  ⟨fun h => ⟨h.inputs, h.outputs⟩, fun h =>
    ⟨(kind_eq_of_concerns hc).1, (kind_eq_of_concerns hc).2, output_ne_null hc, h.1, h.2⟩⟩

/-- A frame is extended by an event exactly when the event fits the pattern and all data met agree;
the symbols are then known by the first datum they met. -/
theorem exists_match?_decides (hp : pattern.IsTyped) (he : event.IsTyped) (frame : Frame) :
    ∃ found, pattern.match? event frame = .ok found ∧
      Decides (pattern.Fits event ∧ Consistent frame.get? (pattern.sightings event))
        (fun extended => ∀ s, extended.get? s
          = (frame.get? s).or (Table.get? s (pattern.sightings event))) found := by
  by_cases hc : pattern.concerns event = true
  swap
  · exact ⟨none, if_neg hc, fun hall => hc (hall.1.concerns_eq_true he)⟩
  obtain ⟨inputs, outputs, hinputs, houtputs⟩ := hp
  obtain ⟨input, hinput, hanswer⟩ := he
  obtain ⟨output, houtput⟩ := hanswer.resolve_left (output_ne_null hc)
  rw [match?, if_pos hc, fits_iff hc, sightings, hinputs, houtputs, hinput, houtput]
  simp only [Value.entries_object]
  rw [consistent_append]
  have hfirst := Frame.unify?_decides frame .optional inputs input
  cases hunify : frame.unify? .optional inputs input with
  | none =>
    rw [hunify] at hfirst
    exact ⟨none, by rw [Frame.unifyValue?, hunify]; rfl, fun hall => hfirst ⟨hall.1.1, hall.2.1⟩⟩
  | some extended =>
    rw [hunify] at hfirst
    obtain ⟨hadmits, hknown⟩ := hfirst
    have hsecond := Frame.unify?_decides extended .required outputs output
    rw [funext hknown] at hsecond
    refine ⟨extended.unify? .required outputs output,
      by rw [Frame.unifyValue?, hunify]; rfl, (hsecond.congr ?_).imp fun last hlast s => ?_⟩
    · rw [and_and_and_comm]
      exact (and_iff_right hadmits).symm
    · exact (hlast s).trans (by rw [Option.or_assoc, ← Table.get?_append])

/-! ### Assignments of events to patterns -/

/-- What the symbols of all patterns meet in the events that are assigned to these. -/
def sightingsAll (patterns : List Pattern) (events : List Event) : List (Symbol × Value) :=
  (List.zipWith sightings patterns events).flatten

/-- Events of a log with their places in it are assigned to the patterns: one to each, no place
twice, each event fits its pattern, and what the symbols meet agrees with the first that they meet,
in the order of the patterns. -/
structure IsAssignment (patterns : List Pattern) (log : List Event)
    (tuple : List (Event × Nat)) : Prop where
  drawn : ∀ entry ∈ tuple, log[entry.2]? = some entry.1
  distinct : (tuple.map (·.2)).Nodup
  fits : List.Forall₂ Fits patterns (tuple.map (·.1))
  consistent : Consistent (fun _ => none) (sightingsAll patterns (tuple.map (·.1)))

/-- An event of the log can be assigned to one more pattern. -/
structure Extends (patterns : List Pattern) (pattern : Pattern) (log : List Event)
    (tuple : List (Event × Nat)) (entry : Event × Nat) : Prop where
  drawn : log[entry.2]? = some entry.1
  fresh : entry.2 ∉ tuple.map (·.2)
  fits : pattern.Fits entry.1
  consistent : Consistent (fun s => Table.get? s (sightingsAll patterns (tuple.map (·.1))))
    (pattern.sightings entry.1)

/-- The combination is made of the events of the tuple, and its frame binds exactly the symbols that
met a datum, to the first one they met. -/
structure Describes (patterns : List Pattern) (tuple : List (Event × Nat)) (c : Combination) :
    Prop where
  numbers : c.2 = tuple.map (·.1.number)
  known : ∀ s, c.1.get? s = Table.get? s (sightingsAll patterns (tuple.map (·.1)))

/-- The combinations that a join finds are the assignments, each once and in the lexicographic order
of their places. -/
structure Finds (patterns : List Pattern) (log : List Event) (tuples : List (List (Event × Nat)))
    (found : List Combination) : Prop where
  complete : ∀ tuple, tuple ∈ tuples ↔ IsAssignment patterns log tuple
  sorted : (tuples.map fun tuple => tuple.map (·.2)).Pairwise (List.Lex (· < ·))
  described : List.Forall₂ (Describes patterns) tuples found

section Assignments

variable {patterns : List Pattern} {log : List Event} {tuple : List (Event × Nat)}
  {entry : Event × Nat}

/-- Lists that are related item by item, with one more item at the end of each. -/
theorem forall₂_concat_iff {α β : Type} {R : α → β → Prop} {as : List α} {bs : List β} {a : α}
    {b : β} : List.Forall₂ R (as ++ [a]) (bs ++ [b]) ↔ List.Forall₂ R as bs ∧ R a b := by
  rw [← List.forall₂_reverse_iff, List.reverse_concat, List.reverse_concat, List.forall₂_cons,
    List.forall₂_reverse_iff, and_comm]

/-- One event more shows the symbols what its pattern meets in it. -/
theorem sightingsAll_concat {events : List Event} (h : patterns.length = events.length)
    (pattern : Pattern) (event : Event) :
    sightingsAll (patterns ++ [pattern]) (events ++ [event])
      = sightingsAll patterns events ++ pattern.sightings event := by
  rw [sightingsAll, List.zipWith_append h, List.flatten_append]
  simp [sightingsAll]

/-- As many events are assigned as there are patterns. -/
theorem IsAssignment.length_eq (h : IsAssignment patterns log tuple) :
    patterns.length = tuple.length := by
  simpa using h.fits.length_eq

/-- An assignment to one more pattern is one to the others, extended by an event. -/
theorem isAssignment_concat_iff {pattern : Pattern} :
    IsAssignment (patterns ++ [pattern]) log (tuple ++ [entry]) ↔
      IsAssignment patterns log tuple ∧ Extends patterns pattern log tuple entry := by
  have hdistinct : ((tuple ++ [entry]).map (·.2)).Nodup ↔
      (tuple.map (·.2)).Nodup ∧ entry.2 ∉ tuple.map (·.2) := by
    rw [List.map_append, List.map_singleton, List.nodup_middle, List.append_nil, List.nodup_cons,
      and_comm]
  have hfits : List.Forall₂ Fits (patterns ++ [pattern]) ((tuple ++ [entry]).map (·.1)) ↔
      List.Forall₂ Fits patterns (tuple.map (·.1)) ∧ pattern.Fits entry.1 := by
    rw [List.map_append, List.map_singleton, forall₂_concat_iff]
  have hconsistent (hf : List.Forall₂ Fits patterns (tuple.map (·.1))) :
      Consistent (fun _ => none)
          (sightingsAll (patterns ++ [pattern]) ((tuple ++ [entry]).map (·.1))) ↔
        Consistent (fun _ => none) (sightingsAll patterns (tuple.map (·.1))) ∧
          Consistent (fun s => Table.get? s (sightingsAll patterns (tuple.map (·.1))))
            (pattern.sightings entry.1) := by
    rw [List.map_append, List.map_singleton, sightingsAll_concat hf.length_eq, consistent_append]
    simp only [Option.none_or]
  constructor
  · intro h
    obtain ⟨hf, hfit⟩ := hfits.mp h.fits
    obtain ⟨hd, hfresh⟩ := hdistinct.mp h.distinct
    obtain ⟨hc, hnext⟩ := (hconsistent hf).mp h.consistent
    exact ⟨⟨fun e he => h.drawn e (List.mem_append_left _ he), hd, hf, hc⟩,
      h.drawn entry (by simp), hfresh, hfit, hnext⟩
  · rintro ⟨h, he⟩
    refine ⟨fun e hmem => ?_, hdistinct.mpr ⟨h.distinct, he.fresh⟩, hfits.mpr ⟨h.fits, he.fits⟩,
      (hconsistent h.fits).mpr ⟨h.consistent, he.consistent⟩⟩
    rcases List.mem_append.mp hmem with hmem | hmem
    · exact h.drawn e hmem
    · rw [List.mem_singleton.mp hmem]
      exact he.drawn

/-- Every assignment to one more pattern extends an assignment. -/
theorem exists_of_isAssignment_concat {pattern : Pattern}
    (h : IsAssignment (patterns ++ [pattern]) log tuple) :
    ∃ init entry, tuple = init ++ [entry] ∧ IsAssignment patterns log init ∧
      Extends patterns pattern log init entry := by
  rcases List.eq_nil_or_concat tuple with rfl | ⟨init, entry, rfl⟩
  · exact absurd h.length_eq (by simp)
  · rw [List.concat_eq_append] at h ⊢
    exact ⟨init, entry, rfl, isAssignment_concat_iff.mp h⟩

/-- An event of the log has the number of an assigned event only when it is that event. -/
theorem IsAssignment.mem_numbers_iff (h : IsAssignment patterns log tuple)
    (hn : (log.map Event.number).Nodup) (hentry : log[entry.2]? = some entry.1) :
    entry.1.number ∈ tuple.map (·.1.number) ↔ entry.2 ∈ tuple.map (·.2) := by
  simp only [List.mem_map]
  constructor
  · rintro ⟨other, ho, hnumber⟩
    refine ⟨other, ho, ?_⟩
    have hother := h.drawn other ho
    have hlt : other.2 < (log.map Event.number).length := by
      rw [List.length_map]
      exact (List.getElem?_eq_some_iff.mp hother).1
    refine (List.getElem?_inj hlt hn).mp ?_
    rw [List.getElem?_map, List.getElem?_map, hother, hentry, Option.map_some, Option.map_some,
      hnumber]
  · rintro ⟨other, ho, hplace⟩
    refine ⟨other, ho, ?_⟩
    have hother := h.drawn other ho
    rw [hplace, hentry] at hother
    rw [Option.some.inj hother]

/-! ### One more pattern -/

variable {pattern : Pattern} {tuples : List (List (Event × Nat))} {begun : List Combination}
  {c : Combination}

/-- The combination that an event extends. -/
theorem Describes.extend (hc : Describes patterns tuple c)
    (hlength : patterns.length = tuple.length) {frame : Frame}
    (hframe : ∀ s, frame.get? s = (Table.get? s (sightingsAll patterns (tuple.map (·.1)))).or
      (Table.get? s (pattern.sightings entry.1))) :
    Describes (patterns ++ [pattern]) (tuple ++ [entry]) (frame, c.2 ++ [entry.1.number]) := by
  refine ⟨by rw [hc.numbers, List.map_append, List.map_singleton], fun s => ?_⟩
  rw [List.map_append, List.map_singleton, sightingsAll_concat (by rw [hlength, List.length_map]),
    Table.get?_append]
  exact hframe s

/-- Trying an event of the log on a combination extends its frame exactly when the event extends its
assignment. -/
theorem exists_extends_decides (hp : pattern.IsTyped) (he : entry.1.IsTyped)
    (hn : (log.map Event.number).Nodup) (h : IsAssignment patterns log tuple)
    (hc : Describes patterns tuple c) (hdrawn : log[entry.2]? = some entry.1) :
    ∃ here, (if entry.1.number ∈ c.2 then .ok none else pattern.match? entry.1 c.1) = .ok here ∧
      Decides (Extends patterns pattern log tuple entry)
        (fun frame => Describes (patterns ++ [pattern]) (tuple ++ [entry])
          (frame, c.2 ++ [entry.1.number])) here := by
  have hfresh := h.mem_numbers_iff hn hdrawn
  rw [← hc.numbers] at hfresh
  by_cases hused : entry.1.number ∈ c.2
  · exact ⟨none, if_pos hused, fun hextends => hextends.fresh (hfresh.mp hused)⟩
  · obtain ⟨here, hhere, hdecides⟩ := exists_match?_decides hp he c.1
    rw [funext hc.known] at hdecides
    refine ⟨here, by rw [if_neg hused, hhere], (hdecides.congr ?_).imp fun frame hframe =>
      hc.extend h.length_eq hframe⟩
    exact ⟨fun hall => ⟨hdrawn, fun hplace => hused (hfresh.mpr hplace), hall.1, hall.2⟩,
      fun hextends => ⟨hextends.fits, hextends.consistent⟩⟩

/-- A combination is continued by exactly the events that extend its assignment, in their order. -/
theorem exists_continuations (hp : pattern.IsTyped) (hlog : ∀ event ∈ log, event.IsTyped)
    (hn : (log.map Event.number).Nodup) (h : IsAssignment patterns log tuple)
    (hc : Describes patterns tuple c) {entries : List (Event × Nat)}
    (hentries : ∀ entry ∈ entries, log[entry.2]? = some entry.1) :
    ∃ (next : List (Event × Nat)) (found : List Combination),
      pattern.continuations c (entries.map (·.1)) = .ok found ∧ next.Sublist entries ∧
      (∀ entry, entry ∈ next ↔ entry ∈ entries ∧ Extends patterns pattern log tuple entry) ∧
      List.Forall₂ (Describes (patterns ++ [pattern])) (next.map (tuple ++ [·])) found := by
  induction entries with
  | nil => exact ⟨[], [], rfl, .slnil, fun _ => by simp, .nil⟩
  | cons entry rest ih =>
    rw [List.forall_mem_cons] at hentries
    obtain ⟨hdrawn, hrest⟩ := hentries
    obtain ⟨next, found, hfound, hsub, hmem, hdescribed⟩ := ih hrest
    obtain ⟨here, hhere, hdecides⟩ := exists_extends_decides hp
      (hlog _ (List.mem_of_getElem? hdrawn)) hn h hc hdrawn
    have hcons := continuations_cons_eq_ok_iff.mpr ⟨here, found, hhere, hfound, rfl⟩
    cases here with
    | none =>
      refine ⟨next, _, hcons, hsub.cons _, fun other => ?_, hdescribed⟩
      rw [hmem, List.mem_cons, or_and_right]
      refine (or_iff_right fun hother => hdecides ?_).symm
      exact hother.1 ▸ hother.2
    | some frame =>
      obtain ⟨hextends, hnew⟩ := hdecides
      refine ⟨entry :: next, _, hcons, hsub.cons_cons _, fun other => ?_, .cons hnew hdescribed⟩
      rw [List.mem_cons, List.mem_cons, hmem, or_and_right]
      refine or_congr_left ⟨?_, fun hother => hother.1⟩
      rintro rfl
      exact ⟨rfl, hextends⟩

/-- Two lists of one length that are in lexicographic order remain so with more at their ends. -/
theorem lex_append_of_length_eq {as bs : List Nat} (h : List.Lex (· < ·) as bs)
    (hlength : as.length = bs.length) (cs ds : List Nat) :
    List.Lex (· < ·) (as ++ cs) (bs ++ ds) := by
  induction h with
  | nil => exact absurd hlength (by simp)
  | cons _ ih => exact .cons (ih (Nat.succ.inj hlength))
  | rel hlt => exact .rel hlt

/-- One more pattern extends each of several assignments in every possible way. -/
theorem exists_continueAll (hp : pattern.IsTyped) (hlog : ∀ event ∈ log, event.IsTyped)
    (hn : (log.map Event.number).Nodup) (h : ∀ tuple ∈ tuples, IsAssignment patterns log tuple)
    (hsorted : (tuples.map fun tuple => tuple.map (·.2)).Pairwise (List.Lex (· < ·)))
    (hdescribed : List.Forall₂ (Describes patterns) tuples begun) :
    ∃ (next : List (List (Event × Nat))) (found : List Combination),
      pattern.continueAll log begun = .ok found ∧
      (∀ longer, longer ∈ next ↔ ∃ tuple ∈ tuples, ∃ entry,
        Extends patterns pattern log tuple entry ∧ longer = tuple ++ [entry]) ∧
      (next.map fun tuple => tuple.map (·.2)).Pairwise (List.Lex (· < ·)) ∧
      List.Forall₂ (Describes (patterns ++ [pattern])) next found := by
  induction hdescribed with
  | nil => exact ⟨[], [], rfl, fun _ => by simp, .nil, .nil⟩
  | @cons tuple c tuples begun hc _ ih =>
    rw [List.forall_mem_cons] at h
    rw [List.map_cons, List.pairwise_cons] at hsorted
    obtain ⟨next, found, hfound, hmem, hnext, hdescribed⟩ := ih h.2 hsorted.2
    obtain ⟨entries, here, hhere, hsub, hentries, hthere⟩ :=
      exists_continuations hp hlog hn h.1 hc fun entry he => List.mem_zipIdx_iff_getElem?.mp he
    rw [List.zipIdx_map_fst] at hhere
    refine ⟨entries.map (tuple ++ [·]) ++ next, here ++ found,
      continueAll_cons_eq_ok_iff.mpr ⟨here, found, hhere, hfound, rfl⟩, fun longer => ?_, ?_,
      List.rel_append hthere hdescribed⟩
    · rw [List.mem_append, List.mem_map, hmem, List.exists_mem_cons_iff]
      refine or_congr_left ?_
      constructor
      · rintro ⟨entry, he, rfl⟩
        exact ⟨entry, ((hentries entry).mp he).2, rfl⟩
      · rintro ⟨entry, he, rfl⟩
        have hmember := List.mem_zipIdx_iff_getElem?.mpr he.drawn
        exact ⟨entry, (hentries entry).mpr ⟨hmember, he⟩, rfl⟩
    · have hplaces : log.zipIdx.Pairwise fun a b => a.2 < b.2 := by
        rw [← List.pairwise_map, List.zipIdx_map_snd]
        exact List.pairwise_lt_range'
      rw [List.map_append, List.pairwise_append, List.map_map, List.pairwise_map]
      refine ⟨(hplaces.sublist hsub).imp fun hlt => ?_, hnext, fun a ha b hb => ?_⟩
      · rw [Function.comp_apply, Function.comp_apply, List.map_append, List.map_append]
        exact List.Lex.append_left _ (.rel hlt) _
      · obtain ⟨entry, -, rfl⟩ := List.mem_map.mp ha
        obtain ⟨longer, hlonger, rfl⟩ := List.mem_map.mp hb
        obtain ⟨other, hother, last, -, rfl⟩ := (hmem longer).mp hlonger
        rw [Function.comp_apply, List.map_append, List.map_append]
        refine lex_append_of_length_eq (hsorted.1 _ (List.mem_map_of_mem hother)) ?_ _ _
        rw [List.length_map, List.length_map, ← h.1.length_eq, ← (h.2 other hother).length_eq]

/-- One more pattern finds the assignments to one more pattern. -/
theorem Finds.continueAll (hp : pattern.IsTyped) (hlog : ∀ event ∈ log, event.IsTyped)
    (hn : (log.map Event.number).Nodup) (h : Finds patterns log tuples begun) :
    ∃ next found, pattern.continueAll log begun = .ok found ∧
      Finds (patterns ++ [pattern]) log next found := by
  obtain ⟨next, found, hfound, hmem, hsorted, hdescribed⟩ := exists_continueAll hp hlog hn
    (fun tuple ht => (h.complete tuple).mp ht) h.sorted h.described
  refine ⟨next, found, hfound, fun longer => (hmem longer).trans ?_, hsorted, hdescribed⟩
  constructor
  · rintro ⟨tuple, ht, entry, he, rfl⟩
    exact isAssignment_concat_iff.mpr ⟨(h.complete tuple).mp ht, he⟩
  · intro hlonger
    obtain ⟨tuple, entry, rfl, ht, he⟩ := exists_of_isAssignment_concat hlonger
    exact ⟨tuple, (h.complete tuple).mpr ht, entry, he, rfl⟩

/-- The patterns that remain find the assignments to all patterns. -/
theorem Finds.joinAll {rest : List Pattern} (hp : ∀ pattern ∈ rest, pattern.IsTyped)
    (hlog : ∀ event ∈ log, event.IsTyped) (hn : (log.map Event.number).Nodup)
    (h : Finds patterns log tuples begun) :
    ∃ next found, Pattern.joinAll log rest begun = .ok found ∧
      Finds (patterns ++ rest) log next found := by
  induction rest generalizing patterns tuples begun with
  | nil => exact ⟨tuples, begun, rfl, by rwa [List.append_nil]⟩
  | cons pattern rest ih =>
    rw [List.forall_mem_cons] at hp
    obtain ⟨next, middle, hmiddle, hnext⟩ := h.continueAll hp.1 hlog hn
    obtain ⟨last, found, hfound, hlast⟩ := ih hp.2 hnext
    refine ⟨last, found, by rw [Pattern.joinAll, hmiddle]; exact hfound, ?_⟩
    rwa [List.append_assoc, List.singleton_append] at hlast

/-- Where there are no patterns, the assignment of nothing is found. -/
theorem finds_nil (log : List Event) : Finds [] log [[]] [(Frame.empty, [])] := by
  refine ⟨fun tuple => ?_, List.pairwise_singleton .., .cons ⟨rfl, fun _ => rfl⟩ .nil⟩
  constructor
  · intro h
    rw [List.mem_singleton.mp h]
    exact ⟨fun _ he => absurd he (by simp), .nil, .nil, consistent_nil⟩
  · intro h
    exact List.mem_singleton.mpr (List.eq_nil_of_length_eq_zero h.length_eq.symm)

/-- A join finds exactly the assignments of distinct events of the log to the patterns in which each
event fits its pattern and all data that a symbol meets agree with the first one: each of them once,
in the lexicographic order of the places of the events in the log, and each with a frame that binds
exactly the symbols that met a datum, to the first one they met. -/
theorem combinations_finds (hp : ∀ pattern ∈ patterns, pattern.IsTyped)
    (hlog : ∀ event ∈ log, event.IsTyped) (hn : (log.map Event.number).Nodup) :
    ∃ tuples found, combinations patterns log = .ok found ∧ Finds patterns log tuples found :=
  (finds_nil log).joinAll hp hlog hn

end Assignments

/-- A pattern for requests and one for logins that share the user. -/
def loginOfRequester : List Pattern :=
  [⟨"Requests", "request", .object [("user", .symbol (.plain "greet" "user"))], .object []⟩,
    ⟨"Accounts", "login", .object [("user", .symbol (.plain "greet" "user"))], .object []⟩]

/-- The requester's login comes after somebody else's. -/
def twoLogins : List Event :=
  [⟨0, "Requests", "request", .object [("user", .str "ann")], .object [], "flow"⟩,
    ⟨1, "Accounts", "login", .object [("user", .str "bob")], .object [], "flow"⟩,
    ⟨2, "Accounts", "login", .object [("user", .str "ann")], .object [], "flow"⟩]

/-- Of two logins the requester's is found. -/
theorem combinations_finds_login :
    ∃ tuples found, combinations loginOfRequester twoLogins = .ok found ∧
      Finds loginOfRequester twoLogins tuples found ∧ found.map (·.2) = [[0, 2]] := by
  have hp : ∀ pattern ∈ loginOfRequester, pattern.IsTyped := by
    simp [loginOfRequester, IsTyped]
  have hlog : ∀ event ∈ twoLogins, event.IsTyped := by
    simp [twoLogins, Event.IsTyped]
  obtain ⟨tuples, found, hfound, hfinds⟩ := combinations_finds hp hlog (by decide)
  have hnumbers := congrArg (Except.map (List.map Prod.snd)) hfound
  exact ⟨tuples, found, hfound, hfinds, (Except.ok.inj hnumbers).symm⟩

end Pattern

end HerdBook
