import HerdBook.Proofs.Assignments
import HerdBook.Proofs.Equivalence
import HerdBook.Proofs.Tables

/-!
# Unifying is exact and binds no more than it must

Whether a pattern unifies with data is decided by its fields one by one: each is absent though it
must be there, or holds a datum that is not the one wanted, or is as it should be
(`Frame.Clash` lists how a field can be wrong). If none is wrong, the frame keeps its bindings in
their places, and after them come the symbols that met a datum and had no value, each with the first
datum it met (`Frame.newcomers`).

The bindings made so far while the fields are gone through are the newcomers among the symbols that
met a datum so far; a further datum adds its symbol or is held against what is known. Unifying once
more finds every symbol known, and so has nothing to add.

## Main results

* `Frame.clash_iff`: what it takes that a pattern does not unify.
* `Frame.bindings_of_unify?`: the bindings of the frame that is returned.
* `Frame.unify?_exact_and_minimal`: both, and that unifying again changes nothing.
-/

namespace HerdBook

open Value

namespace Frame

variable {frame : Frame} {known : Symbol → Bool} {seen more made : List (Symbol × Value)}

/-! ### Newcomers -/

/-- Of the data that symbols meet, in order, the first one of each symbol that is not known. -/
def newcomers (known : Symbol → Bool) : List (Symbol × Value) → List (Symbol × Value)
  | [] => []
  | (s, got) :: rest =>
    if known s then newcomers known rest
    else (s, got) :: newcomers (fun t => known t || decide (t = s)) rest

/-- Where all symbols are known, none is new. -/
theorem newcomers_eq_nil (h : ∀ entry ∈ seen, known entry.1 = true) :
    newcomers known seen = [] := by
  induction seen with
  | nil => rfl
  | cons entry rest ih =>
    obtain ⟨s, got⟩ := entry
    rw [newcomers, if_pos (h (s, got) List.mem_cons_self)]
    exact ih fun entry he => h entry (List.mem_cons_of_mem _ he)

/-- A symbol that met a datum before is known when it meets another one. -/
theorem newcomers_append : newcomers known (seen ++ more)
    = newcomers known seen ++ newcomers (fun t => known t || Table.has t seen) more := by
  induction seen generalizing known with
  | nil => simp [newcomers, Table.has]
  | cons entry rest ih =>
    obtain ⟨s, got⟩ := entry
    have hhas (t : Symbol) :
        Table.has t ((s, got) :: rest) = (decide (t = s) || Table.has t rest) := by
      by_cases hts : s = t <;> simp [Table.has, Table.get?, hts, Ne.symm]
    rw [List.cons_append, newcomers, newcomers]
    by_cases hs : known s = true
    · rw [if_pos hs, if_pos hs, ih]
      congr 2
      funext t
      rw [hhas]
      by_cases hts : t = s
      · simp [hts, hs]
      · simp [hts]
    · rw [if_neg hs, if_neg hs, ih, List.cons_append]
      congr 3
      funext t
      rw [hhas, Bool.or_assoc]

/-- What one datum more adds. -/
theorem newcomers_append_singleton (s : Symbol) (got : Value) :
    newcomers known (seen ++ [(s, got)])
      = newcomers known seen ++ if known s || Table.has s seen then [] else [(s, got)] := by
  rw [newcomers_append]
  rfl

/-- A datum that a symbol meets adds the symbol to the newcomers unless it is known. -/
theorem unifyDatum_eq_newcomers {s : Symbol} {got : Value}
    (h : frame.Makes seen (newcomers frame.binds seen))
    (hmade : frame.unifyDatum (newcomers frame.binds seen) (.symbol s) got = some made) :
    made = newcomers frame.binds (seen ++ [(s, got)]) ∧
      frame.Makes (seen ++ [(s, got)]) made := by
  rw [unifyDatum, h.known] at hmade
  rw [newcomers_append_singleton]
  have hbinds : (frame.binds s || Table.has s seen)
      = ((frame.get? s).or (Table.get? s seen)).isSome := by
    rw [binds, Table.has, Option.isSome_or]
  rw [hbinds]
  cases hk : (frame.get? s).or (Table.get? s seen) with
  | none =>
    rw [hk] at hmade
    obtain rfl := Option.some.inj hmade
    exact ⟨rfl, h.add hk⟩
  | some first =>
    rw [hk] at hmade
    obtain rfl : newcomers frame.binds seen = made := by
      dsimp only at hmade
      split at hmade
      · exact Option.some.inj hmade
      · cases hmade
    exact ⟨(List.append_nil _).symm, h.keep hk⟩

/-- The bindings made by a pattern are the newcomers among what its symbols met. -/
theorem unifyFields_eq_newcomers {presence : Presence} {pattern data : Fields}
    (h : frame.Makes seen (newcomers frame.binds seen))
    (hmade : frame.unifyFields presence data pattern (newcomers frame.binds seen) = some made) :
    made = newcomers frame.binds (seen ++ sightings pattern data) := by
  induction pattern generalizing seen with
  | nil =>
    rw [sightings, List.filterMap_nil, List.append_nil]
    exact (Option.some.inj hmade).symm
  | cons entry rest ih =>
    obtain ⟨field, want⟩ := entry
    rw [unifyFields] at hmade
    cases hd : Table.get? field data with
    | none =>
      rw [hd] at hmade
      rw [sightings_cons_none hd]
      by_cases ha : presence.allowsAbsent want = true
      · exact ih h (by simpa [ha] using hmade)
      · simp [ha] at hmade
    | some got =>
      rw [hd] at hmade
      obtain ⟨next, hnext, hmade⟩ := Option.bind_eq_some_iff.mp hmade
      cases hw : want.symbol? with
      | none =>
        rw [sightings_cons_literal hw]
        rw [unifyDatum_literal hw] at hnext
        obtain rfl : newcomers frame.binds seen = next := by
          split at hnext
          · exact Option.some.inj hnext
          · cases hnext
        exact ih h hmade
      | some s =>
        obtain rfl := eq_symbol hw
        obtain ⟨rfl, hnext⟩ := unifyDatum_eq_newcomers h hnext
        rw [sightings_cons_symbol hd, List.append_cons seen]
        exact ih hnext hmade

/-- The frame that a pattern and data extend a frame to has the bindings of the frame and after them
those of the newcomers. -/
theorem bindings_of_unify? {extended : Frame} {presence : Presence} {pattern data : Fields}
    (h : frame.unify? presence pattern data = some extended) :
    extended.bindings = frame.bindings ++ newcomers frame.binds (sightings pattern data) := by
  obtain ⟨made, hmade, rfl⟩ := Option.map_eq_some_iff.mp h
  have hmakes : frame.Makes (sightings pattern data) made := by
    have hdecides := unifiesFields frame presence data pattern [] [] frame.makes_nil
    rw [hmade] at hdecides
    exact hdecides.2
  obtain rfl := unifyFields_eq_newcomers (makes_nil frame) hmade
  refine Table.merge_eq_append hmakes.nodup fun s hs => Table.get?_eq_none s fun hold => ?_
  have hfound := (Table.has_iff_mem_keys s _).mpr hs
  have hbound : frame.binds s = true := (Table.has_iff_mem_keys s _).mpr hold
  rw [Table.has, hmakes.get?, if_pos hbound] at hfound
  cases hfound

/-! ### What goes wrong -/

/-- Something is wrong with a field of the pattern: it is absent though it must be there, a literal
is held against another datum, or a symbol is held against another datum than the one that the frame
has for it, or else the first one that it met before. -/
inductive Clash (frame : Frame) (presence : Presence) (pattern data : Fields) : Prop
  | absent {field : String} {want : Value} (hfield : (field, want) ∈ pattern)
      (hdata : Table.get? field data = none) (hna : want ≠ .notApplicable)
      (hsymbol : presence = .required ∨ want.symbol? = none)
  | literal {field : String} {want got : Value} (hfield : (field, want) ∈ pattern)
      (hdata : Table.get? field data = some got) (hsymbol : want.symbol? = none)
      (hdiffers : want.same got = false)
  | symbol {before after : Fields} {field : String} {s : Symbol} {got first : Value}
      (hpattern : pattern = before ++ (field, .symbol s) :: after)
      (hdata : Table.get? field data = some got)
      (hfirst : (frame.get? s).or (Table.get? s (sightings before data)) = some first)
      (hdiffers : first.same got = false)

section Clash

variable {presence : Presence} {pattern data : Fields}

/-- What the data must hold of a pattern fails at a field that is absent or has another datum. -/
theorem clash_of_not_admits (h : ¬Admits presence pattern data) :
    frame.Clash presence pattern data := by
  obtain ⟨entry, hentry, hwrong⟩ : ∃ entry ∈ pattern,
      ¬((entry.2.symbol? = none → entry.2.IsMetBy (Table.get? entry.1 data)) ∧
        (entry.2.symbol? ≠ none → presence = .required →
          (Table.get? entry.1 data).isSome = true)) := by
    by_contra hall
    exact h fun entry he => by_contra fun hwrong => hall ⟨entry, he, hwrong⟩
  obtain ⟨field, want⟩ := entry
  cases hs : want.symbol? with
  | none =>
    have hunmet : ¬want.IsMetBy (Table.get? field data) := fun hmet =>
      hwrong ⟨fun _ => hmet, fun hsome => absurd hs hsome⟩
    cases hd : Table.get? field data with
    | none =>
      rw [hd] at hunmet
      exact .absent hentry hd hunmet (.inr hs)
    | some got =>
      rw [hd] at hunmet
      exact .literal hentry hd hs (Bool.eq_false_iff.mpr hunmet)
  | some s =>
    obtain ⟨hrequired, hd⟩ : presence = .required ∧ Table.get? field data = none := by
      by_contra hnot
      refine hwrong ⟨fun hnone => ?_, fun _ hrequired => ?_⟩
      · cases hs.symm.trans hnone
      · by_contra habsent
        exact hnot ⟨hrequired, by simpa using habsent⟩
    refine .absent hentry hd (fun hna => ?_) (.inl hrequired)
    rw [hna] at hs
    cases hs

/-- A datum that a symbol met stands at a field of the pattern that the symbol is wanted for. -/
theorem exists_of_sightings_eq {before after : List (Symbol × Value)} {s : Symbol} {got : Value}
    (h : sightings pattern data = before ++ (s, got) :: after) :
    ∃ earlier field later, pattern = earlier ++ (field, .symbol s) :: later ∧
      sightings earlier data = before ∧ Table.get? field data = some got := by
  obtain ⟨first, rest, rfl, hfirst, hrest⟩ := List.filterMap_eq_append_iff.mp h
  obtain ⟨skipped, ⟨field, want⟩, later, rfl, hskipped, hentry, -⟩ :=
    List.filterMap_eq_cons_iff.mp hrest
  obtain ⟨t, ht, hentry⟩ := Option.bind_eq_some_iff.mp hentry
  obtain ⟨datum, hd, hpair⟩ := Option.map_eq_some_iff.mp hentry
  obtain ⟨rfl, rfl⟩ := Prod.mk.inj hpair
  obtain rfl := eq_symbol ht
  refine ⟨first ++ skipped, field, later, by simp, ?_, hd⟩
  rw [sightings, List.filterMap_append, List.filterMap_eq_nil_iff.mpr hskipped, List.append_nil]
  exact hfirst

/-- Where symbols do not agree, one meets another datum than its first one. -/
theorem clash_of_not_consistent (h : ¬Consistent frame.get? (sightings pattern data)) :
    frame.Clash presence pattern data := by
  unfold Consistent at h
  push Not at h
  obtain ⟨before, s, got, after, hsplit, first, hfirst, hdiffers⟩ := h
  obtain ⟨earlier, field, later, hpattern, hearlier, hd⟩ := exists_of_sightings_eq hsplit
  rw [← hearlier] at hfirst
  exact .symbol hpattern hd hfirst (Bool.eq_false_iff.mpr hdiffers)

/-- Something is wrong with a field exactly when the data do not hold what the pattern wants or the
data met do not agree. -/
theorem clash_iff : frame.Clash presence pattern data ↔
    ¬(Admits presence pattern data ∧ Consistent frame.get? (sightings pattern data)) := by
  refine ⟨fun hclash hall => ?_, fun h => ?_⟩
  · obtain ⟨hadmits, hconsistent⟩ := hall
    cases hclash with
    | @absent field want hfield hd hna hsymbol =>
      obtain ⟨hmet, hpresent⟩ := hadmits (field, want) hfield
      cases hs : want.symbol? with
      | none =>
        have hmet : want.IsMetBy (Table.get? field data) := hmet hs
        rw [hd] at hmet
        exact hna hmet
      | some s =>
        obtain hrequired | hnone := hsymbol
        · have hsome : (Table.get? field data).isSome = true := hpresent (by simp [hs]) hrequired
          rw [hd] at hsome
          cases hsome
        · cases hs.symm.trans hnone
    | @literal field want got hfield hd hs hdiffers =>
      have hmet : want.IsMetBy (Table.get? field data) := (hadmits (field, want) hfield).1 hs
      rw [hd] at hmet
      cases hdiffers.symm.trans hmet
    | @symbol before after field s got first hpattern hd hfirst hdiffers =>
      have hsplit : sightings pattern data
          = sightings before data ++ (s, got) :: sightings after data := by
        rw [hpattern, sightings, List.filterMap_append]
        congr 1
        exact sightings_cons_symbol hd s after
      cases hdiffers.symm.trans (hconsistent _ s got _ hsplit first hfirst)
  · by_cases hadmits : Admits presence pattern data
    · exact clash_of_not_consistent fun hconsistent => h ⟨hadmits, hconsistent⟩
    · exact clash_of_not_admits hadmits

/-! ### Unifying again -/

/-- The data agree with what the extended frame knows, when each of them is the same as itself. -/
theorem consistent_extend (hself : ∀ entry ∈ data, entry.2.same entry.2 = true)
    (h : Consistent frame.get? (sightings pattern data)) :
    Consistent (fun s => (frame.get? s).or (Table.get? s (sightings pattern data)))
      (sightings pattern data) := by
  intro before s got after hsplit first hfirst
  have hknown := h before s got after hsplit
  dsimp only at hfirst
  cases hf : frame.get? s with
  | some v =>
    rw [hf] at hknown hfirst
    exact hknown first hfirst
  | none =>
    rw [hf] at hknown
    rw [hf, hsplit, Table.get?_append] at hfirst
    cases hb : Table.get? s before with
    | some v =>
      rw [hb] at hknown hfirst
      exact hknown first hfirst
    | none =>
      -- the datum is the first one that the symbol met, so it is held against itself
      obtain rfl : got = first := by simpa [hb, Table.get?] using hfirst
      obtain ⟨-, field, -, -, -, hd⟩ := exists_of_sightings_eq hsplit
      exact hself (field, got) (Table.mem_of_get? hd)

/-- Unifying the same pattern and data from the frame that they extended a frame to leaves it as it
is. -/
theorem unify?_again {extended : Frame} (hself : ∀ entry ∈ data, entry.2.same entry.2 = true)
    (h : frame.unify? presence pattern data = some extended) :
    extended.unify? presence pattern data = some extended := by
  have hdecides := frame.unify?_decides presence pattern data
  rw [h] at hdecides
  obtain ⟨⟨hadmits, hconsistent⟩, hget⟩ := hdecides
  have hknown :
      extended.get? = fun s => (frame.get? s).or (Table.get? s (sightings pattern data)) :=
    funext hget
  have hagain := extended.unify?_decides presence pattern data
  cases ha : extended.unify? presence pattern data with
  | none =>
    rw [ha, hknown] at hagain
    exact absurd ⟨hadmits, consistent_extend hself hconsistent⟩ hagain
  | some again =>
    have hnew : newcomers extended.binds (sightings pattern data) = [] := by
      refine newcomers_eq_nil fun entry he => ?_
      have hmet : Table.has entry.1 (sightings pattern data) = true :=
        (Table.has_iff_mem_keys _ _).mpr (List.mem_map_of_mem he)
      rw [binds, hget, Option.isSome_or]
      exact Bool.or_eq_true_iff.mpr (.inr hmet)
    have hbindings := bindings_of_unify? ha
    rw [hnew, List.append_nil] at hbindings
    cases again
    cases extended
    cases hbindings
    rfl

/-- A pattern does not unify with data exactly when something is wrong with one of its fields. Else
the frame keeps its bindings and their order, and after them it binds the symbols of the fields
present that it did not bind before, each to the first datum it met, in the order of the pattern;
and unifying the same pattern and data from there, when no datum is one that differs from itself,
has the same frame for its result. -/
theorem unify?_exact_and_minimal (frame : Frame) (presence : Presence) (pattern data : Fields) :
    (frame.unify? presence pattern data = none ↔ frame.Clash presence pattern data) ∧
    ∀ extended, frame.unify? presence pattern data = some extended →
      extended.bindings = frame.bindings ++ newcomers frame.binds (sightings pattern data) ∧
      ((∀ entry ∈ data, entry.2.IsTidy ∧ entry.2.isNaN = false) →
        extended.unify? presence pattern data = some extended) := by
  refine ⟨?_, fun extended h => ⟨bindings_of_unify? h, fun hdata => ?_⟩⟩
  · have hdecides := frame.unify?_decides presence pattern data
    rw [clash_iff]
    cases h : frame.unify? presence pattern data with
    | none =>
      rw [h] at hdecides
      exact iff_of_true rfl hdecides
    | some extended =>
      rw [h] at hdecides
      exact iff_of_false nofun fun hnot => hnot hdecides.1
  · have hself : ∀ entry ∈ data, entry.2.same entry.2 = true :=
      fun entry he => same_self_of_isTidy _ (hdata entry he).1 (hdata entry he).2
    exact unify?_again hself h

end Clash

/-- A symbol that occurs twice is bound once, to the first datum that it met, although it met
another one that counts as the same; and a symbol that the frame binds keeps its place. -/
example :
    let x := Symbol.plain "r" "x"
    let y := Symbol.plain "r" "y"
    ((empty.bind x (.int 1)).unify? .required [("a", .symbol y), ("b", .symbol x), ("c", .symbol y)]
      [("a", .bool true), ("b", .int 1), ("c", .int 1)]).map (·.bindings)
      = some [(x, .int 1), (y, .bool true)] :=
  rfl

end Frame

end HerdBook
