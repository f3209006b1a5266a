import HerdBook.Proofs.Assignments
import HerdBook.Proofs.Equivalence
import Mathlib.Data.List.FinRange
import Mathlib.Data.List.Perm.Basic

/-!
# The order of the patterns

A join goes through the patterns of a rule from left to right, and a symbol is bound by the first
datum that it meets: in another order of the patterns other fields bind and other fields are
checked. The combinations found remain the same ones nevertheless, provided that sameness is an
equivalence on the data of the log (`Value.Comparable`). For then data agree with the first datum
of their symbol exactly when any two of them agree (`consistent_iff`), which no order enters, and
the frames hold the same up to which of several data that are the same was met first.

The order is a permutation `σ` of the places of the patterns: in the place `i` stands what stood in
the place `σ i` (`rearrange`).

## Main results

* `consistent_iff`: consistency without the order.
* `Pattern.IsAssignment.rearrange`: an assignment to the patterns is one to the rearranged patterns
  when its events are rearranged alike.
* `Pattern.Describes.corresponds`: the combinations that the two stand for correspond to each other.
* `Pattern.combinations_rearrange`: a join of the rearranged patterns finds the same combinations,
  each as many times.
-/

namespace HerdBook

/-! ### Rearranging a list -/

section Rearrange

variable {α β : Type} {n : ℕ} (σ : Equiv.Perm (Fin n))

/-- The items of a list of `n` items in another order: in the place `i` stands the item that stood
in the place `σ i`. -/
def rearrange (items : List α) : List α :=
  (List.finRange n).filterMap fun i => items[(σ i : ℕ)]?

/-- A list of `n` items is given by the item in each place. -/
theorem exists_eq_ofFn {items : List α} (h : items.length = n) :
    ∃ f : Fin n → α, items = List.ofFn f := by
  subst h
  exact ⟨items.get, (List.ofFn_get items).symm⟩

/-- A list that is given by its items is rearranged by looking for them elsewhere. -/
theorem rearrange_ofFn (f : Fin n → α) : rearrange σ (List.ofFn f) = List.ofFn (f ∘ σ) := by
  have hplace : (fun i : Fin n => (List.ofFn f)[(σ i : ℕ)]?) = fun i => some ((f ∘ σ) i) :=
    funext fun i => by simp
  rw [rearrange, hplace, List.filterMap_eq_map', List.ofFn_eq_map]

/-- In each place of the rearranged list stands what stood in another one. -/
theorem getElem?_rearrange {items : List α} (h : items.length = n) (i : Fin n) :
    (rearrange σ items)[(i : ℕ)]? = items[(σ i : ℕ)]? := by
  obtain ⟨f, rfl⟩ := exists_eq_ofFn h
  simp [rearrange_ofFn]

/-- The rearranged list has the same items as often. -/
theorem rearrange_perm {items : List α} (h : items.length = n) :
    (rearrange σ items).Perm items := by
  obtain ⟨f, rfl⟩ := exists_eq_ofFn h
  rw [rearrange_ofFn]
  exact Equiv.Perm.ofFn_comp_perm σ f

/-- What is made of the items is rearranged alike. -/
theorem map_rearrange (f : α → β) (items : List α) :
    (rearrange σ items).map f = rearrange σ (items.map f) := by
  simp only [rearrange, List.map_filterMap, List.getElem?_map]

/-- Pairs are rearranged in both their parts. -/
theorem zip_rearrange {as : List α} {bs : List β} (ha : as.length = n) (hb : bs.length = n) :
    (rearrange σ as).zip (rearrange σ bs) = rearrange σ (as.zip bs) := by
  obtain ⟨f, rfl⟩ := exists_eq_ofFn ha
  obtain ⟨g, rfl⟩ := exists_eq_ofFn hb
  have hzip (f : Fin n → α) (g : Fin n → β) :
      (List.ofFn f).zip (List.ofFn g) = List.ofFn fun i => (f i, g i) := by
    simp only [List.ofFn_eq_map, List.zip_map']
  rw [rearrange_ofFn, rearrange_ofFn, hzip, hzip, rearrange_ofFn]
  rfl

/-- The opposite order puts every item back. -/
theorem rearrange_symm {items : List α} (h : items.length = n) :
    rearrange σ.symm (rearrange σ items) = items := by
  obtain ⟨f, rfl⟩ := exists_eq_ofFn h
  rw [rearrange_ofFn, rearrange_ofFn, Function.comp_assoc, Equiv.self_comp_symm,
    Function.comp_id]

end Rearrange

/-! ### Data on which sameness is an equivalence -/

/-- On the data sameness is an equivalence: each is the same as itself, and two of them are compared
in either order. Transitive sameness is on all values (`Value.same_trans`). -/
structure Value.Comparable (data : List Value) : Prop where
  refl : ∀ v ∈ data, v.same v = true
  symm : ∀ v ∈ data, ∀ w ∈ data, v.same w = true → w.same v = true

/-- Sameness is an equivalence on data that are tidy and each a number if they are numeric. -/
theorem Value.comparable_of_isTidy {data : List Value}
    (h : ∀ v ∈ data, v.IsTidy ∧ v.isNaN = false) : Value.Comparable data where
  refl v hv := Value.same_self_of_isTidy v (h v hv).1 (h v hv).2
  symm v hv _ hw hsame := Value.same_symm v (h v hv).1 (h _ hw).1 hsame

/-- Fewer data are comparable as well. -/
theorem Value.Comparable.mono {data fewer : List Value} (h : Value.Comparable data)
    (hsub : ∀ v ∈ fewer, v ∈ data) : Value.Comparable fewer where
  refl v hv := h.refl v (hsub v hv)
  symm v hv w hw := h.symm v (hsub v hv) w (hsub w hw)

/-- The data that symbols meet are comparable. -/
def AreComparable (seen : List (Symbol × Value)) : Prop := Value.Comparable (seen.map (·.2))

section AreComparable

variable {seen seen' : List (Symbol × Value)}

/-- So they are in any order. -/
theorem AreComparable.perm (h : AreComparable seen) (hperm : seen.Perm seen') :
    AreComparable seen' :=
  Value.Comparable.mono h fun _ hv => (hperm.map _).mem_iff.mpr hv

/-- Data that symbols meet agree with the first datum of their symbol exactly when any two data that
one symbol meets are the same. -/
theorem consistent_iff (h : AreComparable seen) :
    Consistent (fun _ => none) seen ↔
      ∀ a ∈ seen, ∀ b ∈ seen, a.1 = b.1 → a.2.same b.2 = true := by
  constructor
  · -- Each of two data of one symbol agrees with the first of them, so they agree.
    intro hc
    have hfirst : ∀ a ∈ seen, ∃ first, Table.get? a.1 seen = some first ∧
        first ∈ seen.map (·.2) ∧ first.same a.2 = true := by
      intro a ha
      obtain ⟨before, after, hseen⟩ := List.append_of_mem ha
      cases hg : Table.get? a.1 before with
      | some first =>
        have hget : Table.get? a.1 seen = some first := by
          rw [hseen, Table.get?_append, hg]
          rfl
        exact ⟨first, hget, List.mem_map_of_mem (Table.mem_of_get? hget),
          hc before a.1 a.2 after hseen first (by rw [hg]; rfl)⟩
      | none =>
        have hget : Table.get? a.1 seen = some a.2 := by
          rw [hseen, Table.get?_append, hg]
          simp [Table.get?]
        have hmem : a.2 ∈ seen.map (·.2) := List.mem_map_of_mem ha
        exact ⟨a.2, hget, hmem, h.refl _ hmem⟩
    intro a ha b hb hab
    obtain ⟨first, hget, hmem, hsame⟩ := hfirst a ha
    obtain ⟨other, hget', -, hsame'⟩ := hfirst b hb
    obtain rfl : first = other := Option.some.inj (hget.symm.trans (by rw [hab]; exact hget'))
    exact Value.same_trans a.2 (h.symm _ hmem _ (List.mem_map_of_mem ha) hsame) hsame'
  · intro hall before s got after hseen first hf
    have hbefore : (s, first) ∈ before := Table.mem_of_get? (by simpa using hf)
    exact hall (s, first) (by simp [hseen, hbefore]) (s, got) (by simp [hseen]) rfl

/-- Consistent data are so in any order. -/
theorem Consistent.perm (hc : Consistent (fun _ => none) seen) (h : AreComparable seen)
    (hperm : seen.Perm seen') : Consistent (fun _ => none) seen' := by
  rw [consistent_iff h] at hc
  rw [consistent_iff (h.perm hperm)]
  exact fun a ha b hb => hc a (hperm.mem_iff.mpr ha) b (hperm.mem_iff.mpr hb)

/-- A key is found in a table exactly when it is found in a rearranged one. -/
theorem Table.exists_get?_of_perm (hperm : seen.Perm seen') {s : Symbol} {v : Value}
    (hv : Table.get? s seen = some v) : ∃ w, Table.get? s seen' = some w := by
  have hkey : s ∈ Table.keys seen' :=
    List.mem_map.mpr ⟨(s, v), hperm.mem_iff.mp (Table.mem_of_get? hv), rfl⟩
  exact Option.isSome_iff_exists.mp ((Table.has_iff_mem_keys s seen').mpr hkey)

/-- Frames that bind each symbol to the first datum it meets are the same when the data come in
different orders. -/
theorem Frame.same_of_perm (h : AreComparable seen) (hc : Consistent (fun _ => none) seen)
    (hperm : seen.Perm seen') {frame other : Frame}
    (hframe : ∀ s, frame.get? s = Table.get? s seen)
    (hother : ∀ s, other.get? s = Table.get? s seen') : frame.same other = true := by
  have hkeys : ∀ s, s ∈ Table.keys frame.bindings ↔ s ∈ Table.keys other.bindings := by
    intro s
    rw [← Table.has_iff_mem_keys, ← Table.has_iff_mem_keys, Table.has, Table.has,
      Option.isSome_iff_exists, Option.isSome_iff_exists]
    constructor
    · rintro ⟨v, hv⟩
      obtain ⟨w, hw⟩ := Table.exists_get?_of_perm hperm ((hframe s).symm.trans hv)
      exact ⟨w, (hother s).trans hw⟩
    · rintro ⟨w, hw⟩
      obtain ⟨v, hv⟩ := Table.exists_get?_of_perm hperm.symm ((hother s).symm.trans hw)
      exact ⟨v, (hframe s).trans hv⟩
  have hsize : frame.size = other.size := by
    have hlength := ((List.perm_ext_iff_of_nodup frame.nodup other.nodup).mpr hkeys).length_eq
    simpa [Table.keys, Frame.size] using hlength
  refine Bool.and_eq_true_iff.mpr ⟨by simp [hsize], List.all_eq_true.mpr fun entry he => ?_⟩
  have hfirst : Table.get? entry.1 seen = some entry.2 :=
    (hframe entry.1).symm.trans (Table.get?_of_mem frame.nodup he)
  obtain ⟨w, hw⟩ := Table.exists_get?_of_perm hperm hfirst
  rw [show Table.get? entry.1 other.bindings = some w from (hother entry.1).trans hw]
  refine Bool.or_eq_true_iff.mpr (.inr ?_)
  exact (consistent_iff h).mp hc (entry.1, entry.2) (Table.mem_of_get? hfirst) (entry.1, w)
    (hperm.mem_iff.mpr (Table.mem_of_get? hw)) rfl

end AreComparable

/-! ### The data of a log -/

/-- The data that an event holds: the values of its input's fields and of its output's. -/
def Event.data (event : Event) : List Value :=
  (event.input.entries ++ event.output.entries).map (·.2)

/-- What symbols meet in data are values of their fields. -/
theorem Value.mem_of_mem_sightings {pattern data : Fields} {seen : Symbol × Value}
    (h : seen ∈ Value.sightings pattern data) : seen.2 ∈ data.map (·.2) := by
  obtain ⟨entry, -, hentry⟩ := List.mem_filterMap.mp h
  obtain ⟨s, -, hs⟩ := Option.bind_eq_some_iff.mp hentry
  obtain ⟨got, hgot, rfl⟩ := Option.map_eq_some_iff.mp hs
  exact List.mem_map_of_mem (Table.mem_of_get? hgot)

namespace Pattern

variable {patterns : List Pattern} {log : List Event} {tuple : List (Event × Nat)} {n : ℕ}

/-- What the symbols of a pattern meet in an event are data of the event. -/
theorem mem_data_of_mem_sightings {pattern : Pattern} {event : Event} {seen : Symbol × Value}
    (h : seen ∈ pattern.sightings event) : seen.2 ∈ event.data := by
  rw [Event.data, List.map_append, List.mem_append]
  exact (List.mem_append.mp h).imp Value.mem_of_mem_sightings Value.mem_of_mem_sightings

/-- What symbols meet in the patterns, pattern by pattern. -/
theorem sightingsAll_eq_flatMap (patterns : List Pattern) (events : List Event) :
    sightingsAll patterns events
      = (patterns.zip events).flatMap fun pair => pair.1.sightings pair.2 := by
  rw [sightingsAll, List.flatMap, ← List.map_uncurry_zip_eq_zipWith]
  rfl

/-- Rearranged patterns meet the same data in the rearranged events. -/
theorem sightingsAll_rearrange (σ : Equiv.Perm (Fin n)) {events : List Event}
    (hp : patterns.length = n) (he : events.length = n) :
    (sightingsAll (rearrange σ patterns) (rearrange σ events)).Perm
      (sightingsAll patterns events) := by
  rw [sightingsAll_eq_flatMap, sightingsAll_eq_flatMap, zip_rearrange σ hp he]
  exact (rearrange_perm σ (by simp [hp, he])).flatMap_right _

/-- What symbols meet in an assignment is comparable when the data of the log are. -/
theorem IsAssignment.areComparable (h : IsAssignment patterns log tuple)
    (hc : Value.Comparable (log.flatMap Event.data)) :
    AreComparable (sightingsAll patterns (tuple.map (·.1))) := by
  refine hc.mono fun v hv => ?_
  obtain ⟨seen, hseen, rfl⟩ := List.mem_map.mp hv
  rw [sightingsAll_eq_flatMap] at hseen
  obtain ⟨⟨pattern, event⟩, hpair, hsight⟩ := List.mem_flatMap.mp hseen
  obtain ⟨entry, hentry, rfl⟩ := List.mem_map.mp (List.of_mem_zip hpair).2
  exact List.mem_flatMap.mpr ⟨entry.1, List.mem_of_getElem? (h.drawn entry hentry),
    mem_data_of_mem_sightings hsight⟩

/-! ### Assignments to rearranged patterns -/

/-- An assignment to the patterns is one to the rearranged patterns when its events are rearranged
alike. -/
theorem IsAssignment.rearrange (h : IsAssignment patterns log tuple)
    (hc : Value.Comparable (log.flatMap Event.data)) (σ : Equiv.Perm (Fin n))
    (hp : patterns.length = n) :
    IsAssignment (HerdBook.rearrange σ patterns) log (HerdBook.rearrange σ tuple) := by
  have ht : tuple.length = n := h.length_eq.symm.trans hp
  have hevents : (tuple.map (·.1)).length = n := by rw [List.length_map, ht]
  have hperm := rearrange_perm σ ht
  refine ⟨fun entry he => h.drawn entry (hperm.mem_iff.mp he),
    (hperm.map (·.2)).nodup_iff.mpr h.distinct, ?_, ?_⟩
  · rw [map_rearrange, List.forall₂_iff_zip, zip_rearrange σ hp hevents]
    refine ⟨?_, fun {pattern event} hpair => ?_⟩
    · rw [(rearrange_perm σ hp).length_eq, (rearrange_perm σ hevents).length_eq, hp, hevents]
    · have hzip : (patterns.zip (tuple.map (·.1))).length = n := by simp [hp, ht]
      exact (List.forall₂_iff_zip.mp h.fits).2 ((rearrange_perm σ hzip).mem_iff.mp hpair)
  · rw [map_rearrange]
    exact h.consistent.perm (h.areComparable hc) (sightingsAll_rearrange σ hp hevents).symm

/-- The assignments to the rearranged patterns are the rearranged assignments. -/
theorem isAssignment_rearrange_iff (hc : Value.Comparable (log.flatMap Event.data))
    (σ : Equiv.Perm (Fin n)) (hp : patterns.length = n) {other : List (Event × Nat)} :
    IsAssignment (rearrange σ patterns) log other ↔
      ∃ tuple, IsAssignment patterns log tuple ∧ rearrange σ tuple = other := by
  constructor
  · intro h
    have hlength : (rearrange σ patterns).length = n := by
      rw [(rearrange_perm σ hp).length_eq, hp]
    have hback := h.rearrange hc σ.symm hlength
    rw [rearrange_symm σ hp] at hback
    refine ⟨_, hback, ?_⟩
    simpa using rearrange_symm σ.symm (h.length_eq.symm.trans hlength)
  · rintro ⟨tuple, h, rfl⟩
    exact h.rearrange hc σ hp

/-- A combination found for patterns and one found for the rearranged patterns come from the same
assignment: their frames are the same, and each event is assigned to the pattern that it was
assigned to. -/
structure Corresponds (σ : Equiv.Perm (Fin n)) (c other : Combination) : Prop where
  same : c.1.same other.1 = true
  complete : c.2.length = n ∧ other.2.length = n
  numbers : ∀ i : Fin n, other.2[(i : ℕ)]? = c.2[(σ i : ℕ)]?

/-- The combinations of an assignment and of the rearranged one correspond to each other. -/
theorem Describes.corresponds {σ : Equiv.Perm (Fin n)} {c other : Combination}
    (h : Describes patterns tuple c)
    (h' : Describes (rearrange σ patterns) (rearrange σ tuple) other)
    (ht : IsAssignment patterns log tuple) (hc : Value.Comparable (log.flatMap Event.data))
    (hp : patterns.length = n) : Corresponds σ c other := by
  have hlength : tuple.length = n := ht.length_eq.symm.trans hp
  have hnumbers : (tuple.map (·.1.number)).length = n := by rw [List.length_map, hlength]
  have hother : other.2 = rearrange σ c.2 := by rw [h'.numbers, map_rearrange, ← h.numbers]
  rw [← h.numbers] at hnumbers
  refine ⟨?_, ⟨hnumbers, ?_⟩, fun i => ?_⟩
  · have hknown := h'.known
    rw [map_rearrange] at hknown
    have hevents : (tuple.map (·.1)).length = n := by rw [List.length_map, hlength]
    have hperm := sightingsAll_rearrange σ hp hevents
    exact Frame.same_of_perm (ht.areComparable hc) ht.consistent hperm.symm h.known hknown
  · rw [hother, (rearrange_perm σ hnumbers).length_eq, hnumbers]
  · rw [hother, getElem?_rearrange σ hnumbers]

/-- Two lists that are each related to the items of a third one are related to each other. -/
theorem forall₂_of_common {α β γ : Type} {R : α → β → Prop} {S : α → γ → Prop} {T : β → γ → Prop}
    {as : List α} {bs : List β} {cs : List γ} (h : List.Forall₂ R as bs)
    (h' : List.Forall₂ S as cs) (ht : ∀ a ∈ as, ∀ b c, R a b → S a c → T b c) :
    List.Forall₂ T bs cs := by
  induction h generalizing cs with
  | nil =>
    cases h'
    exact .nil
  | @cons a b as bs hab _ ih =>
    cases h' with
    | cons hac hrest =>
      rw [List.forall_mem_cons] at ht
      exact .cons (ht.1 _ _ hab hac) (ih hrest ht.2)

/-- No assignment is found twice. -/
theorem Finds.nodup {tuples : List (List (Event × Nat))} {found : List Combination}
    (h : Finds patterns log tuples found) : tuples.Nodup := by
  have hplaces : (tuples.map fun tuple => tuple.map (·.2)).Nodup := by
    refine h.sorted.imp ?_
    rintro places _ hlt rfl
    exact irrefl_of (List.Lex (· < ·)) places hlt
  exact hplaces.of_map

/-- The order of the patterns does not matter: over a log of events with different numbers, on whose
data sameness is an equivalence, a join of the patterns in any other order finds the same
combinations up to their order and each as many times. What is found corresponds one by one: the
frames are the same, and they come from the same assignment of events to patterns. -/
theorem combinations_rearrange (σ : Equiv.Perm (Fin patterns.length))
    (hp : ∀ pattern ∈ patterns, pattern.IsTyped) (hlog : ∀ event ∈ log, event.IsTyped)
    (hn : (log.map Event.number).Nodup) (hc : Value.Comparable (log.flatMap Event.data)) :
    ∃ found other matched, combinations patterns log = .ok found ∧
      combinations (rearrange σ patterns) log = .ok other ∧ other.Perm matched ∧
      List.Forall₂ (Corresponds σ) found matched := by
  have hp' : ∀ pattern ∈ rearrange σ patterns, pattern.IsTyped := fun pattern hmem =>
    hp pattern ((rearrange_perm σ rfl).mem_iff.mp hmem)
  obtain ⟨tuples, found, hfound, h⟩ := (finds_nil log).joinAll hp hlog hn
  obtain ⟨tuples', other, hother, h'⟩ := (finds_nil log).joinAll hp' hlog hn
  rw [List.nil_append] at h h'
  have hlength : ∀ tuple ∈ tuples, tuple.length = patterns.length := fun tuple ht =>
    ((h.complete tuple).mp ht).length_eq.symm
  -- The assignments found for the rearranged patterns are the rearranged ones, each once.
  have hnodup : (tuples.map (rearrange σ)).Nodup := by
    refine List.Nodup.map_on (fun a ha b hb hab => ?_) h.nodup
    rw [← rearrange_symm σ (hlength a ha), hab, rearrange_symm σ (hlength b hb)]
  have hmoved : (tuples.map (rearrange σ)).Perm tuples' := by
    refine (List.perm_ext_iff_of_nodup hnodup h'.nodup).mpr fun tuple => ?_
    rw [h'.complete, isAssignment_rearrange_iff hc σ rfl, List.mem_map]
    exact exists_congr fun tuple => and_congr_left fun _ => h.complete tuple
  obtain ⟨matched, hmatched, hperm⟩ := List.perm_comp_forall₂ hmoved h'.described
  rw [List.forall₂_map_left_iff] at hmatched
  refine ⟨found, other, matched, hfound, hother, hperm.symm, ?_⟩
  refine forall₂_of_common h.described hmatched fun tuple ht c d hd hd' => ?_
  exact hd.corresponds hd' ((h.complete tuple).mp ht) hc rfl

/-- Of two requests one lacks the user, and the login has the other's user as another number. -/
def loginAfterRequests : List Event :=
  [⟨0, "Requests", "request", .object [], .object [], "flow"⟩,
    ⟨1, "Requests", "request", .object [("user", .int 1)], .object [], "flow"⟩,
    ⟨2, "Accounts", "login", .object [("user", .bool true)], .object [], "flow"⟩]

/-- The order in which the pattern for logins comes before the one for requests. -/
def loginFirst : Equiv.Perm (Fin loginOfRequester.length) := Fin.revPerm

/-- The login is found with either request, whichever of the two patterns comes first. -/
theorem combinations_rearrange_login :
    ∃ found other matched, combinations loginOfRequester loginAfterRequests = .ok found ∧
      combinations (rearrange loginFirst loginOfRequester) loginAfterRequests = .ok other ∧
      other.Perm matched ∧ List.Forall₂ (Corresponds loginFirst) found matched ∧
      found.map (·.2) = [[0, 2], [1, 2]] ∧ other.map (·.2) = [[2, 0], [2, 1]] := by
  have hp : ∀ pattern ∈ loginOfRequester, pattern.IsTyped := by
    simp [loginOfRequester, IsTyped]
  have hlog : ∀ event ∈ loginAfterRequests, event.IsTyped := by
    simp [loginAfterRequests, Event.IsTyped]
  have hc : Value.Comparable (loginAfterRequests.flatMap Event.data) :=
    Value.comparable_of_isTidy (by
      simp [loginAfterRequests, Event.data, Value.IsTidy, Value.isNaN])
  obtain ⟨found, other, matched, hfound, hother, hperm, hpairs⟩ :=
    combinations_rearrange loginFirst hp hlog (by decide) hc
  have hnumbers := congrArg (Except.map (List.map Prod.snd)) hfound
  have hnumbers' := congrArg (Except.map (List.map Prod.snd)) hother
  exact ⟨found, other, matched, hfound, hother, hperm, hpairs, (Except.ok.inj hnumbers).symm,
    (Except.ok.inj hnumbers').symm⟩

end Pattern

end HerdBook
