import HerdBook.Proofs.Outcomes
import HerdBook.Rule.Pattern

/-!
# What a join of patterns finds

`Pattern.combinations` joins the patterns of a rule over a log. Here its results are described by
membership, one pattern at a time (`Pattern.Continues`), and compared with those over a longer log.

## Main results

* `Pattern.mem_continuations`, `Pattern.mem_continueAll`: what one pattern makes of the
  combinations found so far.
* `Pattern.nodup_combinations`: combinations are told apart by the numbers of their events.
* `Pattern.combinations_append`: over a log with more events, the join finds what it found before,
  and beyond that only combinations that use one of the new events. This is what allows a rule to be
  evaluated on the combinations of one event at a time.
-/

namespace HerdBook

namespace Pattern

variable {pattern : Pattern} {log more : List Event} {begun found : List Combination}
  {b c : Combination}

/-- The second combination continues the first one by an event of the log that it does not use
yet. -/
def Continues (pattern : Pattern) (log : List Event) (b c : Combination) : Prop :=
  ∃ event ∈ log, event.number ∉ b.2 ∧
    ∃ frame, pattern.match? event b.1 = .ok (some frame) ∧ c = (frame, b.2 ++ [event.number])

/-- The combination uses one of the events. -/
def Uses (events : List Event) (c : Combination) : Prop :=
  ∃ event ∈ events, event.number ∈ c.2

/-! ### One pattern -/

/-- How the continuations of a combination come about, event by event. -/
theorem continuations_cons_eq_ok_iff {event : Event} :
    pattern.continuations b (event :: log) = .ok found ↔
      ∃ here others,
        (if event.number ∈ b.2 then .ok none else pattern.match? event b.1) = .ok here ∧
        pattern.continuations b log = .ok others ∧
        found = (here.map fun frame => (frame, b.2 ++ [event.number])).toList ++ others := by
  rw [continuations]
  by_cases hn : event.number ∈ b.2
  all_goals
    simp only [hn, if_true, if_false, bind_eq_ok_iff]
    refine exists_congr fun here => ?_
    constructor
    · rintro ⟨hh, others, ho, hf⟩
      exact ⟨others, hh, ho, (Except.ok.inj hf).symm⟩
    · rintro ⟨others, hh, ho, rfl⟩
      exact ⟨hh, others, ho, rfl⟩

/-- The continuations of a combination are those by one event of the log. -/
theorem mem_continuations (h : pattern.continuations b log = .ok found) :
    c ∈ found ↔ pattern.Continues log b c := by
  induction log generalizing found with
  | nil =>
    obtain rfl : [] = found := Except.ok.inj h
    simp [Continues]
  | cons event log ih =>
    obtain ⟨here, others, hh, ho, rfl⟩ := continuations_cons_eq_ok_iff.mp h
    rw [List.mem_append, ih ho]
    simp only [Continues, List.mem_cons, exists_eq_or_imp]
    refine or_congr ?_ Iff.rfl
    by_cases hn : event.number ∈ b.2
    · rw [if_pos hn] at hh
      obtain rfl := Except.ok.inj hh
      simp [hn]
    · rw [if_neg hn] at hh
      simp only [hn, not_false_eq_true, true_and, hh, Option.mem_toList, Option.map_eq_some_iff,
        Except.ok.injEq]
      exact exists_congr fun frame => and_congr Iff.rfl eq_comm

/-- A combination has continuations when each event can be held against the pattern. -/
theorem exists_continuations_iff :
    (∃ found, pattern.continuations b log = .ok found) ↔
      ∀ event ∈ log, event.number ∉ b.2 → ∃ here, pattern.match? event b.1 = .ok here := by
  induction log with
  | nil => exact ⟨fun _ _ he => absurd he (by simp), fun _ => ⟨[], rfl⟩⟩
  | cons event log ih =>
    rw [List.forall_mem_cons, ← ih]
    constructor
    · rintro ⟨found, h⟩
      obtain ⟨here, others, hh, ho, -⟩ := continuations_cons_eq_ok_iff.mp h
      refine ⟨fun hn => ⟨here, ?_⟩, others, ho⟩
      rwa [if_neg hn] at hh
    · rintro ⟨hh, others, ho⟩
      by_cases hn : event.number ∈ b.2
      · exact ⟨_, continuations_cons_eq_ok_iff.mpr ⟨none, others, if_pos hn, ho, rfl⟩⟩
      · obtain ⟨here, hh⟩ := hh hn
        exact ⟨_, continuations_cons_eq_ok_iff.mpr ⟨here, others, by rw [if_neg hn, hh], ho, rfl⟩⟩

/-- How the continuations of several combinations come about, one by one. -/
theorem continueAll_cons_eq_ok_iff :
    pattern.continueAll log (b :: begun) = .ok found ↔
      ∃ here others, pattern.continuations b log = .ok here ∧
        pattern.continueAll log begun = .ok others ∧ found = here ++ others := by
  rw [continueAll, bind_eq_ok_iff]
  refine exists_congr fun here => ?_
  rw [bind_eq_ok_iff]
  constructor
  · rintro ⟨hh, others, ho, hf⟩
    exact ⟨others, hh, ho, (Except.ok.inj hf).symm⟩
  · rintro ⟨others, hh, ho, rfl⟩
    exact ⟨hh, others, ho, rfl⟩

/-- One pattern continues each of the combinations by one event of the log. -/
theorem mem_continueAll (h : pattern.continueAll log begun = .ok found) :
    c ∈ found ↔ ∃ b ∈ begun, pattern.Continues log b c := by
  induction begun generalizing found with
  | nil =>
    obtain rfl : [] = found := Except.ok.inj h
    simp
  | cons b begun ih =>
    obtain ⟨here, others, hh, ho, rfl⟩ := continueAll_cons_eq_ok_iff.mp h
    rw [List.mem_append, mem_continuations hh, ih ho]
    simp only [List.mem_cons, exists_eq_or_imp]

/-- Several combinations have continuations when each of them has. -/
theorem exists_continueAll_iff :
    (∃ found, pattern.continueAll log begun = .ok found) ↔
      ∀ b ∈ begun, ∃ found, pattern.continuations b log = .ok found := by
  induction begun with
  | nil => exact ⟨fun _ _ hb => absurd hb (by simp), fun _ => ⟨[], rfl⟩⟩
  | cons b begun ih =>
    rw [List.forall_mem_cons, ← ih]
    constructor
    · rintro ⟨found, h⟩
      obtain ⟨here, others, hh, ho, -⟩ := continueAll_cons_eq_ok_iff.mp h
      exact ⟨⟨here, hh⟩, others, ho⟩
    · rintro ⟨⟨here, hh⟩, others, ho⟩
      exact ⟨_, continueAll_cons_eq_ok_iff.mpr ⟨here, others, hh, ho, rfl⟩⟩

/-! ### Combinations are told apart by their numbers -/

/-- The continuations of a combination end in different numbers. -/
theorem nodup_continuations (hlog : (log.map Event.number).Nodup)
    (h : pattern.continuations b log = .ok found) : (found.map (·.2)).Nodup := by
  induction log generalizing found with
  | nil =>
    obtain rfl : [] = found := Except.ok.inj h
    simp
  | cons event log ih =>
    obtain ⟨here, others, -, ho, rfl⟩ := continuations_cons_eq_ok_iff.mp h
    obtain ⟨hnew, hlog⟩ := List.nodup_cons.mp hlog
    cases here with
    | none => exact ih hlog ho
    | some frame =>
      refine List.nodup_cons.mpr ⟨fun hmem => hnew ?_, ih hlog ho⟩
      obtain ⟨c, hc, hnumbers⟩ := List.mem_map.mp hmem
      obtain ⟨other, hother, -, _, -, rfl⟩ := (mem_continuations ho).mp hc
      have hsame : other.number = event.number := by simpa using hnumbers
      exact hsame ▸ List.mem_map_of_mem hother

/-- One pattern leaves combinations that are told apart by their numbers. -/
theorem nodup_continueAll (hlog : (log.map Event.number).Nodup) (hb : (begun.map (·.2)).Nodup)
    (h : pattern.continueAll log begun = .ok found) : (found.map (·.2)).Nodup := by
  induction begun generalizing found with
  | nil =>
    obtain rfl : [] = found := Except.ok.inj h
    simp
  | cons b begun ih =>
    obtain ⟨here, others, hh, ho, rfl⟩ := continueAll_cons_eq_ok_iff.mp h
    obtain ⟨hnew, hb⟩ := List.nodup_cons.mp hb
    rw [List.map_append, List.nodup_append]
    refine ⟨nodup_continuations hlog hh, ih hb ho, fun first hfirst second hsecond heq => hnew ?_⟩
    obtain ⟨c, hc, rfl⟩ := List.mem_map.mp hfirst
    obtain ⟨d, hd, rfl⟩ := List.mem_map.mp hsecond
    obtain ⟨event, -, -, _, -, rfl⟩ := (mem_continuations hh).mp hc
    obtain ⟨b', hb', other, -, -, _, -, rfl⟩ := (mem_continueAll ho).mp hd
    -- what comes before the last number is what was begun
    have hsame : b'.2 = b.2 := (List.append_inj' heq.symm rfl).1
    exact List.mem_map.mpr ⟨b', hb', hsame⟩

/-- On a log whose events have different numbers, combinations are told apart by their numbers. -/
theorem nodup_combinations {patterns : List Pattern} (hlog : (log.map Event.number).Nodup)
    (h : combinations patterns log = .ok found) : (found.map (·.2)).Nodup := by
  have hall : ∀ begun : List Combination, (begun.map (·.2)).Nodup →
      joinAll log patterns begun = .ok found → (found.map (·.2)).Nodup := by
    clear h
    induction patterns with
    | nil =>
      intro begun hb h
      obtain rfl : begun = found := Except.ok.inj h
      exact hb
    | cons pattern patterns ih =>
      intro begun hb h
      rw [joinAll, bind_eq_ok_iff] at h
      obtain ⟨next, hnext, h⟩ := h
      exact ih next (nodup_continueAll hlog hb hnext) h
  exact hall _ (by simp) h

/-! ### A longer log -/

/-- A combination is continued by an event of either part of a log. -/
theorem continues_append :
    pattern.Continues (log ++ more) b c ↔
      pattern.Continues log b c ∨ pattern.Continues more b c := by
  simp only [Continues, List.mem_append, or_and_right, exists_or]

/-- What is continued by an event uses it. -/
theorem Continues.uses (h : pattern.Continues log b c) : Uses log c := by
  obtain ⟨event, he, -, frame, -, rfl⟩ := h
  exact ⟨event, he, by simp⟩

/-- What is continued keeps its events. -/
theorem Uses.continues {events : List Event} (hb : Uses events b)
    (h : pattern.Continues log b c) : Uses events c := by
  obtain ⟨event, he, hn⟩ := hb
  obtain ⟨_, -, -, _, -, rfl⟩ := h
  exact ⟨event, he, List.mem_append_left _ hn⟩

/-- One pattern over a longer log: continuations that are known over it are known over its first
part, and the others use one of the new events. -/
theorem continueAll_append {begun' found' : List Combination}
    (hsub : ∀ c ∈ begun, c ∈ begun') (hnew : ∀ c ∈ begun', c ∈ begun ∨ Uses more c)
    (h : pattern.continueAll (log ++ more) begun' = .ok found') :
    ∃ found, pattern.continueAll log begun = .ok found ∧
      (∀ c ∈ found, c ∈ found') ∧ ∀ c ∈ found', c ∈ found ∨ Uses more c := by
  have hall := exists_continueAll_iff.mp ⟨found', h⟩
  have hlog : ∀ b ∈ begun, ∃ here, pattern.continuations b log = .ok here := by
    intro b hb
    have hb' := exists_continuations_iff.mp (hall b (hsub b hb))
    exact exists_continuations_iff.mpr fun event he => hb' event (List.mem_append_left _ he)
  obtain ⟨found, hf⟩ := exists_continueAll_iff.mpr hlog
  refine ⟨found, hf, fun c hc => ?_, fun c hc => ?_⟩
  · obtain ⟨b, hb, hbc⟩ := (mem_continueAll hf).mp hc
    exact (mem_continueAll h).mpr ⟨b, hsub b hb, continues_append.mpr (.inl hbc)⟩
  · obtain ⟨b, hb, hbc⟩ := (mem_continueAll h).mp hc
    rcases hnew b hb with hold | huses
    · rcases continues_append.mp hbc with hbc | hbc
      · exact .inl ((mem_continueAll hf).mpr ⟨b, hold, hbc⟩)
      · exact .inr hbc.uses
    · exact .inr (huses.continues hbc)

/-- The join over a longer log finds what is found over its first part, and beyond that only what
uses one of the new events. -/
theorem joinAll_append (patterns : List Pattern) {begun' found' : List Combination}
    (hsub : ∀ c ∈ begun, c ∈ begun') (hnew : ∀ c ∈ begun', c ∈ begun ∨ Uses more c)
    (h : joinAll (log ++ more) patterns begun' = .ok found') :
    ∃ found, joinAll log patterns begun = .ok found ∧
      (∀ c ∈ found, c ∈ found') ∧ ∀ c ∈ found', c ∈ found ∨ Uses more c := by
  induction patterns generalizing begun begun' with
  | nil =>
    obtain rfl : begun' = found' := Except.ok.inj h
    exact ⟨begun, rfl, hsub, hnew⟩
  | cons pattern patterns ih =>
    rw [joinAll, bind_eq_ok_iff] at h
    obtain ⟨next', hn', h⟩ := h
    obtain ⟨next, hn, hsub', hnew'⟩ := continueAll_append hsub hnew hn'
    obtain ⟨found, hf, hmem⟩ := ih hsub' hnew' h
    exact ⟨found, by rw [joinAll, hn]; exact hf, hmem⟩

/-- A rule finds over a longer log what it finds over its first part, and beyond that only
combinations that use one of the new events. -/
theorem combinations_append {patterns : List Pattern} {found' : List Combination}
    (h : combinations patterns (log ++ more) = .ok found') :
    ∃ found, combinations patterns log = .ok found ∧ ∀ c ∈ found', c ∈ found ∨ Uses more c := by
  obtain ⟨found, hf, -, hnew⟩ :=
    joinAll_append patterns (fun _ hc => hc) (fun _ hc => .inl hc) h
  exact ⟨found, hf, hnew⟩

/-- Without events there is nothing for a pattern to match. -/
theorem combinations_nil {patterns : List Pattern} (h : patterns ≠ []) :
    combinations patterns [] = .ok [] := by
  have hnil : ∀ rest : List Pattern, joinAll [] rest [] = .ok [] := by
    intro rest
    induction rest with
    | nil => rfl
    | cons _ _ ih => exact ih
  cases patterns with
  | nil => exact absurd rfl h
  | cons pattern rest => exact hnil rest

/-! ### Events that do not matter -/

/-- An event that a pattern matches is of its kind. -/
theorem concerns_of_match? {event : Event} {frame frame' : Frame}
    (h : pattern.match? event frame = .ok (some frame')) : pattern.concerns event = true := by
  unfold match? at h
  split at h
  · assumption
  · exact nomatch h

/-- An event of a pattern's kind is of its concept and its action. -/
theorem kind_eq_of_concerns {event : Event} (h : pattern.concerns event = true) :
    event.concept = pattern.concept ∧ event.action = pattern.action := by
  simp only [concerns, Bool.and_eq_true, beq_iff_eq] at h
  exact h.1

/-- Only events of a pattern's kind continue a combination. -/
theorem continuations_filter (pattern : Pattern) (b : Combination) (log : List Event) :
    pattern.continuations b (log.filter pattern.concerns) = pattern.continuations b log := by
  induction log with
  | nil => rfl
  | cons event log ih =>
    by_cases hc : pattern.concerns event = true
    · rw [List.filter_cons_of_pos hc, continuations, continuations, ih]
    · have hnone : pattern.match? event b.1 = .ok none := if_neg hc
      rw [List.filter_cons_of_neg hc, ih, continuations, hnone]
      cases pattern.continuations b log <;> split <;> rfl

/-- What the patterns find depends only on the events of their kinds. -/
theorem combinations_congr {patterns : List Pattern} {log log' : List Event}
    (h : ∀ pattern ∈ patterns, log.filter pattern.concerns = log'.filter pattern.concerns) :
    combinations patterns log = combinations patterns log' := by
  have hall : ∀ pattern ∈ patterns, ∀ begun,
      pattern.continueAll log begun = pattern.continueAll log' begun := by
    intro pattern hp begun
    induction begun with
    | nil => rfl
    | cons b rest ih =>
      rw [continueAll, continueAll, ih, ← continuations_filter, h pattern hp,
        continuations_filter]
  unfold combinations
  generalize [(Frame.empty, ([] : List Nat))] = begun
  clear h
  induction patterns generalizing begun with
  | nil => rfl
  | cons pattern rest ih =>
    rw [List.forall_mem_cons] at hall
    rw [joinAll, joinAll, hall.1]
    exact congrArg _ (funext fun found => ih hall.2 found)

/-! ### Several patterns -/

/-- The second combination continues the first one by an event for each of the patterns, in their
order. -/
inductive ContinuesBy (log : List Event) : List Pattern → Combination → Combination → Prop
  | done (b : Combination) : ContinuesBy log [] b b
  | step {pattern : Pattern} {rest : List Pattern} {b next c : Combination}
      (h : pattern.Continues log b next) (hrest : ContinuesBy log rest next c) :
      ContinuesBy log (pattern :: rest) b c

/-- Patterns continue each of the combinations by an event of the log for each of them. -/
theorem mem_joinAll {patterns : List Pattern} (h : joinAll log patterns begun = .ok found) :
    c ∈ found ↔ ∃ b ∈ begun, ContinuesBy log patterns b c := by
  induction patterns generalizing begun with
  | nil =>
    obtain rfl : begun = found := Except.ok.inj h
    constructor
    · exact fun hc => ⟨c, hc, .done c⟩
    · rintro ⟨b, hb, ⟨⟩⟩
      exact hb
  | cons pattern rest ih =>
    rw [joinAll, bind_eq_ok_iff] at h
    obtain ⟨next, hnext, h⟩ := h
    rw [ih h]
    constructor
    · rintro ⟨d, hd, hrest⟩
      obtain ⟨b, hb, hcont⟩ := (mem_continueAll hnext).mp hd
      exact ⟨b, hb, .step hcont hrest⟩
    · rintro ⟨b, hb, hby⟩
      cases hby with
      | step hcont hrest => exact ⟨_, (mem_continueAll hnext).mpr ⟨b, hb, hcont⟩, hrest⟩

/-- Each of the patterns has its turn. -/
theorem ContinuesBy.exists_of_mem {patterns : List Pattern} (h : ContinuesBy log patterns b c)
    (hp : pattern ∈ patterns) :
    ∃ rest b' c', pattern.Continues log b' c' ∧ ContinuesBy log rest c' c := by
  induction h with
  | done => cases hp
  | step hcont hrest ih =>
    rcases List.mem_cons.mp hp with rfl | hp
    · exact ⟨_, _, _, hcont, hrest⟩
    · exact ih hp

/-- What is begun with one of the events uses it to the end. -/
theorem uses_of_mem_joinAll {events : List Event} {patterns : List Pattern}
    (hb : ∀ b ∈ begun, Uses events b) (h : joinAll log patterns begun = .ok found) :
    ∀ c ∈ found, Uses events c := by
  intro c hc
  obtain ⟨b, hmem, hby⟩ := (mem_joinAll h).mp hc
  have huses : Uses events b := hb b hmem
  clear h hc hmem
  induction hby with
  | done => exact huses
  | step hcont _ ih => exact ih (huses.continues hcont)

/-- Every combination begins with an event of the first pattern's kind. -/
theorem uses_of_mem_combinations {pattern : Pattern} {rest : List Pattern}
    (h : combinations (pattern :: rest) log = .ok found) :
    ∀ c ∈ found, Uses (log.filter pattern.concerns) c := by
  rw [combinations, joinAll, bind_eq_ok_iff] at h
  obtain ⟨next, hnext, h⟩ := h
  refine uses_of_mem_joinAll (fun c hc => ?_) h
  obtain ⟨b, -, event, he, -, frame, hmatch, rfl⟩ := (mem_continueAll hnext).mp hc
  refine ⟨event, List.mem_filter.mpr ⟨he, concerns_of_match? hmatch⟩, by simp⟩

end Pattern

end HerdBook
