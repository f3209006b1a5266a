import HerdBook.Settings.Read
import Mathlib.Data.List.DropRight
import Mathlib.Logic.Function.Iterate

/-!
# The normal form of a base

A base of paths is in normal form (`Settings.IsNormal`) when it begins with a slash unless it is
empty, and ends neither in a slash nor in white space. The bases in normal form are those that
normalizing leaves as they are. Normalizing puts the slashes right in every text. White space it
takes off before the slashes, though, so it leaves the white space that stands right before the
slashes at the end of a text (`Settings.HidesBlank`): of `a /` it makes `/a `. Of all other texts it
makes a base in normal form.

A base that begins with a slash is only ever cut at its end
(`Settings.toList_normalBase_of_isRooted`). So normalizing over and over comes to rest, and what it
comes to is known beforehand (`Settings.settledBase`).

## Main results

* `Settings.normalBase_eq_self_iff`: what normalizing leaves as it is.
* `Settings.normalBase_reaches`: how far normalizing once gets.
* `Settings.iterate_normalBase`: how far normalizing often enough gets.
* `Settings.isSlashed_of_read`: what can be said of the base of all settings that are read.
-/

namespace HerdBook

namespace Settings

variable {p q : Char → Bool} {cs ds : List Char} {v base : String}

/-! ### Normal bases -/

/-- The text begins with a slash, unless it is empty. -/
def IsRooted (cs : List Char) : Prop := ∀ c ∈ cs.head?, c = '/'

/-- The text does not end in a character of the kind. -/
def EndsClear (p : Char → Bool) (cs : List Char) : Prop := ∀ c ∈ cs.getLast?, p c = false

/-- The slashes of a base are right. -/
structure IsSlashed (base : String) : Prop where
  rooted : IsRooted base.toList
  clear : EndsClear (· == '/') base.toList

/-- A base is in normal form. -/
structure IsNormal (base : String) : Prop extends IsSlashed base where
  blank : EndsClear isBlank base.toList

/-- White space stands in the text after some other character and right before the slashes at its
end; white space around the text does not count. -/
def HidesBlank (v : String) : Prop :=
  ∃ shown b slashes margin, v.toList = shown ++ b :: (slashes ++ margin) ∧
    (∃ c ∈ shown, isBlank c = false) ∧ isBlank b = true ∧
    slashes ≠ [] ∧ (∀ c ∈ slashes, c = '/') ∧ ∀ c ∈ margin, isBlank c = true

/-- What is of no use at the end of a base. -/
def isLoose (c : Char) : Bool := isBlank c || c == '/'

/-- The base without all that is of no use at its end, however slashes and white space are mixed
there. -/
def settledBase (v : String) : String :=
  String.ofList (leadWithSlash ((v.toList.dropWhile isBlank).rdropWhile isLoose))

/-! ### The ends of a text -/

/-- A text without what is dropped at its start does not begin with it. -/
theorem eq_false_of_isPrefix {c : Char} (h : c :: ds <+: cs.dropWhile p) : p c = false := by
  obtain ⟨rest, hrest⟩ := h
  have hnot := List.head?_dropWhile_not p cs
  rwa [← hrest] at hnot

/-- A text without what is dropped at its end does not end in it. -/
theorem endsClear_rdropWhile (p : Char → Bool) (cs : List Char) :
    EndsClear p (cs.rdropWhile p) := by
  intro c hc
  obtain ⟨hne, rfl⟩ := List.mem_getLast?_eq_getLast hc
  simpa using List.rdropWhile_last_not p cs hne

/-- There is nothing to drop at the end of a text that does not end in it, and only of such a
text. -/
theorem endsClear_iff : EndsClear p cs ↔ cs.rdropWhile p = cs := by
  refine ⟨fun h => List.rdropWhile_eq_self_iff.mpr fun hne => ?_, fun h => ?_⟩
  · simp [h _ (List.getLast?_eq_some_getLast hne)]
  · rw [← h]
    exact endsClear_rdropWhile p cs

/-- A text ends as the last part of it does. -/
theorem endsClear_append (hne : ds ≠ []) : EndsClear p (cs ++ ds) ↔ EndsClear p ds := by
  unfold EndsClear
  rw [List.getLast?_append_of_ne_nil _ hne]

/-- What is dropped at the start of a text does not reach beyond a character that stays. -/
theorem dropWhile_append_of_exists (h : ∃ c ∈ cs, p c = false) :
    (cs ++ ds).dropWhile p = cs.dropWhile p ++ ds := by
  have hkept : (cs.dropWhile p).isEmpty = false := by simpa using h
  simp [List.dropWhile_append, hkept]

/-- An end that is dropped as a whole. -/
theorem rdropWhile_append_of_pos (h : ∀ c ∈ ds, p c = true) :
    (cs ++ ds).rdropWhile p = cs.rdropWhile p := by
  unfold List.rdropWhile
  rw [List.reverse_append, List.dropWhile_append_of_pos (by simpa using h)]

/-- Dropping less before makes no difference. -/
theorem rdropWhile_rdropWhile (h : ∀ c, p c = true → q c = true) (cs : List Char) :
    (cs.rdropWhile p).rdropWhile q = cs.rdropWhile q := by
  have hend : ∀ c ∈ cs.rtakeWhile p, q c = true := fun c hc => h c (List.mem_rtakeWhile_imp hc)
  calc (cs.rdropWhile p).rdropWhile q
    _ = (cs.rdropWhile p ++ cs.rtakeWhile p).rdropWhile q := (rdropWhile_append_of_pos hend).symm
    _ = cs.rdropWhile q := by rw [List.rdropWhile_append_rtakeWhile]

/-- What is left when the end is dropped twice is where the text begins. -/
theorem isPrefix_rdropWhile_rdropWhile (p q : Char → Bool) (cs : List Char) :
    (cs.rdropWhile p).rdropWhile q <+: cs :=
  (List.rdropWhile_prefix _ _).trans (List.rdropWhile_prefix _ _)

/-- The first character stays when one after it does. -/
theorem rdropWhile_cons (c : Char) (h : cs.rdropWhile p ≠ []) :
    (c :: cs).rdropWhile p = c :: cs.rdropWhile p := by
  have hne : (cs.reverse.dropWhile p).isEmpty = false := by
    simpa [List.rdropWhile] using h
  simp [List.rdropWhile, List.dropWhile_append, hne]

/-! ### The slash at the start -/

/-- What comes first in a text that begins with a slash begins with one too. -/
theorem IsRooted.of_isPrefix (h : IsRooted cs) (hcut : ds <+: cs) : IsRooted ds := by
  obtain ⟨rest, rfl⟩ := hcut
  cases ds with
  | nil => nofun
  | cons c ds => exact h

/-- A text that begins with a slash does not begin with white space. -/
theorem IsRooted.dropWhile_isBlank (h : IsRooted cs) : cs.dropWhile isBlank = cs := by
  cases cs with
  | nil => rfl
  | cons c cs =>
    obtain rfl := h c rfl
    rfl

/-- A text begins with a slash once it is put there. -/
theorem isRooted_leadWithSlash (cs : List Char) : IsRooted (leadWithSlash cs) := by
  fun_cases leadWithSlash cs <;> simp [IsRooted]

/-- No slash is put before one. -/
theorem IsRooted.leadWithSlash (h : IsRooted cs) : leadWithSlash cs = cs := by
  cases cs with
  | nil => rfl
  | cons c cs =>
    obtain rfl := h c rfl
    rfl

/-- A slash at the start changes nothing at the end. -/
theorem endsClear_leadWithSlash : EndsClear p (leadWithSlash cs) ↔ EndsClear p cs := by
  fun_cases leadWithSlash cs with
  | case1 => rfl
  | case2 => rfl
  | case3 _ hnil => cases cs with
    | nil => exact absurd rfl hnil
    | cons => simp [EndsClear]

/-! ### Normalizing once -/

/-- The characters of a base that has been normalized. -/
theorem toList_normalBase (v : String) :
    (normalBase v).toList = leadWithSlash (dropSlashes (trimBoth isBlank v.toList)) := by
  simp [normalBase]

/-- Normalizing puts the slashes right. -/
theorem isSlashed_normalBase (v : String) : IsSlashed (normalBase v) := by
  constructor <;> rw [toList_normalBase]
  · exact isRooted_leadWithSlash _
  · exact endsClear_leadWithSlash.mpr (endsClear_rdropWhile _ _)

/-- A base that begins with a slash is only cut at its end. -/
theorem toList_normalBase_of_isRooted (h : IsRooted base.toList) :
    (normalBase base).toList = (base.toList.rdropWhile isBlank).rdropWhile (· == '/') := by
  calc (normalBase base).toList
    _ = leadWithSlash (dropSlashes ((base.toList.dropWhile isBlank).rdropWhile isBlank)) :=
      toList_normalBase base
    _ = leadWithSlash (dropSlashes (base.toList.rdropWhile isBlank)) := by
      rw [h.dropWhile_isBlank]
    _ = (base.toList.rdropWhile isBlank).rdropWhile (· == '/') :=
      (h.of_isPrefix (isPrefix_rdropWhile_rdropWhile _ _ _)).leadWithSlash

/-- Normalizing leaves a base as it is exactly when it is in normal form. -/
theorem normalBase_eq_self_iff : normalBase base = base ↔ IsNormal base := by
  constructor
  · intro h
    have hslashed : IsSlashed base := h ▸ isSlashed_normalBase base
    have hcut := toList_normalBase_of_isRooted hslashed.rooted
    rw [h] at hcut
    -- Nothing is cut off in the end, so there was no white space to cut off before.
    have hblank : base.toList.rdropWhile isBlank = base.toList := by
      refine (List.rdropWhile_prefix _ _).eq_of_length_le ?_
      conv_lhs => rw [hcut]
      exact (List.rdropWhile_prefix _ _).length_le
    exact ⟨hslashed, endsClear_iff.mpr hblank⟩
  · intro h
    have hcut := toList_normalBase_of_isRooted h.rooted
    rw [endsClear_iff.mp h.blank, endsClear_iff.mp h.clear] at hcut
    exact String.toList_inj.mp hcut

/-- White space that a text hides stands at its end once the slashes there are dropped. -/
theorem HidesBlank.not_endsClear (h : HidesBlank v) :
    ¬ EndsClear isBlank (dropSlashes (trimBoth isBlank v.toList)) := by
  obtain ⟨shown, b, slashes, margin, hv, hshown, hb, hne, hslashes, hmargin⟩ := h
  have hclear : EndsClear isBlank (shown.dropWhile isBlank ++ [b] ++ slashes) := by
    refine (endsClear_append hne).mpr fun c hc => ?_
    obtain rfl := hslashes c (List.mem_of_getLast? hc)
    rfl
  have hslash : ¬ (b == '/') = true := by
    intro hslash
    obtain rfl := eq_of_beq hslash
    exact absurd hb (by decide)
  have hcut : dropSlashes (trimBoth isBlank v.toList) = shown.dropWhile isBlank ++ [b] := by
    calc dropSlashes (trimBoth isBlank v.toList)
      _ = ((v.toList.dropWhile isBlank).rdropWhile isBlank).rdropWhile (· == '/') := rfl
      _ = ((shown.dropWhile isBlank ++ [b] ++ slashes ++ margin).rdropWhile isBlank).rdropWhile
          (· == '/') := by
        rw [hv, dropWhile_append_of_exists hshown]
        simp
      _ = (shown.dropWhile isBlank ++ [b] ++ slashes).rdropWhile (· == '/') := by
        rw [rdropWhile_append_of_pos hmargin, endsClear_iff.mp hclear]
      _ = (shown.dropWhile isBlank ++ [b]).rdropWhile (· == '/') :=
        rdropWhile_append_of_pos (by simpa using hslashes)
      _ = shown.dropWhile isBlank ++ [b] := List.rdropWhile_concat_neg _ _ _ hslash
  rw [hcut, endsClear_append (List.cons_ne_nil b [])]
  intro hends
  exact Bool.false_ne_true ((hends b rfl).symm.trans hb)

/-- A text that ends in white space once the slashes at its end are dropped hides it. -/
theorem hidesBlank_of_not_endsClear
    (h : ¬ EndsClear isBlank (dropSlashes (trimBoth isBlank v.toList))) : HidesBlank v := by
  obtain ⟨b, hlast, hb⟩ : ∃ b, (dropSlashes (trimBoth isBlank v.toList)).getLast? = some b ∧
      isBlank b = true := by
    simpa [EndsClear] using h
  obtain ⟨front, hfront⟩ := List.getLast?_eq_some_iff.mp hlast
  have hstart : front ++ [b] <+: v.toList.dropWhile isBlank :=
    hfront ▸ isPrefix_rdropWhile_rdropWhile _ _ _
  -- The text from left to right: white space, what is kept, slashes, and white space.
  have hslashes : (front ++ [b]) ++ (trimBoth isBlank v.toList).rtakeWhile (· == '/')
      = trimBoth isBlank v.toList := by
    rw [← hfront]
    exact List.rdropWhile_append_rtakeWhile
  have hmargin : trimBoth isBlank v.toList ++ (v.toList.dropWhile isBlank).rtakeWhile isBlank
      = v.toList.dropWhile isBlank := List.rdropWhile_append_rtakeWhile
  have hlead : v.toList.takeWhile isBlank ++ v.toList.dropWhile isBlank = v.toList :=
    List.takeWhile_append_dropWhile
  refine ⟨v.toList.takeWhile isBlank ++ front, b,
    (trimBoth isBlank v.toList).rtakeWhile (· == '/'),
    (v.toList.dropWhile isBlank).rtakeWhile isBlank, ?_, ?_, hb, ?_, ?_, ?_⟩
  · conv_lhs => rw [← hlead, ← hmargin, ← hslashes]
    simp
  · cases front with
    | nil => exact absurd hb (by simp [eq_false_of_isPrefix hstart])
    | cons c front => exact ⟨c, by simp, eq_false_of_isPrefix hstart⟩
  · intro hnone
    rw [hnone, List.append_nil] at hslashes
    have hclear : EndsClear isBlank (trimBoth isBlank v.toList) := endsClear_rdropWhile _ _
    rw [← hslashes] at hclear
    exact absurd hb (by simp [hclear b (by simp)])
  · intro c hc
    simpa using List.mem_rtakeWhile_imp hc
  · exact fun c hc => List.mem_rtakeWhile_imp hc

/-- Normalizing puts the slashes right in every text. White space at the end is left of the texts
that hide some, and of no others; and these are the texts for which normalizing once is not
enough. -/
theorem normalBase_reaches (v : String) :
    IsSlashed (normalBase v) ∧
      (EndsClear isBlank (normalBase v).toList ↔ ¬ HidesBlank v) ∧
      (normalBase (normalBase v) = normalBase v ↔ ¬ HidesBlank v) := by
  have hslashed := isSlashed_normalBase v
  have hblank : EndsClear isBlank (normalBase v).toList ↔ ¬ HidesBlank v := by
    rw [toList_normalBase, endsClear_leadWithSlash]
    exact ⟨fun h hv => hv.not_endsClear h, fun h => of_not_not (mt hidesBlank_of_not_endsClear h)⟩
  refine ⟨hslashed, hblank, ?_⟩
  calc normalBase (normalBase v) = normalBase v
    _ ↔ IsNormal (normalBase v) := normalBase_eq_self_iff
    _ ↔ EndsClear isBlank (normalBase v).toList := ⟨IsNormal.blank, fun h => ⟨hslashed, h⟩⟩
    _ ↔ ¬ HidesBlank v := hblank

example : normalBase "a /" = "/a " ∧ normalBase "/a " = "/a" := by decide

/-! ### Normalizing over and over -/

/-- A slash is put before a character that is none. -/
theorem leadWithSlash_cons {c : Char} (h : c ≠ '/') (cs : List Char) :
    leadWithSlash (c :: cs) = '/' :: c :: cs := by
  simp [leadWithSlash, h]

/-- In a text that does not begin with white space it makes no difference whether the slash is put
at the start before the end is dropped or after it. -/
theorem leadWithSlash_rdropWhile (h : ∀ c ∈ cs.head?, isBlank c = false) :
    leadWithSlash ((leadWithSlash cs).rdropWhile isLoose)
      = leadWithSlash (cs.rdropWhile isLoose) := by
  cases cs with
  | nil => rfl
  | cons c cs =>
    by_cases hslash : c = '/'
    · subst hslash
      rfl
    · have hloose : isLoose c = false := by simp [isLoose, h c rfl, hslash]
      have hkept : (c :: cs).rdropWhile isLoose ≠ [] := fun hnone =>
        Bool.false_ne_true (hloose.symm.trans (List.rdropWhile_eq_nil_iff.mp hnone c (by simp)))
      obtain ⟨d, ds, hds⟩ := List.exists_cons_of_ne_nil hkept
      have hcut : d :: ds <+: c :: cs := hds ▸ List.rdropWhile_prefix _ _
      obtain ⟨rfl, -⟩ := List.cons_prefix_cons.mp hcut
      rw [leadWithSlash_cons hslash, rdropWhile_cons '/' hkept, hds, leadWithSlash_cons hslash]
      rfl

/-- What a base comes to does not change by normalizing. -/
theorem settledBase_normalBase (v : String) : settledBase (normalBase v) = settledBase v := by
  have hstart : ∀ c ∈ (dropSlashes (trimBoth isBlank v.toList)).head?, isBlank c = false := by
    intro c hc
    cases hcut : dropSlashes (trimBoth isBlank v.toList) with
    | nil => simp [hcut] at hc
    | cons d ds =>
      obtain rfl : d = c := by simpa [hcut] using hc
      have hstart : d :: ds <+: v.toList.dropWhile isBlank :=
        hcut ▸ isPrefix_rdropWhile_rdropWhile _ _ _
      exact eq_false_of_isPrefix hstart
  have hends : (dropSlashes (trimBoth isBlank v.toList)).rdropWhile isLoose
      = (v.toList.dropWhile isBlank).rdropWhile isLoose := by
    calc (dropSlashes (trimBoth isBlank v.toList)).rdropWhile isLoose
      _ = (trimBoth isBlank v.toList).rdropWhile isLoose :=
        rdropWhile_rdropWhile (fun c hc => by simp [isLoose, hc]) _
      _ = (v.toList.dropWhile isBlank).rdropWhile isLoose :=
        rdropWhile_rdropWhile (fun c hc => by simp [isLoose, hc]) _
  unfold settledBase
  rw [(isSlashed_normalBase v).rooted.dropWhile_isBlank, toList_normalBase,
    leadWithSlash_rdropWhile hstart, hends]

/-- A text that ends in nothing loose ends neither in a slash nor in white space. -/
theorem endsClear_isLoose_iff :
    EndsClear isLoose cs ↔ EndsClear isBlank cs ∧ EndsClear (· == '/') cs := by
  simp only [EndsClear, isLoose, Bool.or_eq_false_iff]
  exact ⟨fun h => ⟨fun c hc => (h c hc).1, fun c hc => (h c hc).2⟩,
    fun h c hc => ⟨h.1 c hc, h.2 c hc⟩⟩

/-- What a base comes to is in normal form. -/
theorem isNormal_settledBase (v : String) : IsNormal (settledBase v) := by
  unfold settledBase
  have hends : EndsClear isLoose
      (leadWithSlash ((v.toList.dropWhile isBlank).rdropWhile isLoose)) :=
    endsClear_leadWithSlash.mpr (endsClear_rdropWhile _ _)
  obtain ⟨hblank, hslash⟩ := endsClear_isLoose_iff.mp hends
  refine ⟨⟨?_, ?_⟩, ?_⟩ <;> rw [String.toList_ofList]
  exacts [isRooted_leadWithSlash _, hslash, hblank]

/-- A base in normal form is what it comes to. -/
theorem IsNormal.settledBase_eq (h : IsNormal base) : settledBase base = base := by
  have hends : EndsClear isLoose base.toList := endsClear_isLoose_iff.mpr ⟨h.blank, h.clear⟩
  unfold settledBase
  rw [h.rooted.dropWhile_isBlank, endsClear_iff.mp hends, h.rooted.leadWithSlash,
    String.ofList_toList]

/-- Normalizing a base that begins with a slash makes it shorter, if it changes it. -/
theorem length_normalBase_lt (h : IsRooted base.toList) (hne : normalBase base ≠ base) :
    (normalBase base).length < base.length := by
  have hcut : (normalBase base).toList <+: base.toList := by
    rw [toList_normalBase_of_isRooted h]
    exact isPrefix_rdropWhile_rdropWhile _ _ _
  simp only [← String.length_toList]
  refine lt_of_le_of_ne hcut.length_le fun hlength => hne ?_
  exact String.toList_inj.mp (hcut.eq_of_length hlength)

/-- A base that begins with a slash has come to rest when it has been normalized as often as it has
characters. -/
theorem iterate_normalBase_of_isRooted {n : ℕ} (h : IsRooted base.toList) (hn : base.length ≤ n) :
    normalBase^[n] base = settledBase base := by
  -- Each time the base gets shorter, until it is in normal form.
  induction n generalizing base with
  | zero =>
    obtain rfl : base = "" := by simpa using hn
    rfl
  | succ n ih =>
    by_cases hself : normalBase base = base
    · rw [Function.iterate_fixed hself, (normalBase_eq_self_iff.mp hself).settledBase_eq]
    · have hshorter := length_normalBase_lt h hself
      rw [Function.iterate_succ_apply, ih (isSlashed_normalBase base).rooted (by omega),
        settledBase_normalBase]

/-- Normalizing makes a text longer by a slash at most. -/
theorem length_normalBase_le (v : String) : (normalBase v).length ≤ v.length + 1 := by
  have hlead : ∀ cs, (leadWithSlash cs).length ≤ cs.length + 1 := fun cs => by
    fun_cases leadWithSlash cs <;> simp
  calc (normalBase v).length
    _ = (leadWithSlash (dropSlashes (trimBoth isBlank v.toList))).length := by
      rw [← String.length_toList, toList_normalBase]
    _ ≤ (dropSlashes (trimBoth isBlank v.toList)).length + 1 := hlead _
    _ ≤ (v.toList.dropWhile isBlank).length + 1 :=
      Nat.succ_le_succ (isPrefix_rdropWhile_rdropWhile _ _ _).length_le
    _ ≤ v.length + 1 := by
      rw [← String.length_toList]
      exact Nat.succ_le_succ (List.dropWhile_suffix _).length_le

/-- Every text comes to its base in normal form when it is normalized often enough. -/
theorem iterate_normalBase {n : ℕ} (hn : v.length + 2 ≤ n) :
    normalBase^[n] v = settledBase v := by
  obtain ⟨n, rfl⟩ : ∃ m, n = m + 1 := ⟨n - 1, by omega⟩
  have hlength := length_normalBase_le v
  have hrooted := (isSlashed_normalBase v).rooted
  rw [Function.iterate_succ_apply, iterate_normalBase_of_isRooted hrooted (by omega),
    settledBase_normalBase]

/-! ### Settings that are read -/

/-- The base when nothing is chosen, which is not normalized, is in normal form. -/
theorem isNormal_standard : IsNormal standard.apiBaseUrl :=
  normalBase_eq_self_iff.mp (by decide)

/-- What holds of the settings before one of them is read holds after it, if it holds whatever is
put for it. -/
theorem readOne_induction {α : Type} {P : Settings → Prop} {source : Source} {setting : String}
    {read : Value → Except Problem α} {put : α → Settings → Settings}
    {state : Settings × List Complaint} (hput : ∀ a s, P s → P (put a s)) (h : P state.1) :
    P (readOne source setting read put state).1 := by
  unfold readOne
  split
  · exact h
  · split
    · exact hput _ _ h
    · exact h

/-- The slashes are right in the base of all settings that are read. -/
theorem isSlashed_of_read {source : Source} {settings : Settings}
    (h : read source = .ok settings) : IsSlashed settings.apiBaseUrl := by
  unfold read at h
  dsimp only at h
  split at h
  · obtain rfl := Except.ok.inj h
    let P (s : Settings) : Prop := IsSlashed s.apiBaseUrl
    have hstandard : P standard := isNormal_standard.toIsSlashed
    -- Three settings are read before the base and five after it.
    show P _
    iterate 5 refine readOne_induction (fun _ _ h => h) ?_
    refine readOne_induction (fun text _ _ => isSlashed_normalBase text) ?_
    iterate 3 refine readOne_induction (fun _ _ h => h) ?_
    exact hstandard
  · exact nomatch h

end Settings

end HerdBook
