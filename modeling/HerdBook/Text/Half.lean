/-!
# Halves of characters

A code unit of sixteen bits may be one half of a pair that stands for a character. An escape can
write such a half alone, where it is no character. So that a text with lone halves can be kept as
a text all the same, texts are kept in a *stored form*: a half as a stand-in from the private
characters of the last plane, a character that would be taken for a stand-in after a mark, and
every other character as itself.

* `Half.ofCodes` stores a sequence of numbers of characters and halves, `Half.codes` reads it back
  (`Half.codesOf_flatMap_written`).
* `Half.store` stores a text, `Half.plain?` reads back a text that holds no half
  (`Half.plain?_store`). Only such a text has bytes.

The stored form of two texts one after the other is that of both, and only private characters are
changed, so joining texts and looking for any other character need not know about it.
-/

namespace HerdBook

namespace Half

/-- Whether a code unit is half of a pair. -/
def isUnit (n : Nat) : Bool := 0xD800 ≤ n && n ≤ 0xDFFF

/-- Whether a code unit is the first half of a pair. -/
def isHigh (n : Nat) : Bool := 0xD800 ≤ n && n ≤ 0xDBFF

/-- Whether a code unit is the second half of a pair. -/
def isLow (n : Nat) : Bool := 0xDC00 ≤ n && n ≤ 0xDFFF

/-- The number of the character that a pair of halves stands for. -/
def pair (high low : Nat) : Nat := 0x10000 + (high - 0xD800) * 0x400 + (low - 0xDC00)

/-- How far the stand-ins lie beyond what they stand for. -/
def offset : Nat := 0x100000

/-- The number of the mark before a character that would be taken for a stand-in. -/
def markCode : Nat := 0x10E000

/-- Whether the number is that of a stand-in or of the mark. -/
def isReserved (n : Nat) : Bool := isUnit (n - offset) || n == markCode

/-- The character with a number, or the stand-in for half of a pair. -/
def charOf (n : Nat) : Char := Char.ofNat (if isUnit n then n + offset else n)

/-- The stored form of a character or a half. -/
def written (n : Nat) : List Char :=
  if isReserved n then [Char.ofNat markCode, Char.ofNat n] else [charOf n]

/-- What a character of a stored text says where no mark stands before it. -/
def unmarked (c : Char) : Nat := if isUnit (c.toNat - offset) then c.toNat - offset else c.toNat

/-- The numbers of the characters and halves of a stored text. -/
def codesOf : List Char → List Nat
  | [] => []
  | [c] => [unmarked c]
  | c :: d :: rest =>
    if c.toNat = markCode then d.toNat :: codesOf rest else unmarked c :: codesOf (d :: rest)

/-- The numbers of the characters and halves of a stored text. -/
def codes (s : String) : List Nat := codesOf s.toList

/-- The stored text of characters and halves with the given numbers. -/
def ofCodes (ns : List Nat) : String := String.ofList (ns.flatMap written)

/-- The number of characters and halves of a stored text. -/
def size (s : String) : Nat := (codes s).length

/-- The stored form of a text. -/
def store (s : String) : String := ofCodes (s.toList.map Char.toNat)

/-- The text that is stored, if it holds no half of a pair. -/
def plain? (s : String) : Option String :=
  let ns := codes s
  if ns.any isUnit then none else some (String.ofList (ns.map Char.ofNat))

/-! ### Storing loses nothing -/

/-- A half has a number from 0xD800 to 0xDFFF. -/
theorem isUnit_iff {n : Nat} : isUnit n = true ↔ 0xD800 ≤ n ∧ n ≤ 0xDFFF := by simp [isUnit]

/-- A number below 0xD800 or above 0xDFFF is not that of a half. -/
theorem isUnit_eq_false {n : Nat} (h : n < 0xD800 ∨ 0xDFFF < n) : isUnit n = false :=
  Bool.eq_false_iff.2 fun hn => by have := isUnit_iff.1 hn; omega

/-- Every number below 0x110000 is that of a character or of a half. -/
theorem toNat_ofNat {n : Nat} (h : n < 0x110000) (hn : isUnit n = false) :
    (Char.ofNat n).toNat = n := by
  have hv : n.isValidChar := by
    have := mt isUnit_iff.2 (Bool.eq_false_iff.1 hn)
    unfold Nat.isValidChar
    omega
  rw [Char.ofNat, dif_pos hv]
  rfl

/-- A character that is not the mark is read on its own. -/
theorem codesOf_cons {c : Char} (hc : c.toNat ≠ markCode) (rest : List Char) :
    codesOf (c :: rest) = unmarked c :: codesOf rest := by
  cases rest with
  | nil => rfl
  | cons d rest => simp [codesOf, hc]

/-- What is stored for one number is read back as that number, whatever follows. -/
theorem codesOf_written_append {n : Nat} (h : n < 0x110000) (rest : List Char) :
    codesOf (written n ++ rest) = n :: codesOf rest := by
  have mark : (Char.ofNat markCode).toNat = markCode := toNat_ofNat (by decide) (by decide)
  by_cases hr : isReserved n
  · have hu : isUnit n = false := by
      rcases Bool.or_eq_true_iff.1 hr with hr | hr
      · have := isUnit_iff.1 hr
        exact isUnit_eq_false (by unfold offset at this; omega)
      · rw [beq_iff_eq.1 hr]
        rfl
    rw [written, if_pos hr, List.cons_append, List.cons_append, List.nil_append, codesOf,
      if_pos mark, toNat_ofNat h hu]
  · have hm : n ≠ markCode := fun hm => hr (by simp [isReserved, hm])
    have hs : isUnit (n - offset) = false := by simpa [isReserved, hm] using hr
    simp only [written, hr, Bool.false_eq_true, if_false, List.cons_append, List.nil_append]
    by_cases hu : isUnit n
    · have hb := isUnit_iff.1 hu
      have hc : (charOf n).toNat = n + offset := by
        rw [charOf, if_pos hu, toNat_ofNat (by unfold offset; omega)
          (isUnit_eq_false (by unfold offset; omega))]
      rw [codesOf_cons (by rw [hc]; unfold offset markCode; omega)]
      simp [unmarked, hc, hu]
    · have hc : (charOf n).toNat = n := by
        simpa [charOf, hu] using toNat_ofNat h (by simpa using hu)
      rw [codesOf_cons (by rw [hc]; exact hm)]
      simp [unmarked, hc, hs]

/-- What is stored is read back. -/
theorem codesOf_flatMap_written {ns : List Nat} (h : ∀ n ∈ ns, n < 0x110000) :
    codesOf (ns.flatMap written) = ns := by
  induction ns with
  | nil => rfl
  | cons n rest ih =>
    rw [List.flatMap_cons, codesOf_written_append (h n List.mem_cons_self),
      ih fun m hm => h m (List.mem_cons_of_mem n hm)]

/-- Every character has a number below 0x110000 that is not that of a half. -/
theorem isUnit_toNat (c : Char) : c.toNat < 0x110000 ∧ isUnit c.toNat = false := by
  have hc : c.toNat < 0xD800 ∨ 0xDFFF < c.toNat ∧ c.toNat < 0x110000 := c.valid
  exact ⟨by omega, isUnit_eq_false (by omega)⟩

/-- A text that is stored is read back. -/
theorem plain?_store (text : String) : plain? (store text) = some text := by
  have hcodes : codes (store text) = text.toList.map Char.toNat := by
    rw [codes, store, ofCodes, String.toList_ofList]
    refine codesOf_flatMap_written fun n hn => ?_
    obtain ⟨c, -, rfl⟩ := List.mem_map.1 hn
    exact (isUnit_toNat c).1
  have hunits : (text.toList.map Char.toNat).any isUnit = false := by simp [isUnit_toNat]
  simp [plain?, hcodes, hunits, Function.comp_def]

/-- Characters below the halves are stored as themselves. -/
theorem flatMap_written_eq_self {cs : List Char} (h : ∀ c ∈ cs, c.toNat < 0xD800) :
    (cs.map Char.toNat).flatMap written = cs := by
  induction cs with
  | nil => rfl
  | cons c cs ih =>
    have hc := h c List.mem_cons_self
    have hunit : isUnit (c.toNat - offset) = false := isUnit_eq_false (by omega)
    have hmark : c.toNat ≠ markCode := by
      unfold markCode
      omega
    have hwritten : written c.toNat = [c] := by
      simp [written, isReserved, hunit, hmark, charOf, (isUnit_toNat c).2]
    rw [List.map_cons, List.flatMap_cons, hwritten,
      ih fun d hd => h d (List.mem_cons_of_mem c hd), List.singleton_append]

/-- So a text of such characters is read back as it is. -/
theorem plain?_eq_self {text : String} (h : ∀ c ∈ text.toList, c.toNat < 0xD800) :
    plain? text = some text := by
  have hstore : store text = text := by
    rw [store, ofCodes, flatMap_written_eq_self h, String.ofList_toList]
  have hplain := plain?_store text
  rwa [hstore] at hplain

end Half

end HerdBook
