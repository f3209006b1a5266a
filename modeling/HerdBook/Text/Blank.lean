/-!
# Blank characters

The characters that count as white space: the characters of Unicode whose direction is that of a
white space or a separator of paragraphs or segments, and those of the category of separators.
They include the information separators U+001C to U+001F, the next-line control U+0085 and the
wide blank U+3000, but not the zero-width blank U+200B.

* `strip` takes them off both ends of a text.
* `words` cuts a text at runs of them.
-/

namespace HerdBook

/-- Whether the character is white space. -/
def isBlank (c : Char) : Bool :=
  let n := c.toNat
  (0x09 ≤ n && n ≤ 0x0D) || (0x1C ≤ n && n ≤ 0x20) || n == 0x85 || n == 0xA0 || n == 0x1680
    || (0x2000 ≤ n && n ≤ 0x200A) || n == 0x2028 || n == 0x2029 || n == 0x202F || n == 0x205F
    || n == 0x3000

/-- The characters after the leading ones that satisfy `p`, without the trailing ones that do. -/
def trimBoth (p : Char → Bool) (cs : List Char) : List Char :=
  ((cs.dropWhile p).reverse.dropWhile p).reverse

/-- A text without the white space at its ends. -/
def strip (s : String) : String := String.ofList (trimBoth isBlank s.toList)

/-- The maximal runs of characters that do not satisfy `p`, in order; `run` holds the characters
of the run in progress, last first. -/
def runs (p : Char → Bool) : List Char → List Char → List (List Char)
  | run, [] => if run.isEmpty then [] else [run.reverse]
  | run, c :: cs =>
    if p c then (if run.isEmpty then runs p [] cs else run.reverse :: runs p [] cs)
    else runs p (c :: run) cs

/-- The words of a text: its maximal runs without white space. -/
def words (s : String) : List String := (runs isBlank [] s.toList).map String.ofList

/-- Whether a text holds a character that is not white space. -/
def hasInk (s : String) : Bool := s.toList.any (!isBlank ·)

end HerdBook
