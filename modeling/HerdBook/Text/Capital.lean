/-!
# Capitals

Texts in capitals, as far as these are ASCII letters: besides the small ASCII letters, the dotless
i, the long s, the sharp s and the ligatures have such capitals. Every other character stays as it
is, which is enough to compare a text with words of ASCII letters.
-/

namespace HerdBook

namespace Capital

/-- A character in capitals. -/
def ofChar (c : Char) : List Char :=
  match c with
  | 'ı' => ['I']
  | 'ſ' => ['S']
  | 'ß' => ['S', 'S']
  | 'ﬀ' => ['F', 'F']
  | 'ﬁ' => ['F', 'I']
  | 'ﬂ' => ['F', 'L']
  | 'ﬃ' => ['F', 'F', 'I']
  | 'ﬄ' => ['F', 'F', 'L']
  | 'ﬅ' => ['S', 'T']
  | 'ﬆ' => ['S', 'T']
  | c => [c.toUpper]

/-- A text in capitals. -/
def ofText (s : String) : String := String.ofList (s.toList.flatMap ofChar)

end Capital

end HerdBook
