import HerdBook.Number.Binary64
import HerdBook.Text.Blank
import HerdBook.Text.Digit

/-!
# Numerals

Numbers as people write them in texts. `Numeral.real?` reads a number in ASCII digits with a point
and an exponent. `Numeral.anyWhole?` and `Numeral.anyReal?` also take blanks around the number,
digits of all scripts, and an underscore between two digits.
-/

namespace HerdBook

namespace Numeral

/-- The number of digits up to which a whole number is read. -/
def longestWhole : Nat := 4300

/-- The sign of a number and what follows it. -/
def signOf : List Char → Bool × List Char
  | '-' :: cs => (true, cs)
  | '+' :: cs => (false, cs)
  | cs => (false, cs)

/-- A whole number with a sign. -/
def signed (negative : Bool) (n : Nat) : Int := if negative then -n else n

/-- The digits before and after the point of a number, and whether it has any. -/
def decimalParts (cs : List Char) : List Char × List Char :=
  let fraction := (cs.dropWhile (· != '.')).drop 1
  (cs.takeWhile (· != '.'), fraction)

/-- The exponent of a number. -/
def exponentOf? (cs : List Char) : Option Int :=
  match cs with
  | [] => some 0
  | _ :: rest =>
    let (negative, digits) := signOf rest
    if digits.isEmpty || !digits.all Char.isDigit then none
    else some (signed negative (Digit.number digits))

/-- The number that characters write. -/
def real? (cs : List Char) : Option Binary64 := do
  let (negative, body) := signOf cs
  let word := String.ofList (body.map Char.toLower)
  if word == "inf" || word == "infinity" then return .infinite negative
  else if word == "nan" then return .nan
  else
    let isMark (c : Char) : Bool := c == 'e' || c == 'E'
    let (whole, fraction) := decimalParts (body.takeWhile (!isMark ·))
    let digits := whole ++ fraction
    let exponent ← exponentOf? (body.dropWhile (!isMark ·))
    if digits.isEmpty || !digits.all Char.isDigit then none
    else return .ofDecimal negative (Digit.number digits) (exponent - fraction.length)

/-- The whole number that characters write with a sign and digits alone. -/
def whole? (cs : List Char) : Option Int :=
  let (negative, digits) := signOf cs
  if digits.isEmpty || !digits.all Char.isDigit || longestWhole < digits.length then none
  else some (signed negative (Digit.number digits))

/-- A numeral without its underscores, each of which must stand between two digits; `last` is the
character before. -/
def joined? (last : Char) : List Char → Option (List Char)
  | [] => if last = '_' then none else some []
  | c :: cs =>
    if c = '_' then if last.isDigit then joined? c cs else none
    else if last = '_' ∧ ¬c.isDigit then none
    else (joined? c cs).map (c :: ·)

/-- A numeral in ASCII digits, without blanks around it and underscores in it. -/
def plain? (cs : List Char) : Option (List Char) :=
  joined? ' ' ((trimBoth isBlank cs).map Digit.ascii)

/-- The whole number that a text writes in digits of any script. -/
def anyWhole? (cs : List Char) : Option Int := (plain? cs).bind whole?

/-- The number that a text writes in digits of any script. -/
def anyReal? (cs : List Char) : Option Binary64 := (plain? cs).bind real?

end Numeral

end HerdBook
