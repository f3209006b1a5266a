import HerdBook.Fault
import HerdBook.Number.Decimal
import HerdBook.Text.Digit
import HerdBook.Text.Half
import HerdBook.Value.Text
import HerdBook.Value.Whole

/-!
# Texts with directives

A text may hold directives, each of which is replaced by an argument: `%s` by its text, `%r` by
what is shown inside a collection, `%d` by a whole number, `%x` by its hexadecimal digits, `%f`,
`%e` and `%g` by a decimal number, `%c` by a character; `%%` stands for a percent sign. Between the
percent sign and the letter there may be the name of an argument in parentheses, flags, a width
and a precision, the last two possibly taken from the arguments as well (`*`).

`Directives.expand` reads a text once from left to right and takes arguments as it goes, so that
the first thing that is wrong decides the fault. Arguments are taken in order and must be used up;
a collection may also serve as a source of named ones.
-/

namespace HerdBook

namespace Directives

/-! ### Numbers -/

/-- The value as a double-precision number. -/
def realOf : Value → Except Misuse Binary64
  | .float x => .ok x
  | v => do
    match Binary64.ofInt (← v.integer) with
    | .infinite _ => .error .overflow
    | x => .ok x

/-- The digits of a fraction with the given number of places, a half going to the even
neighbour. -/
def fixedText (places : Nat) (point : Bool) (num den : Nat) : String :=
  let digits := Decimal.digitChars (Binary64.divideEven (num * Nat.pow 10 places) den)
  let padded := List.replicate (places + 1 - digits.length) '0' ++ digits
  let whole := padded.length - places
  String.ofList (padded.take whole ++
    (if places = 0 ∧ !point then [] else '.' :: padded.drop whole))

/-- The digits of a fraction with an exponent, to the given number of places. -/
def scientificText (places : Nat) (point : Bool) (num den : Nat) : String :=
  let (digits, power) :=
    if num = 0 then (List.replicate (places + 1) '0', (0 : Int))
    else
      let d := Decimal.significant (places + 1) num den
      let cs := Decimal.digitChars d.digits
      (cs.take (places + 1), d.exponent + cs.length - 1)
  let tail := digits.drop 1
  String.ofList (digits.take 1 ++ (if tail.isEmpty ∧ !point then [] else '.' :: tail))
    ++ Layout.exponentText power

/-- The text of a decimal without the zeros at its end, and without a point that nothing
follows. -/
def dropZeros (cs : List Char) : List Char :=
  if cs.contains '.' then
    let kept := (cs.reverse.dropWhile (· == '0')).reverse
    if kept.getLast? = some '.' then kept.dropLast else kept
  else cs

/-- The digits of a fraction to the given number of significant digits, with an exponent when it
is very small or has more digits before the point. -/
def generalText (count : Nat) (full : Bool) (num den : Nat) : String :=
  let count := max count 1
  let power :=
    if num = 0 then (0 : Int)
    else
      let d := Decimal.significant count num den
      d.exponent + (Decimal.digitChars d.digits).length - 1
  if power < -4 ∨ (count : Int) ≤ power then
    let written := (scientificText (count - 1) full num den).toList
    if full then String.ofList written
    else
      let mantissa := written.takeWhile (· != 'e')
      String.ofList (dropZeros mantissa ++ written.dropWhile (· != 'e'))
  else
    let written := fixedText (count - 1 - power).toNat full num den
    if full then written else String.ofList (dropZeros written.toList)

/-- The text in capitals, for ASCII letters. -/
def capitals (s : String) : String := s.map Char.toUpper

/-- The digits of a number by a letter among `e`, `f` and `g`. -/
def realText (letter : Char) (precision : Option Nat) (alternate : Bool) (x : Binary64) : String :=
  match x with
  | .nan => "nan"
  | .infinite _ => "inf"
  | .finite _ mantissa exponent =>
    let (num, den) := Binary64.magnitude mantissa exponent
    let places := precision.getD 6
    match letter with
    | 'e' => scientificText places alternate num den
    | 'f' => fixedText places alternate num den
    | _ => generalText places alternate num den

/-! ### Arguments -/

/-- The arguments that are left: the next ones in order, and a source of named ones. -/
structure Supply where
  next : List Value
  source : Option Value

namespace Supply

/-- The arguments that a value stands for: the items of a tuple, or the value alone. -/
def of : Value → Supply
  | .tuple items => ⟨items, none⟩
  | .list items => ⟨[.list items], some (.list items)⟩
  | .object fields => ⟨[.object fields], some (.object fields)⟩
  | v => ⟨[v], none⟩

/-- The next argument, and the arguments after it. -/
def take (supply : Supply) : Except Misuse (Value × Supply) :=
  match supply.next with
  | v :: rest => .ok (v, { supply with next := rest })
  | [] => .error .type

/-- The arguments when one is called for by name. -/
def named (supply : Supply) (key : String) : Except Misuse Supply :=
  match supply.source with
  | some (.object fields) =>
    match Table.get? key fields with
    | some v => .ok { supply with next := [v] }
    | none => .error .key
  | _ => .error .type

/-- The next argument, which must be a whole number, and the arguments after it. -/
def takeWhole (supply : Supply) : Except Misuse (Int × Supply) := do
  let (v, supply) ← supply.take
  return (← v.integer, supply)

end Supply

/-! ### Reading -/

/-- What has been read of a directive. -/
structure Directive where
  flags : List Char
  width : Nat
  precision : Option Nat
  deriving DecidableEq, Inhabited

/-- The part of a directive that is being read. A width or a precision may go on with digits unless
it was taken from the arguments. -/
inductive Part where
  | begin
  | key (depth : Nat) (name : List Char)
  | flags
  | width (digits : Bool)
  | point
  | precision (digits : Bool)
  | size
  deriving DecidableEq, Inhabited

/-- A directive of which only the percent sign is read. -/
def bare : Directive := ⟨[], 0, none⟩

/-- The largest width. -/
def maxWidth : Nat := 0x7FFFFFFFFFFFFFFF

/-- The largest precision. -/
def maxPrecision : Nat := 0x7FFFFFFF

/-- A number after one more digit, up to a largest one. -/
def addDigit (largest n : Nat) (c : Char) : Except Misuse Nat :=
  let more := 10 * n + Digit.value c
  if more ≤ largest then .ok more else .error .value

/-- The directive with a width taken from the arguments; a negative one aligns to the left, and the
least there is fills nothing. -/
def withWidth (directive : Directive) (n : Int) : Except Misuse Directive :=
  let width := if n.natAbs ≤ maxWidth then n.natAbs else 0
  if n < -maxWidth - 1 ∨ maxWidth < n then .error .overflow
  else if n < 0 then .ok { directive with width, flags := '-' :: directive.flags }
  else .ok { directive with width }

/-- The directive with a precision taken from the arguments; a negative one counts as zero. -/
def withPrecision (directive : Directive) (n : Int) : Except Misuse Directive :=
  if n < -maxPrecision - 1 ∨ maxPrecision < n then .error .overflow
  else .ok { directive with precision := some n.toNat }

/-- What has been read after one more character, and the arguments left; `none` when the character
is the letter that ends the directive. -/
def advance (directive : Directive) (part : Part) (supply : Supply) (c : Char) :
    Except Misuse (Option (Directive × Part × Supply)) :=
  let early := part = .begin ∨ part = .flags
  match part with
  | .key depth name =>
    if c = '(' then .ok (some (directive, .key (depth + 1) (c :: name), supply))
    else if c ≠ ')' then .ok (some (directive, .key depth (c :: name), supply))
    else if depth ≠ 0 then .ok (some (directive, .key (depth - 1) (c :: name), supply))
    else do
      let supply ← supply.named (String.ofList name.reverse)
      return some (directive, .flags, supply)
  | part =>
    if part = .begin ∧ c = '(' then
      if supply.source.isSome then .ok (some (directive, .key 0 [], supply)) else .error .type
    else if early ∧ "-+ #0".toList.contains c then
      .ok (some ({ directive with flags := c :: directive.flags }, .flags, supply))
    else if early ∧ c = '*' then do
      let (n, supply) ← supply.takeWhole
      return some (← withWidth directive n, .width false, supply)
    else if (early ∨ part = .width true) ∧ c.isDigit then do
      let n ← addDigit maxWidth directive.width c
      return some ({ directive with width := n }, .width true, supply)
    else if (early ∨ part = .width true ∨ part = .width false) ∧ c = '.' then
      .ok (some ({ directive with precision := some 0 }, .point, supply))
    else if part = .point ∧ c = '*' then do
      let (n, supply) ← supply.takeWhole
      return some (← withPrecision directive n, .precision false, supply)
    else if (part = .point ∨ part = .precision true) ∧ c.isDigit then do
      let n ← addDigit maxPrecision (directive.precision.getD 0) c
      return some ({ directive with precision := some n }, .precision true, supply)
    else if part ≠ .size ∧ "hlL".toList.contains c then .ok (some (directive, .size, supply))
    else .ok none

/-! ### Putting arguments in -/

/-- A text with sign, filled up to the width: after it when aligned to the left, with zeros
between sign and digits, or before it. -/
def fit (width : Nat) (left zeros : Bool) (sign body : String) : String :=
  let gap := width - (Half.size sign + Half.size body)
  let blank := String.ofList (List.replicate gap ' ')
  if left then sign ++ body ++ blank
  else if zeros then sign ++ String.ofList (List.replicate gap '0') ++ body
  else blank ++ sign ++ body

/-- The sign that flags ask for. -/
def signFor (flags : List Char) (negative : Bool) : String :=
  if negative then "-" else if flags.contains '+' then "+"
  else if flags.contains ' ' then " " else ""

/-- The character with a number between quotes in ASCII. -/
def asciiOnly (n : Nat) : List Char := if n < 0x80 then [Char.ofNat n] else Quoted.numbered n

/-- The length up to which a text is filled. -/
def longestFill : Nat := 100000000

/-- The sign and the body of a whole number with the given digits and at least as many of them as
the precision says; `mark` is what the alternate form puts in front. -/
def wholeParts (flags : List Char) (precision : Option Nat) (n : Int) (mark : String)
    (digits : List Char) : String × String :=
  let padded := List.replicate (precision.getD 1 - digits.length) '0' ++ digits
  (signFor flags (n < 0) ++ (if flags.contains '#' then mark else ""), String.ofList padded)

/-- The sign and the body of a whole number by its letter. -/
def wholeDigits (directive : Directive) (letter : Char) (n : Int) :
    Except Misuse (String × String) :=
  let parts := wholeParts directive.flags directive.precision n
  if maxPrecision - 3 < directive.precision.getD 0 then .error .overflow
  else if longestFill < directive.precision.getD 0 then .error .memory
  else match letter with
    | 'x' => .ok (parts "0x" (Nat.toDigits 16 n.natAbs))
    | 'X' => .ok (parts "0X" ((Nat.toDigits 16 n.natAbs).map Char.toUpper))
    | 'o' => .ok (parts "0o" (Nat.toDigits 8 n.natAbs))
    | _ => do
      let _ ← Value.wholeText n
      return parts "" (Decimal.digitChars n.natAbs)

/-- The character that a value is or has the number of. -/
def charOf (v : Value) : Except Misuse String :=
  match v with
  | .str s => if Half.size s = 1 then .ok s else .error .type
  | v => do
    let n ← v.integer
    if n < 0 ∨ 0x10FFFF < n then throw .overflow
    else return Half.ofCodes [n.toNat]

/-- The sign and the body of a number with a fraction by its letter. -/
def realDigits (directive : Directive) (letter : Char) (v : Value) :
    Except Misuse (String × String) := do
  let x ← realOf v
  if longestFill < directive.precision.getD 0 then throw .memory
  let alternate := directive.flags.contains '#'
  let body := realText letter.toLower directive.precision alternate x
  return (signFor directive.flags x.isNegative, if letter.isUpper then capitals body else body)

/-- The sign and the body of a converted argument, and whether it is a number. -/
def convert (directive : Directive) (letter : Char) (v : Value) :
    Except Misuse (String × String × Bool) :=
  let cut (s : String) : String × String × Bool :=
    ("", match directive.precision with
      | some n => Half.ofCodes ((Half.codes s).take n)
      | none => s, false)
  let number (parts : String × String) : String × String × Bool := (parts.1, parts.2, true)
  match letter with
  | 's' => v.text.map cut
  | 'r' => v.shown.map cut
  | 'a' => v.shown.map fun s => cut (String.ofList ((Half.codes s).flatMap asciiOnly))
  | 'c' => (charOf v).map fun s => ("", s, false)
  | 'd' | 'i' | 'u' => do return number (← wholeDigits directive letter (← v.truncated))
  | 'x' | 'X' | 'o' => do return number (← wholeDigits directive letter (← v.integer))
  | 'e' | 'f' | 'g' | 'E' | 'F' | 'G' => do return number (← realDigits directive letter v)
  | _ => .error .value

/-- The text of a directive, and the arguments after it. The argument is taken before the letter is
looked at. -/
def fill (directive : Directive) (letter : Char) (supply : Supply) :
    Except Misuse (String × Supply) := do
  let (v, supply) ← supply.take
  let (sign, body, isNumber) ← convert directive letter v
  if longestFill < directive.width then throw .memory
  let left := directive.flags.contains '-'
  let zeros := isNumber && directive.flags.contains '0'
  return (fit directive.width left zeros sign body, supply)

/-- The text with its directives filled in; the first argument is the directive being read, if there
is one. Arguments that are left over are a misuse, unless they can serve as named ones. -/
def run : Option (Directive × Part) → Supply → List Char → Except Misuse String
  | none, supply, [] =>
    if supply.next.isEmpty ∨ supply.source.isSome then .ok "" else .error .type
  | some _, _, [] => .error .value
  | none, supply, c :: cs =>
    if c = '%' then run (some (bare, .begin)) supply cs
    else do return String.ofList [c] ++ (← run none supply cs)
  | some (directive, part), supply, c :: cs => do
    if part = .begin ∧ c = '%' then return "%" ++ (← run none supply cs)
    match ← advance directive part supply c with
    | some (directive, part, supply) => run (some (directive, part)) supply cs
    | none =>
      let (text, supply) ← fill directive c supply
      return text ++ (← run none supply cs)

/-- The text with the arguments that a value stands for put in. -/
def expand (text : String) (arguments : Value) : Except Misuse String :=
  run none (.of arguments) text.toList

end Directives

end HerdBook
