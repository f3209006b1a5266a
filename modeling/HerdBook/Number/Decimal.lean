import HerdBook.Number.Binary64

/-!
# Decimal notation of double-precision numbers

Two ways to choose the digits, and one way to lay them out.

* `Decimal.shortest` chooses the fewest significant digits that read back as the same number, and
  among those the digits nearest to it.
* `Decimal.significant` keeps a fixed count of significant digits.
* `Layout` says up to which magnitude a number is written positionally and how a whole number
  ends; `Layout.general` and `Layout.shortest` are the two layouts in use.
-/

namespace HerdBook

/-- The positive decimal `digits · 10 ^ exponent`. -/
structure Decimal where
  digits : Nat
  exponent : Int
  deriving DecidableEq, Inhabited

namespace Decimal

/-- The decimal digits of a whole number, most significant first. -/
def digitChars (n : Nat) : List Char := Nat.toDigits 10 n

/-- The power of ten of the leading digit of the positive fraction `num / den`. -/
def leadingPower (num den : Nat) : Int :=
  let guess : Int := ((digitChars num).length : Int) - (digitChars den).length
  let reaches : Bool :=
    if guess < 0 then den ≤ num * Nat.pow 10 (-guess).toNat
    else den * Nat.pow 10 guess.toNat ≤ num
  if reaches then guess else guess - 1

/-- The fraction `num / den` divided by `10 ^ e`, as a numerator and a denominator. -/
def scaleDown (num den : Nat) (e : Int) : Nat × Nat :=
  if e ≤ 0 then (num * Nat.pow 10 (-e).toNat, den) else (num, den * Nat.pow 10 e.toNat)

/-- Whether the decimal reads back as the given number. -/
def readsBack (x : Binary64) (d : Decimal) : Bool :=
  Binary64.ofDecimal false d.digits d.exponent == x

/-- The decimal of `count` significant digits that is nearest to the positive finite number
`num / den` among the two neighbours that read back as `x`, if one does. -/
def nearestOf (x : Binary64) (num den : Nat) (count : Nat) : Option Decimal :=
  let e := leadingPower num den - count + 1
  let (n, d) := scaleDown num den e
  let low : Decimal := ⟨n / d, e⟩
  let high : Decimal := ⟨n / d + 1, e⟩
  match readsBack x low, readsBack x high with
  | true, true => some (if Binary64.divideEven n d = n / d then low else high)
  | true, false => some low
  | false, true => some high
  | false, false => none

/-- The fewest significant digits that read back as `mantissa · 2 ^ exponent`; seventeen always
do. -/
def shortest (mantissa : Nat) (exponent : Int) : Decimal :=
  let x := Binary64.finite false mantissa exponent
  let (num, den) := Binary64.magnitude mantissa exponent
  ((List.range' 1 17).findSome? (nearestOf x num den)).getD ⟨0, 0⟩

/-- The positive fraction `num / den` to `count` significant digits, a tie going to the even
digit. -/
def significant (count : Nat) (num den : Nat) : Decimal :=
  let e := leadingPower num den - count + 1
  let (n, d) := scaleDown num den e
  ⟨Binary64.divideEven n d, e⟩

/-- The significant digits without trailing zeros, and the power of ten of the first of them. -/
def normal (d : Decimal) : List Char × Int :=
  let cs := digitChars d.digits
  let kept := (cs.reverse.dropWhile (· == '0')).reverse
  (if kept.isEmpty then ['0'] else kept, d.exponent + cs.length - 1)

end Decimal

/-- How chosen digits are written: positionally from `10 ^ (-4)` up to, but excluding,
`10 ^ positionalBelow`, otherwise with an exponent of two digits or more; `wholeEnding` follows a
number written positionally without a fraction. -/
structure Layout where
  positionalBelow : Int
  wholeEnding : String

namespace Layout

/-- The layout of the shortest form: positional below `10 ^ 16`, whole numbers end in `.0`. -/
def shortest : Layout := ⟨16, ".0"⟩

/-- The layout of the general form with six significant digits. -/
def general : Layout := ⟨6, ""⟩

/-- An exponent with its sign and at least two digits. -/
def exponentText (e : Int) : String :=
  let ds := String.ofList (Decimal.digitChars e.natAbs)
  let sign := if e < 0 then "-" else "+"
  "e" ++ sign ++ (if ds.length < 2 then "0" ++ ds else ds)

/-- The text of `d₁.d₂d₃… · 10 ^ power`. -/
def write (layout : Layout) (digits : List Char) (power : Int) : String :=
  if power < -4 ∨ layout.positionalBelow ≤ power then
    let tail := digits.drop 1
    String.ofList (digits.take 1 ++ (if tail.isEmpty then [] else '.' :: tail)) ++
      exponentText power
  else if power < 0 then
    "0." ++ String.ofList (List.replicate (-power - 1).toNat '0' ++ digits)
  else
    let whole := power.toNat + 1
    let fraction := digits.drop whole
    let lead := digits.take whole ++ List.replicate (whole - digits.length) '0'
    if fraction.isEmpty then String.ofList lead ++ layout.wholeEnding
    else String.ofList (lead ++ '.' :: fraction)

end Layout

namespace Binary64

/-- The minus sign of a negative number. -/
def signText (negative : Bool) : String := if negative then "-" else ""

/-- The shortest text that reads back as the number: `1.0`, `0.1`, `1e+16`, `inf`, `nan`. -/
def text : Binary64 → String
  | .nan => "nan"
  | .infinite negative => signText negative ++ "inf"
  | .finite negative mantissa exponent =>
    if mantissa = 0 then signText negative ++ "0.0"
    else
      let (digits, power) := (Decimal.shortest mantissa exponent).normal
      signText negative ++ Layout.shortest.write digits power

/-- The text with six significant digits and no trailing zeros: `10`, `0.5`, `1.23457e+06`. -/
def generalText : Binary64 → String
  | .nan => "nan"
  | .infinite negative => signText negative ++ "inf"
  | .finite negative mantissa exponent =>
    if mantissa = 0 then signText negative ++ "0"
    else
      let (num, den) := magnitude mantissa exponent
      let (digits, power) := (Decimal.significant 6 num den).normal
      signText negative ++ Layout.general.write digits power

end Binary64

end HerdBook
