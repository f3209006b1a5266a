import HerdBook.Text.Half
import HerdBook.Text.Printable

/-!
# Quoted text

A text in quotes, as it is shown inside a message. The quote is the single one unless the text
holds a single quote and no double one. The quote in use and the backslash are written after a
backslash, a line feed, a carriage return and a tab by letter, and every other unprintable
character by its number, in two, four or eight hexadecimal digits.
-/

namespace HerdBook

namespace Quoted

/-- The single quote. -/
def singleQuote : Char := '\x27'

/-- The double quote. -/
def doubleQuote : Char := '\x22'

/-- The quote a text is written in. -/
def quoteFor (cs : List Char) : Char :=
  if cs.contains singleQuote && !cs.contains doubleQuote then doubleQuote else singleQuote

/-- A number in lower-case hexadecimal with at least `width` digits. -/
def hex (width n : Nat) : List Char :=
  let ds := Nat.toDigits 16 n
  List.replicate (width - ds.length) '0' ++ ds

/-- A character by its number, in two, four or eight digits. -/
def numbered (n : Nat) : List Char :=
  if n < 0x100 then '\\' :: 'x' :: hex 2 n
  else if n < 0x10000 then '\\' :: 'u' :: hex 4 n
  else '\\' :: 'U' :: hex 8 n

/-- The character with a number, or half of one, between quotes of the kind `quote`. -/
def escape (quote : Char) (n : Nat) : List Char :=
  let c := Half.charOf n
  if c = quote ∨ c = '\\' then ['\\', c]
  else if c = '\n' then ['\\', 'n']
  else if c = '\r' then ['\\', 'r']
  else if c = '\t' then ['\\', 't']
  else if isPrintable c then [c]
  else numbered n

end Quoted

/-- The text in quotes. -/
def quoted (s : String) : String :=
  let quote := Quoted.quoteFor s.toList
  String.ofList (quote :: ((Half.codes s).flatMap (Quoted.escape quote) ++ [quote]))

end HerdBook
