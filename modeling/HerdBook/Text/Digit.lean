/-!
# Digits

The values of digits in texts: of one decimal or hexadecimal digit, and of a run of decimal ones.
Every script has decimal digits of its own, ten in a row; `Digit.ascii` says which of the ASCII
ones a digit corresponds to.
-/

namespace HerdBook

namespace Digit

/-- The value of a decimal digit. -/
def value (c : Char) : Nat := c.toNat - '0'.toNat

/-- The number that decimal digits write. -/
def number (cs : List Char) : Nat := cs.foldl (fun n c => 10 * n + value c) 0

/-- The value of a hexadecimal digit; `none` for what is no such digit. -/
def hexValue? (c : Char) : Option Nat :=
  if c.isDigit then some (value c)
  else if 'a' ≤ c ∧ c ≤ 'f' then some (c.toNat - 'a'.toNat + 10)
  else if 'A' ≤ c ∧ c ≤ 'F' then some (c.toNat - 'A'.toNat + 10)
  else none

/-- Whether a character is a hexadecimal digit. -/
def isHex (c : Char) : Bool := (hexValue? c).isSome

/-- The code points of the zeros of all scripts. -/
def zeros : List Nat :=
  [
    0x30, 0x660, 0x6f0, 0x7c0, 0x966, 0x9e6, 0xa66, 0xae6, 0xb66, 0xbe6, 0xc66, 0xce6, 0xd66, 0xde6,
    0xe50, 0xed0, 0xf20, 0x1040, 0x1090, 0x17e0, 0x1810, 0x1946, 0x19d0, 0x1a80, 0x1a90, 0x1b50,
    0x1bb0, 0x1c40, 0x1c50, 0xa620, 0xa8d0, 0xa900, 0xa9d0, 0xa9f0, 0xaa50, 0xabf0, 0xff10, 0x104a0,
    0x10d30, 0x11066, 0x110f0, 0x11136, 0x111d0, 0x112f0, 0x11450, 0x114d0, 0x11650, 0x116c0,
    0x11730, 0x118e0, 0x11950, 0x11c50, 0x11d50, 0x11da0, 0x16a60, 0x16ac0, 0x16b50, 0x1d7ce,
    0x1d7d8, 0x1d7e2, 0x1d7ec, 0x1d7f6, 0x1e140, 0x1e2f0, 0x1e950, 0x1fbf0
  ]

/-- The value of a decimal digit of any script; `none` for what is no such digit. -/
def decimalValue? (c : Char) : Option Nat :=
  if c.isDigit then some (value c)
  else if c.toNat < 0x80 then none
  else (zeros.find? fun first => first ≤ c.toNat && c.toNat < first + 10).map (c.toNat - ·)

/-- Whether a character is a decimal digit of any script. -/
def isDecimal (c : Char) : Bool := (decimalValue? c).isSome

/-- The ASCII digit of the same value as a decimal digit; any other character is kept. -/
def ascii (c : Char) : Char :=
  match decimalValue? c with
  | some n => Char.ofNat ('0'.toNat + n)
  | none => c

end Digit

end HerdBook
