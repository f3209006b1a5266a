import HerdBook.Text.Half

/-!
# The encoding of JSON texts

A JSON text that arrives as bytes begins with two ASCII characters, so the zeros among its first
bytes tell whether it is encoded in units of one, two or four bytes, and which byte of a unit comes
first. `Json.decoded?` takes what was sent as a text whose UTF-8 form is the bytes. A unit that is
half of a pair may stand alone, so the text that the bytes encode is given in the stored form.
-/

namespace HerdBook

namespace Json

/-- The encodings of a JSON text. -/
inductive Encoding where
  | bytes
  /-- Units of two bytes. -/
  | pairs (highFirst : Bool)
  /-- Units of four bytes. -/
  | quadruples (highFirst : Bool)
  deriving DecidableEq, Inhabited

/-- The encoding that the first bytes of a text show. -/
def Encoding.of : List UInt8 → Encoding
  | [0, _] => .pairs true
  | [_, 0] => .pairs false
  | 0 :: b :: _ :: _ :: _ => if b = 0 then .quadruples true else .pairs true
  | _ :: 0 :: c :: d :: _ => if c = 0 ∧ d = 0 then .quadruples false else .pairs false
  | _ => .bytes

/-- The units of two bytes; `none` when a byte is left over. -/
def units16? (highFirst : Bool) : List UInt8 → Option (List Nat)
  | [] => some []
  | [_] => none
  | a :: b :: rest => do
    let (high, low) := if highFirst then (a, b) else (b, a)
    return (high.toNat * 0x100 + low.toNat) :: (← units16? highFirst rest)

/-- The units of four bytes, from units of two; `none` when one is left over. -/
def units32? (highFirst : Bool) : List Nat → Option (List Nat)
  | [] => some []
  | [_] => none
  | a :: b :: rest => do
    let (high, low) := if highFirst then (a, b) else (b, a)
    return (high * 0x10000 + low) :: (← units32? highFirst rest)

/-- The numbers of the characters of units of two bytes. -/
def codes16 : List Nat → List Nat
  | first :: second :: rest =>
    if Half.isHigh first && Half.isLow second then Half.pair first second :: codes16 rest
    else first :: codes16 (second :: rest)
  | units => units

/-- The numbers of the characters of units of four bytes; `none` when one is beyond the last
character. -/
def codes32? (units : List Nat) : Option (List Nat) :=
  if units.all (· < 0x110000) then some units else none

/-- The text without a mark of byte order in front. -/
def withoutMark (text : String) : String :=
  match text.toList with
  | '\uFEFF' :: cs => String.ofList cs
  | _ => text

/-- The text that was sent, in whichever encoding. -/
def decoded? (sent : String) : Option String :=
  let bytes := sent.toUTF8.toList
  match Encoding.of bytes with
  | .bytes => some (Half.store (withoutMark sent))
  | .pairs highFirst => (units16? highFirst bytes).map fun units => Half.ofCodes (codes16 units)
  | .quadruples highFirst => do
    let units ← units32? highFirst (← units16? highFirst bytes)
    return Half.ofCodes (← codes32? units)

end Json

end HerdBook
