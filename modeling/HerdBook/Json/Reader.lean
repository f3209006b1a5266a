import HerdBook.Text.Digit
import HerdBook.Text.Half
import HerdBook.Value.Basic

/-!
# Reading JSON

A reader for JSON texts that keeps the order of object fields and the difference between whole
numbers of any size and numbers with a fraction or an exponent. Of two fields with one name the
last value counts, in the place of the first. Besides the standard it takes the words `NaN`,
`Infinity` and `-Infinity`; it refuses control characters inside texts, whole numbers of more than
`Json.longestWhole` digits, and lists and objects inside each other beyond `Json.deepest`. An
escape may write half of a pair of code units alone: the text that is read, and the texts of the
value, are in the stored form (`Half`).

The reader works on the list of characters; each step gets the budget of nested calls it may
still make, and one more than the number of characters always suffices because every nested call
consumes a character.
-/

namespace HerdBook

namespace Json

/-- Why a text is not read. -/
inductive Refusal where
  | malformed
  /-- Lists and objects are nested too deeply. -/
  | tooDeep
  deriving DecidableEq, Inhabited

/-- The number of digits up to which a whole number is read. -/
def longestWhole : Nat := 4300

/-- The number of lists and objects that may be nested in each other. -/
def deepest : Nat := 976

/-- White space between the tokens. -/
def isGap (c : Char) : Bool := c == ' ' || c == '\t' || c == '\n' || c == '\r'

/-- The text without leading white space. -/
def skipGap (cs : List Char) : List Char := cs.dropWhile isGap

/-- The text after a given beginning. -/
def after? : List Char → List Char → Option (List Char)
  | [], cs => some cs
  | w :: ws, c :: cs => if w = c then after? ws cs else none
  | _ :: _, [] => none

/-- Four hexadecimal digits and the rest. -/
def fourHex? : List Char → Option (Nat × List Char)
  | a :: b :: c :: d :: rest => do
    let a ← Digit.hexValue? a
    let b ← Digit.hexValue? b
    let c ← Digit.hexValue? c
    let d ← Digit.hexValue? d
    return (((a * 16 + b) * 16 + c) * 16 + d, rest)
  | _ => none

/-- The number of the character, or half of one, escaped by number after a backslash and `u`; two
units that form a pair are one character. -/
def escapedUnit? (cs : List Char) : Option (Nat × List Char) := do
  let (first, rest) ← fourHex? cs
  match rest with
  | '\\' :: 'u' :: more =>
    if Half.isHigh first then
      let (second, rest') ← fourHex? more
      if Half.isLow second then return (Half.pair first second, rest')
      else return (first, rest)
    else return (first, rest)
  | _ => return (first, rest)

/-- The character that a letter after a backslash stands for. -/
def escapedLetter? : Char → Option Char
  | '"' => some '"'
  | '\\' => some '\\'
  | '/' => some '/'
  | 'b' => some '\x08'
  | 'f' => some '\x0c'
  | 'n' => some '\n'
  | 'r' => some '\r'
  | 't' => some '\t'
  | _ => none

/-- The characters of a text up to its closing quote, and the rest; `taken` holds those read,
last first. -/
def chars? : Nat → List Char → List Char → Option (String × List Char)
  | 0, _, _ => none
  | _ + 1, _, [] => none
  | budget + 1, taken, c :: cs =>
    if c = '"' then some (String.ofList taken.reverse, cs)
    else if c = '\\' then
      match cs with
      | 'u' :: more =>
        match escapedUnit? more with
        | some (n, rest) => chars? budget ((Half.written n).reverse ++ taken) rest
        | none => none
      | e :: rest =>
        match escapedLetter? e with
        | some d => chars? budget (d :: taken) rest
        | none => none
      | [] => none
    else if c.toNat < 0x20 then none
    else chars? budget (c :: taken) cs

/-- The digits of a fraction after its point, if one with digits follows, and the rest. -/
def fraction (cs : List Char) : List Char × List Char :=
  match cs with
  | '.' :: more =>
    let ds := more.takeWhile Char.isDigit
    if ds.isEmpty then ([], cs) else (ds, more.dropWhile Char.isDigit)
  | _ => ([], cs)

/-- The exponent, if one with digits follows, and the rest. -/
def exponent (cs : List Char) : Option Int × List Char :=
  match cs with
  | e :: more =>
    if e = 'e' ∨ e = 'E' then
      let (negative, digits) := match more with
        | '-' :: ds => (true, ds)
        | '+' :: ds => (false, ds)
        | ds => (false, ds)
      let ds := digits.takeWhile Char.isDigit
      if ds.isEmpty then (none, cs)
      else
        let n : Int := Digit.number ds
        (some (if negative then -n else n), digits.dropWhile Char.isDigit)
    else (none, cs)
  | [] => (none, cs)

/-- The number at the beginning of a text, its sign taken off, and the rest. -/
def number? (negative : Bool) (cs : List Char) : Option (Value × List Char) :=
  let run := cs.takeWhile Char.isDigit
  let whole := if run.head? = some '0' then run.take 1 else run
  if whole.isEmpty then none
  else
    let rest := cs.drop whole.length
    let (places, rest) := fraction rest
    let (power, rest) := exponent rest
    if places.isEmpty ∧ power.isNone then
      if longestWhole < whole.length then none
      else
        let n : Int := Digit.number whole
        some (.int (if negative then -n else n), rest)
    else
      let digits := Digit.number (whole ++ places)
      some (.float (.ofDecimal negative digits (power.getD 0 - places.length)), rest)

/-- The words that stand for a value. -/
def literals : List (String × Value) :=
  [("null", .null), ("true", .bool true), ("false", .bool false), ("NaN", .float .nan),
    ("Infinity", .float (.infinite false)), ("-Infinity", .float (.infinite true))]

/-- The value of a word at the beginning of a text, and the rest. -/
def literal? (cs : List Char) : Option (Value × List Char) :=
  literals.findSome? fun entry => (after? entry.1.toList cs).map fun rest => (entry.2, rest)

/-- What was read, if it is well-formed. -/
def wellFormed {α : Type} (found : Option α) : Except Refusal α :=
  match found with
  | some a => .ok a
  | none => .error .malformed

mutual

/-- The value at the beginning of a text without leading white space, and the rest; `room` is the
number of lists and objects that may be nested in each other. -/
def value : Nat → Nat → List Char → Except Refusal (Value × List Char)
  | 0, _, _ => .error .malformed
  | budget + 1, room, cs =>
    match cs with
    | '"' :: rest => do
      let (s, rest') ← wellFormed (chars? (rest.length + 1) [] rest)
      return (.str s, rest')
    | '[' :: rest =>
      match room, skipGap rest with
      | 0, _ => .error .tooDeep
      | _, ']' :: rest' => .ok (.list [], rest')
      | room + 1, first => do
        let (vs, rest') ← items budget room first
        return (.list vs, rest')
    | '\x7b' :: rest =>
      match room, skipGap rest with
      | 0, _ => .error .tooDeep
      | _, '\x7d' :: rest' => .ok (.object [], rest')
      | room + 1, first => do
        let (fs, rest') ← members budget room first
        return (.object (Table.ofPairs fs), rest')
    | _ =>
      match literal? cs with
      | some found => .ok found
      | none =>
        match cs with
        | '-' :: rest => wellFormed (number? true rest)
        | _ => wellFormed (number? false cs)

/-- The items of a list up to its closing bracket, and the rest. -/
def items : Nat → Nat → List Char → Except Refusal (List Value × List Char)
  | 0, _, _ => .error .malformed
  | budget + 1, room, cs => do
    let (v, rest) ← value budget room cs
    match skipGap rest with
    | ',' :: more =>
      let (vs, rest') ← items budget room (skipGap more)
      return (v :: vs, rest')
    | ']' :: rest' => return ([v], rest')
    | _ => throw .malformed

/-- The fields of an object up to its closing bracket, and the rest. -/
def members : Nat → Nat → List Char → Except Refusal (List (String × Value) × List Char)
  | 0, _, _ => .error .malformed
  | budget + 1, room, cs =>
    match cs with
    | '"' :: quoted => do
      let (key, rest) ← wellFormed (chars? (quoted.length + 1) [] quoted)
      match skipGap rest with
      | ':' :: more =>
        let (v, rest') ← value budget room (skipGap more)
        match skipGap rest' with
        | ',' :: more' =>
          let (fs, rest'') ← members budget room (skipGap more')
          return ((key, v) :: fs, rest'')
        | '\x7d' :: rest'' => return ([(key, v)], rest'')
        | _ => throw .malformed
      | _ => throw .malformed
    | _ => .error .malformed

end

/-- The value of a JSON text. -/
def read (s : String) : Except Refusal Value := do
  let cs := skipGap s.toList
  let (v, rest) ← value (2 * cs.length + 2) deepest cs
  if (skipGap rest).isEmpty then return v else throw .malformed

end Json

end HerdBook
