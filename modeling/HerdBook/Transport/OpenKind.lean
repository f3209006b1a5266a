import HerdBook.Transport.KindArg
import HerdBook.Value.Equality

/-!
# Open parts

What may stand for an open part of a route. A kind is written as a word, which may have arguments
in parentheses after it, as in `int(min=1)`.

* `OpenKind.ofWord` reads a kind from its word and its arguments.
* `OpenKind.isSound` says whether anything can be tested against it at all.
* `OpenKind.accepts` says which texts have the form of a kind.
* `OpenKind.admits` says which of them are within the bounds that the kind sets.
-/

namespace HerdBook

/-- A number as it may stand for an open part. -/
structure NumberForm where
  /-- Whether it has digits after a point. -/
  fractional : Bool
  /-- Whether it may have a minus sign. -/
  signed : Bool
  /-- The number of characters it has; what counts as false leaves that open. -/
  length : Value
  /-- The least value; null leaves that open. -/
  least : Value
  /-- The greatest value; null leaves that open. -/
  most : Value
  deriving Inhabited

/-- What may stand for an open part of a route. -/
inductive OpenKind where
  /-- A piece of a segment, of a length within bounds. -/
  | segment (least : Int) (most : Option Int)
  /-- One character of a segment with a text after it. -/
  | marked (ending : String)
  /-- Segments with slashes between them. -/
  | path
  | number (form : NumberForm)
  /-- A universally unique identifier. -/
  | identifier
  | oneOf (texts : List String)
  deriving Inhabited

namespace NumberForm

/-- The digits of a number before and after its point, and whether it has a minus sign. -/
def parts (cs : List Char) : Bool × List Char × List Char :=
  let negative := cs.head? == some '-'
  let body := if negative then cs.drop 1 else cs
  let whole := body.takeWhile Digit.isDecimal
  (negative, whole, body.drop whole.length)

/-- Whether a text is written like the numbers of a form. -/
def accepts (form : NumberForm) (cs : List Char) : Bool :=
  let (negative, whole, rest) := parts cs
  let places := rest.drop 1
  (form.signed || !negative) && !whole.isEmpty &&
    if form.fractional then
      rest.head? == some '.' && !places.isEmpty && places.all Digit.isDecimal
    else rest.isEmpty

/-- The number that a text writes; a whole number has a limit of its digits. -/
def read (form : NumberForm) (cs : List Char) : Except Misuse Value :=
  if form.fractional then
    match Numeral.anyReal? cs with
    | some x => .ok (.float x)
    | none => .error .value
  else
    match Numeral.anyWhole? cs with
    | some n => .ok (.int n)
    | none => .error .value

/-- Whether a value is less than another one, which may leave that open. -/
def isBelow (v bound : Value) : Except Misuse Bool :=
  if v.isNull || bound.isNull then .ok false
  else match v.less? bound with
    | some below => .ok below
    | none => .error .type

/-- Whether a number has the length of a form and is within its bounds. -/
def admits (form : NumberForm) (cs : List Char) : Except Misuse Bool := do
  if form.length.truthy && !(Value.int cs.length).same form.length then return false
  let v ← form.read cs
  if ← isBelow v form.least then return false
  return !(← isBelow form.most v)

/-- The form of numbers that arguments describe. -/
def ofArgs (fractional : Bool) (args : List KindArg) : Except Misuse NumberForm := do
  let parameters := ["min", "max", "signed"]
  let given ← KindArg.arranged
    (if fractional then parameters else "fixed_digits" :: parameters) args
  return {
    fractional
    signed := (given "signed").any Value.truthy
    length := (given "fixed_digits").getD .null
    least := (given "min").getD .null
    most := (given "max").getD .null }

end NumberForm

namespace OpenKind

/-- The first number that is too large for a length. -/
def lengthLimit : Int := 0xFFFFFFFF

/-- Whether a text can be tested against a kind: the bounds of a length must be in order and not
too large. -/
def isSound : OpenKind → Bool
  | .segment least most =>
    least < lengthLimit && most.all fun most => least ≤ most && most < lengthLimit
  | _ => true

/-- Whether a text has groups of hexadecimal digits of the given lengths, joined by hyphens. -/
def hasGroups : List Nat → List Char → Bool
  | [], cs => cs.isEmpty
  | [n], cs => cs.length == n && cs.all Digit.isHex
  | n :: rest, cs =>
    (cs.take n).length == n && (cs.take n).all Digit.isHex && cs[n]? == some '-'
      && hasGroups rest (cs.drop (n + 1))

/-- Whether a text has the form of a kind. -/
def accepts (kind : OpenKind) (cs : List Char) : Bool :=
  match kind with
  | .segment least most =>
    least ≤ cs.length && most.all ((cs.length : Int) ≤ ·) && cs.all (· != '/')
  | .marked ending => cs.head?.any (· != '/') && cs.drop 1 == ending.toList
  | .path => cs.head?.any (· != '/') && (cs.drop 1).all (· != '\n')
  | .number form => form.accepts cs
  | .identifier => hasGroups [8, 4, 4, 4, 12] cs
  | .oneOf texts => texts.contains (String.ofList cs) && cs.all (· != '/')

/-- Whether a text that has the form of a kind may stand for it. -/
def admits (kind : OpenKind) (cs : List Char) : Except Misuse Bool :=
  match kind with
  | .number form => form.admits cs
  | _ => .ok true

/-- The kind of segments with a length within bounds, which are written in braces. Braces with a
negative bound in them say nothing about a length and stand for themselves. -/
def ofBounds (least : Int) (most : Option Int) (written : String) : OpenKind :=
  if least < 0 || most.any (· < 0) then .marked ("\x7b" ++ written ++ "\x7d")
  else .segment least most

/-- The segments whose length arguments describe. -/
def segmentOf (args : List KindArg) : Except Misuse OpenKind := do
  let given ← KindArg.arranged ["minlength", "maxlength", "length"] args
  match (given "length").getD .null with
  | .null =>
    let most ← match (given "maxlength").getD .null with
      | .null => pure none
      | most => some <$> KindArg.whole most
    let least ← KindArg.whole ((given "minlength").getD (.int 1))
    return ofBounds least most (toString least ++ "," ++ (most.map toString).getD "")
  | length =>
    let length ← KindArg.whole length
    return ofBounds length (some length) (toString length)

/-- The kind with a word and arguments. -/
def ofWord (word : String) (args : List KindArg) : Except Misuse OpenKind :=
  match word with
  | "default" | "string" => segmentOf args
  | "path" => .ok .path
  | "int" => (NumberForm.ofArgs false args).map .number
  | "float" => (NumberForm.ofArgs true args).map .number
  | "uuid" => .ok .identifier
  | "any" => do
    let _ ← KindArg.arranged (List.replicate args.length "") args
    let texts ← args.mapM fun arg => KindArg.textual arg.2
    return .oneOf (if texts.isEmpty then [""] else texts)
  | _ => .error .lookup

end OpenKind

end HerdBook
