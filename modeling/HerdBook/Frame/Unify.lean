import HerdBook.Frame.Basic
import HerdBook.Value.Contents

/-!
# Unifying a pattern with data

A pattern names fields; for each it holds a literal, which the data must match, or a symbol, which
binds to the datum at first sight and must agree with it afterwards. The placeholder as a literal
matches a field that is absent or holds the placeholder. An absent field is a mismatch, except
that a pattern in lenient position leaves the symbol of an absent field unbound.

`Frame.unify?` is for a pattern and data that are objects, as they are in every rule that is written
by hand. `Frame.unifyValue?` is for any two values: only an object can be a pattern, and data of
another kind can at most be asked whether they contain a field.
-/

namespace HerdBook

/-- Whether every field of a pattern must be present in the data, or symbols may go without. -/
inductive Presence where
  | required
  | optional
  deriving DecidableEq, Inhabited

namespace Presence

/-- Whether the pattern's entry for an absent field is satisfied. -/
def allowsAbsent : Presence → Value → Bool
  | _, .notApplicable => true
  | .optional, .symbol _ => true
  | _, _ => false

end Presence

namespace Frame

/-- One field of a pattern against the datum found for it: the bindings made so far with the new
one, or `none` on a mismatch. -/
def unifyDatum (frame : Frame) (made : List (Symbol × Value)) (want got : Value) :
    Option (List (Symbol × Value)) :=
  match want with
  | .symbol s =>
    match (frame.get? s).or (Table.get? s made) with
    | some known => if known.same got then some made else none
    | none => some (made ++ [(s, got)])
  | literal => if literal.same got then some made else none

/-- The bindings that a pattern makes on the data beyond those made so far. -/
def unifyFields (frame : Frame) (presence : Presence) (data : Fields) :
    Fields → List (Symbol × Value) → Option (List (Symbol × Value))
  | [], made => some made
  | (field, want) :: rest, made =>
    match Table.get? field data with
    | none => if presence.allowsAbsent want then unifyFields frame presence data rest made else none
    | some got => (unifyDatum frame made want got).bind (unifyFields frame presence data rest)

/-- The frame extended so that the pattern matches the data, or `none` when it does not. -/
def unify? (frame : Frame) (presence : Presence) (pattern data : Fields) : Option Frame :=
  (frame.unifyFields presence data pattern []).map frame.extend

/-- Whether a pattern is satisfied by data that are no object: they must lack each field, and the
pattern must allow that. A field that they contain cannot be taken from them. -/
def isSatisfiedWithout (presence : Presence) (data : Value) : Fields → Except Misuse Bool
  | [] => .ok true
  | (field, want) :: rest => do
    if ← data.contains (.str field) then throw .type
    if presence.allowsAbsent want then isSatisfiedWithout presence data rest else return false

/-- The frame extended so that the pattern matches the data, whatever kinds of values they are. -/
def unifyValue? (frame : Frame) (presence : Presence) (pattern data : Value) :
    Except Misuse (Option Frame) :=
  match pattern, data with
  | .object fields, .object found => .ok (frame.unify? presence fields found)
  | .object fields, found => do
    return if ← isSatisfiedWithout presence found fields then some frame else none
  | _, _ => .error .attribute

end Frame

end HerdBook
