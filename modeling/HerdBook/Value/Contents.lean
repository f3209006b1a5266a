import HerdBook.Fault
import HerdBook.Value.Equality

/-!
# What values hold

The questions that make sense for some kinds of values alone: what a value consists of
(`Value.elements`), whether it contains another (`Value.contains`), what it has under a name
(`Value.field`) or a key (`Value.under`), and which fields it makes (`Value.toFields`). For the
other kinds they are a misuse.
-/

namespace HerdBook

namespace Value

/-- The value as a list of items to go through: the items of a collection, the keys of an object,
the characters of a text. -/
def elements : Value → Except Misuse (List Value)
  | .list items => .ok items
  | .tuple items => .ok items
  | .object fields => .ok (fields.map fun entry => .str entry.1)
  | .str s => .ok ((Half.codes s).map fun n => .str (Half.ofCodes [n]))
  | _ => .error .type

/-- Whether `needle` occurs in `ns`. -/
def occursIn (needle : List Nat) : List Nat → Bool
  | [] => needle.isEmpty
  | n :: ns => needle.isPrefixOf (n :: ns) || occursIn needle ns

/-- Whether a value contains another: a collection an item, an object a key, a text a part. -/
def contains (container v : Value) : Except Misuse Bool :=
  match container with
  | .list items => .ok (v.isIn items)
  | .tuple items => .ok (v.isIn items)
  | .object fields =>
    if v.hashable then .ok (fields.any fun entry => (Value.str entry.1).same v)
    else .error .type
  | .str s =>
    match v with
    | .str part => .ok (occursIn (Half.codes part) (Half.codes s))
    | _ => .error .type
  | _ => .error .type

/-- What a value has under a name, which only an object can have. -/
def field (v : Value) (name : String) : Except Misuse Value :=
  match v with
  | .object fields =>
    match Table.get? name fields with
    | some found => .ok found
    | none => .error .key
  | _ => .error .type

/-- What an object has under a key; null when it has nothing. -/
def under (v key : Value) : Except Misuse Value :=
  match v, key with
  | .object fields, .str name => .ok ((Table.get? name fields).getD .null)
  | .object _, key => if key.hashable then .ok .null else .error .type
  | _, _ => .error .attribute

/-- The name and the value that an element of a list of fields stands for: a pair whose first item
is a text. -/
def asField (element : Value) : Except Misuse (String × Value) := do
  match ← element.elements with
  | [.str name, v] => return (name, v)
  | [_, _] => throw .type
  | _ => throw .value

/-- The fields that a value makes: those of an object, or those that are listed in pairs. -/
def toFields (v : Value) : Except Misuse Fields :=
  match v with
  | .object fields => .ok fields
  | v => do return Table.ofPairs (← (← v.elements).mapM asField)

end Value

end HerdBook
