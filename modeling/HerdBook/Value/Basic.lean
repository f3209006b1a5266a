import HerdBook.Number.Binary64
import HerdBook.Symbol
import HerdBook.Table

/-!
# Values

The data that actions, rules and adapters exchange: what JSON can express, tuples beside lists,
symbols, and the placeholder `notApplicable` for the branch of an outcome that does not apply to
a row. An object keeps its fields in the order in which they were first set.
-/

namespace HerdBook

/-- A value. -/
inductive Value where
  | null
  | bool (b : Bool)
  | int (n : Int)
  | float (x : Binary64)
  | str (s : String)
  | list (items : List Value)
  | tuple (items : List Value)
  | object (fields : List (String × Value))
  | symbol (s : Symbol)
  | notApplicable
  deriving Inhabited

/-- Named values in order: the arguments of an action, a result, a row, a document. -/
abbrev Fields := List (String × Value)

namespace Value

/-- The fields of an object. -/
def fields? : Value → Option Fields
  | .object fields => some fields
  | _ => none

/-- The items of a list or a tuple. -/
def items? : Value → Option (List Value)
  | .list items => some items
  | .tuple items => some items
  | _ => none

/-- Whether the value is the placeholder of a branch that does not apply. -/
def isNotApplicable : Value → Bool
  | .notApplicable => true
  | _ => false

/-- Whether the value is the absent one. -/
def isNull : Value → Bool
  | .null => true
  | _ => false

/-- Whether the value counts as true: every value does but zero, the empty text and collections,
the absent value and the placeholder. -/
def truthy : Value → Bool
  | .null => false
  | .bool b => b
  | .int n => n != 0
  | .float x => !x.isZero
  | .str s => s != ""
  | .list items => !items.isEmpty
  | .tuple items => !items.isEmpty
  | .object fields => !fields.isEmpty
  | .symbol _ => true
  | .notApplicable => false

/-- The value itself when it counts as true, else the other one. -/
def orElse (v other : Value) : Value := if v.truthy then v else other

mutual

/-- Whether the value can be a key or a member of a set: lists and objects cannot, nor a tuple
that holds one. -/
def hashable : Value → Bool
  | .list _ => false
  | .object _ => false
  | .tuple items => allHashable items
  | _ => true

/-- Whether each of the values can be a key. -/
def allHashable : List Value → Bool
  | [] => true
  | v :: vs => hashable v && allHashable vs

end

mutual

/-- How many collections are nested in each other in a value, at its deepest place. -/
def levels : Value → Nat
  | .list items => levelsOfItems items + 1
  | .tuple items => levelsOfItems items + 1
  | .object fields => levelsOfFields fields + 1
  | _ => 0

/-- The levels of the deepest of the values. -/
def levelsOfItems : List Value → Nat
  | [] => 0
  | v :: vs => max (levels v) (levelsOfItems vs)

/-- The levels of the deepest of the fields. -/
def levelsOfFields : List (String × Value) → Nat
  | [] => 0
  | (_, v) :: rest => max (levels v) (levelsOfFields rest)

end

/-- How many collections may be nested in each other in a value that is worked through from the
outside to the inside, to read it or to copy it. -/
def deepest : Nat := 490

end Value

end HerdBook
