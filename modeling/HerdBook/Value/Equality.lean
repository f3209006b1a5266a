import HerdBook.Text.Half
import HerdBook.Value.Basic

/-!
# Equality and order of values

Two values are the same when they denote the same thing, whatever they are written as: numbers
are compared as exact quantities, so that `true`, `1` and `1.0` are one value; lists and tuples
item by item, but never a list with a tuple; objects field by field, in any order. What is no
number is not the same as itself, but inside a collection it counts as the same item
(`Value.sameItem`). The order relates two numbers, two texts (by code point), or two lists or two
tuples (at their first difference); other values have none.
-/

namespace HerdBook

/-- The quantity a number denotes. -/
inductive Amount where
  | exact (q : Rat)
  | infinite (negative : Bool)
  | nan

namespace Amount

/-- Equality of quantities; what is no number equals nothing. -/
def same : Amount → Amount → Bool
  | .exact a, .exact b => a == b
  | .infinite a, .infinite b => a == b
  | _, _ => false

/-- The strict order of quantities. -/
def less : Amount → Amount → Bool
  | .exact a, .exact b => a < b
  | .exact _, .infinite negative => !negative
  | .infinite negative, .exact _ => negative
  | .infinite a, .infinite b => a && !b
  | _, _ => false

end Amount

/-- The quantity of a double-precision number. -/
def Binary64.amount (x : Binary64) : Amount :=
  match x, x.toRat? with
  | .infinite negative, _ => .infinite negative
  | _, some q => .exact q
  | _, none => .nan

namespace Value

/-- The quantity of a number; truth values count as 0 and 1. -/
def amount? : Value → Option Amount
  | .bool b => some (.exact (if b then 1 else 0))
  | .int n => some (.exact n)
  | .float x => some x.amount
  | _ => none

/-- Whether both values are numbers of one quantity. -/
def sameAmount (v w : Value) : Bool :=
  match v.amount?, w.amount? with
  | some a, some b => a.same b
  | _, _ => false

/-- Whether a value is the float that is no number. -/
def isNaN : Value → Bool
  | .float .nan => true
  | _ => false

mutual

/-- Whether two values are the same. -/
def same : Value → Value → Bool
  | .null, .null => true
  | .notApplicable, .notApplicable => true
  | .str a, .str b => a == b
  | .symbol a, .symbol b => a == b
  | .list as, .list bs => sameItems as bs
  | .tuple as, .tuple bs => sameItems as bs
  | .object as, .object bs => as.length == bs.length && sameFields as bs
  | v, w => sameAmount v w

/-- Whether two lists have the same values in order. -/
def sameItems : List Value → List Value → Bool
  | [], [] => true
  | a :: as, b :: bs => ((a.isNaN && b.isNaN) || same a b) && sameItems as bs
  | _, _ => false

/-- Whether each field is present among the others with the same value. -/
def sameFields : List (String × Value) → List (String × Value) → Bool
  | [], _ => true
  | (k, a) :: as, bs =>
    (match Table.get? k bs with
      | some b => (a.isNaN && b.isNaN) || same a b
      | none => false) && sameFields as bs

end

/-- Whether two values count as the same item of a collection. -/
def sameItem (v w : Value) : Bool := (v.isNaN && w.isNaN) || v.same w

/-- Whether the list holds a value that counts as the item `v`. -/
def isIn (v : Value) (items : List Value) : Bool := items.any fun item => item.sameItem v

mutual

/-- Whether the first value comes before the second; `none` when the two are not ordered. -/
def less? : Value → Value → Option Bool
  | .str a, .str b => some (Half.codes a < Half.codes b)
  | .list as, .list bs => lessItems? as bs
  | .tuple as, .tuple bs => lessItems? as bs
  | v, w =>
    match v.amount?, w.amount? with
    | some a, some b => some (a.less b)
    | _, _ => none

/-- The order of two sequences: that of the first items that differ, or else of the lengths. -/
def lessItems? : List Value → List Value → Option Bool
  | [], bs => some (!bs.isEmpty)
  | _ :: _, [] => some false
  | a :: as, b :: bs => if sameItem a b then lessItems? as bs else less? a b

end

end Value

end HerdBook
