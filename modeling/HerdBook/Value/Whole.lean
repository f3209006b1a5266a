import HerdBook.Fault
import HerdBook.Value.Basic

/-!
# Values as whole numbers

What a value is where a whole number is needed: `Value.asInteger?` and `Value.integer` take whole
numbers and truth values alone, `Value.truncated` cuts the fraction of any number off.
-/

namespace HerdBook

namespace Value

/-- A number as a whole number, if it is one; truth values count as 0 and 1. -/
def asInteger? : Value → Option Int
  | .bool b => some (if b then 1 else 0)
  | .int n => some n
  | _ => none

/-- The value as a whole number, which it must be. -/
def integer (v : Value) : Except Misuse Int :=
  match v.asInteger? with
  | some n => .ok n
  | none => .error .type

/-- The value as a whole number; a fraction is cut off. -/
def truncated : Value → Except Misuse Int
  | .float x =>
    match x, x.toRat? with
    | _, some q => .ok (Int.tdiv q.num q.den)
    | .nan, none => .error .value
    | _, none => .error .overflow
  | v => v.integer

end Value

end HerdBook
