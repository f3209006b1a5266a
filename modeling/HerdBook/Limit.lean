import HerdBook.Number.Decimal
import HerdBook.Value.Equality

/-!
# Limits

How much there may be of something. A limit is a count; but it is taken as it is given, so it may
also be a number that counts nothing (`Limit.measure`), or no number at all (`Limit.unknown`). What
such a limit cannot tell is `none`.
-/

namespace HerdBook

/-- A limit of how much there may be. -/
inductive Limit where
  | count (n : Int)
  /-- A number that is no count: what is beyond it cannot be counted off. -/
  | measure (x : Binary64)
  /-- No number at all: nothing can be compared with it. -/
  | unknown
  deriving DecidableEq, Inhabited

namespace Limit

/-- The limit that a value stands for. -/
def of : Value → Limit
  | .int n => .count n
  | .bool b => .count (if b then 1 else 0)
  | .float x => .measure x
  | _ => .unknown

/-- The limit in words. -/
def text : Limit → String
  | .count n => toString n
  | .measure x => x.text
  | .unknown => ""

/-- Whether so many things reach the limit. -/
def isReached (size : Nat) : Limit → Option Bool
  | .count n => some (n ≤ size)
  | .measure x => some (x.amount.less (.exact size) || x.amount.same (.exact size))
  | .unknown => none

/-- The number of things beyond the limit. -/
def excess (size : Nat) : Limit → Option Nat
  | .count n => some (size - n).toNat
  | .measure x => if x.amount.less (.exact size) then none else some 0
  | .unknown => none

/-- A number of things that no limit without a bound is expected to reach. -/
def boundless : Nat := 1000000000000

/-- The number of things that can still be begun under the limit, or more. -/
def room (size : Nat) : Limit → Nat
  | .count n => (n - size).toNat
  | .measure x =>
    match x.toRat? with
    | some q => (q.ceil - size).toNat
    | none => boundless
  | .unknown => 0

/-- A count is reached when there is no room left. -/
theorem isReached_count (size : Nat) (n : Int) :
    isReached size (.count n) = some (decide (room size (.count n) = 0)) := by
  refine congrArg some (decide_eq_decide.2 ?_)
  simp only [room]
  omega

end Limit

end HerdBook
