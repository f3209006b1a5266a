import HerdBook.Value.Equality

/-!
# Patience

How long somebody is ready to wait, as told by a limit in seconds (`Patience.ofSeconds`), and what
is left of it for work in progress (`TimeLeft`). A limit that is over before others had a turn is a
moment: whatever can be done without a wait is still done within it.
-/

namespace HerdBook

/-- How long somebody is ready to wait. -/
inductive Patience where
  /-- Not at all: nothing is begun. -/
  | none
  /-- Until the others had a turn. -/
  | moment
  | seconds (q : Rat)
  | endless
  deriving Inhabited

namespace Patience

/-- The longest time, in seconds, that is over when the others had a turn. -/
def longestMoment : Rat := 1 / 10000

/-- The patience that a limit of seconds stands for. A limit that is no number is never ahead, so it
is over in a moment. -/
def ofSeconds : Amount → Patience
  | .exact q => if q ≤ 0 then .none else if q ≤ longestMoment then .moment else .seconds q
  | .infinite negative => if negative then .none else .endless
  | .nan => .moment

/-- There is no patience exactly for a limit of zero or less. -/
theorem ofSeconds_exact_eq_none_iff (q : Rat) : ofSeconds (.exact q) = .none ↔ q ≤ 0 := by
  simp only [ofSeconds]
  split
  case isTrue h => simp [h]
  case isFalse h => split <;> simp [h]

end Patience

/-- The time that is left for work in progress. -/
inductive TimeLeft where
  /-- Enough for all that the work waits for. -/
  | ample
  /-- Enough for what is done without a wait, and for a turn of the others. -/
  | moment
  /-- None: the work ends where it waits. -/
  | over
  deriving DecidableEq, Inhabited

/-- The time that is left after a turn of the others. -/
def TimeLeft.afterTurn : TimeLeft → TimeLeft
  | .ample => .ample
  | _ => .over

end HerdBook
