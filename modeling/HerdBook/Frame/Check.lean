import HerdBook.Frame.Basic

/-!
# Checks on frames

The three questions that rules ask about the symbols of a frame: whether a symbol holds a real
value, whether it holds the placeholder, and whether symbols are bound at all. The first two are
faults when the symbol is not bound.
-/

namespace HerdBook

/-- A question about the symbols of a frame. -/
inductive Check where
  /-- The symbol holds a real value. -/
  | applicable (s : Symbol)
  /-- The symbol holds the placeholder. -/
  | inapplicable (s : Symbol)
  /-- All symbols are bound. -/
  | bound (symbols : List Symbol)
  deriving DecidableEq, Inhabited

namespace Check

/-- The answer to the question. -/
def holds (frame : Frame) : Check → Except Fault Bool
  | .applicable s => do return !(← frame.read s).isNotApplicable
  | .inapplicable s => do return (← frame.read s).isNotApplicable
  | .bound symbols => .ok (symbols.all frame.binds)

/-- The name of the question in messages. -/
def name : Check → String
  | .applicable s => "applicable(" ++ s.text ++ ")"
  | .inapplicable s => "inapplicable(" ++ s.text ++ ")"
  | .bound symbols => "bound(" ++ ", ".intercalate (symbols.map Symbol.text) ++ ")"

end Check

end HerdBook
