import HerdBook.Value.Contents

/-!
# Templates of answers

What a scripted action or adapter answers: a written value in which parts may be taken from the
arguments of the call, or be the number of calls so far.
-/

namespace HerdBook

/-- A template of an answer. -/
inductive Template where
  | value (v : Value)
  /-- The argument of that name. -/
  | argument (name : Value)
  /-- The argument of that name, plus one. -/
  | successor (name : Value)
  /-- All arguments. -/
  | arguments
  /-- The number of calls, this one included. -/
  | calls
  | list (items : List Template)
  | object (fields : List (String × Template))
  deriving Inhabited

namespace Template

/-- A number plus one. -/
def plusOne : Value → Except Misuse Value
  | .bool b => .ok (.int (if b then 2 else 1))
  | .int n => .ok (.int (n + 1))
  | .float x => .ok (.float (x.add (.ofInt 1)))
  | _ => .error .type

/-- The argument of a name. -/
def argumentOf (args name : Value) : Except Misuse Value :=
  match name with
  | .str name => args.field name
  | name => if args.fields?.isSome && name.hashable then .error .key else .error .type

mutual

/-- The answer to a call with the arguments, the given one in number. -/
def fill (args : Value) (count : Nat) : Template → Except Misuse Value
  | .value v => .ok v
  | .argument name => argumentOf args name
  | .successor name => do plusOne (← argumentOf args name)
  | .arguments => .ok args
  | .calls => .ok (.int count)
  | .list items => do return .list (← fillItems args count items)
  | .object fields => do return .object (← fillFields args count fields)

/-- The parts of a list, in order. -/
def fillItems (args : Value) (count : Nat) : List Template → Except Misuse (List Value)
  | [] => .ok []
  | t :: ts => do
    let v ← fill args count t
    let vs ← fillItems args count ts
    return v :: vs

/-- The parts of an object, in order. -/
def fillFields (args : Value) (count : Nat) :
    List (String × Template) → Except Misuse (List (String × Value))
  | [] => .ok []
  | (k, t) :: rest => do
    let v ← fill args count t
    let others ← fillFields args count rest
    return (k, v) :: others

end

end Template

end HerdBook
