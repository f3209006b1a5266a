import HerdBook.Frame.Check
import HerdBook.Rule.Stage
import HerdBook.Value.Directives

/-!
# Expressions over a frame

The tests and changes of scripted stages are written as expressions over a frame. Operands are
evaluated from left to right, conjunction and disjunction only as far as needed.
-/

namespace HerdBook

/-- An expression over a frame. -/
inductive Expression where
  | literal (v : Value)
  /-- The value of a symbol, which must be bound. -/
  | get (s : Symbol)
  /-- The value of a symbol, or the given value. -/
  | getD (s : Symbol) (default : Value)
  | binds (s : Symbol)
  | equal (a b : Expression)
  | less (a b : Expression)
  | add (a b : Expression)
  | remainder (a b : Expression)
  | not (a : Expression)
  | all (parts : List Expression)
  | any (parts : List Expression)
  | check (question : Check)
  | raise (fault : Fault)
  deriving Inhabited

namespace Value

/-- A number in double precision; a whole number beyond the range has none. -/
def asReal (v : Value) : Except Fault Binary64 :=
  match v, v.asInteger? with
  | .float x, _ => .ok x
  | _, some n =>
    match Binary64.ofInt n with
    | .infinite _ => .error (.misuse .overflow)
    | x => .ok x
  | _, none => .error (.misuse .type)

/-- Two numbers in double precision. That both are numbers is looked at first. -/
def asReals (v w : Value) : Except Fault (Binary64 × Binary64) := do
  if v.amount?.isNone || w.amount?.isNone then throw (.misuse .type)
  return (← v.asReal, ← w.asReal)

/-- The sum of two numbers, or two texts or sequences one after the other. -/
def plus (v w : Value) : Except Fault Value :=
  match v, w with
  | .str a, .str b => .ok (.str (a ++ b))
  | .list as, .list bs => .ok (.list (as ++ bs))
  | .tuple as, .tuple bs => .ok (.tuple (as ++ bs))
  | v, w =>
    match v.asInteger?, w.asInteger? with
    | some a, some b => .ok (.int (a + b))
    | _, _ => do
      let (x, y) ← asReals v w
      return .float (x.add y)

/-- The remainder of floored division; of a text, the text with its directives filled in. -/
def modulo (v w : Value) : Except Fault Value :=
  match v with
  | .str s => ((Directives.expand s w).map Value.str).mapError .misuse
  | v =>
    match v.asInteger?, w.asInteger? with
    | some a, some b =>
      if b = 0 then .error (.misuse .zeroDivision) else .ok (.int (Int.fmod a b))
    | _, _ => do
      let (x, y) ← asReals v w
      match x.floorMod? y with
      | some r => return .float r
      | none => throw (.misuse .zeroDivision)

end Value

namespace Expression

mutual

/-- The value of an expression on a frame. -/
def eval (frame : Frame) : Expression → Except Fault Value
  | .literal v => .ok v
  | .get s => frame.read s
  | .getD s default => .ok (frame.getD s default)
  | .binds s => .ok (.bool (frame.binds s))
  | .equal a b => do
    let v ← eval frame a
    let w ← eval frame b
    return .bool (v.same w)
  | .less a b => do
    let v ← eval frame a
    let w ← eval frame b
    match v.less? w with
    | some r => return .bool r
    | none => throw (.misuse .type)
  | .add a b => do
    let v ← eval frame a
    let w ← eval frame b
    v.plus w
  | .remainder a b => do
    let v ← eval frame a
    let w ← eval frame b
    v.modulo w
  | .not a => do return .bool !(← eval frame a).truthy
  | .all parts => do return .bool (← evalAll frame parts)
  | .any parts => do return .bool (← evalAny frame parts)
  | .check question => do return .bool (← question.holds frame)
  | .raise fault => .error fault

/-- Whether all parts count as true, up to the first that does not. -/
def evalAll (frame : Frame) : List Expression → Except Fault Bool
  | [] => .ok true
  | e :: es => do
    let v ← eval frame e
    if v.truthy then evalAll frame es else return false

/-- Whether some part counts as true, up to the first that does. -/
def evalAny (frame : Frame) : List Expression → Except Fault Bool
  | [] => .ok false
  | e :: es => do
    let v ← eval frame e
    if v.truthy then return true else evalAny frame es

end

/-- Whether an expression counts as true on a frame. -/
def test (e : Expression) (frame : Frame) : Except Fault Bool := do return (← e.eval frame).truthy

end Expression

/-- A change of a frame. -/
inductive Change where
  /-- Keeps the bindings of some symbols, all when none are named, and then makes new ones from
  expressions on the incoming frame. -/
  | rebind (keep : Option (List Symbol)) (made : List (Symbol × Expression))
  /-- Bindings that are the same for every frame. -/
  | constant (bindings : List (Symbol × Value))
  /-- Something that is no frame. -/
  | invalid
  deriving Inhabited

namespace Change

/-- The frame after bindings are made in order, from expressions on the incoming one. -/
def bindAll (incoming : Frame) : List (Symbol × Expression) → Frame → Except Fault Frame
  | [], frame => .ok frame
  | (s, e) :: rest, frame => do bindAll incoming rest (frame.bind s (← e.eval incoming))

/-- The frame that a change makes. -/
def apply (change : Change) (frame : Frame) : Except Fault Frame :=
  match change with
  | .rebind keep made =>
    let kept :=
      match keep with
      | none => frame
      | some symbols => frame.restrict fun s => symbols.contains s
    bindAll frame made kept
  | .constant bindings => .ok (.ofPairs bindings)
  | .invalid => .error (.misuse .attribute)

end Change

namespace Stage

variable {κ : Type}

/-- The filter by an expression. -/
def filterBy (e : Expression) : Stage κ := .filter e.test

/-- The map by a change. -/
def mapBy (change : Change) : Stage κ := .map change.apply

end Stage

end HerdBook
