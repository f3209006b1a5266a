import HerdBook.Frame.Basic

/-!
# Written values

Scripts are written as JSON, which has no symbols, placeholders and tuples. They are written as
objects with a single field: `$sym` with the label of a symbol, `$na` with anything, and `$tuple`
with a list of items. `Value.ofWritten` reads such a value in the scope of a rule, and
`Value.readWritten` one that may be nested too deeply to be read; `Value.toWritten` writes it. A
frame is written as the list of its bindings, each a label with a value.
-/

namespace HerdBook

namespace Value

mutual

/-- The value that is written, in the scope of a rule. -/
def ofWritten (rule : String) : Value → Value
  | .object [("$sym", .str label)] => .symbol (Symbol.ofLabel rule label)
  | .object [("$na", _)] => .notApplicable
  | .object [("$tuple", .list items)] => .tuple (ofWrittenItems rule items)
  | .object fields => .object (ofWrittenFields rule fields)
  | .list items => .list (ofWrittenItems rule items)
  | v => v

/-- The values that are written, in order. -/
def ofWrittenItems (rule : String) : List Value → List Value
  | [] => []
  | v :: vs => ofWritten rule v :: ofWrittenItems rule vs

/-- The fields that are written, in order. -/
def ofWrittenFields (rule : String) : List (String × Value) → List (String × Value)
  | [] => []
  | (k, v) :: rest => (k, ofWritten rule v) :: ofWrittenFields rule rest

end

/-- The value that is written, in the scope of a rule, unless collections are nested in it too
deeply. -/
def readWritten (rule : String) (v : Value) : Except Fault Value :=
  if v.levels ≤ deepest then .ok (v.ofWritten rule) else .error (.misuse .nesting)

mutual

/-- The value as it is written. -/
def toWritten : Value → Value
  | .symbol s => .object [("$sym", .str s.label)]
  | .notApplicable => .object [("$na", .bool true)]
  | .tuple items => .object [("$tuple", .list (toWrittenItems items))]
  | .list items => .list (toWrittenItems items)
  | .object fields => .object (toWrittenFields fields)
  | v => v

/-- The values as they are written, in order. -/
def toWrittenItems : List Value → List Value
  | [] => []
  | v :: vs => toWritten v :: toWrittenItems vs

/-- The fields as they are written, in order. -/
def toWrittenFields : List (String × Value) → List (String × Value)
  | [] => []
  | (k, v) :: rest => (k, toWritten v) :: toWrittenFields rest

end

end Value

namespace Frame

/-- The binding that is written, in the scope of a rule. -/
def bindingOfWritten (rule : String) (v : Value) : Symbol × Value :=
  match v.items? with
  | some (.str label :: v :: _) => (Symbol.ofLabel rule label, v.ofWritten rule)
  | _ => (Symbol.ofLabel rule "", .null)

/-- The frame that is written, in the scope of a rule. -/
def ofWritten (rule : String) (v : Value) : Frame :=
  .ofPairs ((v.items?.getD []).map (bindingOfWritten rule))

/-- The frame as it is written. A plain word has no label. -/
def toWritten (frame : Frame) : Except Misuse Value := do
  let bindings ← frame.bindings.mapM fun entry =>
    if entry.1.rule.isSome then .ok (Value.list [.str entry.1.label, entry.2.toWritten])
    else .error Misuse.attribute
  return .list bindings

end Frame

end HerdBook
