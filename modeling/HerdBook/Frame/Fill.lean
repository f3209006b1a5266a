import HerdBook.Frame.Basic

/-!
# Filling templates

A template is a value with symbols in it. Filling it replaces each symbol by the value it is bound
to; the values put in are not searched for symbols again. It fails at the first symbol, from left
to right, that is not bound or holds the placeholder. Tuples become lists.
-/

namespace HerdBook

/-- The value of a symbol where a real value is needed. -/
def Frame.use (frame : Frame) (s : Symbol) : Except Fault Value := do
  let v ← frame.read s
  if v.isNotApplicable then .error (.inapplicable s.text) else .ok v

namespace Value

mutual

/-- The template with its symbols replaced. -/
def fill (frame : Frame) : Value → Except Fault Value
  | .symbol s => frame.use s
  | .object fields => (fillFields frame fields).map .object
  | .list items => (fillItems frame items).map .list
  | .tuple items => (fillItems frame items).map .list
  | v => .ok v

/-- The templates of a list with their symbols replaced, in order. -/
def fillItems (frame : Frame) : List Value → Except Fault (List Value)
  | [] => .ok []
  | v :: vs => do
    let w ← fill frame v
    let ws ← fillItems frame vs
    return w :: ws

/-- The templates of the fields with their symbols replaced, in order. -/
def fillFields (frame : Frame) : List (String × Value) → Except Fault (List (String × Value))
  | [] => .ok []
  | (k, v) :: rest => do
    let w ← fill frame v
    let ws ← fillFields frame rest
    return (k, w) :: ws

end

end Value

end HerdBook
