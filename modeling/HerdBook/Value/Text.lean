import HerdBook.Fault
import HerdBook.Number.Decimal
import HerdBook.Text.Quoted
import HerdBook.Value.Basic

/-!
# The text of a value

How a value is shown inside a message. A text stands for itself at the top and in quotes inside a
collection; the other values are written alike in both places. A whole number of more than
`Value.longestWhole` digits has no text, and neither has a value that holds one.
-/

namespace HerdBook

namespace Value

/-- The name of the kind of a value, as messages give it. -/
def kindName : Value → String
  | .null => "NoneType"
  | .bool _ => "bool"
  | .int _ => "int"
  | .float _ => "float"
  | .str _ => "str"
  | .list _ => "list"
  | .tuple _ => "tuple"
  | .object _ => "dict"
  | .symbol _ => "Symbol"
  | .notApplicable => "_NotApplicable"

/-- A tuple of shown items; a single one is followed by a comma. -/
def tupleText (items : List String) : String :=
  match items with
  | [item] => "(" ++ item ++ ",)"
  | _ => "(" ++ ", ".intercalate items ++ ")"

/-- The number of digits up to which a whole number is written in base ten. -/
def longestWhole : Nat := 4300

/-- The least number that has too many digits. -/
def tooLong : Nat := Nat.pow 10 longestWhole

/-- A whole number in base ten. -/
def wholeText (n : Int) : Except Misuse String :=
  if n.natAbs < tooLong then .ok (toString n) else .error .value

mutual

/-- The value as it is shown inside a collection. -/
def shown : Value → Except Misuse String
  | .null => .ok "None"
  | .bool b => .ok (if b then "True" else "False")
  | .int n => wholeText n
  | .float x => .ok x.text
  | .str s => .ok (quoted s)
  | .list items => do return "[" ++ ", ".intercalate (← shownItems items) ++ "]"
  | .tuple items => do return tupleText (← shownItems items)
  | .object fields => do return "\x7b" ++ ", ".intercalate (← shownFields fields) ++ "\x7d"
  | .symbol s => .ok s.text
  | .notApplicable => .ok "NA"

/-- The items as they are shown inside a collection. -/
def shownItems : List Value → Except Misuse (List String)
  | [] => .ok []
  | v :: vs => do
    let first ← shown v
    let others ← shownItems vs
    return first :: others

/-- The fields as they are shown inside an object. -/
def shownFields : List (String × Value) → Except Misuse (List String)
  | [] => .ok []
  | (k, v) :: rest => do
    let first ← shown v
    let others ← shownFields rest
    return (quoted k ++ ": " ++ first) :: others

end

/-- The value as it is shown on its own. -/
def text : Value → Except Misuse String
  | .str s => .ok s
  | v => v.shown

end Value

end HerdBook
