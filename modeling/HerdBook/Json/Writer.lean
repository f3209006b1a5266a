import HerdBook.Number.Decimal
import HerdBook.Text.Quoted
import HerdBook.Value.Text

/-!
# Writing JSON

The JSON text of a value on one line, with a blank after each comma and colon and characters
beyond ASCII written as they are. Tuples are written as lists. What JSON has no form for, a symbol
or the placeholder, is written as its text.
-/

namespace HerdBook

namespace Json

/-- One character between double quotes. -/
def escape (c : Char) : List Char :=
  match c with
  | '"' => ['\\', '"']
  | '\\' => ['\\', '\\']
  | '\n' => ['\\', 'n']
  | '\r' => ['\\', 'r']
  | '\t' => ['\\', 't']
  | '\x08' => ['\\', 'b']
  | '\x0c' => ['\\', 'f']
  | c => if c.toNat < 0x20 then '\\' :: 'u' :: Quoted.hex 4 c.toNat else [c]

/-- A text in double quotes. -/
def writeText (s : String) : String :=
  String.ofList ('"' :: (s.toList.flatMap escape ++ ['"']))

/-- A number with a fraction or an exponent. -/
def writeFloat : Binary64 → String
  | .nan => "NaN"
  | .infinite negative => Binary64.signText negative ++ "Infinity"
  | x => x.text

mutual

/-- The JSON text of a value. -/
def write : Value → String
  | .null => "null"
  | .bool b => if b then "true" else "false"
  | .int n => toString n
  | .float x => writeFloat x
  | .str s => writeText s
  | .list items => "[" ++ ", ".intercalate (writeItems items) ++ "]"
  | .tuple items => "[" ++ ", ".intercalate (writeItems items) ++ "]"
  | .object fields => "\x7b" ++ ", ".intercalate (writeFields fields) ++ "\x7d"
  | .symbol s => writeText s.text
  | .notApplicable => writeText "NA"

/-- The JSON texts of the items of a list. -/
def writeItems : List Value → List String
  | [] => []
  | v :: vs => write v :: writeItems vs

/-- The JSON texts of the fields of an object. -/
def writeFields : List (String × Value) → List String
  | [] => []
  | (k, v) :: rest => (writeText k ++ ": " ++ write v) :: writeFields rest

end

end Json

end HerdBook
