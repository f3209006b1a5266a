import HerdBook.Fault
import HerdBook.Number.Numeral
import HerdBook.Text.Word
import HerdBook.Value.Whole

/-!
# Arguments of kinds

The kind of an open part of a route may have arguments in parentheses, as in `int(min=1)`: values
that each end with a comma, of which each may have the name of a parameter in front of it. The last
comma may be left out.

A value is a text in quotes, a word, or a number with any character between its digits. What says
`None`, `True`, `False` or a number is that, and anything else a text; so `1,2` is one text. What
stands after the last argument is ignored, but nothing may stand between two of them.
-/

namespace HerdBook

/-- An argument of a kind, with the name in front of it. -/
abbrev KindArg := Option String × Value

namespace KindArg

/-! ### Reading -/

/-- The value that is written without quotes. -/
def ofPlain (cs : List Char) : Value :=
  match String.ofList cs with
  | "None" => .null
  | "True" => .bool true
  | "False" => .bool false
  | s =>
    match Numeral.anyWhole? cs, Numeral.anyReal? cs with
    | some n, _ => .int n
    | none, some x => .float x
    | none, none => .str s

/-- What follows the comma that ends an argument. -/
def closed? (cs : List Char) : Option (List Char) :=
  match cs.dropWhile isBlank with
  | ',' :: rest => some rest
  | _ => none

/-- The value written with the first characters of a text, the longest of the given number that a
comma follows, and what follows the comma. -/
def longest? (cs : List Char) : Nat → Option (Value × List Char)
  | 0 => none
  | n + 1 =>
    ((closed? (cs.drop (n + 1))).map fun rest => (ofPlain (cs.take (n + 1)), rest)).orElse
      fun _ => longest? cs n

/-- The number of digits at the beginning of a text. -/
def digitCount (cs : List Char) : Nat := (cs.takeWhile Digit.isDecimal).length

/-- A value of digits, another character and digits again, with as many digits at first as
possible, at most the given number. -/
def divided? (cs : List Char) : Nat → Option (Value × List Char)
  | 0 => none
  | n + 1 =>
    let mark := cs[n + 1]?
    let more := digitCount (cs.drop (n + 2))
    let found := ((List.range more).reverse.findSome? fun m =>
      (closed? (cs.drop (n + m + 3))).map fun rest => (ofPlain (cs.take (n + m + 3)), rest))
    (if mark.any (· != '\n') then found else none).orElse fun _ => divided? cs n

/-- A value of digits and another character, with as many digits as possible, at most the given
number. -/
def ended? (cs : List Char) : Nat → Option (Value × List Char)
  | 0 => none
  | n + 1 =>
    let found := (closed? (cs.drop (n + 2))).map fun rest => (ofPlain (cs.take (n + 2)), rest)
    (if cs[n + 1]?.any (· != '\n') then found else none).orElse fun _ => ended? cs n

/-- A text between quotes, and what follows the comma after it. -/
def quoted? : List Char → Option (Value × List Char)
  | [] => none
  | quote :: cs =>
    let inner := cs.takeWhile (· != quote)
    if quote == '"' || quote == '\'' then
      (closed? (cs.drop (inner.length + 1))).map fun rest => (.str (String.ofList inner), rest)
    else none

/-- An argument without a name, and what follows its comma. -/
def unnamed? (cs : List Char) : Option (Value × List Char) :=
  let digits := digitCount cs
  let word := (cs.takeWhile fun c => isWordChar c || c == '.').length
  let marked := cs.head?.any fun c => ['u', 'r', 'U', 'R'].contains c
  (divided? cs digits).orElse fun _ => (ended? cs digits).orElse fun _ =>
    (longest? cs word).orElse fun _ => quoted? (if marked then cs.drop 1 else cs)

/-- An argument with a name in front of it, and what follows its comma. -/
def named? (cs : List Char) : Option (KindArg × List Char) :=
  let name := cs.takeWhile isWordChar
  match (cs.drop name.length).dropWhile isBlank with
  | '=' :: rest =>
    if name.isEmpty then none
    else (unnamed? (rest.dropWhile isBlank)).map fun found =>
      ((some (String.ofList name), found.1), found.2)
  | _ => none

/-- The argument at the beginning, and what follows its comma. -/
def first? (cs : List Char) : Option (KindArg × List Char) :=
  let cs := cs.dropWhile isBlank
  (named? cs).orElse fun _ => (unnamed? cs).map fun found => ((none, found.1), found.2)

/-- Whether an argument is found further on in a text. -/
def isAhead : List Char → Bool
  | [] => false
  | _ :: cs => (first? cs).isSome || isAhead cs

/-- The arguments in a text that ends with a comma. What is no argument may only stand after the
last one. The first argument bounds the number of arguments. -/
def readAll : Nat → List Char → Except Misuse (List KindArg)
  | 0, _ => .ok []
  | bound + 1, cs =>
    match first? cs with
    | some (arg, rest) => do return arg :: (← readAll bound rest)
    | none => if isAhead cs then .error .value else .ok []

/-- The arguments in a text. -/
def ofText (cs : List Char) : Except Misuse (List KindArg) :=
  readAll (cs.length + 1) (cs ++ [','])

/-! ### Use -/

/-- The arguments by parameter: those without a name in the order of the parameters, the others by
their names. There must be a parameter for each. -/
def arranged (parameters : List String) (args : List KindArg) :
    Except Misuse (String → Option Value) := do
  let plain := (args.filter (·.1.isNone)).map (·.2)
  let named := args.filterMap fun arg => arg.1.map fun name => (name, arg.2)
  let free := parameters.drop plain.length
  if parameters.length < plain.length ∨ ¬ named.all fun arg => free.contains arg.1 then throw .type
  else
    let given := parameters.zip plain ++ named.reverse
    return fun parameter => (given.find? fun arg => arg.1 == parameter).map (·.2)

/-- The whole number that an argument says; a fraction is cut off. -/
def whole : Value → Except Misuse Int
  | .str s =>
    match Numeral.anyWhole? s.toList with
    | some n => .ok n
    | none => .error .value
  | v => v.truncated

/-- The text that an argument is; no other one can be a text to choose from. -/
def textual : Value → Except Misuse String
  | .str s => .ok s
  | _ => .error .type

end KindArg

end HerdBook
