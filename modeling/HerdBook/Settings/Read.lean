import HerdBook.Fault
import HerdBook.Number.Numeral
import HerdBook.Settings.Basic
import HerdBook.Settings.Source

/-!
# Reading settings

What a source has for a setting is read as what the setting must be. A whole number may also be
written as a text, as a truth value, or as a number without a fraction; a number may be written as a
text. Every setting that cannot be used is reported, in the order of the settings, and after them
the arguments that are no settings.
-/

namespace HerdBook

namespace Settings

/-- Why a setting cannot be used. -/
inductive Problem where
  | wholeText
  | wholeTooLong
  | wholeKind
  | wholeFraction
  | notFinite
  | numberText
  | numberKind
  | textKind
  /-- A text with half of a character in it. -/
  | textBroken
  | tooSmall
  | unknown
  deriving DecidableEq, Inhabited

/-- The name of a problem. -/
def Problem.name : Problem → String
  | .wholeText => "int_parsing"
  | .wholeTooLong => "int_parsing_size"
  | .wholeKind => "int_type"
  | .wholeFraction => "int_from_float"
  | .notFinite => "finite_number"
  | .numberText => "float_parsing"
  | .numberKind => "float_type"
  | .textKind => "string_type"
  | .textBroken => "string_unicode"
  | .tooSmall => "value_error"
  | .unknown => "extra_forbidden"

/-- The words for a problem with a setting, where it has words of its own. -/
def Problem.words? (setting : String) : Problem → Option String
  | .tooSmall => some s!"Value error, {setting} must be at least 1"
  | _ => none

/-! ### Numbers in texts -/

/-- The white space around a number: blank characters but the information separators. -/
def isMargin (c : Char) : Bool := isBlank c && !(0x1C ≤ c.toNat && c.toNat ≤ 0x1F)

/-- A number without the underscores in it; `none` when one is its first or last character or two
stand side by side. -/
def withoutUnderscores? (cs : List Char) : Option (List Char) :=
  let doubled := (cs.zip (cs.drop 1)).any fun pair => pair == ('_', '_')
  if cs.head? == some '_' || cs.getLast? == some '_' || doubled then none
  else some (cs.filter (· != '_'))

/-- The whole number that is written without anything but a minus sign and digits, of which the
first is no zero unless it is alone. -/
def plainWhole (cs : List Char) : Except Problem Int :=
  let negative := cs.head? == some '-'
  let body := if negative then cs.drop 1 else cs
  let run := body.takeWhile Char.isDigit
  if run.isEmpty then .error .wholeText
  else if run.head? == some '0' then if body.length = 1 then .ok 0 else .error .wholeText
  else if Numeral.longestWhole < run.length then .error .wholeTooLong
  else if run.length < body.length then .error .wholeText
  else .ok (Numeral.signed negative (Digit.number run))

/-- Whether a whole number may begin with a character, zeros in front of it aside. -/
def beginsWhole (c : Char) : Bool := ('1' ≤ c && c ≤ '9') || c == '-'

/-- What follows a zero in front of a number, after all further zeros and the underscores between
them; the last of them is kept before a point and at the end. -/
def afterZeros? (last : Char) : List Char → Option (List Char)
  | [] => some [last]
  | c :: cs =>
    if c = '0' ∨ c = '_' then afterZeros? c cs
    else if beginsWhole c then some (c :: cs)
    else if c = '.' then some (last :: c :: cs)
    else none

/-- A number without the zeros in front of it. -/
def withoutZeros? : List Char → Option (List Char)
  | [] => none
  | c :: cs =>
    if c = '0' then afterZeros? c cs else if beginsWhole c then some (c :: cs) else none

/-- A number without its point if only zeros follow, but at least one. -/
def withoutPlaces (cs : List Char) : List Char :=
  let places := (cs.dropWhile (· != '.')).drop 1
  if !places.isEmpty && places.all (· == '0') then cs.takeWhile (· != '.') else cs

/-- A whole number as plain as it can be written: without a plus sign, zeros in front, a point with
zeros, and underscores. After a plus sign there may be no minus sign. -/
def undecorated? (cs : List Char) : Option (List Char) := do
  let (negative, body) := Numeral.signOf cs
  if cs.head? == some '+' && body.head? == some '-' then none
  let digits ← withoutUnderscores? (withoutPlaces (← withoutZeros? body))
  return if negative then '-' :: digits else digits

/-- The whole number that a text writes: plainly and without blanks, or after it is made plain, when
its length is no reason of its own to refuse it. -/
def wholeOfText (s : String) : Except Problem Int :=
  match plainWhole s.toList with
  | .error .wholeText =>
    match (undecorated? (trimBoth isMargin s.toList)).map plainWhole with
    | some (.ok n) => .ok n
    | _ => .error .wholeText
  | outcome => outcome

/-- The number that a text writes: with white space around it, or with underscores in it. -/
def numberOfText (s : String) : Except Problem Binary64 :=
  let joined := (withoutUnderscores? s.toList).bind Numeral.real?
  match Numeral.real? (trimBoth isMargin s.toList), joined with
  | some x, _ => .ok x
  | none, some x => .ok x
  | none, none => .error .numberText

/-! ### Values of settings -/

/-- A value as a whole number. -/
def whole : Value → Except Problem Int
  | .bool b => .ok (if b then 1 else 0)
  | .int n => .ok n
  | .float x =>
    match x.toRat? with
    | none => .error .notFinite
    | some q =>
      if q.den ≠ 1 then .error .wholeFraction
      else if q.num.natAbs < 0x8000000000000000 then .ok q.num
      else .error .wholeTooLong
  | .str s => wholeOfText s
  | _ => .error .wholeKind

/-- A value as a number. -/
def number : Value → Except Problem Binary64
  | .bool b => .ok (.ofInt (if b then 1 else 0))
  | .int n =>
    match Binary64.ofInt n with
    | .infinite _ => .error .numberKind
    | x => .ok x
  | .float x => .ok x
  | .str s => numberOfText s
  | _ => .error .numberKind

/-- A value as a text. -/
def textual : Value → Except Problem String
  | .str s => .ok s
  | _ => .error .textKind

/-- A value as a whole number that is at least one. -/
def limit (v : Value) : Except Problem Int := do
  let n ← whole v
  if n < 1 then .error .tooSmall else .ok n

/-- A setting that cannot be used, and why. -/
abbrev Complaint := String × Problem

/-- The value itself unless it is a text with half of a character in it. -/
def unbroken (v : Value) : Except Problem Value :=
  match v with
  | .str s => if (Half.plain? s).isSome then .ok v else .error .textBroken
  | v => .ok v

/-- The settings with one of them read, and the complaints so far. -/
def readOne {α : Type} (source : Source) (setting : String) (read : Value → Except Problem α)
    (put : α → Settings → Settings) (state : Settings × List Complaint) :
    Settings × List Complaint :=
  match source.chosen setting with
  | none => state
  | some v =>
    match unbroken v >>= read with
    | .ok a => (put a state.1, state.2)
    | .error problem => (state.1, state.2 ++ [(setting, problem)])

/-- The names of the settings. -/
def names : List String :=
  ["max_flow_events", "max_retained_flows", "max_retained_requests", "api_base_url",
    "request_timeout_seconds", "host", "port", "log_level", "log_format"]

/-- The settings that a source has, or what is wrong with them. -/
def read (source : Source) : Except (List Complaint) Settings :=
  let one {α : Type} (setting : String) (read : Value → Except Problem α)
      (put : α → Settings → Settings) := readOne source setting read put
  let (settings, complaints) := (standard, [])
    |> one "max_flow_events" limit (fun n s => { s with maxFlowEvents := n })
    |> one "max_retained_flows" limit (fun n s => { s with maxRetainedFlows := n })
    |> one "max_retained_requests" limit (fun n s => { s with maxRetainedRequests := n })
    |> one "api_base_url" textual (fun t s => { s with apiBaseUrl := normalBase t })
    |> one "request_timeout_seconds" number (fun x s => { s with requestTimeout := x })
    |> one "host" textual (fun t s => { s with host := t })
    |> one "port" whole (fun n s => { s with port := n })
    |> one "log_level" textual (fun t s => { s with logLevel := t })
    |> one "log_format" textual (fun t s => { s with logFormat := t })
  let unknown := (source.strangers names).map fun name => (name, Problem.unknown)
  if (complaints ++ unknown).isEmpty then .ok settings else .error (complaints ++ unknown)

end Settings

end HerdBook
