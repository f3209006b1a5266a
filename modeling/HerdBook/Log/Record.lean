import HerdBook.Json.Writer
import HerdBook.Log.Timestamp
import HerdBook.Value.Directives

/-!
# Log records

What is known of a line of the log, and the two forms in which it is written: a line of text with
the context in brackets, and a JSON object with a field for each part of the context. The context
says which flow, rule, concept, action or request the line is about.
-/

namespace HerdBook

/-- A record of the log. -/
structure LogRecord where
  words : Value
  /-- The arguments for the directives in the words. -/
  args : Value
  level : Value
  source : Value
  created : Value
  millis : Value
  extra : Fields
  fault : Option Fault
  deriving Inhabited

namespace LogRecord

/-- The names that belong to the context, in order. -/
def contextNames : List String := ["flow", "sync", "concept", "action", "request"]

/-- The context of a record: what was passed of the context, but for absent values. -/
def context (record : LogRecord) : Fields :=
  contextNames.filterMap fun name =>
    match Table.get? name record.extra with
    | none => none
    | some .null => none
    | some v => some (name, v)

/-- Something that was passed along with a record. -/
def passed (record : LogRecord) (name : String) : Value :=
  (Table.get? name record.extra).getD .null

/-- The name of what makes the message of a record; something passed along under it cannot. -/
def messageMaker : String := "getMessage"

/-- The words with the arguments put in. Without any, directives stand as they are. -/
def message (record : LogRecord) : Except Misuse String := do
  if Table.has messageMaker record.extra then throw .type
  let words ← record.words.text
  if record.args.truthy then Directives.expand words record.args else return words

/-- The class of a fault with the part of the program it belongs to. -/
def faultClass (fault : Fault) : String :=
  if fault.isEngine then "errors." ++ fault.className else fault.className

/-- The classes of faults that say so when they have no words. -/
def explained : List String := ["SyntaxError", "IndentationError", "TabError"]

/-- The text of a fault. -/
def faultText (fault : Fault) : String :=
  let words := fault.message?.getD ""
  if !words.isEmpty then faultClass fault ++ ": " ++ words
  else if explained.contains fault.className then faultClass fault ++ ": <no detail available>"
  else faultClass fault

/-- The text of a fault that was passed along as its class, itself and the place where it arose.
What was passed is neither a fault nor a place, so only nothing at all has a text. -/
def textOfParts (parts : Value) : Except Misuse String := do
  let items ← match parts with
    | .list items => pure items
    | .tuple items => pure items
    | .object _ => throw .key
    | .str s => pure ((Half.codes s).map fun n => .str (Half.ofCodes [n]))
    | _ => throw .type
  match items with
  | _ :: .null :: .null :: _ => return "NoneType: None"
  | _ :: _ :: _ :: _ => throw .attribute
  | _ => throw .index

/-- The text of the fault that a record tells of, if it tells of one. -/
def toldFault (record : LogRecord) : Except Misuse (Option String) :=
  let parts := record.passed "exc_info"
  match record.fault with
  | some fault => .ok (some (faultText fault))
  | none => if parts.truthy then (textOfParts parts).map some else .ok none

/-- The point in time of a record in the international form, which has years of four digits. -/
def isoTime (record : LogRecord) : Except Fault String := do
  let (seconds, micros) := Timestamp.split (← Timestamp.secondsOf record.created)
  let t ← (Timestamp.ofSeconds seconds micros).checked
  if 1 ≤ t.year ∧ t.year ≤ 9999 then return t.iso else throw (.misuse .value)

/-- The JSON form of a record. -/
def json (record : LogRecord) : Except Fault String := do
  let time ← record.isoTime
  let words ← record.message.mapError Fault.misuse
  let start : Fields :=
    [("timestamp", .str time), ("level", record.level), ("logger", record.source),
      ("message", .str words)]
  let told ← record.toldFault.mapError Fault.misuse
  let ending : Fields := (told.map fun text => ("exception", .str text)).toList
  return Json.write (.object (start ++ record.context ++ ending))

/-- The point in time of a record at the start of a line of text. -/
def plainTime (record : LogRecord) : Except Fault String := do
  let seconds ← Timestamp.secondsOf record.created
  let t ← (Timestamp.ofSeconds seconds.floor 0).checked
  if Timestamp.yearsLimit ≤ t.year then throw (.misuse .overflow)
  let millis ← (Directives.expand "%03d" (.tuple [record.millis])).mapError Fault.misuse
  return t.plain ++ "," ++ millis

/-- The tags that show the context. -/
def tags (context : Fields) : Except Fault String := do
  let shown ← context.mapM fun entry => do
    return entry.1 ++ "=" ++ (← entry.2.text.mapError Fault.misuse)
  return " ".intercalate shown

/-- A text with something put in at the end of its first line. -/
def atFirstEnd (text addition : String) : String :=
  let cs := text.toList
  String.ofList (cs.takeWhile (· != '\n')) ++ addition
    ++ String.ofList (cs.dropWhile (· != '\n'))

/-- A text with a value below it, unless the value counts as false; it must be a text. -/
def withBelow (text : String) (below : Value) : Except Fault String :=
  if !below.truthy then .ok text
  else match below with
    | .str more => .ok ((if text.endsWith "\n" then text else text ++ "\n") ++ more)
    | _ => .error (.misuse .type)

/-- What stands below the line of a record: the text that was passed, or else that of a fault. -/
def faultBelow (record : LogRecord) : Except Misuse Value := do
  let text := record.passed "exc_text"
  if text.truthy then return text
  return ((← record.toldFault).map Value.str).getD .null

/-- The text form of a record. Below its line stand the fault and the stack that were passed. -/
def text (record : LogRecord) : Except Fault String := do
  let words ← record.message.mapError Fault.misuse
  let start ← record.plainTime
  let level ← record.level.text.mapError Fault.misuse
  let source ← record.source.text.mapError Fault.misuse
  let line := s!"{start} {level} {source}: {words}"
  let told ← withBelow line (← record.faultBelow.mapError Fault.misuse)
  let whole ← withBelow told (record.passed "stack_info")
  if record.context.isEmpty then return whole
  else return atFirstEnd whole (" [" ++ (← tags record.context) ++ "]")

end LogRecord

end HerdBook
