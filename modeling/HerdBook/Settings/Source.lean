import HerdBook.Fault
import HerdBook.Text.Half
import HerdBook.Value.Basic

/-!
# Where settings come from

Settings come from arguments and from the variables of an environment, under their names in any
case; an argument wins (`Source.chosen`). Some arguments are no settings and say how the environment
is read (`Source.of`): what the names of its variables begin with, whether case matters, whether
empty variables count, and which text stands for the absent value.
-/

namespace HerdBook

namespace Settings

/-! ### The environment -/

/-- Whether a text has bytes in an environment, where the lower halves of characters from `0xDC80`
to `0xDCFF` stand for single bytes. -/
def hasBytes (s : String) : Bool :=
  (Half.codes s).all fun n => !Half.isUnit n || (0xDC80 ≤ n && n ≤ 0xDCFF)

/-- A variable of an environment. It must have a name, without an equals sign; its value must be a
text; and there are no null characters. -/
def ofVariable (name : String) : Value → Except Misuse (String × String)
  | .str value =>
    if !hasBytes name || !hasBytes value then .error .encoding
    else if name.contains '\x00' || value.contains '\x00' || name.contains '=' then .error .value
    else if name.isEmpty then .error .system
    else .ok (name, value)
  | _ => .error (if hasBytes name then .type else .encoding)

/-! ### Sources -/

/-- Where settings are looked for. -/
structure Source where
  arguments : Fields
  environment : List (String × String)
  /-- What stands before the name of a setting in the name of a variable. -/
  leading : String
  exactCase : Bool
  /-- The text of a variable that stands for the absent value. -/
  absentText : Option String
  deriving Inhabited

namespace Source

/-- The arguments that say how settings are looked for. Those of them that are not named in
`Source.of` make no difference to settings that are single values. -/
def directions : List String :=
  ["_case_sensitive", "_env_prefix", "_env_ignore_empty", "_env_parse_none_str", "_env_file",
    "_env_file_encoding", "_env_nested_delimiter", "_env_nested_max_split", "_env_parse_enums",
    "_nested_model_default_partial_update"]

/-- The text of a value, if it is one. -/
def textOf? : Value → Option String
  | .str s => some s
  | _ => none

/-- The source that arguments and the variables of an environment make. -/
def of (args : Fields) (environment : List (String × String)) : Source :=
  let direction (name : String) : Value := (Table.get? name args).getD .null
  let skipsEmpty := (direction "_env_ignore_empty").truthy
  { arguments := args.filter fun entry => !directions.contains entry.1
    environment := environment.filter fun entry => !(skipsEmpty && entry.2.isEmpty)
    leading := (textOf? (direction "_env_prefix")).getD ""
    exactCase := (direction "_case_sensitive").truthy
    absentText := textOf? (direction "_env_parse_none_str") }

/-- Whether a name is the given one, in any case unless case matters. -/
def isNamed (source : Source) (wanted name : String) : Bool :=
  if source.exactCase then name == wanted else name.toLower == wanted.toLower

/-- What a variable holds. -/
def held (source : Source) (text : String) : Value :=
  if source.absentText = some text then .null else .str text

/-- What is chosen for a setting: the first argument of its name, or else the last variable. -/
def chosen (source : Source) (setting : String) : Option Value :=
  match source.arguments.find? fun entry => source.isNamed setting entry.1 with
  | some (_, v) => some v
  | none =>
    let name := source.leading ++ setting
    (source.environment.reverse.find? fun entry => source.isNamed name entry.1).map fun entry =>
      source.held entry.2

/-- The arguments that are none of the settings. -/
def strangers (source : Source) (settings : List String) : List String :=
  (source.arguments.map (·.1)).filter fun name => !settings.any (source.isNamed · name)

end Source

end Settings

end HerdBook
