import HerdBook.Effect
import HerdBook.Note
import HerdBook.Text.Blank
import HerdBook.Value.Contents
import HerdBook.Value.Text

/-!
# Calling an action

What the concepts have in common: how the named arguments of a call are read, and what a call
answers. An action takes exactly its parameters: a call that lacks one without a default, or that
names an unknown one, is a misuse. A failure of the concept is an ordinary answer with an `error`
field.
-/

namespace HerdBook

/-- What a call of an action answers, with the lines it writes to the log. -/
structure Answer where
  value : Value
  notes : List Note
  deriving Inhabited

namespace Answer

/-- An answer with the given fields. -/
def fields (fields : Fields) : Answer := ⟨.object fields, []⟩

/-- The answer that says nothing but success. -/
def done : Answer := fields []

/-- The answer of a concept that refuses, with its reason. -/
def refusal (reason : String) : Answer := fields [("error", .str reason)]

/-- Whether an answer carries an error. -/
def refuses (answer : Answer) : Bool :=
  match answer.value with
  | .object fields => Table.has "error" fields
  | _ => false

end Answer

namespace Arguments

/-- Whether all arguments are known parameters. -/
def exactly (parameters : List String) (args : Fields) : Except Fault Unit :=
  if args.all fun entry => parameters.contains entry.1 then .ok () else .error (.misuse .type)

/-- The argument for a parameter without a default. -/
def required (args : Fields) (parameter : String) : Except Fault Value :=
  match Table.get? parameter args with
  | some v => .ok v
  | none => .error (.misuse .type)

/-- The argument for a parameter with a default. -/
def optional (args : Fields) (parameter : String) (default : Value) : Value :=
  (Table.get? parameter args).getD default

end Arguments

/-- The text of a value in an answer. -/
def textOf {σ : Type} (v : Value) : Effect σ String :=
  Effect.ofExcept (v.text.mapError .misuse)

namespace Value

/-- Whether a value is no name: it counts as false, or is a text without ink. What is neither a
text nor counts as false cannot be asked. -/
def isBlankName (v : Value) : Except Fault Bool :=
  if !v.truthy then .ok true
  else match v with
    | .str s => .ok (!hasInk s)
    | _ => .error (.misuse .attribute)

end Value

end HerdBook
