import HerdBook.Concept.Basic
import HerdBook.Lookup
import HerdBook.Rule.Basic
import HerdBook.Script.Template

/-!
# Scripts

Concepts, adapters and runs of an engine, written down as data, to rehearse rules with. A
`Behaviour` says what a scripted action or adapter does when it is called: it runs steps on the
engine, and then answers, raises a fault, or goes on as one of its arguments tells it to. A `Step`
is a single use of an engine. What is `awaited` answers only to those who wait for it; the rest
answers at once.

Adapters of scripted rules are `AdapterCode`s: lookups of concepts, or scripted. Every scripted
adapter has a number, which its calls are counted under.
-/

namespace HerdBook

mutual

/-- What a scripted action or adapter does. -/
inductive Behaviour where
  /-- Answers with what the filled template writes in the scope of a rule. -/
  | answer (nested : List Step) (rule : String) (template : Template)
  | raise (nested : List Step) (fault : Fault)
  /-- Goes on by the value of an argument. -/
  | choose (nested : List Step) (argument : Value) (cases : Cases)

/-- What to do by the value of an argument: the first case that has it, or else the last. There may
be nothing to do at last, which is a misuse. -/
inductive Cases where
  | nothing
  | otherwise (behaviour : Behaviour)
  | case (value : Value) (behaviour : Behaviour) (rest : Cases)

/-- An adapter. -/
inductive AdapterCode where
  | lookup (question : Lookup)
  /-- Returns what the behaviour answers. -/
  | scripted (number : Nat) (name : Option String) (awaited : Bool) (behaviour : Behaviour)
  /-- Returns the row of outcome of what the behaviour answers; `call` is the name of what is
  asked. -/
  | outcome (number : Nat) (name call : String) (fields : List String) (behaviour : Behaviour)

/-- A concept to register. -/
inductive ConceptScript where
  | book (kind : Concept.Kind) (args : Fields)
  /-- A concept with the given actions, which are awaited or not, and with values under further
  names. -/
  | scripted (name : String) (actions : List (String × Bool × Behaviour)) (attributes : Fields)

/-- A use of an engine. -/
inductive Step where
  | invoke (concept action : String) (input : Value) (flow : Option String)
  /-- Invokes a request for a path and asks for the response to it. -/
  | ask (path fields : Value) (flow : Option String)
  | reevaluate (flow : String)
  | log (flow : String)
  | faults (flow : String)
  | startFlow
  | endFlow (flow : String)
  | flows
  | rules
  | call (concept action : String) (args : Value)
  | query (concept name : String) (args : Value)
  /-- Performs an action of a concept past the engine. -/
  | perform (concept action : String) (input : Value)
  /-- Asks a query of a concept past the engine. -/
  | performQuery (concept name : String) (input : Value)
  | registerRule (rule : Rule AdapterCode)
  | registerTerminal (concept action : String) (key : Value)
  | registerConcept (script : ConceptScript)
  /-- Opens sessions of users by token. -/
  | openSessions (sessions : Fields)
  /-- Makes an operation of a concept's store fail at its nth next call. -/
  | failStore (concept : String) (operation : Operation) (n : Nat)
  /-- Starts to wait for the response to a request, under a label. -/
  | wait (label : String) (request timeout : Value)
  /-- Waits until the one who waits under the label has ended. -/
  | join (label : String)
  | dump (concept : String)

end

instance : Inhabited Behaviour := ⟨.answer [] "" (.value .null)⟩
instance : Inhabited AdapterCode := ⟨.lookup .token⟩
instance : Inhabited ConceptScript := ⟨.book .requests []⟩
instance : Inhabited Step := ⟨.flows⟩

namespace Fault

/-- The fault that a script raises by class name. The engine's classes that list symbols take the
words as the name of one. Classes that cannot be made of words alone are a misuse. -/
def ofClass (kind words : String) : Fault :=
  match kind with
  | "SyncEngineError" | "_Attributed" => .engine kind words
  | "UnboundSymbolError" => .unbound (Symbol.written words) []
  | "InapplicableSymbolError" => .inapplicable (Symbol.written words)
  | "DroppedBindingError" => .dropped [Symbol.written words]
  | "UnknownActionError" => .unknownAction words
  | "FlowLimitExceeded" => .flowLimit words (.count 7)
  | "AdapterError" => .failed .adapter words none
  | "ActionError" => .failed .action words none
  | "StageError" => .failed .stage words none
  | "IOError" | "EnvironmentError" => .raised "OSError" words
  | "UnicodeDecodeError" | "UnicodeEncodeError" | "UnicodeTranslateError" | "ExceptionGroup"
  | "BaseExceptionGroup" => .misuse .type
  | kind => .raised kind words

end Fault

end HerdBook
