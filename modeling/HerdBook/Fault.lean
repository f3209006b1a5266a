import HerdBook.Limit
import HerdBook.Text.Quoted

/-!
# Faults

Everything that can go wrong outside a concept's own vocabulary: a concept reports failure by an
ordinary result with an `error` field, and a fault is what is left. A fault is recorded by its
cause; its wording is derived in one place, `Fault.message?`.

* The engine's own faults (`Fault.isEngine`) and orders to stop (`Fault.isStop`) pass unchanged
  through the layers above them; any other fault is wrapped by the first layer that meets it.
* Of the engine's faults, those that abort the evaluation of one rule (`Fault.abortsRule`) are
  recorded with the flow; the others end the round.
* A fault that comes from applying an operation to the wrong kind of value has a class but no
  wording of its own, and neither has a fault that wraps it.
-/

namespace HerdBook

/-- The rule and the flow in whose evaluation a fault arose. -/
structure Site where
  rule : String
  flow : String
  deriving DecidableEq, Inhabited

/-- The layers that wrap a fault from below: an adapter's call, an action's, or a stage of a
rule. -/
inductive Layer where
  | adapter
  | action
  | stage
  deriving DecidableEq, Inhabited

/-- An operation applied to a value it is not made for. -/
inductive Misuse where
  | type
  | attribute
  | key
  | index
  | value
  | zeroDivision
  | overflow
  | nesting
  | memory
  /-- A text that has no bytes. -/
  | encoding
  /-- A name that no host can have. -/
  | hostName
  /-- A name that nothing is known under. -/
  | lookup
  | grammar
  /-- A point in time beyond the calendar. -/
  | system
  deriving DecidableEq, Inhabited

/-- What went wrong. -/
inductive Fault where
  /-- A fault of the engine that only has words; `kind` is its class. -/
  | engine (kind words : String)
  /-- A symbol was read that the frame does not bind. -/
  | unbound (symbol : String) (bound : List String)
  /-- A symbol bound to the placeholder was used as a value. -/
  | inapplicable (symbol : String)
  /-- A map stage dropped symbols. -/
  | dropped (symbols : List String)
  /-- A concept, or an action of it, does not exist. -/
  | unknownAction (words : String)
  /-- A flow reached its ceiling of recorded actions. -/
  | flowLimit (flow : String) (limit : Limit)
  /-- A failure of a layer, in its own words. -/
  | failed (layer : Layer) (words : String) (site : Option Site)
  /-- A failure of a layer that wraps another fault; `subject` is what failed. -/
  | wrapped (layer : Layer) (subject : String) (cause : Fault) (site : Option Site)
  /-- Any other fault that was raised with words of its own; `kind` is its class. -/
  | raised (kind : String) (words : String)
  /-- The end of an iteration was signalled, with words, where none was in progress. -/
  | strayEnd (words : String)
  /-- An operation was applied to the wrong kind of value. -/
  | misuse (kind : Misuse)
  /-- Nobody waits for the computation any longer. -/
  | abandoned
  deriving DecidableEq, Inhabited

namespace Layer

/-- The class name of a failure of the layer. -/
def className : Layer → String
  | .adapter => "AdapterError"
  | .action => "ActionError"
  | .stage => "StageError"

/-- The words of a failure of the layer that wraps a fault shown as `cause`. -/
def words (layer : Layer) (subject cause : String) : String :=
  match layer with
  | .adapter => s!"adapter {subject} failed: {cause}"
  | .action => s!"{subject} raised {cause}"
  | .stage => s!"where/then of {subject} raised {cause}"

end Layer

namespace Misuse

/-- The class name of a misuse. -/
def className : Misuse → String
  | .type => "TypeError"
  | .attribute => "AttributeError"
  | .key => "KeyError"
  | .index => "IndexError"
  | .value => "ValueError"
  | .zeroDivision => "ZeroDivisionError"
  | .overflow => "OverflowError"
  | .nesting => "RecursionError"
  | .memory => "MemoryError"
  | .encoding => "UnicodeEncodeError"
  | .hostName => "UnicodeError"
  | .lookup => "LookupError"
  | .grammar => "SyntaxError"
  | .system => "OSError"

end Misuse

namespace Fault

/-- The class name of a fault. -/
def className : Fault → String
  | .engine kind _ => kind
  | .unbound _ _ => "UnboundSymbolError"
  | .inapplicable _ => "InapplicableSymbolError"
  | .dropped _ => "DroppedBindingError"
  | .unknownAction _ => "UnknownActionError"
  | .flowLimit _ _ => "FlowLimitExceeded"
  | .failed layer _ _ => layer.className
  | .wrapped layer _ _ _ => layer.className
  | .raised kind _ => kind
  | .strayEnd _ => "RuntimeError"
  | .misuse kind => kind.className
  | .abandoned => "CancelledError"

/-- Whether the fault is one of the engine's own. -/
def isEngine : Fault → Bool
  | .raised _ _ => false
  | .strayEnd _ => false
  | .misuse _ => false
  | .abandoned => false
  | _ => true

/-- The classes that are no failures but orders to stop. -/
def stops : List String :=
  ["BaseException", "BaseExceptionGroup", "GeneratorExit", "KeyboardInterrupt", "SystemExit"]

/-- Whether the fault is an order to stop. -/
def isStop : Fault → Bool
  | .raised kind _ => stops.contains kind
  | .abandoned => true
  | _ => false

/-- Whether the fault aborts the evaluation of one rule and leaves the round going. -/
def abortsRule : Fault → Bool
  | .unbound _ _ => true
  | .inapplicable _ => true
  | .dropped _ => true
  | .unknownAction _ => true
  | .failed _ _ _ => true
  | .wrapped _ _ _ _ => true
  | _ => false

/-- Whether the fault says that a value, or a list of arguments, has the wrong shape. -/
def isTypeMismatch : Fault → Bool
  | .raised kind _ => kind == "TypeError"
  | .misuse kind => kind == .type
  | _ => false

/-- Whether the fault says that time ran out. -/
def isTimeout : Fault → Bool
  | .raised kind _ => kind == "TimeoutError"
  | _ => false

/-- The symbols of a message, or the given word when there are none. -/
def listed (symbols : List String) (whenEmpty : String) : String :=
  if symbols.isEmpty then whenEmpty else ", ".intercalate symbols

/-- The words of a fault without its site; `none` when it has no wording of its own. -/
def bareWords? : Fault → Option String
  | .engine _ words => some words
  | .unbound symbol bound =>
    let names := listed bound "nothing"
    some s!"{symbol} is not bound (bound: {names})"
  | .inapplicable symbol => some s!"{symbol} is bound to NA and cannot be used as a value"
  | .dropped symbols => some ("map dropped bindings: " ++ listed symbols "")
  | .unknownAction words => some words
  | .flowLimit flow limit =>
    let ceiling := limit.text
    some s!"flow {flow} exceeded {ceiling} actions; a sync is probably retriggering itself"
  | .failed _ words _ => some words
  | .wrapped layer subject cause _ =>
    (bareWords? cause).map fun words =>
      layer.words subject (cause.className ++ "(" ++ quoted words ++ ")")
  | .raised _ words => some words
  | .strayEnd _ => none
  | .misuse _ => none
  | .abandoned => none

/-- The site the fault is attributed to. -/
def site? : Fault → Option Site
  | .failed _ _ site => site
  | .wrapped _ _ _ site => site
  | _ => none

/-- The message of a fault, with the site it is attributed to; a missing key is shown in
quotes. -/
def message? (fault : Fault) : Option String :=
  fault.bareWords?.map fun words =>
    match fault, fault.site? with
    | .raised "KeyError" _, _ => quoted words
    | _, some site => s!"{words} [sync={site.rule} flow={site.flow}]"
    | _, none => words

/-- The class of a signal that an iteration has ended. -/
def endSignal : String := "StopIteration"

/-- The fault that another one arose from. -/
def cause? : Fault → Option Fault
  | .wrapped _ _ cause _ => some cause
  | .strayEnd words => some (.raised endSignal words)
  | _ => none

/-- The fault as a log line shows it: its message, or the class of what lies beneath it. -/
def logText (fault : Fault) : String :=
  match fault.message? with
  | some words => words
  | none => "<" ++ (fault.cause?.getD fault).className ++ ">"

/-- The fault with its site set, where its class carries one. -/
def attributedTo (site : Site) : Fault → Fault
  | .failed layer words _ => .failed layer words (some site)
  | .wrapped layer subject cause _ => .wrapped layer subject cause (some site)
  | fault => fault

/-- The fault as the layer above it passes it on: the engine's own and orders to stop unchanged,
any other wrapped. -/
def wrappedBy (layer : Layer) (subject : String) (fault : Fault) : Fault :=
  if fault.isEngine || fault.isStop then fault else .wrapped layer subject fault none

/-- The fault as it leaves a computation that others wait for. There, the signal that an iteration
has ended would be taken for the end of the computation, so it leaves as a fault of its own. -/
def onLeaving : Fault → Fault
  | .raised kind words => if kind = endSignal then .strayEnd words else .raised kind words
  | fault => fault

end Fault

end HerdBook
