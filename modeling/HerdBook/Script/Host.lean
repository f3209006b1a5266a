import HerdBook.Concept.ByName
import HerdBook.Engine.Answer
import HerdBook.Script.Written
import HerdBook.Script.World

/-!
# Carrying scripts out

What the steps, behaviours and adapters of a script do, as programs over the engine
(`Step.program`, `Behaviour.program`, `AdapterCode.program`), and the host that they make
(`World.host`). An action of any concept must answer with an object.
-/

namespace HerdBook

/-- What a flow holds to look at: its log and its faults. -/
structure History where
  log : List Event
  faults : List FlowFault
  deriving Inhabited

/-- What a step comes to. -/
inductive Reply where
  | nothing
  | text (s : String)
  | texts (ss : List String)
  | value (answer : Value)
  /-- A recorded action, with the history of its flow afterwards. -/
  | invoked (event : Event) (history : History)
  /-- The response to a request, with the history of its flow afterwards. -/
  | asked (flow : String) (response : Value) (history : History)
  | evaluated (history : History)
  | log (events : List Event)
  | faults (faults : List FlowFault)
  | concept (member : Member)

/-- A program of a script. -/
abbrev ScriptProgram := Program World AdapterCode

/-! ### Steps -/

namespace Step

open Program

/-- Fails when no concept is registered under the name. -/
def requireMember (name : String) : ScriptProgram Unit := do
  if (← reading fun world => world.member? name).isNone then Program.fail (.misuse .key)

/-- The history of a flow so far. -/
def history (flow : String) : ScriptProgram History := do
  let events ← Program.ask (.log flow)
  return ⟨events, ← Program.ask (.faults flow)⟩

/-- The arguments by name that a value stands for. -/
def named (args : Value) : ScriptProgram Fields :=
  match args with
  | .object fields => return fields
  | _ => Program.fail (.misuse .type)

/-- What a step does and comes to. -/
def program : Step → ScriptProgram Reply
  | .invoke concept action input flow => do
    let event ← Program.ask (.invoke concept action input flow)
    return .invoked event (← history event.flow)
  | .ask path fields flow => do
    let input := Table.merge [("path", path)] (← named fields)
    let event ← Program.ask (.invoke World.requesting "request" (.object input) flow)
    let id ← ofExcept ((event.output.field "request").mapError Fault.misuse)
    let response ← Program.query World.requesting "_getResponse" [("request", id)]
    return .asked event.flow response (← history event.flow)
  | .reevaluate flow => do
    Program.ask (.reevaluate flow)
    return .evaluated (← history flow)
  | .log flow => do return .log (← Program.ask (.log flow))
  | .faults flow => do return .faults (← Program.ask (.faults flow))
  | .startFlow => do return .text (← Program.ask .startFlow)
  | .endFlow flow => do
    Program.ask (.endFlow flow)
    return .nothing
  | .flows => do return .texts (← Program.ask .flows)
  | .rules => do return .texts (← Program.ask .rules)
  | .call concept action args => do return .value (← Program.call concept action (← named args))
  | .query concept name args => do return .value (← Program.query concept name (← named args))
  | .perform concept action input => do
    requireMember concept
    return .value (← Program.ask (.call concept action input))
  | .performQuery concept name input => do
    requireMember concept
    return .value (← Program.ask (.query concept name input))
  | .registerRule rule => do
    Program.ask (.registerRule rule)
    return .nothing
  | .registerTerminal concept action key => do
    Program.ask (.registerTerminal concept action key)
    return .nothing
  | .registerConcept script => do
    ofEffect (World.registerScript script)
    return .nothing
  | .openSessions sessions => do
    ofEffect (World.openSessions sessions)
    return .nothing
  | .failStore concept operation n => do
    ofEffect (World.failStore concept operation n)
    return .nothing
  | .wait label id timeout => do
    ofEffect (World.wait label id timeout)
    return .nothing
  | .join label => do
    let answer ← ofEffect (World.join label)
    notes answer.notes
    return .value answer.value
  | .dump concept => do
    match ← reading fun world => world.member? concept with
    | some member => return .concept member
    | none => Program.fail (.misuse .key)

end Step

/-! ### Behaviours -/

namespace Behaviour

open Program

mutual

/-- What a behaviour does when it is called with arguments, the given call in number. -/
def program (count : Nat) (args : Value) : Behaviour → ScriptProgram Value
  | .answer nested rule template =>
    (inTurn (nested.map Step.program)).andThen fun _ =>
      ofExcept (((template.fill args count).map (Value.ofWritten rule)).mapError Fault.misuse)
  | .raise nested fault =>
    (inTurn (nested.map Step.program)).andThen fun _ => Program.fail fault
  | .choose nested argument cases =>
    (inTurn (nested.map Step.program)).andThen fun _ =>
      (ofExcept ((args.under argument).mapError Fault.misuse)).andThen fun v =>
        chosen count args v cases

/-- What is done by the value of an argument. -/
def chosen (count : Nat) (args v : Value) : Cases → ScriptProgram Value
  | .nothing => Program.fail (.misuse .type)
  | .otherwise behaviour => program count args behaviour
  | .case value behaviour rest =>
    if v.same value then program count args behaviour else chosen count args v rest

end

/-- What a behaviour does when it is called under a label: the call is recorded first. -/
def called (behaviour : Behaviour) (callee : Callee) (label : String) (args : Value) :
    ScriptProgram Value := do
  ofEffect (modify (World.recordCall callee label args))
  behaviour.program (← reading fun world => world.countOf callee) args

/-- What a behaviour does when it is called with arguments by name. None of them may have the name
under which the called one knows itself. -/
def calledByName (behaviour : Behaviour) (callee : Callee) (label : String) (args : Value) :
    ScriptProgram Value := do
  requireFree ["self"] (← Step.named args)
  behaviour.called callee label args

end Behaviour

/-! ### Adapters -/

namespace AdapterCode

open Program

/-- The name of an adapter, if it has one. -/
def name? : AdapterCode → Option String
  | .lookup question => some question.name
  | .scripted _ name _ _ => name
  | .outcome _ name call _ _ => some (if name.isEmpty then call else name)

/-- The name of an adapter in messages. -/
def name (adapter : AdapterCode) : String :=
  match adapter.name? with
  | none => "Script"
  | some name => if name.isEmpty then "Script" else name

/-- What an adapter does and returns. -/
def program : AdapterCode → Value → ScriptProgram Value
  | .lookup question, args => question.program args
  | .scripted number name awaited behaviour, args =>
    let answered := behaviour.called (.adapter number) (name.getD "adapter") args
    if awaited then leaving answered else answered
  | .outcome number name call fields behaviour, args => do
    let answer ← leaving (behaviour.calledByName (.adapter number) "call" args)
    Lookup.rowsOfAnswer (if name.isEmpty then call else name) fields answer

end AdapterCode

/-! ### Concepts -/

/-- What a scripted concept has under a name of its own. -/
inductive Own where
  /-- A value, which cannot be called. -/
  | value
  | action (callee : Callee) (label : String) (awaited : Bool) (behaviour : Behaviour)

namespace Own

open Program

/-- What happens when a call that every concept answers meets a definition of its own instead. The
definition gets no arguments by name, and only one that is awaited answers. -/
def inPlace : Own → ScriptProgram Value
  | .value => Program.fail (.misuse .type)
  | .action callee label awaited behaviour => do
    let answer ← behaviour.called callee label (.object [])
    if awaited then return answer else Program.fail (.misuse .type)

/-- What happens when an action is looked up by a definition of its own: nothing that it answers
can be called. One that is awaited is not waited for, so it is called and does nothing. -/
def inLookUp : Own → ScriptProgram Value
  | .value => Program.fail (.misuse .type)
  | .action callee label true _ => do
    ofEffect (modify (World.recordCall callee label (.object [])))
    Program.fail (.misuse .type)
  | .action callee label false behaviour => do
    let _ ← behaviour.called callee label (.object [])
    Program.fail (.misuse .type)

end Own

namespace Member

/-- What the concept itself has under a name. -/
def own? (member : Member) (name : String) : Option Own :=
  match member with
  | .book _ => none
  | .scripted concept =>
    match Table.get? name concept.actions with
    | some (awaited, behaviour) =>
      some (.action (.action concept.serial name) (concept.label ++ "." ++ name) awaited behaviour)
    | none =>
      if name == "name" || Table.has name concept.attributes then some .value else none

/-- The kind of what is found under the name of an action, if there is something to call. -/
def callableKind? (member : Member) (name : String) : Option String :=
  if Target.isHidden name then none
  else
    let common := if Target.common.contains name then some "method" else none
    match member, member.own? name with
    | .book concept, _ =>
      if concept.offers name then
        some (if name == "_hash" then "function" else "method")
      else common
    | .scripted _, some (.action _ _ _ _) => some "Script"
    | .scripted _, some .value => none
    | .scripted _, none => common

end Member

namespace World

open Program

/-- Performs an action of a concept of the herd book. -/
def performBook (name action : String) (args : Fields) (concept : Concept) :
    ScriptProgram Value := do
  let issued ← reading World.issued
  match concept.answer? action args issued with
  | none => Program.fail (.unknownAction s!"{name}.{action} not found")
  | some turn =>
    ofEffect (modify fun world =>
      put name (.book turn.concept) { world with issued := turn.issued })
    let answer ← ofExcept turn.outcome
    notes answer.notes
    return answer.value

/-- The fault of an action that did not answer with an object. -/
def notAnObject (name action kind : String) : Fault :=
  .raised "TypeError" s!"{name}.{action} returned {kind}, expected a mapping"

/-- Calls what is found under the name of an action. -/
def callMember (name action : String) (args : Value) (member : Member) : ScriptProgram Value := do
  if (member.callableKind? action).isNone then
    Program.fail (.unknownAction s!"{name}.{action} not found")
  else match args with
    | .object args =>
      match member, member.own? action with
      | .book concept, _ => performBook name action args concept
      | .scripted _, some (.action callee label _ behaviour) =>
        behaviour.calledByName callee label (.object args)
      | .scripted _, _ => Program.fail (.unknownAction s!"{name}.{action} not found")
    | _ => Program.fail (.misuse .type)

/-- Performs an action of a concept the way every concept does. -/
def performMember (name action : String) (args : Value) (member : Member) :
    ScriptProgram Value := do
  match ← ofExcept (Target.resolve (fun own => (member.own? own).isSome) action args) with
  | .action action args =>
    match ← callMember name action args member with
    | .object fields => return .object fields
    | other => Program.fail (notAnObject name action other.kindName)
  | .lookUp action =>
    match member.callableKind? action with
    | some kind => Program.fail (notAnObject name "_lookup" kind)
    | none => Program.fail (.unknownAction s!"{name}.{action} not found")

/-- Performs an action of a concept. What the concept itself has under the names of the calls that
every concept answers is used in their place. -/
def performOf (name action : String) (args : Value) (member : Member) : ScriptProgram Value :=
  match member.own? "perform", member.own? "_lookup" with
  | some own, _ => own.inPlace
  | none, some own => own.inLookUp
  | none, none => performMember name action args member

/-- Asks a query of a concept. -/
def queryOf (name query : String) (args : Value) (member : Member) : ScriptProgram Value :=
  match member.own? "query" with
  | some own => own.inPlace
  | none =>
    if query.startsWith "_" then performOf name query args member
    else Program.fail Target.impureQuery

/-- Goes on with the concept registered under a name. -/
def withMember (name : String) (next : Member → ScriptProgram Value) : ScriptProgram Value := do
  match ← reading fun world => world.member? name with
  | none => Program.fail (.misuse .key)
  | some member => leaving (next member)

/-- The host of a script's engine. -/
def host : Host World AdapterCode where
  isRegistered world name := (world.member? name).isSome
  perform name action input := withMember name (performOf name action input)
  query name query input := withMember name (queryOf name query input)
  adapterName := AdapterCode.name
  adapt := AdapterCode.program
  wait := World.waiting

end World

end HerdBook
