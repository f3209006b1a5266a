import HerdBook.Concept.Call
import HerdBook.Json.Encoding
import HerdBook.Json.Reader
import HerdBook.Lookup
import HerdBook.Patience
import HerdBook.Rules.Shape
import HerdBook.Settings.Basic
import HerdBook.Transport.Access
import HerdBook.Transport.Path
import HerdBook.Transport.Target

/-!
# Handling requests

What the transport does with a request, as a program over the engine, and the status and the body
that it answers with.

* On a direct route the concept is asked, and its answer is the body.
* On any other route a flow is started, the request is invoked in it, and the body of the first
  response to the request is the body of the answer. The flow is ended whatever happens. When the
  time for it is a moment, the request is given up where it has to wait for longer.

A body with an error is answered with status 400. A fault that the transport does not expect is
answered with status 500 and no body.
-/

namespace HerdBook

/-- What is sent with a request. -/
inductive RequestBody where
  | nothing
  /-- A text. -/
  | raw (text : String)
  /-- A value, sent as JSON. -/
  | json (v : Value)
  deriving Inhabited

/-- A request as it is sent. -/
structure HttpRequest where
  method : String
  path : List Char
  contentType : String
  body : RequestBody
  deriving Inhabited

/-- An answer of the transport. Without a body it is none that holds JSON. -/
structure HttpResponse where
  status : Nat
  body : Option Value
  deriving Inhabited

namespace HttpRequest

/-- A text that is sent, which must have bytes. -/
def plain (text : String) : Except Misuse String :=
  match Half.plain? text with
  | some text => .ok text
  | none => .error .encoding

/-- The request that is sent when texts in their stored form are told: method, target, content type
and body. A fragment of the target is not sent, and a content type must be on one line. -/
def told (method target contentType : String) (body : RequestBody) : Except Misuse HttpRequest := do
  let target ← plain (String.ofList (target.toList.takeWhile (· != '#')))
  let path ← RequestTarget.sentPath target.toList
  if contentType.contains '\n' || contentType.contains '\r' then throw .value
  let contentType ← plain contentType
  match body with
  | .raw text => return ⟨method, path, contentType, .raw (← plain text)⟩
  | body => return ⟨method, path, contentType, body⟩

/-- The media type of a content type, without parameters and the ASCII white space around it. -/
def mediaType (contentType : String) : String :=
  let isAsciiBlank (c : Char) : Bool := isBlank c && c.toNat < 0x80
  let media := contentType.toList.takeWhile (· != ';')
  (String.ofList (trimBoth isAsciiBlank media)).toLower

/-- Whether a content type is one of JSON. -/
def isJson (contentType : String) : Bool :=
  let media := mediaType contentType
  media == "application/json" || (media.startsWith "application/" && media.endsWith "+json")

/-- The value of the body; what is not JSON, or not sent as such, counts as absent. -/
def value (request : HttpRequest) : Except Fault Value :=
  if !isJson request.contentType then .ok .null
  else match request.body with
    | .nothing => .ok .null
    | .json v => .ok v
    | .raw text =>
      match (Json.decoded? text).map Json.read with
      | some (.ok v) => .ok v
      | some (.error .tooDeep) => .error (.misuse .nesting)
      | some (.error .malformed) => .ok .null
      | none => .ok .null

end HttpRequest

namespace Value

mutual

/-- The value as it is sent: a symbol as an object that holds its name. The placeholder and a whole
number with too many digits cannot be sent. -/
def sent : Value → Except Misuse Value
  | .symbol s => .ok (.object [("name", .str s.name)])
  | .notApplicable => .error .type
  | .int n => (wholeText n).map fun _ => .int n
  | .list items => do return .list (← sentItems items)
  | .tuple items => do return .list (← sentItems items)
  | .object fields => do return .object (← sentFields fields)
  | v => .ok v

/-- The values as they are sent. -/
def sentItems : List Value → Except Misuse (List Value)
  | [] => .ok []
  | v :: vs => do
    let first ← sent v
    let others ← sentItems vs
    return first :: others

/-- The fields as they are sent. -/
def sentFields : List (String × Value) → Except Misuse (List (String × Value))
  | [] => .ok []
  | (k, v) :: rest => do
    let first ← sent v
    let others ← sentFields rest
    return (k, first) :: others

end

end Value

namespace Transport

variable {ω κ : Type}

-- Tells a world how much time is left for the work that begins now.
variable (allot : TimeLeft → ω → ω)

open Program

/-- An answer that names an error. -/
def refusal (status : Nat) (error : String) : HttpResponse :=
  ⟨status, some (.object [("error", .str error)])⟩

/-- The answer with a body: status 400 when it holds an error. -/
def respond (payload : Value) : Except Fault HttpResponse := do
  let refused ← (payload.contains (.str "error")).mapError Fault.misuse
  let body ← payload.sent.mapError Fault.misuse
  return ⟨if refused then 400 else 200, some body⟩

/-- The route of an action. -/
def route (concept action : String) : String := "/" ++ concept ++ "/" ++ action

/-- Asks a concept directly. -/
def direct (concept action : String) (body : Fields) : Program ω κ HttpResponse :=
  (if action.startsWith "_" then Program.query concept action body
    else Program.call concept action body).attemptThen fun outcome =>
  match outcome with
  | .ok answer => ofExcept (respond answer)
  | .error (.unknownAction words) => return refusal 404 words
  | .error fault =>
    if fault.isTypeMismatch then
      return refusal 400 s!"Bad arguments for {route concept action}: <{fault.className}>"
    else Program.fail fault

/-- The response to a recorded request, as the concept of requests answers it. -/
def responseTo (event : Event) : Program ω κ Value :=
  (ofExcept ((event.output.field "request").mapError Fault.misuse)).andThen fun id =>
    Program.query Rules.requesting "_getResponse" [("request", id)]

/-- The fault of a request that took too much time. -/
def timeUp : Fault := .raised "TimeoutError" ""

/-- Does the work within a moment; if it has to wait for longer, it is given up. -/
def withinMoment {α : Type} (work : Program ω κ α) : Program ω κ α := do
  ofEffect (modify (allot .moment))
  work.attemptThen fun outcome => do
    ofEffect (modify (allot .ample))
    ofExcept (outcome.mapError fun fault => if fault = .abandoned then timeUp else fault)

/-- Invokes a request in a flow, as far as there is time for it. -/
def invoke (settings : Settings) (path : String) (body : Fields) (flow : String) :
    Program ω κ Event :=
  let input := Table.set "path" (.str path) body
  let work := Program.ask (.invoke Rules.requesting "request" (.object input) (some flow))
  match Patience.ofSeconds settings.requestTimeout.amount with
  | .none => Program.fail timeUp
  | .moment => withinMoment allot work
  | .seconds _ | .endless => work

/-- The answer to a request whose flow ended in a fault. -/
def onFault (settings : Settings) (path : String) (fault : Fault) : Program ω κ HttpResponse :=
  if fault.isTimeout then do
    notes [.transport .warning s!"request to {path} timed out"]
    return refusal 504 s!"Request timed out after {settings.requestTimeout.generalText}s."
  else
    match fault with
    | .flowLimit _ _ => do
      notes [.transport .error fault.logText]
      return refusal 500 "Internal error while handling the request."
    | fault =>
      if fault.isTypeMismatch then do
        notes [.transport .warning s!"bad fields for {path}: {fault.logText}"]
        return refusal 400 s!"Bad request fields for {path}."
      else Program.fail fault

/-- The answer to a request by what the concept of requests knows of the response. -/
def onResponse (path : String) (response : Value) : Program ω κ HttpResponse := do
  if ← ofExcept ((response.contains (.str "error")).mapError Fault.misuse) then
    notes [.transport .warning s!"no sync responded to {path}"]
    return refusal 504 s!"No response for {path}."
  else
    match response with
    | .object fields =>
      match Table.get? "body" fields with
      | none => Program.fail (.misuse .key)
      | some payload => ofExcept (respond payload)
    | _ => Program.fail (.misuse .type)

/-- Sends a request through the rules, in a flow of its own. -/
def throughRules (settings : Settings) (path : String) (body : Fields) :
    Program ω κ HttpResponse := do
  let flow ← Program.ask .startFlow
  let answered : Program ω κ HttpResponse :=
    ((invoke allot settings path body flow).andThen responseTo).attemptThen fun outcome =>
      match outcome with
      | .error fault =>
        (onFault settings path fault).attemptThen fun answer =>
          (Program.ask (.endFlow flow)).andThen fun _ => ofExcept answer
      | .ok response =>
        (Program.ask (.endFlow flow)).andThen fun _ => onResponse path response
  answered

/-- Handles a request to an action. -/
def handleAction (settings : Settings) (concept action : String) (body : Value) :
    Program ω κ HttpResponse :=
  let sent := if body.isNull then Value.object [] else body
  match sent with
  | .object fields => do
    let path := route concept action
    notes (Access.notes path)
    if Access.isDirect path then direct concept action fields
    else throughRules allot settings path fields
  | _ => return refusal 400 "Request body must be a JSON object."

/-- Handles a request, given the route of the actions. -/
def handle (settings : Settings) (actions : Route) (request : HttpRequest) :
    Program ω κ HttpResponse :=
  let answered : Program ω κ HttpResponse :=
    match Destination.of actions request.method request.path with
    | .action concept action => do
      handleAction allot settings concept action (← ofExcept request.value)
    | .overspecified => Program.fail (.misuse .type)
    | .file => return ⟨404, none⟩
    | .methods => return ⟨200, none⟩
    | .redirect => return ⟨308, none⟩
    | .wrongMethod => return ⟨405, none⟩
    | .unknown => return ⟨404, none⟩
    | .undecidable => return ⟨500, none⟩
  answered.attemptThen fun outcome =>
    match outcome with
    | .ok answer => return answer
    | .error _ => return ⟨500, none⟩

end Transport

end HerdBook
