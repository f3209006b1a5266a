import HerdBook.Concept.Call
import HerdBook.Number.Decimal
import HerdBook.Patience

/-!
# Requests

The boundary to the outside: requests come in, each under an id of its own, and each gets at most
one response; the first one counts. At most `limit` requests are remembered. When one more
arrives, answered requests without a waiter are forgotten first, the oldest first, and then the
others, the oldest first.

A waiter is somebody who waits for the response to a request until a deadline. It passes through
separate steps, so that the steps of several waiters can interleave with requests and responses:
it starts (`Requests.start`); a response (`Requests.respond`) or its time (`Requests.expire`)
decides how it ends; and after some more turns of all waiters (`Requests.resume`) it has ended,
with the response or a refusal. The clock moves only while somebody waits (`Requests.reach`).
-/

namespace HerdBook

/-- How a waiter ends. -/
inductive WaiterEnd where
  | answered (body : Fields)
  | expired
  | faulted (fault : Fault)
  deriving Inhabited

/-- What has become of a waiter. -/
inductive WaiterState where
  | waiting
  /-- Its end is decided, and it has ended after the given number of turns. -/
  | decided (how : WaiterEnd) (turns : Nat)
  deriving Inhabited

/-- Somebody who waits for the response to a request. `registered` says whether a response would
still be delivered. -/
structure Waiter where
  ticket : Nat
  request : Value
  timeout : Value
  deadline : Option Rat
  registered : Bool
  state : WaiterState
  deriving Inhabited

/-- The requests remembered and the responses to them, oldest first, and who waits. -/
structure Requests where
  limit : Limit
  requests : List (String × Fields)
  responses : List (String × Fields)
  waiters : List Waiter
  clock : Rat
  tickets : Nat
  issued : Nat
  deriving Inhabited

/-- What can be asked of the requests. -/
inductive RequestAction where
  | request (fields : Fields)
  | respond (request : Value) (body : Fields)
  | fields (request : Value)
  | response (request : Value)
  | await (request timeout : Value)
  deriving Inhabited

namespace RequestAction

open Arguments

/-- How long somebody waits who does not say so, in seconds. -/
def defaultTimeout : Value := .float (.ofInt 10)

/-- The action that a call by name asks for; `none` when there is none of that name. -/
def ofCall? (name : String) (args : Fields) : Option (Except Fault RequestAction) :=
  match name with
  | "request" => some (.ok (.request args))
  | "respond" => some do
    return .respond (← required args "request") (Table.erase "request" args)
  | "_getRequest" => some do
    exactly ["request"] args
    return .fields (← required args "request")
  | "_getResponse" => some do
    exactly ["request"] args
    return .response (← required args "request")
  | "_awaitResponse" => some do
    exactly ["request", "timeout"] args
    return .await (← required args "request") (optional args "timeout" defaultTimeout)
  | _ => none

end RequestAction

namespace Requests

/-- No requests, with room for `limit`. -/
def empty (limit : Limit) : Requests := ⟨limit, [], [], [], 0, 0, 0⟩

/-- The id with the given number. -/
def requestId (n : Nat) : String := "req-" ++ toString n

/-- The key a value is, if it is a text; what cannot be a key is a misuse. -/
def asKey (v : Value) : Except Fault (Option String) :=
  match v with
  | .str s => .ok (some s)
  | other => if other.hashable then .ok none else .error (.misuse .type)

/-- The waiters that a response to the request would wake. -/
def waitersOn (id : String) (state : Requests) : List Waiter :=
  state.waiters.filter fun w => w.registered && w.request.same (.str id)

/-- Whether a request is answered and nobody waits for it. -/
def isSettled (state : Requests) (id : String) : Bool :=
  Table.has id state.responses && (state.waitersOn id).isEmpty

/-- The remembered requests in the order in which they would be forgotten. -/
def forgettingOrder (state : Requests) : List String :=
  let ids := Table.keys state.requests
  ids.filter state.isSettled ++ ids.filter fun id => !state.isSettled id

/-- The state after the waiters on a request are no longer registered. -/
def release (id : String) (state : Requests) : Requests :=
  { state with
    waiters := state.waiters.map fun w =>
      if w.request.same (.str id) then { w with registered := false } else w }

/-- The state after a request is forgotten, with its response and its waiters' registration. -/
def forget (state : Requests) (id : String) : Requests :=
  release id
    { state with
      requests := Table.erase id state.requests
      responses := Table.erase id state.responses }

/-- The number of requests beyond the limit. -/
def excess (state : Requests) : Except Fault Nat :=
  match state.limit.excess state.requests.length with
  | some n => .ok n
  | none => .error (.misuse .type)

/-- The state after the given number of requests are forgotten. -/
def trim (excess : Nat) (state : Requests) : Requests :=
  (state.forgettingOrder.take excess).foldl forget state

/-- Remembers a request under a new id, and forgets those beyond the limit. -/
def request (fields : Fields) : Effect Requests Answer := do
  let id := requestId ((← get).issued + 1)
  modify fun state =>
    { state with issued := state.issued + 1, requests := Table.set id fields state.requests }
  let excess ← Effect.ofExcept (← get).excess
  modify (trim excess)
  return .fields [("request", .str id)]

/-- The turns that a waiter takes from the response to its end: without a limit of time it has one
less to take. -/
def answeredTurns (w : Waiter) : Nat := if w.timeout.isNull then 2 else 3

/-- The turns that a waiter takes to its end when there was no time to wait. -/
def noTimeTurns : Nat := 2

/-- The turns that a waiter takes to its end when its time has run out. -/
def timeUpTurns : Nat := 5

/-- The turns in which a waiter whose time has run out gives up. A response that comes before them
still counts. -/
def givingUpTurns : Nat := 3

/-- The turns that a response which still counts saves a waiter whose time has run out. -/
def savedTurns : Nat := 2

/-- What becomes of a waiter with a response to its request. -/
def answered (body : Fields) (turns : Nat) : WaiterState → WaiterState
  | .waiting => .decided (.answered body) turns
  | .decided .expired left =>
    if givingUpTurns < left then .decided (.answered body) (left - savedTurns)
    else .decided .expired left
  | state => state

/-- The waiter after a response to its request. -/
def wake (id : String) (body : Fields) (w : Waiter) : Waiter :=
  if w.registered && w.request.same (.str id) then
    { w with registered := false, state := answered body (answeredTurns w) w.state }
  else w

/-- Responds to a request; only the first response counts. -/
def respond (request : Value) (body : Fields) : Effect Requests Answer := do
  let key ← Effect.ofExcept (asKey request)
  let state ← get
  match key.filter fun id => Table.has id state.requests with
  | none =>
    let name ← textOf request
    return .refusal s!"Unknown request '{name}'."
  | some id =>
    if Table.has id state.responses then
      let note := Note.concept .warning
        s!"request {id} already responded; keeping the first response"
      return { Answer.refusal s!"Request '{id}' has already been responded to." with
        notes := [note] }
    set { state with
      responses := Table.set id body state.responses
      waiters := state.waiters.map (wake id body) }
    return .fields [("request", request)]

/-- The fields of a request. -/
def fields (request : Value) : Effect Requests Answer := do
  let key ← Effect.ofExcept (asKey request)
  let state ← get
  match key.bind fun id => Table.get? id state.requests with
  | none =>
    let name ← textOf request
    return .refusal s!"Unknown request '{name}'."
  | some fields => return .fields [("fields", .object fields)]

/-- The response to a request. -/
def responseTo (request : Value) (state : Requests) : Except Fault (Option Fields) := do
  return (← asKey request).bind fun id => Table.get? id state.responses

/-- The response to a request, or a refusal when there is none. -/
def response (request : Value) : Effect Requests Answer := do
  match ← Effect.ofExcept (responseTo request (← get)) with
  | none =>
    let name ← textOf request
    return .refusal s!"No response for request '{name}'."
  | some body => return .fields [("body", .object body)]

/-! ### Waiting -/

/-- The number of seconds that a time-out stands for; a whole number may be beyond the range of
numbers with a fraction. -/
def seconds (timeout : Value) : Except Fault Binary64 :=
  match timeout with
  | .bool b => .ok (.ofInt (if b then 1 else 0))
  | .int n =>
    match Binary64.ofInt n with
    | .infinite _ => .error (.misuse .overflow)
    | x => .ok x
  | .float x => .ok x
  | _ => .error (.misuse .type)

/-- The refusal of a waiter whose time ran out. -/
def timedOut (request timeout : Value) : Except Fault Answer := do
  let name ← request.text.mapError Fault.misuse
  let seconds := (← seconds timeout).generalText
  return .refusal s!"Request '{name}' timed out after {seconds}s without a response."

/-- What becomes of a waiter that starts now, and its deadline. Without a time-out it waits for
ever. -/
def prospect (clock : Rat) (timeout : Value) : WaiterState × Option Rat :=
  match timeout.amount?.map Patience.ofSeconds, seconds timeout with
  | some .none, _ => (.decided .expired noTimeTurns, none)
  | some .moment, _ => (.decided .expired timeUpTurns, none)
  | some (.seconds q), .ok _ => (.waiting, some (clock + q))
  | some (.seconds _), .error fault => (.decided (.faulted fault) 0, none)
  | some .endless, _ => (.waiting, none)
  | none, _ =>
    (if timeout.isNull then .waiting else .decided (.faulted (.misuse .type)) 0, none)

/-- Starts to wait for a response and returns the waiter. When the response is there, the waiter
has ended at once. -/
def start (request timeout : Value) : Effect Requests Waiter := do
  let state ← get
  let ticket := state.tickets + 1
  let ended (how : WaiterEnd) : Waiter := ⟨ticket, request, timeout, none, false, .decided how 0⟩
  let waiter :=
    match responseTo request state with
    | .error fault => ended (.faulted fault)
    | .ok (some body) => ended (.answered body)
    | .ok none =>
      let (future, deadline) := prospect state.clock timeout
      ⟨ticket, request, timeout, deadline, true, future⟩
  set { state with tickets := ticket, waiters := state.waiters ++ [waiter] }
  return waiter

/-- The waiter after the clock has reached `time`. -/
def lapse (time : Rat) (w : Waiter) : Waiter :=
  match w.state, w.deadline with
  | .waiting, some deadline =>
    if deadline ≤ time then { w with state := .decided .expired timeUpTurns } else w
  | _, _ => w

/-- The state at a later time: the waiters whose deadline has come have expired. -/
def expire (time : Rat) (state : Requests) : Requests :=
  { state with
    clock := if state.clock ≤ time then time else state.clock
    waiters := state.waiters.map (lapse time) }

/-- The waiter after a number of turns: one whose time ran out is no longer registered when it has
ended. -/
def takeTurns (turns : Nat) (w : Waiter) : Waiter :=
  match w.state with
  | .waiting => w
  | .decided how left =>
    let stays :=
      match how with
      | .expired => w.registered && turns < left
      | _ => w.registered
    { w with registered := stays, state := .decided how (left - turns) }

/-- The state after every waiter had a number of turns. -/
def resume (turns : Nat) (state : Requests) : Requests :=
  { state with waiters := state.waiters.map (takeTurns turns) }

/-- The state after every waiter had all the turns it takes. -/
def settle (state : Requests) : Requests := resume timeUpTurns state

/-- The waiter with a ticket. -/
def waiter? (ticket : Nat) (state : Requests) : Option Waiter :=
  state.waiters.find? fun w => w.ticket == ticket

/-- The turns until a waiter has ended, if its end is decided. -/
def turnsLeft? (w : Waiter) : Option Nat :=
  match w.state with
  | .waiting => none
  | .decided _ turns => some turns

/-- The state when a waiter has ended. If its end is not decided, everybody takes their turns and
time passes until its deadline. -/
def reach (w : Waiter) (state : Requests) : Requests :=
  match turnsLeft? w, w.deadline with
  | some turns, _ => resume turns state
  | none, some deadline => (expire deadline state.settle).settle
  | none, none => state.settle

/-- What a waiter ends with; one that is never woken ends with a fault. -/
def outcome (w : Waiter) : Except Fault Answer :=
  match w.state with
  | .decided (.answered body) _ => .ok (.fields [("body", .object body)])
  | .decided .expired _ => timedOut w.request w.timeout
  | .decided (.faulted fault) _ => .error fault
  | .waiting => .error (.raised "TimeoutError" "")

/-- What the waiter with a ticket ends with. -/
def outcomeOf (ticket : Nat) (state : Requests) : Except Fault Answer :=
  match state.waiter? ticket with
  | none => .error (.misuse .key)
  | some w => outcome w

/-- Waits for the response to a request. -/
def await (request timeout : Value) : Effect Requests Answer := do
  let w ← start request timeout
  modify (reach w)
  Effect.ofExcept (outcomeOf w.ticket (← get))

end Requests

/-- What an action on the requests does and answers. -/
def RequestAction.run : RequestAction → Effect Requests Answer
  | .request args => Requests.request args
  | .respond id body => Requests.respond id body
  | .fields id => Requests.fields id
  | .response id => Requests.response id
  | .await id timeout => Requests.await id timeout

end HerdBook
