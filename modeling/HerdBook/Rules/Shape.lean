import HerdBook.Frame.Check
import HerdBook.Lookup
import HerdBook.Rule.Basic

/-!
# The shape of a route's rules

What the rules of all routes are made of: the pattern of a request for a path, the response to it,
and the stages that check it. The symbols of a rule are named after the fields that they stand
for.
-/

namespace HerdBook

namespace Rules

variable {κ : Type}

/-- The concept that requests go through. -/
def requesting : String := "Requesting"

/-- The symbol of a rule for a field. -/
def symbol (rule field : String) : Symbol := .plain rule field

/-- The symbol of a rule for a field, as a value in a pattern or a template. -/
def var (rule field : String) : Value := .symbol (symbol rule field)

/-- Fields that each stand for the symbol of the same name. -/
def vars (rule : String) (fields : List String) : Fields :=
  fields.map fun field => (field, var rule field)

/-- The pattern of a completed action with fields of its input and of its answer. -/
def completed (concept action : String) (inputs outputs : Fields) : Pattern :=
  ⟨concept, action, .object inputs, .object outputs⟩

/-- The action with arguments by name. -/
def perform (concept action : String) (args : Fields) : ActionTemplate :=
  ⟨concept, action, .object args⟩

/-- The stage that calls an adapter with arguments by name and binds fields of its rows. -/
def ask (adapter : κ) (inputs outputs : Fields) : Stage κ :=
  .query adapter (.object inputs) (.object outputs)

/-- The pattern of a request for a path. -/
def request (rule path : String) (inputs : Fields) : Pattern :=
  completed requesting "request" (("path", .str path) :: inputs) [("request", var rule "request")]

/-- The response to the request. -/
def respond (rule : String) (body : Fields) : ActionTemplate :=
  perform requesting "respond" (("request", var rule "request") :: body)

/-- The stage that keeps the frames of which the question holds. -/
def keep (question : Check) : Stage κ := .filter fun frame => question.holds frame

/-- The frame with a symbol bound to the empty text unless it is bound. -/
def bindOrEmpty (s : Symbol) (frame : Frame) : Frame := frame.bind s (frame.getD s (.str ""))

/-- The stage that fills in the empty text for a field that the request left out. -/
def orEmpty (s : Symbol) : Stage κ := .map fun frame => .ok (bindOrEmpty s frame)

/-- The symbols of some fields. -/
def symbols (rule : String) (fields : List String) : List Symbol := fields.map (symbol rule)

/-- The fields whose symbols the frame does not bind. -/
def missingFields (rule : String) (fields : List String) (frame : Frame) : List String :=
  fields.filter fun field => !frame.binds (symbol rule field)

/-- The message that names missing fields. -/
def missingMessage (fields : List String) : String :=
  "Missing required field(s): " ++ ", ".intercalate fields ++ "."

/-- The stages that keep the frames which lack one of the fields, and bind `message` to the words
that name those they lack. -/
def missing (rule : String) (fields : List String) : List (Stage κ) :=
  [.filter fun frame => do return !(← (Check.bound (symbols rule fields)).holds frame),
    .map fun frame =>
      .ok (frame.bind (symbol rule "message")
        (.str (missingMessage (missingFields rule fields frame))))]

/-- The stages that find out who is logged in with the token of the request: `user` is bound to the
user, or `auth_error` to the reason why there is none. -/
def authenticate (lookup : Lookup → κ) (rule : String) : List (Stage κ) :=
  [orEmpty (symbol rule "token"),
    ask (lookup .token) [("token", var rule "token")]
      [("user", var rule "user"), ("error", var rule "auth_error")]]

/-- The rule that answers a request without a token. -/
def withoutToken (route path : String) : Rule κ :=
  let rule := route ++ ".MissingToken"
  { name := rule
    patterns := [request rule path [("token", .notApplicable)]]
    stages := []
    actions := [respond rule [("error", .str Lookup.missingToken)]] }

/-- The rule that answers a request whose token is not that of a user. -/
def denied (lookup : Lookup → κ) (route path : String) : Rule κ :=
  let rule := route ++ ".AuthError"
  { name := rule
    patterns := [request rule path [("token", var rule "token")]]
    stages := authenticate lookup rule ++ [keep (.applicable (symbol rule "auth_error"))]
    actions := [respond rule [("error", var rule "auth_error")]] }

/-- The rule that answers a user's request which lacks fields. -/
def incomplete (lookup : Lookup → κ) (route path : String) (fields : List String) : Rule κ :=
  let rule := route ++ ".MissingInput"
  { name := rule
    patterns := [request rule path (("token", var rule "token") :: vars rule fields)]
    stages := authenticate lookup rule ++ [keep (.applicable (symbol rule "user"))]
      ++ missing rule fields
    actions := [respond rule [("error", var rule "message")]] }

end Rules

end HerdBook
