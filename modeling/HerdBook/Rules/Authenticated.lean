import HerdBook.Rules.Shape

/-!
# Routes for users

The rules of a route that is open to users only. The token of a request is looked up; a request
without a valid one is answered with the reason, and a request that lacks fields with their names.

* An `ActionRoute` carries out an action of a concept for the user, and answers with what comes of
  it, which two further rules tell apart by the action's answer.
* A `QueryRoute` asks a query of a concept and answers with its result.
-/

namespace HerdBook

/-- A route that carries out an action. -/
structure ActionRoute where
  concept : String
  action : String
  /-- The fields a request must have. -/
  fields : List String
  /-- The fields a request may leave out, which are then empty texts. -/
  optional : List String
  /-- The fields of the action's answer that the response shows. -/
  success : List String
  /-- What the response says when it shows no fields. -/
  message : String

/-- A route that asks a query. -/
structure QueryRoute where
  concept : String
  query : String
  /-- The fields a request must have. -/
  fields : List String
  /-- The fields of the result, which the response shows. -/
  result : List String

namespace ActionRoute

open Rules

variable {κ : Type}

/-- The name that the route's rules begin with. -/
def name (route : ActionRoute) : String := route.concept ++ "." ++ route.action

/-- The path of the route. -/
def path (route : ActionRoute) : String := "/" ++ route.concept ++ "/" ++ route.action

/-- The rule that carries the action out. -/
def carryOut (lookup : Lookup → κ) (route : ActionRoute) : Rule κ :=
  let rule := route.name ++ ".Request"
  let args := vars rule (route.fields ++ route.optional)
  { name := rule
    patterns := [request rule route.path (("token", var rule "token") :: args)]
    stages := authenticate lookup rule
      ++ [keep (.applicable (symbol rule "user")), keep (.bound (symbols rule route.fields))]
      ++ route.optional.map fun field => orEmpty (symbol rule field)
    actions := [perform route.concept route.action (("user", var rule "user") :: args)] }

/-- What the response to a success shows. -/
def body (route : ActionRoute) (rule : String) : Fields :=
  if route.success.isEmpty then [("message", .str route.message)] else vars rule route.success

/-- The rule that answers when the action succeeded. -/
def succeeded (route : ActionRoute) : Rule κ :=
  let rule := route.name ++ ".Response"
  let args := vars rule route.fields
  { name := rule
    patterns := [request rule route.path args,
      completed route.concept route.action args
        (vars rule route.success ++ [("error", .notApplicable)])]
    stages := []
    actions := [respond rule (route.body rule)] }

/-- The rule that answers when the action was refused. -/
def refused (route : ActionRoute) : Rule κ :=
  let rule := route.name ++ ".Error"
  let args := vars rule route.fields
  { name := rule
    patterns := [request rule route.path args,
      completed route.concept route.action args [("error", var rule "error")]]
    stages := []
    actions := [respond rule [("error", var rule "error")]] }

/-- The rules of the route. -/
def rules (lookup : Lookup → κ) (route : ActionRoute) : List (Rule κ) :=
  [route.carryOut lookup, denied lookup route.name route.path]
    ++ (if route.fields.isEmpty then []
      else [incomplete lookup route.name route.path route.fields])
    ++ [route.succeeded, route.refused]

end ActionRoute

namespace QueryRoute

open Rules

variable {κ : Type}

/-- The name that the route's rules begin with. -/
def name (route : QueryRoute) : String := route.concept ++ "." ++ route.query

/-- The path of the route. -/
def path (route : QueryRoute) : String := "/" ++ route.concept ++ "/" ++ route.query

/-- The rule that asks the query and answers with the given body when the check of its error
holds. -/
def answered (lookup : Lookup → κ) (route : QueryRoute) (ending : String)
    (check : Symbol → Check) (body : String → Fields) : Rule κ :=
  let rule := route.name ++ ending
  let args := vars rule route.fields
  let question := lookup (.answer route.concept route.query route.result)
  { name := rule
    patterns := [request rule route.path (("token", var rule "token") :: args)]
    stages := authenticate lookup rule
      ++ [keep (.applicable (symbol rule "user")), keep (.bound (symbols rule route.fields)),
        ask question (("user", var rule "user") :: args)
          (vars rule route.result ++ [("error", var rule "error")]),
        keep (check (symbol rule "error"))]
    actions := [respond rule (body rule)] }

/-- The rule that answers with the result. -/
def succeeded (lookup : Lookup → κ) (route : QueryRoute) : Rule κ :=
  route.answered lookup ".Result" .inapplicable fun rule => vars rule route.result

/-- The rule that answers with the error of the query. -/
def refused (lookup : Lookup → κ) (route : QueryRoute) : Rule κ :=
  route.answered lookup ".Error" .applicable fun rule => [("error", var rule "error")]

/-- The rules of the route. -/
def rules (lookup : Lookup → κ) (route : QueryRoute) : List (Rule κ) :=
  [route.succeeded lookup, route.refused lookup, denied lookup route.name route.path]
    ++ if route.fields.isEmpty then []
      else [incomplete lookup route.name route.path route.fields]

end QueryRoute

end HerdBook
