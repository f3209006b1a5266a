import HerdBook.Rules.Shape

/-!
# The route to the status of an animal

Here the token is verified by an action that is recorded, not by a lookup: the request and the
verification are two events, joined on the token. A request without a token is never verified.
-/

namespace HerdBook

namespace Rules

variable {κ : Type}

/-- The concept of the animals. -/
def animals : String := "AnimalIdentity"

/-- The action that sets a status. -/
def updateStatus : String := "updateStatus"

/-- The name that the rules of the route begin with. -/
def statusRoute : String := animals ++ "." ++ updateStatus

/-- The path of the route. -/
def statusPath : String := "/" ++ animals ++ "/" ++ updateStatus

/-- The fields of a request besides the token. -/
def statusFields : List String := ["animal", "status"]

/-- The pattern of a verification of the token that answers with a field. -/
def verification (rule field : String) : Pattern :=
  completed Lookup.accounts Lookup.verify (vars rule ["token"]) [(field, var rule field)]

/-- The pattern of a request with a token. -/
def statusRequest (rule : String) : Pattern :=
  request rule statusPath (vars rule ("token" :: statusFields))

/-- The rule that has the token verified. -/
def statusVerify : Rule κ :=
  let rule := statusRoute ++ ".Verify"
  { name := rule
    patterns := [request rule statusPath (vars rule ["token"])]
    stages := [keep (.bound (symbols rule ["token"]))]
    actions := [perform Lookup.accounts Lookup.verify (vars rule ["token"])] }

/-- The rule that sets the status. -/
def statusUpdate : Rule κ :=
  let rule := statusRoute ++ ".Request"
  { name := rule
    patterns := [statusRequest rule, verification rule "user"]
    stages := [keep (.bound (symbols rule statusFields))]
    actions := [perform animals updateStatus (vars rule ("user" :: statusFields))] }

/-- The rule that answers a verified request which lacks fields. -/
def statusIncomplete : Rule κ :=
  let rule := statusRoute ++ ".MissingInput"
  { name := rule
    patterns := [statusRequest rule, verification rule "user"]
    stages := missing rule statusFields
    actions := [respond rule [("error", var rule "message")]] }

/-- The rule that answers when the token is not that of a user. -/
def statusDenied : Rule κ :=
  let rule := statusRoute ++ ".AuthError"
  { name := rule
    patterns := [request rule statusPath (vars rule ["token"]), verification rule "error"]
    stages := []
    actions := [respond rule [("error", var rule "error")]] }

/-- The rule that answers when the status is set. -/
def statusUpdated : Rule κ :=
  let rule := statusRoute ++ ".Response"
  { name := rule
    patterns := [request rule statusPath (vars rule statusFields),
      completed animals updateStatus (vars rule statusFields) [("error", .notApplicable)]]
    stages := []
    actions := [respond rule [("message", .str "Animal status updated successfully.")]] }

/-- The rule that answers when setting the status was refused. -/
def statusRefused : Rule κ :=
  let rule := statusRoute ++ ".Error"
  { name := rule
    patterns := [request rule statusPath (vars rule statusFields),
      completed animals updateStatus (vars rule statusFields) [("error", var rule "error")]]
    stages := []
    actions := [respond rule [("error", var rule "error")]] }

/-- The rules of the route. -/
def statusRules : List (Rule κ) :=
  [statusVerify, statusUpdate, statusIncomplete, statusDenied, statusUpdated, statusRefused,
    withoutToken statusRoute statusPath]

end Rules

end HerdBook
