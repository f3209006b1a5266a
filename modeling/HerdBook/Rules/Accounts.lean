import HerdBook.Rules.Shape

/-!
# Routes to the accounts

The rules by which one registers, logs in and logs out. These requests need no user: registering
and logging in take a name and a password, logging out takes the token that is given up.
-/

namespace HerdBook

namespace Rules

variable {κ : Type}

/-- The path of an action of the accounts. -/
def accountPath (action : String) : String := "/" ++ Lookup.accounts ++ "/" ++ action

/-- The name that the rules of an action of the accounts begin with. -/
def accountRoute (action : String) : String := Lookup.accounts ++ "." ++ action

/-- The fields of a request to register or to log in. -/
def credentials : List String := ["username", "password"]

/-- The rule that registers a user or logs one in. -/
def enter (action : String) : Rule κ :=
  let rule := accountRoute action ++ ".Request"
  { name := rule
    patterns := [request rule (accountPath action) (vars rule credentials)]
    stages := [keep (.bound (symbols rule credentials))]
    actions := [perform Lookup.accounts action (vars rule credentials)] }

/-- The rule that answers a request without a name or a password. -/
def enterIncomplete (action : String) : Rule κ :=
  let rule := accountRoute action ++ ".MissingInput"
  { name := rule
    patterns := [request rule (accountPath action) (vars rule credentials)]
    stages := missing rule credentials
    actions := [respond rule [("error", var rule "message")]] }

/-- The rule that answers with a field of the answer to an action; it finds the request by the
fields they share. -/
def relay (action ending : String) (shared : List String) (field : String) : Rule κ :=
  let rule := accountRoute action ++ ending
  { name := rule
    patterns := [request rule (accountPath action) (vars rule shared),
      completed Lookup.accounts action (vars rule shared) [(field, var rule field)]]
    stages := []
    actions := [respond rule [(field, var rule field)]] }

/-- The rules of registering or logging in; `result` is the field that a success answers with. -/
def enterRules (action result : String) : List (Rule κ) :=
  [enter action, enterIncomplete action, relay action ".Response" ["username"] result,
    relay action ".Error" ["username"] "error"]

/-- The rule that logs a user out. -/
def leave : Rule κ :=
  let rule := accountRoute "logout" ++ ".Request"
  { name := rule
    patterns := [request rule (accountPath "logout") (vars rule ["token"])]
    stages := [keep (.bound (symbols rule ["token"]))]
    actions := [perform Lookup.accounts "logout" (vars rule ["token"])] }

/-- The rule that answers when a user is logged out. -/
def left : Rule κ :=
  let rule := accountRoute "logout" ++ ".Response"
  { name := rule
    patterns := [request rule (accountPath "logout") (vars rule ["token"]),
      completed Lookup.accounts "logout" (vars rule ["token"]) [("error", .notApplicable)]]
    stages := []
    actions := [respond rule [("message", .str "Logged out successfully.")]] }

/-- The rules of the accounts. -/
def accountRules : List (Rule κ) :=
  enterRules "register" "user" ++ enterRules "login" "token"
    ++ [leave, left, relay "logout" ".Error" ["token"] "error",
      withoutToken (accountRoute "logout") (accountPath "logout")]

end Rules

end HerdBook
