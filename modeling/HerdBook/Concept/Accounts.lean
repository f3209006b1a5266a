import HerdBook.Concept.Call
import HerdBook.Store.Basic

/-!
# Accounts

Users with passwords, and the sessions that logging in opens. A user name doubles as the user's
id. Of a password only a derived key is stored, together with the salt it was derived with; how a
key is derived is a parameter, `derive password salt`.

* `AccountAction` lists what can be asked, `AccountAction.ofCall?` reads a call.
* `AccountAction.run` answers it.
-/

namespace HerdBook

/-- The documents of the users, the open sessions by token in the order they were opened, and the
number of tokens handed out. -/
structure Accounts where
  users : Store
  sessions : List (String × Value)
  tokens : Nat
  deriving Inhabited

/-- What can be asked of the accounts. -/
inductive AccountAction where
  | register (username password : Value)
  | login (username password : Value)
  | verify (token : Value)
  | logout (token : Value)
  | username (user : Value)
  /-- The key derived from a password. -/
  | deriveKey (password salt : Value)
  deriving Inhabited

namespace AccountAction

open Arguments

/-- The action that a call by name asks for; `none` when there is none of that name. -/
def ofCall? (name : String) (args : Fields) : Option (Except Fault AccountAction) :=
  match name with
  | "register" => some do
    exactly ["username", "password"] args
    return .register (← required args "username") (← required args "password")
  | "login" => some do
    exactly ["username", "password"] args
    return .login (← required args "username") (← required args "password")
  | "verify" => some do
    exactly ["token"] args
    return .verify (← required args "token")
  | "logout" => some do
    exactly ["token"] args
    return .logout (← required args "token")
  | "_getUsername" => some do
    exactly ["user"] args
    return .username (← required args "user")
  | "_hash" => some do
    exactly ["password", "salt"] args
    return .deriveKey (← required args "password") (← required args "salt")
  | _ => none

end AccountAction

namespace Accounts

/-- The accounts without users and sessions. -/
def empty : Accounts := ⟨.empty, [], 0⟩

/-- Runs a computation on the users' documents. -/
def onUsers {α : Type} (act : Effect Store α) : Effect Accounts α :=
  Effect.focus Accounts.users (fun store accounts => { accounts with users := store }) act

/-- A value as a text that has bytes. -/
def encodable : Value → Except Fault String
  | .str s =>
    match Half.plain? s with
    | some text => .ok text
    | none => .error (.misuse .encoding)
  | _ => .error (.misuse .attribute)

/-- The key derived from a password and a salt, which must both be texts that have bytes. -/
def keyOf (derive : String → String → String) (password salt : Value) : Except Fault Value := do
  let password ← encodable password
  let salt ← encodable salt
  return .str (derive password salt)

/-- The token with the given number. -/
def tokenText (n : Nat) : String := "tok-" ++ toString n

/-- The salt of the account that is stored next. -/
def nextSalt (accounts : Accounts) : Value := .str ("salt-" ++ toString (accounts.users.issued + 1))

/-- Adds a user. -/
def register (derive : String → String → String) (username password : Value) :
    Effect Accounts Answer := do
  if ← Effect.ofExcept username.isBlankName then return .refusal "Username cannot be empty."
  if !password.truthy then return .refusal "Password cannot be empty."
  match ← onUsers (Store.findOne [("username", username)]) with
  | some _ =>
    let name ← textOf username
    return .refusal s!"Username '{name}' is already taken."
  | none =>
    let salt := nextSalt (← get)
    let key ← Effect.ofExcept (keyOf derive password salt)
    let _ ← onUsers (Store.insert [("username", username), ("salt", salt), ("hash", key)])
    return .fields [("user", username)]

/-- Opens a session for a user with the password. -/
def login (derive : String → String → String) (username password : Value) :
    Effect Accounts Answer := do
  match ← onUsers (Store.findOne [("username", username)]) with
  | none => return .refusal "Invalid username or password."
  | some user =>
    let key ← Effect.ofExcept (keyOf derive password ((Table.get? "salt" user).getD .null))
    if !key.same ((Table.get? "hash" user).getD .null) then
      return .refusal "Invalid username or password."
    let token := tokenText ((← get).tokens + 1)
    modify fun accounts =>
      { accounts with
        tokens := accounts.tokens + 1
        sessions := Table.set token username accounts.sessions }
    return .fields [("token", .str token)]

/-- The user of a session; a token that cannot be a key is a misuse. -/
def userOf (token : Value) (accounts : Accounts) : Except Fault (Option Value) :=
  match token with
  | .str token =>
    .ok ((Table.get? token accounts.sessions).bind fun user =>
      if user.isNull then none else some user)
  | other => if other.hashable then .ok none else .error (.misuse .type)

/-- The user whose session a token belongs to. -/
def verify (token : Value) : Effect Accounts Answer := do
  if !token.truthy then return .refusal "invalid token"
  match ← Effect.ofExcept (userOf token (← get)) with
  | none => return .refusal "invalid token"
  | some user => return .fields [("user", user)]

/-- Closes the session of a token. While no session is open, no token has one, whatever it is. -/
def logout (token : Value) : Effect Accounts Answer := do
  if (← get).sessions.isEmpty then return .refusal "invalid token"
  let user ← Effect.ofExcept (userOf token (← get))
  match token with
  | .str token =>
    modify fun accounts => { accounts with sessions := Table.erase token accounts.sessions }
  | _ => pure ()
  match user with
  | none => return .refusal "invalid token"
  | some _ => return .done

/-- The name of a user. -/
def nameOf (user : Value) : Effect Accounts Answer := do
  match ← onUsers (Store.findOne [("username", user)]) with
  | none =>
    let name ← textOf user
    return .refusal s!"User '{name}' not found."
  | some doc => return .fields [("username", (Table.get? "username" doc).getD .null)]

end Accounts

/-- What an action on the accounts does and answers. -/
def AccountAction.run (derive : String → String → String) :
    AccountAction → Effect Accounts Answer
  | .register name password => Accounts.register derive name password
  | .login name password => Accounts.login derive name password
  | .verify token => Accounts.verify token
  | .logout token => Accounts.logout token
  | .username user => Accounts.nameOf user
  | .deriveKey password salt => do
    return ⟨← Effect.ofExcept (Accounts.keyOf derive password salt), []⟩

end HerdBook
