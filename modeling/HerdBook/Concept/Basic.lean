import HerdBook.Concept.Accounts
import HerdBook.Concept.Animals
import HerdBook.Concept.Herds
import HerdBook.Concept.Requests
import HerdBook.Digest.KeyDerivation

/-!
# The concepts of the herd book

The four concepts under one type, so that they can be registered by name. A concept answers calls
by name (`Concept.answer?`). Ids are numbered across all concepts of an engine: the numbers handed
out so far are passed in and out (`Issued`).
-/

namespace HerdBook

/-- The numbers of ids handed out: of documents, of requests and of tokens, and of the tickets of
those who wait. -/
structure Issued where
  documents : Nat
  requests : Nat
  tokens : Nat
  tickets : Nat
  deriving DecidableEq, Inhabited

/-- No ids handed out. -/
def Issued.none : Issued := ⟨0, 0, 0, 0⟩

/-- A concept and its state. -/
inductive Concept where
  | requests (state : Requests)
  | accounts (state : Accounts)
  | herds (state : Store)
  | animals (state : Store)
  deriving Inhabited

namespace Concept

/-- The four concepts. -/
inductive Kind where
  | requests
  | accounts
  | herds
  | animals
  deriving DecidableEq, Inhabited

/-- The name under which a concept is registered. -/
def Kind.name : Kind → String
  | .requests => "Requesting"
  | .accounts => "UserAuthentication"
  | .herds => "HerdGrouping"
  | .animals => "AnimalIdentity"

/-- The number of requests remembered unless told otherwise. -/
def defaultLimit : Limit := .count 1024

/-- A concept in its first state; `limit` says how many requests are remembered. -/
def start (kind : Kind) (limit : Limit) : Concept :=
  match kind with
  | .requests => .requests (.empty limit)
  | .accounts => .accounts .empty
  | .herds => .herds .empty
  | .animals => .animals .empty

/-- What a call has come to: its outcome, the concept afterwards, and the ids handed out. -/
structure Turn where
  outcome : Except Fault Answer
  concept : Concept
  issued : Issued

/-- Runs a computation on requests. -/
def onRequests (state : Requests) (issued : Issued) (act : Effect Requests Answer) : Turn :=
  let (outcome, state) :=
    act.run { state with issued := issued.requests, tickets := issued.tickets }
  ⟨outcome, .requests state, { issued with requests := state.issued, tickets := state.tickets }⟩

/-- Runs a computation on accounts. -/
def onAccounts (state : Accounts) (issued : Issued) (act : Effect Accounts Answer) : Turn :=
  let users := { state.users with issued := issued.documents }
  let (outcome, state) := act.run { state with users := users, tokens := issued.tokens }
  ⟨outcome, .accounts state,
    { issued with documents := state.users.issued, tokens := state.tokens }⟩

/-- Runs a computation on the store of a concept that has nothing else. -/
def onStore (make : Store → Concept) (store : Store) (issued : Issued)
    (act : Effect Store Answer) : Turn :=
  let (outcome, store) := act.run { store with issued := issued.documents }
  ⟨outcome, make store, { issued with documents := store.issued }⟩

/-- What a call by name comes to; `none` when the concept has no action of that name. -/
def answer? (action : String) (args : Fields) (concept : Concept) (issued : Issued) :
    Option Turn :=
  match concept with
  | .requests state =>
    (RequestAction.ofCall? action args).map fun reading =>
      onRequests state issued do (← Effect.ofExcept reading).run
  | .accounts state =>
    (AccountAction.ofCall? action args).map fun reading =>
      onAccounts state issued do (← Effect.ofExcept reading).run KeyDerivation.deriveHex
  | .herds store =>
    (HerdAction.ofCall? action args).map fun reading =>
      onStore .herds store issued do (← Effect.ofExcept reading).run
  | .animals store =>
    (AnimalAction.ofCall? action args).map fun reading =>
      onStore .animals store issued do (← Effect.ofExcept reading).run

/-- Whether the concept has an action of that name. -/
def offers (concept : Concept) (action : String) : Bool :=
  match concept with
  | .requests _ => (RequestAction.ofCall? action []).isSome
  | .accounts _ => (AccountAction.ofCall? action []).isSome
  | .herds _ => (HerdAction.ofCall? action []).isSome
  | .animals _ => (AnimalAction.ofCall? action []).isSome

/-- The concept with its store changed, where it keeps documents. -/
def onDocuments (f : Store → Store) : Concept → Concept
  | .requests state => .requests state
  | .accounts state => .accounts { state with users := f state.users }
  | .herds store => .herds (f store)
  | .animals store => .animals (f store)

end Concept

end HerdBook
