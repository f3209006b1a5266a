import HerdBook.Effect
import HerdBook.Value.Equality

/-!
# Stores

A store keeps documents under ids it hands out, in the order of their insertion. Readers get
copies, so what they do with a document cannot change the store. `Store.transaction` makes a
computation all-or-nothing: when it ends in a fault, the documents are those from before it.

An operation can be told to fail at its nth next call (`Store.failAt`). The failure is raised
before the operation does anything, and the calls around it work. What is written is copied, which
fails when collections are nested in each other beyond `Value.deepest`.

Ids are never handed out twice: `issued` counts them and is not part of what a transaction
restores.
-/

namespace HerdBook

/-- The operations of a store. -/
inductive Operation where
  | findOne
  | find
  | insert
  | update
  | delete
  | transaction
  deriving DecidableEq, Inhabited

/-- Documents by id in the order of insertion, the operations that are due to fail with the number
of calls until they do, and the number of ids handed out. -/
structure Store where
  docs : List (String × Fields)
  failing : List (Operation × Nat)
  issued : Nat
  deriving Inhabited

namespace Store

/-- The store without documents. -/
def empty : Store := ⟨[], [], 0⟩

/-- The fault of a store operation that was told to fail. -/
def writeFailed : Fault := .raised "OSError" "write failed"

/-- The store whose operation fails at its `n`th next call; an earlier order for the operation is
void. -/
def failAt (op : Operation) (n : Nat) (store : Store) : Store :=
  { store with failing := Table.set op n store.failing }

/-- One call of an operation as far as failing goes: it fails when it is the one due. -/
def enter (op : Operation) : Effect Store Unit :=
  Effect.ofStep fun store =>
    match Table.get? op store.failing with
    | some (n + 1) =>
      (if n = 0 then .error writeFailed else .ok (), failAt op n store)
    | _ => (.ok (), store)

/-- Whether a document has every given field with the same value; a field it does not have counts
as absent value. -/
def satisfies (criteria : Fields) (doc : Fields) : Bool :=
  criteria.all fun entry => ((Table.get? entry.1 doc).getD .null).same entry.2

/-- The documents that satisfy the criteria, in order. -/
def matching (criteria : Fields) (store : Store) : List Fields :=
  (store.docs.map (·.2)).filter (satisfies criteria)

/-- The documents that satisfy the criteria, in order. -/
def find (criteria : Fields) : Effect Store (List Fields) := do
  enter .find
  return matching criteria (← get)

/-- The first document that satisfies the criteria. -/
def findOne (criteria : Fields) : Effect Store (Option Fields) := do
  enter .findOne
  return (← find criteria).head?

/-- The id with the given number. -/
def docId (n : Nat) : String := "doc-" ++ toString n

/-- The next id. -/
def issue : Effect Store String :=
  Effect.ofStep fun store =>
    (.ok (docId (store.issued + 1)), { store with issued := store.issued + 1 })

/-- The store with a document under an id, which the document holds too. -/
def put (id : String) (doc : Fields) (store : Store) : Store :=
  { store with docs := Table.set id (Table.set "_id" (.str id) doc) store.docs }

/-- A copy of some fields. -/
def copy (fields : Fields) : Except Fault Fields :=
  if (Value.object fields).levels ≤ Value.deepest then .ok fields else .error (.misuse .nesting)

/-- Adds a document and returns its id. -/
def insert (doc : Fields) : Effect Store String := do
  enter .insert
  let id ← issue
  modify (put id (← Effect.ofExcept (copy doc)))
  return id

/-- Sets fields of the document with the id; returns whether there is one. -/
def update (id : String) (changes : Fields) : Effect Store Bool := do
  enter .update
  match Table.get? id (← get).docs with
  | none => return false
  | some doc =>
    let changes ← Effect.ofExcept (copy changes)
    modify fun store => { store with docs := Table.set id (Table.merge doc changes) store.docs }
    return true

/-- Removes the document with the id; returns whether there was one. -/
def delete (id : String) : Effect Store Bool := do
  enter .delete
  let found := Table.has id (← get).docs
  modify fun store => { store with docs := Table.erase id store.docs }
  return found

/-- Runs the computation all-or-nothing: a fault restores the documents and passes on. -/
def transaction {α : Type} (act : Effect Store α) : Effect Store α := do
  enter .transaction
  let before := (← get).docs
  match ← Effect.attempt act with
  | .ok result => return result
  | .error fault =>
    modify fun store => { store with docs := before }
    throw fault

end Store

end HerdBook
