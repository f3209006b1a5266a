import HerdBook.Store.Basic

/-!
# Programs of store steps

A small language of steps on one store: the operations, a step that raises a fault, and two
scopes for lists of steps, a transaction and a scope that catches faults. Arguments are taken as
they come and checked when the step runs: criteria and changes must be objects and must not use
the names that the operations reserve for themselves.
-/

namespace HerdBook

/-- A step on a store. -/
inductive StoreStep where
  | insert (doc : Value)
  | find (criteria : Value)
  | findOne (criteria : Value)
  | update (id changes : Value)
  | delete (id : Value)
  | raise (fault : Fault)
  /-- A transaction of steps. -/
  | scope (steps : List StoreStep)
  /-- Steps whose fault is caught. -/
  | guarded (steps : List StoreStep)
  deriving Inhabited

/-- What a step answers. -/
inductive StoreReply where
  | value (v : Value)
  | several (replies : List StoreReply)
  | fault (f : Fault)
  deriving Inhabited

namespace StoreStep

/-- Named arguments, of which none may have a reserved name. -/
def namedArguments (reserved : List String) (v : Value) : Except Fault Fields :=
  match v with
  | .object fields =>
    if fields.any fun entry => reserved.contains entry.1 then .error (.misuse .type)
    else .ok fields
  | _ => .error (.misuse .type)

/-- Whether a value is the id of a document; what cannot be a key is a misuse. -/
def asKey (v : Value) : Except Fault (Option String) :=
  match v with
  | .str s => .ok (some s)
  | other => if other.hashable then .ok none else .error (.misuse .type)

mutual

/-- What a step does and answers. -/
def run : StoreStep → Effect Store StoreReply
  | .insert doc => do
    match doc with
    | .object fields => return .value (.str (← Store.insert fields))
    | _ =>
      Store.enter .insert
      let _ ← Store.issue
      throw (.misuse .type)
  | .find criteria => do
    let criteria ← Effect.ofExcept (namedArguments ["self"] criteria)
    return .value (.list ((← Store.find criteria).map .object))
  | .findOne criteria => do
    let criteria ← Effect.ofExcept (namedArguments ["self"] criteria)
    return .value (((← Store.findOne criteria).map Value.object).getD .null)
  | .update id changes => do
    let changes ← Effect.ofExcept (namedArguments ["self", "doc_id"] changes)
    match ← Effect.ofExcept (asKey id) with
    | some id => return .value (.bool (← Store.update id changes))
    | none => return .value (.bool false)
  | .delete id => do
    let key ← if (← get).docs.isEmpty then pure none else Effect.ofExcept (asKey id)
    match key with
    | some id => return .value (.bool (← Store.delete id))
    | none => return .value (.bool false)
  | .raise fault => throw fault
  | .scope steps => do return .several (← Store.transaction (runAll steps))
  | .guarded steps => do
    match ← Effect.attempt (runAll steps) with
    | .ok replies => return .several replies
    | .error fault => return .fault fault

/-- What the steps do, in order, and answer. -/
def runAll : List StoreStep → Effect Store (List StoreReply)
  | [] => pure []
  | step :: rest => do
    let reply ← run step
    let replies ← runAll rest
    return reply :: replies

end

end StoreStep

end HerdBook
