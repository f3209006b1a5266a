import HerdBook.Concept.Call
import HerdBook.Store.Basic

/-!
# Herds

Named herds of animals, each owned by a user. A herd is archived before it is removed, and an
archived herd has no members and cannot be changed until it is restored.

Animals are regrouped in three ways: moving one animal, merging a herd into another, and splitting
animals off into a herd that may be new. Each of them changes two documents in one transaction,
and a failure of the store is reported as a refusal.

* `HerdAction` lists what can be asked, `HerdAction.ofCall?` reads a call.
* `HerdAction.run` answers it.
-/

namespace HerdBook

/-- What can be asked of the herds. -/
inductive HerdAction where
  | create (user name description : Value)
  | add (user herd animal : Value)
  | remove (user herd animal : Value)
  | move (user source target animal : Value)
  | merge (user keep archive : Value)
  | split (user source target animals : Value)
  | delete (user herd : Value)
  | restore (user herd : Value)
  | members (user herd : Value)
  | listActive (user : Value)
  | listArchived (user : Value)
  /-- The document of a herd. -/
  | lookUp (user herd : Value)
  /-- The document of a herd that may be changed. -/
  | lookUpActive (user herd role : Value)
  deriving Inhabited

namespace HerdAction

open Arguments

/-- The action that a call by name asks for; `none` when there is none of that name. -/
def ofCall? (name : String) (args : Fields) : Option (Except Fault HerdAction) :=
  match name with
  | "createHerd" => some do
    exactly ["user", "name", "description"] args
    return .create (← required args "user") (← required args "name")
      (optional args "description" (.str ""))
  | "addAnimal" => some do
    exactly ["user", "herdName", "animal"] args
    return .add (← required args "user") (← required args "herdName") (← required args "animal")
  | "removeAnimal" => some do
    exactly ["user", "herdName", "animal"] args
    return .remove (← required args "user") (← required args "herdName") (← required args "animal")
  | "moveAnimal" => some do
    exactly ["user", "sourceHerdName", "targetHerdName", "animal"] args
    return .move (← required args "user") (← required args "sourceHerdName")
      (← required args "targetHerdName") (← required args "animal")
  | "mergeHerds" => some do
    exactly ["user", "herdNameToKeep", "herdNameToArchive"] args
    return .merge (← required args "user") (← required args "herdNameToKeep")
      (← required args "herdNameToArchive")
  | "splitHerd" => some do
    exactly ["user", "sourceHerdName", "targetHerdName", "animalsToMove"] args
    return .split (← required args "user") (← required args "sourceHerdName")
      (← required args "targetHerdName") (← required args "animalsToMove")
  | "deleteHerd" => some do
    exactly ["user", "herdName"] args
    return .delete (← required args "user") (← required args "herdName")
  | "restoreHerd" => some do
    exactly ["user", "herdName"] args
    return .restore (← required args "user") (← required args "herdName")
  | "_viewComposition" => some do
    exactly ["user", "herdName"] args
    return .members (← required args "user") (← required args "herdName")
  | "_listActiveHerds" => some do
    exactly ["user"] args
    return .listActive (← required args "user")
  | "_listArchivedHerds" => some do
    exactly ["user"] args
    return .listArchived (← required args "user")
  | "_herd" => some do
    exactly ["user", "name"] args
    return .lookUp (← required args "user") (← required args "name")
  | "_active" => some do
    exactly ["user", "name", "role"] args
    return .lookUpActive (← required args "user") (← required args "name")
      (optional args "role" (.str "Herd"))
  | _ => none

end HerdAction

namespace Herds

/-- The document of a new herd without members. -/
def document (user name description : Value) : Fields :=
  [("userId", user), ("name", name), ("description", description), ("members", .list []),
    ("isArchived", .bool false)]

/-- The members a herd's document lists. -/
def membersOf (herd : Fields) : List Value :=
  ((Table.get? "members" herd).bind Value.items?).getD []

/-- Whether a herd's document says it is archived. -/
def isArchived (herd : Fields) : Bool := ((Table.get? "isArchived" herd).getD .null).truthy

/-- The id of a stored document. -/
def idOf (doc : Fields) : String :=
  match Table.get? "_id" doc with
  | some (.str id) => id
  | _ => ""

/-- The members together with those of `extra` that are not among them. -/
def union (members extra : List Value) : List Value :=
  members ++ extra.filter fun animal => !animal.isIn members

/-- The members other than the animal. -/
def without (members : List Value) (animal : Value) : List Value :=
  members.filter fun member => !member.same animal

/-- What a list of herds shows of each. -/
def summary (herd : Fields) : Value :=
  .object [("name", (Table.get? "name" herd).getD .null),
    ("description", (Table.get? "description" herd).getD (.str "")),
    ("isArchived", (Table.get? "isArchived" herd).getD .null)]

/-- The herd of that owner and name. -/
def herd? (user name : Value) : Effect Store (Option Fields) :=
  Store.findOne [("userId", user), ("name", name)]

/-- The herd of that owner and name if it may be changed, or else the refusal; `role` is what the
refusal calls it. -/
def active (user name role : Value) : Effect Store (Except Answer Fields) := do
  match ← herd? user name with
  | none =>
    let what ← textOf role
    let herdName ← textOf name
    let owner ← textOf user
    return .error (.refusal s!"{what} '{herdName}' not found for user '{owner}'.")
  | some herd =>
    if !isArchived herd then return .ok herd
    let what ← textOf role
    let herdName ← textOf name
    return .error (.refusal s!"{what} '{herdName}' is archived and cannot be modified.")

/-- The refusal for a herd that does not exist. -/
def notFound (user herdName : Value) : Effect Store Answer := do
  let name ← textOf herdName
  let owner ← textOf user
  return .refusal s!"Herd '{name}' not found for user '{owner}'."

/-- Sets the members of a stored herd. -/
def setMembers (herd : Fields) (members : List Value) : Effect Store Unit := do
  let _ ← Store.update (idOf herd) [("members", .list members)]

/-- Empties a stored herd and marks it as archived. -/
def archive (herd : Fields) : Effect Store Unit := do
  let _ ← Store.update (idOf herd) [("isArchived", .bool true), ("members", .list [])]

/-- Runs a regrouping; when it ends in a fault, the answer is a refusal and the log says which
action failed. -/
def reporting (action reason : String) (act : Effect Store Answer) : Effect Store Answer := do
  match ← Effect.attempt act with
  | .ok answer => return answer
  | .error _ =>
    return { Answer.refusal reason with notes := [.concept .error (action ++ " failed")] }

/-- The items of a list that satisfy a test which may be a misuse. -/
def filterM (test : Value → Except Misuse Bool) : List Value → Except Misuse (List Value)
  | [] => .ok []
  | v :: vs => do
    let holds ← test v
    let kept ← filterM test vs
    return if holds then v :: kept else kept

/-- The texts of a list, which must all be texts. -/
def allTexts : List Value → Except Fault (List String)
  | [] => .ok []
  | .str s :: vs => do return s :: (← allTexts vs)
  | _ :: _ => .error (.misuse .type)

/-- Creates a herd without members. -/
def create (user name description : Value) : Effect Store Answer := do
  if ← Effect.ofExcept name.isBlankName then return .refusal "Herd name cannot be empty."
  let taken ← Store.transaction do
    match ← herd? user name with
    | some _ => return true
    | none =>
      let _ ← Store.insert (document user name description)
      return false
  if taken then
    let herdName ← textOf name
    let owner ← textOf user
    return .refusal s!"Herd '{herdName}' already exists for user '{owner}'."
  return .fields [("herdName", name)]

/-- Adds an animal to a herd. -/
def add (user herdName animal : Value) : Effect Store Answer := do
  match ← active user herdName (.str "Herd") with
  | .error refusal => return refusal
  | .ok herd =>
    if animal.isIn (membersOf herd) then
      let id ← textOf animal
      let name ← textOf herdName
      return .refusal s!"Animal '{id}' is already a member of herd '{name}'."
    setMembers herd (membersOf herd ++ [animal])
    return .done

/-- Removes an animal from a herd. -/
def remove (user herdName animal : Value) : Effect Store Answer := do
  match ← active user herdName (.str "Herd") with
  | .error refusal => return refusal
  | .ok herd =>
    if !animal.isIn (membersOf herd) then
      let id ← textOf animal
      let name ← textOf herdName
      return .refusal s!"Animal '{id}' is not a member of herd '{name}'."
    setMembers herd (without (membersOf herd) animal)
    return .done

/-- Moves an animal from one herd to another. -/
def move (user sourceName targetName animal : Value) : Effect Store Answer := do
  if sourceName.same targetName then
    return .refusal "Source and target herds cannot be the same for moving an animal."
  match ← active user sourceName (.str "Source herd") with
  | .error refusal => return refusal
  | .ok source =>
    match ← active user targetName (.str "Target herd") with
    | .error refusal => return refusal
    | .ok target =>
      if !animal.isIn (membersOf source) then
        let id ← textOf animal
        let name ← textOf sourceName
        return .refusal s!"Animal '{id}' is not a member of source herd '{name}'."
      reporting "moveAnimal" "Failed to move animal due to a storage error."
        (Store.transaction do
          setMembers source (without (membersOf source) animal)
          setMembers target (union (membersOf target) [animal])
          return .done)

/-- Moves all animals of a herd into another one and archives the herd. -/
def merge (user keepName goneName : Value) : Effect Store Answer := do
  if keepName.same goneName then return .refusal "Cannot merge a herd into itself."
  reporting "mergeHerds" "Failed to merge herds due to a storage error."
    (Store.transaction do
      match ← active user keepName (.str "Herd") with
      | .error refusal => return refusal
      | .ok keep =>
        match ← herd? user goneName with
        | none => notFound user goneName
        | some gone =>
          if isArchived gone then
            let name ← textOf goneName
            return .refusal s!"Herd '{name}' is already archived."
          setMembers keep (union (membersOf keep) (membersOf gone))
          archive gone
          return .done)

/-- The herd that animals are split off into, created if there is none; a refusal when it is
archived. -/
def splitTarget (user targetName : Value) : Effect Store (Except Answer Fields) := do
  match ← herd? user targetName with
  | none =>
    let id ← Store.insert (document user targetName (.str ""))
    return .ok [("_id", .str id), ("members", .list [])]
  | some target =>
    if !isArchived target then return .ok target
    let name ← textOf targetName
    return .error (.refusal s!"Target herd '{name}' is archived and cannot be split into.")

/-- Moves animals of a herd into another one, which may be new. -/
def split (user sourceName targetName animals : Value) : Effect Store Answer := do
  if sourceName.same targetName then
    return .refusal "Source and target herds cannot be the same for splitting."
  if !animals.truthy then return .refusal "No animals specified to move for splitting."
  match ← active user sourceName (.str "Source herd") with
  | .error refusal => return refusal
  | .ok source =>
    let moving ← Effect.ofExcept (animals.elements.mapError Fault.misuse)
    let missing := moving.filter fun animal => !animal.isIn (membersOf source)
    if !missing.isEmpty then
      let names := ", ".intercalate (← Effect.ofExcept (allTexts missing))
      let name ← textOf sourceName
      return .refusal s!"Animals {names} are not members of the source herd '{name}'."
    reporting "splitHerd" "Failed to split herd due to a storage error."
      (Store.transaction do
        match ← splitTarget user targetName with
        | .error refusal => return refusal
        | .ok target =>
          let staying := filterM (fun member => (animals.contains member).map (!·))
            (membersOf source)
          let staying ← Effect.ofExcept (staying.mapError Fault.misuse)
          setMembers source staying
          setMembers target (union (membersOf target) moving)
          return .done)

/-- Archives a herd, or removes it when it is archived already. -/
def delete (user herdName : Value) : Effect Store Answer := do
  match ← herd? user herdName with
  | none => notFound user herdName
  | some herd =>
    if isArchived herd then
      let _ ← Store.delete (idOf herd)
      return .done
    else
      archive herd
      return .done

/-- Takes a herd out of the archive. -/
def restore (user herdName : Value) : Effect Store Answer := do
  match ← herd? user herdName with
  | none => notFound user herdName
  | some herd =>
    if !isArchived herd then
      let name ← textOf herdName
      return .refusal s!"Herd '{name}' is not archived and cannot be restored."
    let _ ← Store.update (idOf herd) [("isArchived", .bool false)]
    return .done

/-- The members of a herd. -/
def members (user herdName : Value) : Effect Store Answer := do
  match ← herd? user herdName with
  | none => notFound user herdName
  | some herd => return .fields [("animals", (Table.get? "members" herd).getD .null)]

/-- The herds of a user, archived or not. -/
def list (user : Value) (archived : Bool) : Effect Store Answer := do
  let herds ← Store.find [("userId", user), ("isArchived", .bool archived)]
  return .fields [("herds", .list (herds.map summary))]

end Herds

/-- What an action on the herds does and answers. -/
def HerdAction.run : HerdAction → Effect Store Answer
  | .create user name description => Herds.create user name description
  | .add user herd animal => Herds.add user herd animal
  | .remove user herd animal => Herds.remove user herd animal
  | .move user source target animal => Herds.move user source target animal
  | .merge user keep archive => Herds.merge user keep archive
  | .split user source target animals => Herds.split user source target animals
  | .delete user herd => Herds.delete user herd
  | .restore user herd => Herds.restore user herd
  | .members user herd => Herds.members user herd
  | .listActive user => Herds.list user false
  | .listArchived user => Herds.list user true
  | .lookUp user herd => do
    return ⟨((← Herds.herd? user herd).map Value.object).getD .null, []⟩
  | .lookUpActive user herd role => do
    match ← Herds.active user herd role with
    | .error refusal => return refusal
    | .ok found => return .fields found

end HerdBook
