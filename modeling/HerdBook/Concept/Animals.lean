import HerdBook.Concept.Call
import HerdBook.Store.Basic

/-!
# Animals

The records of a user's animals: identity, species, sex and status. A record starts alive; it
leaves the herd book at most once, by death, sale or transfer, and the reason is kept in its
notes.

* `AnimalAction` lists what can be asked, `AnimalAction.ofCall?` reads a call.
* `AnimalAction.run` answers it.
-/

namespace HerdBook

/-- How an animal leaves the herd book. -/
inductive Departure where
  | transferred
  | deceased
  | sold
  deriving DecidableEq, Inhabited

/-- What can be asked of the animal records. -/
inductive AnimalAction where
  | register (user id species sex birthDate breed notes : Value)
  | setStatus (user animal status notes : Value)
  | edit (user animal species breed birthDate sex : Value)
  /-- Records that an animal left the herd book; `remark` is the detail its notes keep. -/
  | retire (departure : Departure) (user animal date remark : Value)
  | remove (user animal : Value)
  | present (user id : Value)
  | presentAll (user : Value)
  /-- The document of an animal. -/
  | lookUp (user animal : Value)
  deriving Inhabited

namespace AnimalAction

open Arguments

/-- The action that a call by name asks for; `none` when there is none of that name. -/
def ofCall? (name : String) (args : Fields) : Option (Except Fault AnimalAction) :=
  match name with
  | "registerAnimal" => some do
    exactly ["user", "id", "species", "sex", "birthDate", "breed", "notes"] args
    return .register (← required args "user") (← required args "id") (← required args "species")
      (← required args "sex") (optional args "birthDate" .null) (optional args "breed" (.str ""))
      (optional args "notes" (.str ""))
  | "updateStatus" => some do
    exactly ["user", "animal", "status", "notes"] args
    return .setStatus (← required args "user") (← required args "animal")
      (← required args "status") (optional args "notes" (.str ""))
  | "editDetails" => some do
    exactly ["user", "animal", "species", "breed", "birthDate", "sex"] args
    return .edit (← required args "user") (← required args "animal") (← required args "species")
      (← required args "breed") (← required args "birthDate") (← required args "sex")
  | "markAsTransferred" => some do
    exactly ["user", "animal", "date", "recipientNotes"] args
    return .retire .transferred (← required args "user") (← required args "animal")
      (← required args "date") (optional args "recipientNotes" (.str ""))
  | "markAsDeceased" => some do
    exactly ["user", "animal", "date", "cause"] args
    return .retire .deceased (← required args "user") (← required args "animal")
      (← required args "date") (optional args "cause" (.str ""))
  | "markAsSold" => some do
    exactly ["user", "animal", "date", "buyerNotes"] args
    return .retire .sold (← required args "user") (← required args "animal")
      (← required args "date") (optional args "buyerNotes" (.str ""))
  | "removeAnimal" => some do
    exactly ["user", "animal"] args
    return .remove (← required args "user") (← required args "animal")
  | "_getAnimal" => some do
    exactly ["user", "id"] args
    return .present (← required args "user") (← required args "id")
  | "_getAllAnimals" => some do
    exactly ["user"] args
    return .presentAll (← required args "user")
  | "_owned" => some do
    exactly ["user", "animal"] args
    return .lookUp (← required args "user") (← required args "animal")
  | _ => none

end AnimalAction

namespace Departure

/-- The status of an animal that left the herd book. -/
def status : Departure → String
  | .transferred => "transferred"
  | .deceased => "deceased"
  | .sold => "sold"

/-- What stands for a remark that is empty. -/
def noRemark : Departure → String
  | .deceased => "unspecified"
  | _ => "None"

/-- The notes that say why and when an animal left. -/
def notes (date remark : String) : Departure → String
  | .transferred => s!"Transferred on {date}. Recipient notes: {remark}."
  | .deceased => s!"Deceased on {date}. Cause: {remark}."
  | .sold => s!"Sold on {date}. Buyer notes: {remark}."

end Departure

namespace Animals

/-- The sexes a record can have. -/
def sexes : List String := ["male", "female", "neutered"]

/-- The statuses a record can have. -/
def statuses : List String := ["alive", "sold", "deceased", "transferred"]

/-- Whether a value is one of the texts. -/
def isOneOf (v : Value) (texts : List String) : Bool := v.isIn (texts.map .str)

/-- The document of a new record. -/
def document (user id species sex birthDate breed notes : Value) : Fields :=
  [("ownerId", user), ("animalId", id), ("species", species), ("breed", breed.orElse (.str "")),
    ("sex", sex), ("status", .str "alive"), ("notes", notes.orElse (.str "")),
    ("birthDate", birthDate.orElse .null)]

/-- A field of a document. -/
def fieldOf (doc : Fields) (name : String) : Value := (Table.get? name doc).getD .null

/-- The id of a stored document. -/
def idOf (doc : Fields) : String :=
  match Table.get? "_id" doc with
  | some (.str id) => id
  | _ => ""

/-- What is shown of a record. -/
def shown (doc : Fields) : Value :=
  .object [("id", fieldOf doc "animalId"), ("species", fieldOf doc "species"),
    ("breed", fieldOf doc "breed"), ("sex", fieldOf doc "sex"), ("status", fieldOf doc "status"),
    ("notes", fieldOf doc "notes"), ("birthDate", fieldOf doc "birthDate")]

/-- The record of that owner and animal. -/
def owned? (user animal : Value) : Effect Store (Option Fields) :=
  Store.findOne [("ownerId", user), ("animalId", animal)]

/-- The refusal for an animal that does not exist. -/
def notFound (user animal : Value) : Effect Store Answer := do
  let id ← textOf animal
  let owner ← textOf user
  return .refusal s!"Animal with ID '{id}' not found for user '{owner}'."

/-- The refusal for a sex or a status that does not exist. -/
def invalid (what : String) (v : Value) (expected : List String) : Effect Store Answer := do
  let listed := ", ".intercalate expected
  let given ← textOf v
  return .refusal s!"Invalid {what} '{given}'. Expected one of: {listed}."

/-- Sets fields of a stored record. -/
def change (doc changes : Fields) : Effect Store Answer := do
  let _ ← Store.update (idOf doc) changes
  return .done

/-- Adds a record. -/
def register (user id species sex birthDate breed notes : Value) : Effect Store Answer := do
  if !id.truthy then return .refusal "Animal id cannot be empty."
  if !species.truthy then return .refusal "Species cannot be empty."
  if !isOneOf sex sexes then return ← invalid "sex" sex sexes
  let taken ← Store.transaction do
    match ← owned? user id with
    | some _ => return true
    | none =>
      let _ ← Store.insert (document user id species sex birthDate breed notes)
      return false
  if taken then
    let given ← textOf id
    let owner ← textOf user
    return .refusal s!"Animal with ID '{given}' already exists for user '{owner}'."
  return .fields [("animal", id)]

/-- Sets the status of a record, and its notes unless the new ones are empty. -/
def setStatus (user animal status notes : Value) : Effect Store Answer := do
  if !isOneOf status statuses then return ← invalid "status" status statuses
  match ← owned? user animal with
  | none => notFound user animal
  | some doc => change doc [("status", status), ("notes", notes.orElse (fieldOf doc "notes"))]

/-- Sets the details of a record. -/
def edit (user animal species breed birthDate sex : Value) : Effect Store Answer := do
  if !species.truthy then return .refusal "Species cannot be empty."
  if !isOneOf sex sexes then return ← invalid "sex" sex sexes
  match ← owned? user animal with
  | none => notFound user animal
  | some doc =>
    change doc [("species", species), ("breed", breed.orElse (.str "")),
      ("birthDate", birthDate.orElse .null), ("sex", sex)]

/-- Records that a living animal left the herd book. -/
def retire (departure : Departure) (user animal date remark : Value) : Effect Store Answer := do
  let date ← textOf date
  let remark ← textOf (remark.orElse (.str departure.noRemark))
  match ← owned? user animal with
  | none => notFound user animal
  | some doc =>
    let current := fieldOf doc "status"
    if !current.same (.str "alive") then
      let id ← textOf animal
      let owner ← textOf user
      let status ← textOf current
      let who := s!"Animal '{id}' for user '{owner}'"
      return .refusal (who ++ s!" must be 'alive' to be marked as {departure.status}"
        ++ s!" (current status: {status}).")
    change doc [("status", .str departure.status), ("notes", .str (departure.notes date remark))]

/-- Removes a record. -/
def remove (user animal : Value) : Effect Store Answer := do
  match ← owned? user animal with
  | none => notFound user animal
  | some doc =>
    let _ ← Store.delete (idOf doc)
    return .done

end Animals

/-- What an action on the records does and answers. -/
def AnimalAction.run : AnimalAction → Effect Store Answer
  | .register user id species sex birthDate breed notes =>
    Animals.register user id species sex birthDate breed notes
  | .setStatus user animal status notes => Animals.setStatus user animal status notes
  | .edit user animal species breed birthDate sex =>
    Animals.edit user animal species breed birthDate sex
  | .retire departure user animal date remark => Animals.retire departure user animal date remark
  | .remove user animal => Animals.remove user animal
  | .present user id => do
    match ← Animals.owned? user id with
    | none => Animals.notFound user id
    | some doc => return .fields [("animal", Animals.shown doc)]
  | .presentAll user => do
    let docs ← Store.find [("ownerId", user)]
    return .fields [("animals", .list (docs.map Animals.shown))]
  | .lookUp user animal => do
    return ⟨((← Animals.owned? user animal).map Value.object).getD .null, []⟩

end HerdBook
