import HerdBook.Rules.Accounts
import HerdBook.Rules.Authenticated
import HerdBook.Rules.Status

/-!
# The rules of the herd book

All routes and the rules that make them. Rule names are distinct: each begins with the name of its
route.
-/

namespace HerdBook

namespace Rules

variable {κ : Type}

/-- The concept of the herds. -/
def herds : String := "HerdGrouping"

/-- The routes that change herds. -/
def herdActions : List ActionRoute :=
  [⟨herds, "createHerd", ["name"], [], ["herdName"], ""⟩,
    ⟨herds, "addAnimal", ["herdName", "animal"], [], [], "Animal added to herd."⟩,
    ⟨herds, "removeAnimal", ["herdName", "animal"], [], [], "Animal removed from herd."⟩,
    ⟨herds, "moveAnimal", ["sourceHerdName", "targetHerdName", "animal"], [], [],
      "Animal moved."⟩,
    ⟨herds, "mergeHerds", ["herdNameToKeep", "herdNameToArchive"], [], [], "Herds merged."⟩,
    ⟨herds, "splitHerd", ["sourceHerdName", "targetHerdName", "animalsToMove"], [], [],
      "Herd split."⟩,
    ⟨herds, "deleteHerd", ["herdName"], [], [], "Herd deleted."⟩,
    ⟨herds, "restoreHerd", ["herdName"], [], [], "Herd restored."⟩]

/-- The routes that read herds. -/
def herdQueries : List QueryRoute :=
  [⟨herds, "_listActiveHerds", [], ["herds"]⟩, ⟨herds, "_listArchivedHerds", [], ["herds"]⟩,
    ⟨herds, "_viewComposition", ["herdName"], ["animals"]⟩]

/-- The routes that change animals, but for their status. -/
def animalActions : List ActionRoute :=
  [⟨animals, "registerAnimal", ["id", "species", "sex"], ["birthDate", "breed", "notes"],
      ["animal"], ""⟩,
    ⟨animals, "markAsDeceased", ["animal", "date"], ["cause"], [],
      "Animal marked as deceased."⟩,
    ⟨animals, "editDetails", ["animal", "species", "sex"], ["breed", "birthDate"], [],
      "Animal details updated."⟩,
    ⟨animals, "markAsTransferred", ["animal", "date"], ["recipientNotes"], [],
      "Animal marked as transferred."⟩,
    ⟨animals, "markAsSold", ["animal", "date"], ["buyerNotes"], [], "Animal marked as sold."⟩,
    ⟨animals, "removeAnimal", ["animal"], [], [], "Animal removed."⟩]

/-- The routes that read animals. -/
def animalQueries : List QueryRoute :=
  [⟨animals, "_getAnimal", ["id"], ["animal"]⟩, ⟨animals, "_getAllAnimals", [], ["animals"]⟩]

/-- All rules, in the order in which they are evaluated. -/
def all (lookup : Lookup → κ) : List (Rule κ) :=
  accountRules ++ herdActions.flatMap (ActionRoute.rules lookup)
    ++ herdQueries.flatMap (QueryRoute.rules lookup)
    ++ animalActions.flatMap (ActionRoute.rules lookup)
    ++ animalQueries.flatMap (QueryRoute.rules lookup)
    ++ statusRules

end Rules

end HerdBook
