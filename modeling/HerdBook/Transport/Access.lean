import HerdBook.Note

/-!
# Direct routes

Most routes go through a recorded request and the rules. A few are answered by the concept itself,
each for a stated reason. A route that is on neither list goes through the rules as well, with a
warning.
-/

namespace HerdBook

namespace Access

/-- The routes answered by the concept itself, and why that is safe. -/
def inclusions : List (String × String) :=
  [("/UserAuthentication/_getUsername", "usernames are public")]

/-- The routes that always go through the rules. -/
def exclusions : List String :=
  ["/UserAuthentication/register", "/UserAuthentication/login", "/UserAuthentication/verify",
    "/UserAuthentication/logout", "/HerdGrouping/createHerd", "/HerdGrouping/addAnimal",
    "/HerdGrouping/removeAnimal", "/HerdGrouping/moveAnimal", "/HerdGrouping/mergeHerds",
    "/HerdGrouping/splitHerd", "/HerdGrouping/deleteHerd", "/HerdGrouping/restoreHerd",
    "/HerdGrouping/_viewComposition", "/HerdGrouping/_listActiveHerds",
    "/HerdGrouping/_listArchivedHerds", "/AnimalIdentity/registerAnimal",
    "/AnimalIdentity/updateStatus", "/AnimalIdentity/markAsDeceased",
    "/AnimalIdentity/editDetails", "/AnimalIdentity/markAsTransferred",
    "/AnimalIdentity/markAsSold", "/AnimalIdentity/removeAnimal", "/AnimalIdentity/_getAnimal",
    "/AnimalIdentity/_getAllAnimals"]

/-- Whether the route is answered by the concept itself. -/
def isDirect (route : String) : Bool :=
  !exclusions.contains route && (inclusions.map (·.1)).contains route

/-- Whether the route is on one of the lists. -/
def isListed (route : String) : Bool :=
  exclusions.contains route || (inclusions.map (·.1)).contains route

/-- The notes on the choice between the two ways for a route. -/
def notes (route : String) : List Note :=
  if isListed route then []
  else
    [.transport .warning
      s!"route {route} is neither included nor excluded; handling it through Requesting"]

end Access

end HerdBook
