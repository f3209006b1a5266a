import HerdBook.Number.Decimal
import HerdBook.Text.Blank

/-!
# Settings

What an operator can choose, and the values when nothing is chosen. The base of all paths is kept
in a normal form (`Settings.normalBase`): white space around it and slashes after it are dropped,
and it begins with a slash unless it is empty.
-/

namespace HerdBook

/-- The settings. -/
structure Settings where
  maxFlowEvents : Int
  maxRetainedFlows : Int
  maxRetainedRequests : Int
  apiBaseUrl : String
  /-- The seconds a request may take. -/
  requestTimeout : Binary64
  host : String
  port : Int
  logLevel : String
  logFormat : String
  deriving Inhabited

namespace Settings

/-- The settings when nothing is chosen. -/
def standard : Settings where
  maxFlowEvents := 256
  maxRetainedFlows := 1024
  maxRetainedRequests := 1024
  apiBaseUrl := "/api"
  requestTimeout := .ofInt 10
  host := "0.0.0.0"
  port := 5000
  logLevel := "INFO"
  logFormat := "text"

/-- The characters without the trailing ones that are slashes. -/
def dropSlashes (cs : List Char) : List Char := (cs.reverse.dropWhile (· == '/')).reverse

/-- The characters after a slash, unless there are none or the first is one. -/
def leadWithSlash : List Char → List Char
  | [] => []
  | '/' :: cs => '/' :: cs
  | cs => '/' :: cs

/-- The normal form of a base of paths. -/
def normalBase (base : String) : String :=
  String.ofList (leadWithSlash (dropSlashes (trimBoth isBlank base.toList)))

end Settings

end HerdBook
