import HerdBook.Text.Capital
import HerdBook.Transport.Route

/-!
# Paths of requests

Where a request goes. The path that was sent is decoded: a percent sign and two hexadecimal digits
stand for a byte, and the bytes are read as UTF-8. It is then matched against the two routes there
are, that of the actions and that of the files. A path that would match if runs of slashes were
single ones is redirected.
-/

namespace HerdBook

namespace Path

/-! ### Decoding -/

/-- The byte that two hexadecimal digits write. -/
def byte? (a b : Char) : Option UInt8 :=
  match Digit.hexValue? a, Digit.hexValue? b with
  | some a, some b => some (UInt8.ofNat (16 * a + b))
  | _, _ => none

/-- The bytes of a character in UTF-8. -/
def bytesOf (c : Char) : List UInt8 := (String.ofList [c]).toUTF8.toList

/-- The bytes that an encoded path stands for. A percent sign without two digits after it stands
for itself. -/
def bytes : List Char → List UInt8
  | '%' :: a :: b :: cs =>
    match byte? a b with
    | some byte => byte :: bytes cs
    | none => bytesOf '%' ++ bytes (a :: b :: cs)
  | c :: cs => bytesOf c ++ bytes cs
  | [] => []

/-- The number of bytes that follow a first byte, its share of the character, and the range of
the byte after it; `none` when no character begins with the byte. -/
def lead? (b : UInt8) : Option (Nat × Nat × Nat × Nat) :=
  let n := b.toNat
  if n < 0x80 then some (0, n, 0x80, 0xBF)
  else if 0xC2 ≤ n ∧ n ≤ 0xDF then some (1, n - 0xC0, 0x80, 0xBF)
  else if n = 0xE0 then some (2, 0, 0xA0, 0xBF)
  else if n = 0xED then some (2, 0xD, 0x80, 0x9F)
  else if 0xE0 < n ∧ n ≤ 0xEF then some (2, n - 0xE0, 0x80, 0xBF)
  else if n = 0xF0 then some (3, 0, 0x90, 0xBF)
  else if 0xF0 < n ∧ n ≤ 0xF3 then some (3, n - 0xF0, 0x80, 0xBF)
  else if n = 0xF4 then some (3, 4, 0x80, 0x8F)
  else none

/-- What stands in for bytes that are no character. -/
def replacement : Char := '\uFFFD'

/-- The characters that bytes encode. The first argument is the character being read: the number
of bytes that it lacks, its value so far, and the range of the next byte. Bytes that are no
character are replaced. -/
def chars : Option (Nat × Nat × Nat × Nat) → List UInt8 → List Char
  | none, [] => []
  | some _, [] => [replacement]
  | pending, b :: rest =>
    let begin : List Char :=
      match lead? b with
      | none => replacement :: chars none rest
      | some (0, value, _, _) => Char.ofNat value :: chars none rest
      | some more => chars (some more) rest
    match pending with
    | none => begin
    | some (lacking, value, low, high) =>
      if low ≤ b.toNat ∧ b.toNat ≤ high then
        let value := value * 0x40 + (b.toNat - 0x80)
        if lacking ≤ 1 then Char.ofNat value :: chars none rest
        else chars (some (lacking - 1, value, 0x80, 0xBF)) rest
      else replacement :: begin

/-- The text of an encoded path. -/
def decode (cs : List Char) : List Char := chars none (bytes cs)

end Path

/-- Where a request goes. -/
inductive Destination where
  /-- To an action of a concept. -/
  | action (concept action : String)
  /-- To an action, by a route with more open parts than an action has. -/
  | overspecified
  /-- To a file, of which there are none. -/
  | file
  /-- To the list of methods that are allowed. -/
  | methods
  /-- To the path with single slashes. -/
  | redirect
  | wrongMethod
  | unknown
  /-- Nowhere that can be told: the path cannot be tested against a route. -/
  | undecidable
  deriving DecidableEq, Inhabited

namespace Destination

open HerdBook.Path

/-- The methods that the actions take. -/
def actionMethods : List String := ["POST", "OPTIONS"]

/-- The methods that the files take. -/
def fileMethods : List String := ["GET", "HEAD", "OPTIONS"]

/-- What a path leads to. -/
inductive Place where
  | file
  /-- An action, by the open parts of its route. -/
  | action (parts : List (OpenKind × List Char))

/-- The place that a path leads to with a method, and whether it leads to one that does not take
the method. -/
def search (actions : Route) (method : String) (path : List Char) :
    Except Misuse (Option Place × Bool) := do
  let file := (← Route.files.match? path).isSome
  if file && fileMethods.contains method then return (some .file, false)
  match ← actions.match? path with
  | none => return (none, file)
  | some parts =>
    let taken := actionMethods.contains method
    return (if taken then some (.action parts) else none, file || !taken)

/-- Where the open parts of the route of the actions lead. -/
def ofParts (parts : List (OpenKind × List Char)) : Destination :=
  match parts with
  | [(_, concept), (_, name)] =>
    .action (Half.store (String.ofList concept)) (Half.store (String.ofList name))
  | _ => .overspecified

/-- The destination of a path, given the route of the actions. -/
def ofPath (actions : Route) (method : String) (path : List Char) :
    Except Misuse Destination := do
  let (found, others) ← search actions method path
  let nowhere : Bool → Destination := fun some => if some then .wrongMethod else .unknown
  match found with
  | some .file => return if method == "OPTIONS" then .methods else .file
  | some (.action parts) =>
    if !(← parts.allM fun part => part.1.admits part.2) then return nowhere others
    return if method == "OPTIONS" then .methods else ofParts parts
  | none =>
    let (found, more) ← search actions method (Route.mergeSlashes path)
    return if found.isSome then .redirect else nowhere (others || more)

/-- The destination of a request by its method and the path that was sent, given the route of the
actions. -/
def of (actions : Route) (method : String) (sent : List Char) : Destination :=
  let path := '/' :: (decode sent).dropWhile (· == '/')
  match ofPath actions (Capital.ofText method) path with
  | .ok found => found
  | .error _ => .undecidable

end Destination

end HerdBook
