import HerdBook.Transport.OpenKind

/-!
# Routes

A route is a path in which parts are left open. An open part is written between angle brackets, as
a name with a kind in front of it, `<kind:name>`; without a kind it is a segment of the path.

* `Route.ofBase` reads the base of the actions and adds the two segments that say which action of
  which concept is meant.
* `Route.match?` matches a whole path and yields what its open parts are. A path that leads up to
  a segment with an unsound kind is a misuse.
-/

namespace HerdBook

/-- A piece of a route. -/
inductive RoutePiece where
  | char (c : Char)
  | opening (name : String) (kind : OpenKind)
  deriving Inhabited

/-- A route, from its first character to its last. -/
abbrev Route := List RoutePiece

namespace Route

/-! ### Matching -/

/-- The lengths of the beginnings of a text of the given length, in the order in which they are
tried for an open part. -/
def lengths (kind : OpenKind) (length : Nat) : List Nat :=
  match kind with
  | .path => List.range (length + 1)
  | .marked ending => [ending.length + 1]
  | .oneOf texts => texts.map String.length
  | _ => (List.range (length + 1)).reverse

/-- The beginnings of a text that may stand for an open part, each with the rest, in the order in
which they are tried. -/
def beginnings (kind : OpenKind) (cs : List Char) : List (List Char × List Char) :=
  (lengths kind cs.length).filterMap fun n =>
    if kind.accepts (cs.take n) then some (cs.take n, cs.drop n) else none

/-- Whether the kinds of the first segment of a route are sound. One segment is as far as a path
can be cut at slashes, so it goes on behind segments that are open. -/
def beginsSound : Route → Bool
  | [] => true
  | .char c :: rest => c = '/' || beginsSound rest
  | .opening _ .path :: rest =>
    rest.all fun piece => match piece with
      | .char _ => true
      | .opening _ kind => kind.isSound
  | .opening _ kind :: rest => kind.isSound && beginsSound rest

/-- What the open parts are, with their kinds, when the whole path matches. -/
def match? : Route → List Char → Except Misuse (Option (List (OpenKind × List Char)))
  | [], cs => .ok (if cs.isEmpty then some [] else none)
  | .char c :: rest, cs =>
    if cs.head? = some c then
      if c = '/' ∧ !beginsSound rest then .error .value else match? rest (cs.drop 1)
    else .ok none
  | .opening _ kind :: rest, cs =>
    (beginnings kind cs).findSomeM? fun (taken, left) => do
      return (← match? rest left).map ((kind, taken) :: ·)

/-! ### Reading -/

/-- Whether a character may stand in a name. -/
def isNameChar (c : Char) : Bool := c.isAlphanum || c == '_'

/-- Whether a text is a word of letters, digits and underscores, not beginning with a digit. -/
def isName (cs : List Char) : Bool := cs.all isNameChar && cs.head?.any (!·.isDigit)

/-- The name at the beginning of a text that closes an open part. -/
def closingName? (cs : List Char) : Option (List Char) :=
  let name := cs.takeWhile isNameChar
  if isName name && cs[name.length]? == some '>' then some name else none

/-- The arguments of a kind and the name after them: as few characters on one line as possible, up
to a parenthesis with a colon and a name after it. -/
def argumentsAndName? (cs : List Char) : Option (List Char × List Char) :=
  (List.range cs.length).findSome? fun n =>
    match cs.drop n with
    | ')' :: ':' :: more =>
      if (cs.take n).contains '\n' then none
      else (closingName? more).map fun name => (cs.take n, name)
    | _ => none

/-- The open part whose opening bracket a text follows, and the number of characters up to and with
its closing bracket. -/
def openingOf (cs : List Char) : Except Misuse (RoutePiece × Nat) :=
  let word := cs.takeWhile isNameChar
  let kind (args : List Char) : Except Misuse OpenKind := do
    OpenKind.ofWord (String.ofList word) (← KindArg.ofText args)
  let piece (name : List Char) (kind : OpenKind) : RoutePiece := .opening (String.ofList name) kind
  if !isName word then .error .value
  else match cs.drop word.length with
    | '>' :: _ => .ok (piece word (.segment 1 none), word.length + 1)
    | ':' :: more =>
      match closingName? more with
      | some name => do return (piece name (← kind []), word.length + name.length + 2)
      | none => .error .value
    | '(' :: more =>
      match argumentsAndName? more with
      | some (args, name) => do
        return (piece name (← kind args), word.length + args.length + name.length + 4)
      | none => .error .value
    | _ => .error .value

/-- The pieces of a route. -/
def read : List Char → Except Misuse Route
  | [] => .ok []
  | c :: cs =>
    if c = '<' then do
      let (piece, size) ← openingOf cs
      return piece :: (← read (cs.drop size))
    else do return .char c :: (← read cs)
termination_by cs => cs.length
decreasing_by all_goals simp only [List.length_drop, List.length_cons]; omega

/-- A path in which every run of slashes is a single one. -/
def mergeSlashes : List Char → List Char
  | [] => []
  | c :: cs =>
    if c = '/' ∧ cs.head? = some '/' then mergeSlashes cs else c :: mergeSlashes cs

/-- The names of the open parts. -/
def names (route : Route) : List String :=
  route.filterMap fun piece =>
    match piece with
    | .char _ => none
    | .opening name _ => some name

/-- The words that stand for values and cannot be names. -/
def constants : List String := ["None", "True", "False"]

/-- The word that can be a name nowhere. -/
def reserved : String := "__debug__"

/-- A route as it is written, with single slashes. Its open parts must have different names. -/
def ofText (text : String) : Except Misuse Route := do
  let route ← read (mergeSlashes text.toList)
  let names := names route
  if names.any constants.contains then throw .value
  else if names.contains reserved || names.eraseDups.length ≠ names.length then throw .grammar
  else return route

/-- The route of the actions below a base in its stored form. -/
def ofBase (base : String) : Except Misuse Route :=
  match Half.plain? base with
  | some base => ofText (base ++ "/<concept>/<action>")
  | none => .error .encoding

/-- The route of the files. -/
def files : Route :=
  "/static/".toList.map RoutePiece.char ++ [.opening "filename" .path]

end Route

end HerdBook
