import HerdBook.Fault
import HerdBook.Text.Blank
import HerdBook.Text.Digit

/-!
# Targets

What a client makes of the target that it is told to send a request to. A target is cut into a
scheme, an authority, a path and a query (`RequestTarget.ofText`). Only the path is sent, and it is
cut twice more on its way: once when it is taken for a target of its own, and once when it is
brought into its normal form, which keeps an authority as the beginning of the path
(`RequestTarget.sentPath`).

An authority with brackets that hold no address, with a mark in disguise, with a host that cannot
have the name, or with a port that is none, is a misuse.
-/

namespace HerdBook

/-- A target in its parts; the fragment is dropped. -/
structure RequestTarget where
  scheme : List Char
  authority : List Char
  path : List Char
  query : List Char
  deriving DecidableEq, Inhabited

namespace RequestTarget

/-! ### Addresses -/

/-- The pieces of a text between the marks `mark`. -/
def pieces (mark : Char) : List Char → List (List Char)
  | [] => [[]]
  | c :: cs =>
    if c = mark then [] :: pieces mark cs
    else match pieces mark cs with
      | [] => [[c]]
      | piece :: rest => (c :: piece) :: rest

/-- Whether a text is an address of four bytes. -/
def isAddress4 (cs : List Char) : Bool :=
  let parts := pieces '.' cs
  parts.length == 4 && parts.all fun part =>
    !part.isEmpty && part.length ≤ 3 && part.all Char.isDigit && Digit.number part < 256
      && (part.length == 1 || part.head? != some '0')

/-- The groups of an address of eight, an address of four bytes at the end being two of them. -/
def groups (cs : List Char) : List (List Char) :=
  let parts := pieces ':' cs
  match parts.getLast? with
  | some last => if isAddress4 last then parts.dropLast ++ [['0'], ['0']] else parts
  | none => parts

/-- Whether a text is a group of an address. -/
def isGroup (cs : List Char) : Bool := !cs.isEmpty && cs.length ≤ 4 && cs.all Digit.isHex

/-- Whether a text is an address of eight groups, of which a run in one place may be left out. -/
def isAddress8 (cs : List Char) : Bool :=
  let all := groups cs
  let inner := (all.drop 1).dropLast
  let before := all.takeWhile fun g => !g.isEmpty
  let after := (all.reverse.takeWhile fun g => !g.isEmpty).reverse
  if all.all isGroup then all.length == 8
  else
    let gaps := (inner.filter List.isEmpty).length
    let start := if all.head? == some [] then 1 else 0
    let ending := if all.getLast? == some [] then 1 else 0
    2 < all.length && gaps == 1 && (before ++ after).all isGroup
      && before.length + after.length + 1 + start + ending == all.length
      && (start == 0 || all[1]? == some []) && (ending == 0 || all.reverse[1]? == some [])
      && before.length + after.length < 8

/-- Whether an address may stand in brackets: one of eight groups, with a zone after a percent sign
or without, or one of a later version. -/
def isBracketed (cs : List Char) : Bool :=
  if cs.head? == some 'v' then
    let version := (cs.drop 1).takeWhile Digit.isHex
    let rest := cs.drop (version.length + 1)
    !version.isEmpty && rest.head? == some '.' && 1 < rest.length && !rest.contains '\n'
  else
    let zone := cs.dropWhile (· != '%')
    isAddress8 (cs.takeWhile (· != '%'))
      && (zone.isEmpty || (1 < zone.length && !(zone.drop 1).contains '%'))

/-- Whether the brackets of an authority are in pairs and hold an address. -/
def hasSoundBrackets (authority : List Char) : Bool :=
  let opened := authority.contains '['
  if opened != authority.contains ']' then false
  else !opened
    || isBracketed (((authority.dropWhile (· != '[')).drop 1).takeWhile (· != ']'))

/-- The characters that are written with a slash, a colon, or another mark that parts a target, in
their compatible form. -/
def hiddenMarks : List Char :=
  ['⁇', '⁈', '⁉', '℀', '℁', '℅', '℆', '⩴', '︓', '︖', '﹕', '﹖', '﹟', '﹫', '＃', '／', '：', '？', '＠']

/-- Whether an authority can be taken apart. -/
def isSoundAuthority (authority : List Char) : Bool :=
  hasSoundBrackets authority && !authority.any hiddenMarks.contains

/-! ### Cutting a target -/

/-- Whether a character is ignored in front of a target. -/
def isIgnored (c : Char) : Bool := c.toNat ≤ 0x20

/-- The target without what is ignored in it. -/
def cleaned (text : List Char) : List Char :=
  (text.dropWhile isIgnored).filter fun c => !(c == '\t' || c == '\n' || c == '\r')

/-- Whether the characters before a colon are a scheme. -/
def isScheme (cs : List Char) : Bool :=
  cs.head?.any Char.isAlpha
    && cs.all fun c => c.isAlphanum || c == '+' || c == '-' || c == '.'

/-- The scheme of a target and what follows it. -/
def cutScheme (text : List Char) : List Char × List Char :=
  let scheme := text.takeWhile (· != ':')
  if isScheme scheme && scheme.length < text.length then
    (scheme.map Char.toLower, text.drop (scheme.length + 1))
  else ([], text)

/-- The authority of a target without a scheme, and what follows it. -/
def cutAuthority : List Char → List Char × List Char
  | '/' :: '/' :: rest =>
    let ends (c : Char) : Bool := c == '/' || c == '?' || c == '#'
    (rest.takeWhile (!ends ·), rest.dropWhile (!ends ·))
  | text => ([], text)

/-- The parts of a target. -/
def ofText (text : List Char) : Except Misuse RequestTarget :=
  let (scheme, rest) := cutScheme (cleaned text)
  let (authority, rest) := cutAuthority rest
  if !isSoundAuthority authority then .error .value
  else
    let rest := rest.takeWhile (· != '#')
    .ok ⟨scheme, authority, rest.takeWhile (· != '?'), (rest.dropWhile (· != '?')).drop 1⟩

/-! ### Normal forms -/

/-- What stands before and after the last `mark` of a text; `none` before it when there is none. -/
def cutAtLast (mark : Char) (cs : List Char) : Option (List Char) × List Char :=
  let after := (cs.reverse.takeWhile (· != mark)).reverse
  if after.length < cs.length then (some (cs.take (cs.length - after.length - 1)), after)
  else (none, cs)

/-- The host and the port of an authority without a user. -/
def hostAndPort (cs : List Char) : List Char × List Char :=
  let afterColon (cs : List Char) : List Char := (cs.dropWhile (· != ':')).drop 1
  if cs.contains '[' then
    let inner := (cs.dropWhile (· != '[')).drop 1
    (inner.takeWhile (· != ']'), afterColon ((inner.dropWhile (· != ']')).drop 1))
  else (cs.takeWhile (· != ':'), afterColon cs)

/-- The port in its normal form, with a colon in front of it; zero counts as none. -/
def portText (port : List Char) : Except Misuse (List Char) :=
  let n := Digit.number port
  if !port.all Char.isDigit || 65535 < n then .error .value
  else .ok (if n = 0 then [] else ':' :: Nat.toDigits 10 n)

/-- The user in the normal form of an authority: a password is kept unless it is empty. -/
def userText (user : List Char) : List Char :=
  let name := user.takeWhile (· != ':')
  let password := (user.dropWhile (· != ':')).drop 1
  if name.isEmpty then [] else if password.isEmpty then name ++ ['@']
  else name ++ ':' :: password ++ ['@']

/-- The number of characters that a part of the name of a host may not reach. -/
def labelLimit : Nat := 64

/-- Whether the parts of the name of a host, between the dots, are neither empty nor too long. After
the last dot there may be none. -/
def isHostName (host : List Char) : Bool :=
  let labels := pieces '.' host
  labels.dropLast.all (!·.isEmpty) && labels.all (·.length < labelLimit)

/-- The normal form of an authority: the host in small letters, but not its zone. -/
def authorityText (authority : List Char) : Except Misuse (List Char) := do
  let (user, rest) := cutAtLast '@' authority
  let (host, port) := hostAndPort rest
  if !isHostName host then throw .hostName
  let host := (host.takeWhile (· != '%')).map Char.toLower ++ host.dropWhile (· != '%')
  let host := if host.contains ':' then '[' :: host ++ [']'] else host
  return userText (user.getD []) ++ host ++ (← portText port)

/-- A target without a query in its normal form. -/
def normalText (target : RequestTarget) : Except Misuse (List Char) := do
  let authority ← authorityText target.authority
  let scheme := if target.scheme.isEmpty then [] else target.scheme ++ [':']
  return scheme ++ (if authority.isEmpty then [] else '/' :: '/' :: authority) ++ target.path

/-- The path that a client sends for a target. -/
def sentPath (text : List Char) : Except Misuse (List Char) := do
  let told ← ofText text
  let _ ← authorityText told.authority
  let sent ← ofText (told.path ++ if told.query.isEmpty then [] else '?' :: told.query)
  normalText (← ofText sent.path)

end RequestTarget

end HerdBook
