import ImageGate.MediaType
import ImageGate.Url.Host
import ImageGate.Url.Path

/-! Addresses. An address is read once and for all: blanks at its ends and line breaks inside do not
count, the scheme decides how strict the rest is, and the path is resolved. -/
namespace ImageGate
open Text
set_option autoImplicit false

structure Url where
  scheme : String
  host : Option Url.Host := none
  port : Option Nat := none
  /-- Resolved and encoded. -/
  path : String
  query : Option String := none
  deriving DecidableEq, Repr

namespace Url

/-! ## Schemes -/

/-- Files are on the own machine, web schemes always have a host, and others may have one. -/
inductive SchemeKind where
  | file
  | web
  | other
  deriving DecidableEq, Repr

def SchemeKind.ofScheme (scheme : String) : SchemeKind :=
  if scheme = "file" then .file
  else if ["http", "https", "ws", "wss", "ftp"].contains scheme then .web
  else .other

/-- Whether a backslash is as good as a slash. -/
def SchemeKind.isSpecial (kind : SchemeKind) : Bool := kind ≠ .other

def isSchemeChar (c : Char) : Bool :=
  c.isAlpha || isPlainDigit c || c == '+' || c == '-' || c == '.'

/-- The scheme in lower case and what follows its colon. -/
def cutScheme? (cs : List Char) : Option (String × List Char) :=
  match cutFirst ':' cs with
  | some (c :: scheme, rest) =>
    if c.isAlpha && scheme.all isSchemeChar then
      some (lowerAsciiText (String.ofList (c :: scheme)), rest)
    else none
  | _ => none

/-! ## Path and query -/

def isSlash (kind : SchemeKind) (c : Char) : Bool := c == '/' || (kind.isSpecial && c == '\\')

/-- Where the host and its port end. -/
def endsAuthority (kind : SchemeKind) (c : Char) : Bool := isSlash kind c || c == '?' || c == '#'

/-- Path and query of what follows the host. An empty path is the root under a special scheme. -/
def pathAndQuery (kind : SchemeKind) (cs : List Char) : String × Option String :=
  let cs := cs.takeWhile (· != '#')
  let (path, query) := match cutFirst '?' cs with
    | some (path, query) => (path, some (encoded isQueryKept query))
    | none => (cs, none)
  let path := path.map fun c => if isSlash kind c then '/' else c
  let segments := match path with
    | '/' :: rest => rest
    | _ => path
  (if path.isEmpty && !kind.isSpecial then "" else encoded isPathKept (resolvedPath segments), query)

/-! ## User, host and port -/

/-- Whether a name or a password stands before the host. -/
def hasCredentials (user : List Char) : Bool := user ≠ [] && user ≠ [':']

/-- Cuts at the colon before the port: one outside brackets. -/
def cutPort (isInside : Bool) : List Char → List Char × Option (List Char)
  | [] => ([], none)
  | c :: rest =>
    if c == ':' && !isInside then ([], some rest)
    else
      let isInside := if c == '[' then true else if c == ']' then false else isInside
      let (host, port) := cutPort isInside rest
      (c :: host, port)

/-- A port may be left out after its colon. Outside the special schemes a backslash ends it. -/
def readPort (text : List Char) : Except UrlFault (Option Nat) :=
  let digits := text.takeWhile (· != '\\')
  if !digits.all isPlainDigit then .error .port
  else if digits.isEmpty then .ok none
  else
    match numberIn? 10 digits with
    | some n => if n < 2 ^ 16 then .ok (some n) else .error .port
    | none => .error .port

def defaultPort? (scheme : String) : Option Nat :=
  match scheme with
  | "http" | "ws" => some 80
  | "https" | "wss" => some 443
  | "ftp" => some 21
  | _ => none

def readHost (kind : SchemeKind) (cs : List Char) : Except UrlFault Host :=
  if kind.isSpecial then if cs.isEmpty then .error .emptyHost else Host.read cs
  else Host.readOpaque cs

/-- Reads host and port; `isNamed` says whether credentials stand before them. -/
def readHostAndPort (kind : SchemeKind) (isNamed : Bool) (cs : List Char) :
    Except UrlFault (Option Host × Option Nat) := do
  let (host, port) := cutPort false cs
  let parsed ← readHost kind host
  if host.isEmpty then
    if port.isSome || isNamed then throw .emptyHost
    return (none, none)
  match port with
  | none => return (some parsed, none)
  | some text => return (some parsed, ← readPort text)

/-- Reads everything behind the double slash. -/
def readAuthority (scheme : String) (kind : SchemeKind) (cs : List Char) : Except UrlFault Url := do
  let authority := cs.takeWhile fun c => !endsAuthority kind c
  let rest := cs.dropWhile fun c => !endsAuthority kind c
  let (user, address) := (cutLast '@' authority).getD ([], authority)
  if user.isEmpty && address.isEmpty && !authority.isEmpty && !rest.isEmpty then throw .emptyHost
  let (host, port) ← readHostAndPort kind (hasCredentials user) address
  let (path, query) := pathAndQuery kind rest
  return { scheme, host, port := port.filter fun n => some n ≠ defaultPort? scheme, path, query }

/-! ## Files -/

/-- A letter with a colon or a bar is a drive and no host. -/
def isDrive (cs : List Char) : Bool :=
  match cs with
  | [letter, mark] => letter.isAlpha && (mark == ':' || mark == '|')
  | _ => false

def readFile (cs : List Char) : Except UrlFault Url := do
  let onThisHost (rest : List Char) : Url :=
    let (path, query) := pathAndQuery .file rest
    { scheme := "file", path, query }
  match cs with
  | a :: b :: rest =>
    if isSlash .file a && isSlash .file b then
      let host := rest.takeWhile fun c => !endsAuthority .file c
      if host.isEmpty || isDrive host then return onThisHost rest
      let parsed ← Host.read host
      let found := onThisHost (rest.dropWhile fun c => !endsAuthority .file c)
      return { found with host := if parsed = .domain "localhost" then none else some parsed }
    else return onThisHost cs
  | _ => return onThisHost cs

/-! ## Any address -/

/-- Blanks and control characters at both ends do not count. -/
def isTrimmed (c : Char) : Bool := c.toNat ≤ 0x20

def isBreak (c : Char) : Bool := c == '\t' || c == '\n' || c == '\r'

def significant (text : String) : List Char :=
  let cs := text.toList.dropWhile isTrimmed
  ((cs.reverse.dropWhile isTrimmed).reverse).filter fun c => !isBreak c

/-- Without a double slash there is no host. -/
def readOther (scheme : String) (cs : List Char) : Except UrlFault Url :=
  match cs with
  | '/' :: '/' :: rest => readAuthority scheme .other rest
  | '/' :: _ =>
    let (path, query) := pathAndQuery .other cs
    .ok { scheme, path, query }
  | _ =>
    let cs := cs.takeWhile (· != '#')
    match cutFirst '?' cs with
    | some (path, query) =>
      .ok { scheme, path := String.ofList path, query := some (String.ofList query) }
    | none => .ok { scheme, path := String.ofList cs }

def read (text : String) : Except UrlFault Url :=
  match cutScheme? (significant text) with
  | none => .error .relative
  | some (scheme, rest) =>
    match SchemeKind.ofScheme scheme with
    | .file => readFile rest
    | .web => readAuthority scheme .web (rest.dropWhile (isSlash .web))
    | .other => readOther scheme rest

end Url

end ImageGate
