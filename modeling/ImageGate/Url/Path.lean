import ImageGate.Text.Cut
import ImageGate.Text.Percent

/-! Paths of addresses. Segments of one or two dots, also when the dots are encoded, move through
the hierarchy and are gone once the path is resolved. -/
namespace ImageGate.Url
open Text
set_option autoImplicit false

/-- A dot, plain or encoded, off the front. -/
def afterDot? : List Char → Option (List Char)
  | '.' :: rest => some rest
  | '%' :: '2' :: e :: rest => if e == 'e' || e == 'E' then some rest else none
  | _ => none

def isSingleDot (segment : List Char) : Bool := afterDot? segment == some []

def isDoubleDot (segment : List Char) : Bool :=
  (afterDot? segment).bind afterDot? == some []

/-- Resolves the segments after those in `done`, which has the last one first. A dot segment at the
end leaves an empty segment. -/
def resolveFrom (done : List (List Char)) : List (List Char) → List (List Char)
  | [] => done.reverse
  | segment :: rest =>
    let ended (stack : List (List Char)) := if rest.isEmpty then [] :: stack else stack
    if isDoubleDot segment then resolveFrom (ended done.tail) rest
    else if isSingleDot segment then resolveFrom (ended done) rest
    else resolveFrom (segment :: done) rest

def resolve (segments : List (List Char)) : List (List Char) := resolveFrom [] segments

/-- A path that starts with a slash, resolved. -/
def resolvedPath (cs : List Char) : List Char :=
  (resolve (pieces '/' cs)).flatMap fun segment => '/' :: segment

/-! ## Encoding -/

def isVisible (b : UInt8) : Bool := 0x20 < b && b < 0x7f

/-- What a path keeps as it is. -/
def isPathKept (b : UInt8) : Bool := isVisible b && !Percent.isOneOf "\"#<>?`\x7b\x7d^" b

/-- What a query keeps as it is. -/
def isQueryKept (b : UInt8) : Bool := isVisible b && !Percent.isOneOf "\"#<>'" b

def encoded (keep : UInt8 → Bool) (cs : List Char) : String :=
  Percent.encode keep (String.ofList cs)

end ImageGate.Url
