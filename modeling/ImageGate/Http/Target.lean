import ImageGate.Number.Power
import ImageGate.Text.Cut
import ImageGate.Text.Percent

/-! Request targets. A target is a path with an optional query, the address of a host in front of
it, a host alone, or an asterisk; only path and query matter to the server. -/
namespace ImageGate.Http
open Text
set_option autoImplicit false

/-- What a request asks for, still percent-encoded. -/
structure Target where
  path : String
  query : Option String := none
  deriving DecidableEq, Repr

namespace Target

abbrev Bytes := List UInt8

def isOneOf (chars : String) (b : UInt8) : Bool := Percent.isOneOf chars b

/-! ## Path and query -/

/-- Quotes and braces are tolerated, as in JSON that stands in a path. -/
def isPathByte (b : UInt8) : Bool :=
  b == 0x21 || b == 0x22 || (0x24 ≤ b && b ≤ 0x3b) || b == 0x3d || (0x40 ≤ b && b ≤ 0x5f)
    || (0x61 ≤ b && b ≤ 0x7e) || 0x7f ≤ b

def isQueryByte (b : UInt8) : Bool :=
  b == 0x21 || (0x24 ≤ b && b ≤ 0x3b) || b == 0x3d || 0x3f ≤ b

def textOf (bs : Bytes) : String := Utf8.textLossy bs

/-- A fragment is dropped. -/
def ofPathAndQuery? (bs : Bytes) : Option Target :=
  let bs := bs.takeWhile (· != 0x23)
  match cutFirst 0x3f bs with
  | none => if bs.all isPathByte then some ⟨textOf bs, none⟩ else none
  | some (path, query) =>
    if path.all isPathByte && query.all isQueryByte then
      some ⟨textOf path, some (textOf query)⟩
    else none

/-! ## Hosts -/

/-- The state of reading a host: brackets around a numeric address, colons and percent signs seen
since the last thing that explains them. -/
structure HostState where
  colons : Nat := 0
  isOpened : Bool := false
  isClosed : Bool := false
  hasPercent : Bool := false
  endsInAt : Bool := false

def isHostByte (b : UInt8) : Bool :=
  Percent.isAlphanumeric b || isOneOf "-._~!$&'()*+,;=" b

/-- The limit covers a numeric address of eight groups. -/
def maxColons : Nat := 8

def HostState.step? (s : HostState) (b : UInt8) : Option HostState :=
  let s := { s with endsInAt := false }
  if b == 0x3a then
    if maxColons ≤ s.colons then none else some { s with colons := s.colons + 1 }
  else if b == 0x5b then
    if s.hasPercent || s.isOpened then none else some { s with isOpened := true }
  else if b == 0x5d then
    if !s.isOpened || s.isClosed then none
    else some { s with isClosed := true, colons := 0, hasPercent := false }
  else if b == 0x40 then some { s with endsInAt := true, colons := 0, hasPercent := false }
  else if b == 0x25 then some { s with hasPercent := true }
  else if isHostByte b then some s
  else none

/-- At most one colon is left, for the port number. -/
def HostState.isComplete (s : HostState) : Bool :=
  s.isOpened == s.isClosed && s.colons ≤ 1 && !s.endsInAt && !s.hasPercent

def isHost (bs : Bytes) : Bool :=
  match bs.foldlM HostState.step? {} with
  | some s => s.isComplete
  | none => false

def endsHost (b : UInt8) : Bool := b == 0x2f || b == 0x3f || b == 0x23

/-! ## Schemes -/

def isSchemeByte (b : UInt8) : Bool := Percent.isAlphanumeric b || isOneOf "+-." b

def maxSchemeLength : Nat := 64

/-- The scheme and what follows its slashes. -/
def cutScheme? (bs : Bytes) : Option (Bytes × Bytes) :=
  match cutFirst 0x3a bs with
  | some (scheme, 0x2f :: 0x2f :: rest) => if scheme.all isSchemeByte then some (scheme, rest) else none
  | _ => none

/-- A scheme is followed by a host and then by path and query; without a scheme the whole target is
a host. -/
def ofHostForm? (bs : Bytes) : Option Target :=
  match cutScheme? bs with
  | some (scheme, rest) =>
    let host := rest.takeWhile fun b => !endsHost b
    if maxSchemeLength < scheme.length || host.isEmpty || !isHost host then none
    else
      (ofPathAndQuery? (rest.dropWhile fun b => !endsHost b)).map fun t =>
        if t.path.isEmpty then { t with path := "/" } else t
  | none => if isHost bs then some ⟨"", none⟩ else none

/-! ## Any target -/

def maxLength : Nat := 2 ^ 16 - 2

def read? (text : String) : Option Target :=
  let bs := Utf8.bytes text
  if maxLength < bs.length then none
  else
    match bs with
    | [] => none
    | [0x2a] => some ⟨"*", none⟩
    | 0x2f :: _ => ofPathAndQuery? bs
    | _ => ofHostForm? bs

end Target

end ImageGate.Http
