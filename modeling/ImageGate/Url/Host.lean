import ImageGate.Number.Power
import ImageGate.Text.Percent
import ImageGate.Url.Punycode

/-! Hosts. A host is a domain name, a numeric address of four or of eight parts, or, under a scheme
of its own, any text without the marks that structure an address. -/
namespace ImageGate
open Text
set_option autoImplicit false

/-- Why a text is no address. -/
inductive UrlFault where
  | relative
  | emptyHost
  | port
  | ipv4
  | ipv6
  | domainName
  | domainCharacter
  deriving DecidableEq, Repr

def UrlFault.message : UrlFault → String
  | .relative => "relative URL without a base"
  | .emptyHost => "empty host"
  | .port => "invalid port number"
  | .ipv4 => "invalid IPv4 address"
  | .ipv6 => "invalid IPv6 address"
  | .domainName => "invalid international domain name"
  | .domainCharacter => "invalid domain character"

namespace Url

inductive Host where
  /-- A name in lower case; labels beyond ASCII are not encoded. -/
  | domain (name : String)
  | ipv4 (value : Nat)
  | ipv6 (text : String)
  | opaqueName (name : String)
  deriving DecidableEq, Repr

/-! ## Domain names -/

def isBetween (low high : Nat) (c : Char) : Bool := low ≤ c.toNat && c.toNat ≤ high

/-- Characters without a part of their own in a name. -/
def isIgnorable (c : Char) : Bool :=
  c.toNat == 0xad || c.toNat == 0x200b || c.toNat == 0x2060 || c.toNat == 0x2064
    || c.toNat == 0xfeff || isBetween 0xfe00 0xfe0f c || isBetween 0xe0100 0xe01ef c

/-- Capitals become small letters, characters of full width those of ASCII, and every full stop a
point. -/
def mapped (c : Char) : Char :=
  if c.toNat == 0x3002 || c.toNat == 0xff61 then '.'
  else
    let c := if isBetween 0xff01 0xff5e c then Char.ofNat (c.toNat - 0xfee0) else c
    c.toLower

/-- The marks that structure an address, and everything blank or invisible in ASCII. -/
def isDenied (c : Char) : Bool :=
  c.toNat ≤ 0x20 || c.toNat == 0x7f || "%#/:<>?@[\\]^|".toList.contains c

/-- Characters beyond ASCII that no name holds: blanks, controls, and what is kept for private use
or is no character at all. -/
def isDisallowed (c : Char) : Bool :=
  isBetween 0x80 0xa0 c || c.toNat == 0x1680 || isBetween 0x2000 0x200f c
    || isBetween 0x2028 0x202f c || isBetween 0x205f 0x206f c || c.toNat == 0x3000
    || isBetween 0xe000 0xf8ff c || isBetween 0xfdd0 0xfdef c || isBetween 0xfff0 0xffff c
    || 0xe0000 ≤ c.toNat || c.toNat % 0x10000 ≥ 0xfffe

/-- A label that claims to be encoded has to decode to more than ASCII. -/
def isLabel (cs : List Char) : Bool :=
  match afterPrefix? "xn--".toList cs with
  | none => true
  | some code =>
    match Punycode.decode? code with
    | none => false
    | some label => label.any (fun c => 0x80 ≤ c.toNat) && !label.any isDisallowed

/-- The name that the bytes of a host stand for, after percent-decoding. -/
def domainName? (bytes : List UInt8) : Option (List Char) := do
  let text ← Utf8.text? bytes
  let cs := (text.toList.filter fun c => !isIgnorable c).map mapped
  if cs.any isDenied || cs.any isDisallowed || !(pieces '.' cs).all isLabel then none else some cs

/-! ## Addresses of four parts -/

def digitIn? (base : Nat) (c : Char) : Option Nat := (hexValue? c).filter (· < base)

def numberIn? (base : Nat) (cs : List Char) : Option Nat :=
  cs.foldlM (fun n c => (digitIn? base c).map (n * base + ·)) 0

/-- A number in base 16, 8 or 10; after `0x` no digit is needed. -/
def ipv4Number? (cs : List Char) : Option Nat :=
  match cs with
  | [] => none
  | '0' :: x :: rest =>
    if x == 'x' || x == 'X' then numberIn? 16 rest else numberIn? 8 (x :: rest)
  | _ => numberIn? 10 cs

/-- The parts of a name; a point at the end does not count. -/
def ipv4Parts (cs : List Char) : List (List Char) :=
  let parts := pieces '.' cs
  if parts.getLast? == some [] then parts.dropLast else parts

/-- A name whose last part is a number is a numeric address, right or wrong. -/
def endsInNumber (cs : List Char) : Bool :=
  match (ipv4Parts cs).getLast? with
  | none | some [] => false
  | some last => last.all isPlainDigit || (ipv4Number? last).isSome

/-- The last number fills the parts that are not given. -/
def ipv4Value? (cs : List Char) : Option Nat := do
  let numbers ← (ipv4Parts cs).mapM ipv4Number?
  let last ← numbers.getLast?
  let init := numbers.dropLast
  if 3 < init.length || 256 ^ (4 - init.length) ≤ last || init.any (255 < ·) then none
  else
    some (init.zipIdx.foldl (fun sum (n, i) => sum + n * 256 ^ (3 - i)) last)

/-! ## Addresses of eight parts -/

/-- A decimal number below 256 without a leading zero. -/
def isByteNumber (cs : List Char) : Bool :=
  isRunOf isPlainDigit cs && (cs.length == 1 || cs.head? != some '0')
    && ((numberIn? 10 cs).any (· < 256))

def isFourBytes (cs : List Char) : Bool :=
  let parts := pieces '.' cs
  parts.length == 4 && parts.all isByteNumber

def isGroup (cs : List Char) : Bool :=
  !cs.isEmpty && cs.length ≤ 4 && cs.all fun c => (digitIn? 16 c).isSome

/-- The number of 16-bit groups that the parts fill; the last part may hold four bytes. -/
def groupCount? : List (List Char) → Option Nat
  | [] => some 0
  | [part] => if isGroup part then some 1 else if isFourBytes part then some 2 else none
  | part :: rest => if isGroup part then (groupCount? rest).map (· + 1) else none

/-- The groups of one side of the double colon. -/
def sideCount? (cs : List Char) : Option Nat :=
  if cs.isEmpty then some 0 else groupCount? (pieces ':' cs)

/-- Eight groups, or fewer around one double colon that stands for at least one. Bytes may stand at
the very end only. -/
def isIpv6 (cs : List Char) : Bool :=
  match cutDouble cs with
  | none => groupCount? (pieces ':' cs) == some 8
  | some (front, back) =>
    match front.isEmpty || (pieces ':' front).all isGroup, sideCount? front, sideCount? back with
    | true, some m, some n => m + n ≤ 7
    | _, _, _ => false
where
  /-- Cuts at the first double colon. -/
  cutDouble : List Char → Option (List Char × List Char)
    | ':' :: ':' :: rest => some ([], rest)
    | c :: rest => (cutDouble rest).map fun (a, b) => (c :: a, b)
    | [] => none

/-! ## Any host -/

/-- A numeric address of eight parts stands in brackets. -/
def bracketed (cs : List Char) : Except UrlFault Host :=
  match beforeSuffix? [']'] cs with
  | some ('[' :: inner) =>
    if isIpv6 inner then .ok (.ipv6 (String.ofList inner)) else .error .ipv6
  | _ => .error .ipv6

def Host.read (cs : List Char) : Except UrlFault Host :=
  if cs.head? == some '[' then bracketed cs
  else
    match domainName? (Percent.decode (Utf8.bytes (String.ofList cs))) with
    | none => .error .domainName
    | some [] => .error .emptyHost
    | some name =>
      if endsInNumber name then
        match ipv4Value? name with
        | some value => .ok (.ipv4 value)
        | none => .error .ipv4
      else .ok (.domain (String.ofList name))

def isOpaqueDenied (c : Char) : Bool := c.toNat == 0 || " \t\n\r#/:<>?@[\\]^|".toList.contains c

def Host.readOpaque (cs : List Char) : Except UrlFault Host :=
  if cs.head? == some '[' then bracketed cs
  else if cs.any isOpaqueDenied then .error .domainCharacter
  else .ok (.opaqueName (String.ofList cs))

end Url

end ImageGate
