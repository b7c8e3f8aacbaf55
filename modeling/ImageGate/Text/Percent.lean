import ImageGate.Text.Digit
import ImageGate.Text.Utf8

/-! Percent encoding. Encoding writes a byte of the kept set as itself and any other byte as a
percent sign and two upper-case hexadecimal digits; decoding turns every such triplet, in either
case, back into its byte and leaves all else alone. -/
namespace ImageGate.Text.Percent
set_option autoImplicit false

/-! ## Bytes -/

def percent : UInt8 := 0x25

def hexValue? (b : UInt8) : Option UInt8 :=
  if 0x30 ≤ b && b ≤ 0x39 then some (b - 0x30)
  else if 0x41 ≤ b && b ≤ 0x46 then some (b - 0x37)
  else if 0x61 ≤ b && b ≤ 0x66 then some (b - 0x57)
  else none

/-- The byte that two hexadecimal digits write. -/
def pairValue? (high low : UInt8) : Option UInt8 := do
  let h ← hexValue? high
  let l ← hexValue? low
  return h * 16 + l

def decode : List UInt8 → List UInt8
  | [] => []
  | [a] => [a]
  | [a, b] => [a, b]
  | a :: b :: c :: rest =>
    if a = percent then
      match pairValue? b c with
      | some v => v :: decode rest
      | none => a :: decode (b :: c :: rest)
    else a :: decode (b :: c :: rest)

def hexDigit (n : Nat) : Char :=
  if n < 10 then Char.ofNat (0x30 + n) else Char.ofNat (0x37 + n)

def encodeByte (keep : UInt8 → Bool) (b : UInt8) : List Char :=
  if keep b then [Char.ofNat b.toNat] else ['%', hexDigit (b.toNat / 16), hexDigit (b.toNat % 16)]

/-! ## Texts -/

def encode (keep : UInt8 → Bool) (s : String) : String :=
  String.ofList ((Utf8.bytes s).flatMap (encodeByte keep))

/-- The decoded text, if the decoded bytes are one. -/
def decodeText? (s : String) : Option String := Utf8.text? (decode (Utf8.bytes s))

/-- Decodes once; a text whose decoded bytes are no text stands for itself. -/
def decodeText (s : String) : String := (decodeText? s).getD s

/-! ## What is kept -/

def isAlphanumeric (b : UInt8) : Bool :=
  (0x30 ≤ b && b ≤ 0x39) || (0x41 ≤ b && b ≤ 0x5a) || (0x61 ≤ b && b ≤ 0x7a)

def isOneOf (chars : String) (b : UInt8) : Bool := chars.toList.any fun c => c.toNat == b.toNat

/-- The characters that never need encoding. -/
def isUnreserved (b : UInt8) : Bool := isAlphanumeric b || isOneOf "-._~" b

/-- What may stand in one segment of a path. -/
def isSegmentByte (b : UInt8) : Bool := isUnreserved b || isOneOf "!$&'()*+,;=:@" b

/-- What may stand in a path of folders that has to survive inside a query value: slashes do, an
ampersand would end the value. -/
def isFolderPathByte (b : UInt8) : Bool := (isSegmentByte b && b != 0x26) || b == 0x2f

end ImageGate.Text.Percent
