import ImageGate.Text.Percent

/-! Headers of messages: which names and which values can be written. -/
namespace ImageGate.Http
open Text
set_option autoImplicit false

/-- The characters of method and header names. -/
def isTokenByte (b : UInt8) : Bool := Percent.isAlphanumeric b || Percent.isOneOf "!#$%&'*+-.^_`|~" b

def isToken (s : String) : Bool := !s.isEmpty && (Utf8.bytes s).all isTokenByte

/-- A tab may stand in a header value, every other control character of ASCII may not. -/
def isValueChar (c : Char) : Bool := c == '\t' || (0x20 ≤ c.toNat && c.toNat != 0x7f)

def isHeaderValue (s : String) : Bool := s.toList.all isValueChar

/-- The name is in lower case. -/
abbrev Header := String × String

end ImageGate.Http
