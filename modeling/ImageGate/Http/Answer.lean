import ImageGate.Delivery
import ImageGate.Http.Message
import ImageGate.Text.Json

/-! Responses for what a delivery brings: an image, a placeholder, or a fault as a JSON object. -/
namespace ImageGate.Http
open Text
set_option autoImplicit false

/-! ## Faults -/

def jsonType : String := "application/json"

/-- A status that no status line can hold stands for a bad gateway. -/
def lineStatus (status : Nat) : Nat := if 100 ≤ status && status < 1000 then status else 502

/-- The word for the kind of fault. -/
def faultKind : Fault → String
  | .argument _ => "invalid_argument"
  | .internal _ => "internal_error"
  | .backend .. => "upstream_error"

/-- What callers may read about a fault: nothing of what goes on inside. -/
def publicMessage : Fault → String
  | .argument c => c.reason
  | .internal _ => "Internal server error"
  | .backend _ message => message

def faultField? : Fault → Option String
  | .argument c => some c.field
  | .internal _ | .backend .. => none

def faultJson (fault : Fault) : String :=
  Json.object ([("error", Json.quote (faultKind fault)),
      ("message", Json.quote (publicMessage fault))]
    ++ ((faultField? fault).map fun field => ("field", Json.quote field)).toList
    ++ [("status", Number.natText (lineStatus fault.status))])

def jsonResponse (status : Nat) (json : String) : Response :=
  { status, headers := [("content-type", jsonType)], body := .whole (Utf8.bytes json) }

def Response.ofFault (fault : Fault) : Response :=
  jsonResponse (lineStatus fault.status) (faultJson fault)

/-! ## Images -/

/-- Whether a character is a control character of Unicode. -/
def isControl (c : Char) : Bool := c.toNat < 0x20 || (0x7f ≤ c.toNat && c.toNat < 0xa0)

/-- The content of a quoted string: control characters are dropped, quotes and backslashes
escaped. -/
def quotedName (name : String) : String :=
  String.ofList ((name.toList.filter fun c => !isControl c).flatMap fun c =>
    if c = '"' || c = '\\' then ['\\', c] else [c])

/-- Shows the body in place and offers a name for storing it. -/
def contentDisposition? (name : String) : Option String :=
  let value := "inline; filename=\"" ++ quotedName name ++ "\""
  if isHeaderValue value then some value else none

def Response.ofDelivered : Delivered → Response
  | .image image mediaType name =>
    { status := image.status
      headers := ("content-type", if isHeaderValue mediaType then mediaType else unknownMediaType)
        :: ((name.bind contentDisposition?).map (Prod.mk "content-disposition")).toList
      body := .streamed image.body }
  | .placeholder status image =>
    { status, headers := [("content-type", image.mediaType)], body := .whole image.body }

def Response.ofResult : Except Fault Delivered → Response
  | .ok delivered => .ofDelivered delivered
  | .error fault => .ofFault fault

end ImageGate.Http
