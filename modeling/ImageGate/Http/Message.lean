import ImageGate.Backend.Reply
import ImageGate.Http.Header
import ImageGate.Http.Target

/-! Messages of the server: the requests it reads and the responses it gives. -/
namespace ImageGate.Http
open Text
set_option autoImplicit false

/-! ## Requests -/

inductive Method where
  | get
  | head
  | options
  | other (name : String)
  deriving DecidableEq, Repr

def Method.read? (name : String) : Option Method :=
  match name with
  | "GET" => some .get
  | "HEAD" => some .head
  | "OPTIONS" => some .options
  | _ => if isToken name then some (.other name) else none

structure Request where
  method : Method
  target : Target
  headers : List Header
  deriving DecidableEq, Repr

/-- A header with its name in lower case, if it can exist. -/
def readHeader? (header : String × String) : Option Header :=
  if isToken header.1 && isHeaderValue header.2 then some (lowerAsciiText header.1, header.2)
  else none

def Request.read? (method target : String) (headers : List (String × String)) : Option Request := do
  return ⟨← Method.read? method, ← Target.read? target, ← headers.mapM readHeader?⟩

/-- The first value under the name. -/
def Request.header? (request : Request) (name : String) : Option String :=
  (request.headers.find? fun h => h.1 == name).map (·.2)

/-- The media types that the caller wants, if they are given in visible ASCII. -/
def Request.accept? (request : Request) : Option String :=
  (request.header? "accept").bind fun value => visibleText? (Utf8.bytes value)

/-! ## Responses -/

inductive Body where
  | whole (bytes : List UInt8)
  | streamed (body : ReplyBody)
  deriving DecidableEq, Repr

structure Response where
  status : Nat
  headers : List Header := []
  body : Body := .whole []
  deriving DecidableEq, Repr

namespace Response

def addHeaders (response : Response) (headers : List Header) : Response :=
  { response with headers := response.headers ++ headers }

/-- States the length of a body that is known in full. -/
def withLength (response : Response) : Response :=
  match response.body with
  | .whole bytes => response.addHeaders [("content-length", Number.natText bytes.length)]
  | .streamed _ => response

def withoutBody (response : Response) : Response := { response with body := .whole [] }

end Response

end ImageGate.Http
