import ImageGate.Http.Message
import ImageGate.Text.Blank

/-! Access from pages of other origins. A policy names the origins whose scripts may read images;
every response carries the headers of the policy, and a preflight request is answered from the
policy alone. -/
namespace ImageGate.Http
open Text
set_option autoImplicit false

/-! ## Policies -/

inductive CorsPolicy where
  | anyOrigin
  | origins (list : List String)
  | sameOrigin
  deriving DecidableEq, Repr

namespace CorsPolicy

/-- The entries without the blanks around them; blank ones do not count. -/
def entries (list : List String) : List String := (list.map trim).filter (· ≠ "")

/-- An asterisk stands for every origin. Entries that no header can hold are skipped, and without
any entry left only the own origin remains. -/
def ofOrigins (list : List String) : CorsPolicy :=
  let entries := entries list
  if entries.contains "*" then anyOrigin
  else
    match entries.filter isHeaderValue with
    | [] => sameOrigin
    | valid => origins valid

/-- The origin that a response allows to read it. -/
def allowed? (policy : CorsPolicy) (origin : Option String) : Option String :=
  match policy with
  | anyOrigin => some "*"
  | origins list => origin.filter list.contains
  | sameOrigin => none

end CorsPolicy

/-! ## Headers -/

/-- The headers that tell caches and browsers about the policy. -/
def CorsPolicy.headers (policy : CorsPolicy) (request : Request) : List Header :=
  ("vary", "origin, access-control-request-method, access-control-request-headers")
    :: ((policy.allowed? (request.header? "origin")).map (Prod.mk "access-control-allow-origin")).toList

/-- What scripts may read besides the body. -/
def exposedHeaders : List Header :=
  [("access-control-expose-headers", "content-type,content-disposition")]

/-- How scripts may ask, and for how many seconds they may rely on that. -/
def preflightHeaders : List Header :=
  [("access-control-allow-methods", "GET,HEAD,OPTIONS"),
    ("access-control-allow-headers", "accept"),
    ("access-control-max-age", "86400")]

end ImageGate.Http
