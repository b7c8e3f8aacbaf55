import ImageGate.Http.Answer
import ImageGate.Http.Cors
import ImageGate.Http.Route

/-! The server: every request gets one response, and the calls that were made for it are on
record. -/
namespace ImageGate.Http
open Text
set_option autoImplicit false

/-- The version that the server reports. -/
def version : String := "0.1.0"

def healthJson : String :=
  Json.object [("status", Json.quote "healthy"), ("version", Json.quote version)]

/-- Everything besides the request that a response depends on. -/
structure Server where
  cors : CorsPolicy
  settings : DeliverySettings
  gate : Gate
  world : Collaborators

/-- A response and the calls that were made for it. -/
structure Exchange where
  response : Response
  calls : List Call := []

namespace Server

def badCapture (c : BadCapture) : Response :=
  { status := 400, headers := [("content-type", "text/plain; charset=utf-8")],
    body := .whole (Utf8.bytes c.message) }

def deliver (server : Server) (raw : RawRequest) (accept : Option String) : Exchange :=
  match raw.read with
  | .error violation => ⟨.ofFault (.ofViolation violation), []⟩
  | .ok request =>
    let run := Delivery.run server.settings server.gate server.world request accept
    ⟨.ofResult run.result, run.calls⟩

/-- Answers what a route asks for. -/
def get (server : Server) (route : Route) (request : Request) : Exchange :=
  match route.raw? request.target.query with
  | .error c => ⟨badCapture c, []⟩
  | .ok none => ⟨jsonResponse 200 healthJson, []⟩
  | .ok (some raw) => server.deliver raw request.accept?

def allowHeader : Header := ("allow", "GET,HEAD")

/-- The response before the headers of the policy. An unknown path has no methods to allow. -/
def route (server : Server) (request : Request) : Exchange :=
  match Route.ofPath? request.target.path with
  | none => ⟨{ status := 404 }, []⟩
  | some route =>
    match request.method with
    | .get =>
      let exchange := server.get route request
      { exchange with response := exchange.response.withLength }
    | .head =>
      let exchange := server.get route request
      { exchange with response := exchange.response.withLength.withoutBody }
    | .options | .other _ =>
      ⟨Response.withLength { status := 405, headers := [allowHeader] }, []⟩

def respond (server : Server) (request : Request) : Exchange :=
  let exchange := server.route request
  let common := server.cors.headers request
  match request.method with
  | .options =>
    ⟨{ status := 200
       headers := exchange.response.headers ++ common ++ preflightHeaders }, []⟩
  | _ =>
    { exchange with response := exchange.response.addHeaders (common ++ exposedHeaders) }

end Server

end ImageGate.Http
