import ImageGate.Access.Gate
import ImageGate.Backend.Reply

/-! The delivery of one request: check it, find its address, pass the gate if it is for an image,
and fetch. Every call to the outside is on record. -/
namespace ImageGate
set_option autoImplicit false

/-- What of the settings one delivery reads. -/
structure DeliverySettings where
  backends : Backends
  limits : ThumbnailLimits
  deriving DecidableEq, Repr

/-- Those outside: who answers questions about access, and what comes of a fetch. -/
structure Collaborators where
  rights : RightsAnswer
  backend : FetchRequest → FetchOutcome

/-- A call to the outside. -/
inductive Call where
  | rights (query : AccessQuery)
  | fetch (request : FetchRequest)
  deriving DecidableEq, Repr

inductive Delivered where
  | image (image : FetchedImage) (mediaType : String) (downloadName : Option String)
  | placeholder (status : Nat) (image : Placeholder)
  deriving DecidableEq, Repr

/-- The result of a delivery and the calls it made, in order. -/
structure DeliveryRun where
  result : Except Fault Delivered
  calls : List Call

namespace Delivery

/-- Without a media type of its own an image has that of the format asked for. -/
def ofFetched (request : Request) (image : FetchedImage) : Delivered :=
  .image image (image.mediaType.getD (mediaType request.format)) request.downloadName

/-- Fetches the image; `calls` were made before. -/
def fetch (world : Collaborators) (request : Request) (get : FetchRequest) (calls : List Call) :
    DeliveryRun :=
  ⟨(FetchedImage.ofOutcome (world.backend get) request.identifier).map (ofFetched request),
    calls ++ [.fetch get]⟩

/-- Fetches only what the gate lets through. -/
def fetchGated (gate : Gate) (world : Collaborators) (limits : ThumbnailLimits)
    (request : Request) (get : FetchRequest) : DeliveryRun :=
  let query := Gate.query request.identifier (request.presentation limits)
  match gate.check request.identifier (world.rights query) with
  | .error failure => ⟨.error failure.fault, [.rights query]⟩
  | .ok (.placeholder status image) => ⟨.ok (.placeholder status image), [.rights query]⟩
  | .ok .proceed => fetch world request get [.rights query]

/-- Runs one request; `accept` is the caller's wish for media types. -/
def run (settings : DeliverySettings) (gate : Gate) (world : Collaborators) (request : Request)
    (accept : Option String) : DeliveryRun :=
  match request.check with
  | .error violation => ⟨.error (.ofViolation violation), []⟩
  | .ok () =>
    match request.address settings.backends with
    | .error missing => ⟨.error (.ofMissingServer missing), []⟩
    | .ok address =>
      let get := { address, accept }
      if request.isImage then fetchGated gate world settings.limits request get
      else fetch world request get []

end Delivery

end ImageGate
