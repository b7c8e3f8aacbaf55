import ImageGate.Backend.Reply
import ImageGate.Http.Header
import ImageGate.Http.Target
import ImageGate.Url.Basic

/-! Fetching. A request is sent only if it can be built: its address is that of a host on the web,
and its header can be written. -/
namespace ImageGate
open Text
set_option autoImplicit false

/-! ## What can be built -/

/-- Whether a message can name the host: names in ASCII are held to the bytes of a message. -/
def Url.Host.isRequestable : Url.Host → Bool
  | .domain name =>
    name.toList.all fun c => 0x80 ≤ c.toNat || Http.Target.isHostByte (UInt8.ofNat c.toNat)
  | .ipv4 _ | .ipv6 _ => true
  | .opaqueName _ => false

/-- Whether a document can be fetched from the address. -/
def Url.isRequestable (url : Url) : Bool :=
  (url.scheme = "http" || url.scheme = "https") && url.host.any Host.isRequestable

def isFetchable (address : String) : Bool :=
  match Url.read address with
  | .ok url => url.isRequestable
  | .error _ => false

def FetchRequest.isBuildable (r : FetchRequest) : Bool :=
  isFetchable r.address && r.accept.all Http.isHeaderValue

/-! ## The outcome -/

/-- Sends only what can be built. -/
def FetchRequest.outcome (send : FetchRequest → FetchOutcome) (r : FetchRequest) : FetchOutcome :=
  if r.isBuildable then send r else .error { stage := .building }

end ImageGate
