import ImageGate.Backend.Fetching
import ImageGate.Startup

/-! A server at work. Each request is answered under the settings of its moment, while the gate, the
source of rights and the policy for other origins stay as they were put together at the start. -/
namespace ImageGate
set_option autoImplicit false

/-- What deliveries read of the settings. -/
def Settings.delivery (settings : Settings) : DeliverySettings :=
  ⟨settings.backends, settings.thumbnail⟩

/-! ## The network -/

/-- What comes of a question to the rights service at an address, and of a fetch that could be
built. -/
structure Network where
  rights : String → AccessQuery → RightsReply
  backend : FetchRequest → FetchOutcome

namespace Network

/-- Nobody listens anywhere. -/
def unreachable : Network := ⟨fun _ _ => .failed, fun _ => .error { stage := .connecting }⟩

def collaborators (network : Network) (rights : RightsSource) : Collaborators :=
  ⟨rights.answer network.rights, FetchRequest.outcome network.backend⟩

end Network

/-! ## The server -/

namespace Startup.Assembly

/-- The server of this moment. -/
def server (assembly : Assembly) (network : Network) : Http.Server :=
  { cors := assembly.cors
    settings := assembly.running.handle.current.delivery
    gate := assembly.gate
    world := network.collaborators assembly.rights }

def respond (assembly : Assembly) (network : Network) (request : Http.Request) : Http.Exchange :=
  (assembly.server network).respond request

end Startup.Assembly

end ImageGate
