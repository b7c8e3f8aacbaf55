import ImageGate.Http.Message
import ImageGate.Request.Reading

/-! Routes. A path is matched exactly and while it is still encoded; the parts of it that a route
captures are decoded afterwards. -/
namespace ImageGate.Http
open Text
set_option autoImplicit false

/-- A captured part of a path and its name. -/
structure Capture where
  name : String
  encoded : String
  deriving DecidableEq, Repr

inductive Route where
  | health
  | iip
  | iiifInfo (identifier file : Capture)
  | iiifImage (identifier region size rotation file : Capture)
  | deepZoom (path : Capture)
  deriving DecidableEq, Repr

namespace Route

/-- The parts of a path that starts with a slash. Only parts before the last one may be empty. -/
def parts? (path : String) : Option (List String) :=
  match pieces '/' path.toList with
  | [] :: rest => some (rest.map String.ofList)
  | _ => none

/-- The second part of an IIIF path is a file or a region, and has one name for both. -/
def ofParts? (parts : List String) : Option Route :=
  match parts with
  | ["health"] => some .health
  | ["iip"] => some .iip
  | ["iiif", identifier, file] =>
    if file = "" then none else some (.iiifInfo ⟨"identifier", identifier⟩ ⟨"segment", file⟩)
  | ["iiif", identifier, region, size, rotation, file] =>
    if file = "" then none
    else
      some (.iiifImage ⟨"identifier", identifier⟩ ⟨"segment", region⟩ ⟨"size", size⟩
        ⟨"rotation", rotation⟩ ⟨"file", file⟩)
  | "deepzoom" :: first :: rest =>
    let path := "/".intercalate (first :: rest)
    if path = "" then none else some (.deepZoom ⟨"path", path⟩)
  | _ => none

def ofPath? (path : String) : Option Route := (parts? path).bind ofParts?

end Route

/-! ## Captures -/

/-- A captured part whose bytes are no text. -/
structure BadCapture where
  name : String
  deriving DecidableEq, Repr

def BadCapture.message (c : BadCapture) : String :=
  let name := c.name
  s!"Invalid URL: Invalid UTF-8 in `{name}`"

def Capture.text (c : Capture) : Except BadCapture String :=
  match Percent.decodeText? c.encoded with
  | some text => .ok text
  | none => .error ⟨c.name⟩

/-- The request for an image or a description; a health check is none. -/
def Route.raw? (route : Route) (query : Option String) : Except BadCapture (Option RawRequest) :=
  match route with
  | .health => .ok none
  | .iip => .ok (some (.iip query))
  | .iiifInfo identifier file => do
    return some (.iiifInfo (← identifier.text) (← file.text))
  | .iiifImage identifier region size rotation file => do
    return some (.iiifImage (← identifier.text) (← region.text) (← size.text) (← rotation.text)
      (← file.text))
  | .deepZoom path => do return some (.deepZoom (← path.text) query)

end ImageGate.Http
