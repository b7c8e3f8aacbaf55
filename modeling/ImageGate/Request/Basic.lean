import ImageGate.MediaType
import ImageGate.Text.Cut

/-! Requests for images and for their descriptions, in the three protocols: the Internet Imaging
Protocol, the image interface of IIIF, and DeepZoom. -/
namespace ImageGate
open Text Number
set_option autoImplicit false

/-! ## The protocols -/

/-- An Internet Imaging Protocol request. Only the image is always named. -/
structure Iip.Request where
  image : String
  width : Option Nat := none
  height : Option Nat := none
  /-- Left, top, width and height as parts of the whole. -/
  region : Option (List Single) := none
  quality : Option Int := none
  contrast : Option Single := none
  rotation : Option String := none
  gamma : Option Single := none
  colormap : Option String := none
  profile : Option String := none
  /-- A matrix that mixes the colour channels. -/
  twist : Option String := none
  invert : Bool := false
  colorSpace : Option String := none
  /-- Resolution level and index of a JPEG tile. -/
  jpegTile : Option (List Int) := none
  /-- Resolution level and index of a PNG tile. -/
  pngTile : Option (List Int) := none
  /-- The format of a whole exported image. -/
  exportAs : Option String := none
  deriving DecidableEq

structure Iiif.ImageRequest where
  identifier : String
  region : String
  size : String
  rotation : String
  quality : String
  format : Option String := none
  deriving DecidableEq, Repr

structure Iiif.InfoRequest where
  identifier : String
  extension : String
  deriving DecidableEq, Repr

structure DeepZoom.DescriptorRequest where
  image : String
  deriving DecidableEq, Repr

/-- One tile, with the processing options that the tile server shares with the Internet Imaging
Protocol. -/
structure DeepZoom.TileRequest where
  image : String
  layer : Nat
  /-- Column and row, joined by an underscore. -/
  tile : String
  format : Option String := none
  contrast : Option Single := none
  gamma : Option Single := none
  colormap : Option String := none
  twist : Option String := none
  invert : Bool := false
  colorSpace : Option String := none
  deriving DecidableEq

inductive Request where
  | iip (r : Iip.Request)
  | iiifImage (r : Iiif.ImageRequest)
  | iiifInfo (r : Iiif.InfoRequest)
  | deepZoomDescriptor (r : DeepZoom.DescriptorRequest)
  | deepZoomTile (r : DeepZoom.TileRequest)
  deriving DecidableEq

/-! ## What every request has -/

/-- The two formats that an Internet Imaging Protocol server writes. -/
inductive Iip.Output where
  | jpeg
  | png
  deriving DecidableEq, Repr

def Iip.Output.name : Iip.Output → String
  | .jpeg => "jpeg"
  | .png => "png"

/-- A named export format decides, then the kind of tile; without either it is JPEG. -/
def Iip.Request.output (r : Iip.Request) : Iip.Output :=
  match r.exportAs with
  | some format => if format = "png" then .png else .jpeg
  | none => if r.pngTile.isSome then .png else .jpeg

namespace Request

/-- The image that is asked for. -/
def identifier : Request → String
  | iip r => r.image
  | iiifImage r => r.identifier
  | iiifInfo r => r.identifier
  | deepZoomDescriptor r => r.image
  | deepZoomTile r => r.image

/-- Whether the answer shows pixels. A description gives only the geometry of an image. -/
def isImage : Request → Bool
  | iip _ | iiifImage _ | deepZoomTile _ => true
  | iiifInfo _ | deepZoomDescriptor _ => false

/-- The format of the answer. -/
def format : Request → String
  | iip r => r.output.name
  | iiifImage r => r.format.getD "jpg"
  | iiifInfo r => r.extension
  | deepZoomDescriptor _ => "dzi"
  | deepZoomTile r => r.format.getD "jpeg"

/-- The part after the last slash of either kind. -/
def lastName (cs : List Char) : List Char :=
  (cs.reverse.takeWhile fun c => !(c == '/' || c == '\\')).reverse

/-- The last name in the identifier, without one descriptor extension. -/
def baseName (identifier : String) : String :=
  let name := lastName identifier.toList
  String.ofList ((beforeSuffix? ".dzi".toList name).getD name)

/-- The name under which the answer is offered for download: only whole images and descriptors have
one. -/
def downloadName (r : Request) : Option String :=
  match r with
  | iip _ | iiifImage _ | deepZoomDescriptor _ =>
    some (baseName r.identifier ++ "." ++ r.format)
  | iiifInfo _ | deepZoomTile _ => none

end Request

end ImageGate
