import ImageGate.Request.Parameters

/-! Requests from query strings and paths. Reading only gives every value its type; what the
protocols allow is for the rules to say. -/
namespace ImageGate
open Text Number Parameters
set_option autoImplicit false

/-! ## File names -/

/-- A name and the extension after its last dot; a dot at the end starts no extension. -/
def splitExtension (file : String) : String × Option String :=
  match cutLast '.' file.toList with
  | some (stem, c :: extension) => (String.ofList stem, some (String.ofList (c :: extension)))
  | _ => (file, none)

/-! ## The protocols -/

def Iip.Request.ofQuery (query : Option String) : Reading Iip.Request := do
  let ps := Parameters.ofQuery query
  let width ← ps.natural "WID"
  let height ← ps.natural "HEI"
  let region ← ps.numbers "RGN"
  let quality ← ps.integer "QLT"
  let contrast ← ps.number "CNT"
  let gamma ← ps.number "GAM"
  let invert ← ps.flag "INV"
  let jpegTile ← ps.integers "JTL"
  let pngTile ← ps.integers "PTL"
  return {
    image := (ps.text? "FIF").getD ""
    width, height, region, quality, contrast
    rotation := ps.text? "ROT"
    gamma
    colormap := ps.text? "CMP"
    profile := ps.text? "PFL"
    twist := ps.text? "CTW"
    invert
    colorSpace := ps.text? "COL"
    jpegTile, pngTile
    exportAs := ps.text? "CVT" }

/-- The last part of the path holds quality and format. -/
def Iiif.ImageRequest.ofPath (identifier region size rotation file : String) :
    Iiif.ImageRequest :=
  let (quality, format) := splitExtension file
  { identifier, region, size, rotation, quality, format }

def Iiif.InfoRequest.ofPath (identifier file : String) : Reading Iiif.InfoRequest :=
  match splitExtension file with
  | ("info", some extension) => .ok { identifier, extension }
  | _ => .error (.notInfoDocument file)

def DeepZoom.descriptorExtension : String := ".dzi"

def DeepZoom.tileSeparator : String := "_files/"

/-- The tile that the parts of a path after its image name. -/
def DeepZoom.TileRequest.ofParts (image rest : String) (query : Option String) :
    Reading DeepZoom.TileRequest := do
  let some (layerText, file) := cutFirst '/' rest.toList | throw (.notTilePath rest)
  let layer ← readAs "layer" .natural (readNat? (2 ^ 32)) (String.ofList layerText)
  let (tile, format) := splitExtension (String.ofList file)
  let ps := Parameters.ofQuery query
  let contrast ← ps.number "CNT"
  let gamma ← ps.number "GAM"
  let invert ← ps.flag "INV"
  return {
    image, layer, tile, format, contrast, gamma
    colormap := ps.text? "CMP"
    twist := ps.text? "CTW"
    invert
    colorSpace := ps.text? "COL" }

/-- A path that ends like a descriptor asks for one, and the whole path is its name; any other is
cut at the last tile separator. -/
def DeepZoom.requestOfPath (path : String) (query : Option String) : Reading Request := do
  let cs := path.toList.dropWhile fun c => c == '/'
  let path := String.ofList cs
  if (beforeSuffix? DeepZoom.descriptorExtension.toList cs).isSome then
    return .deepZoomDescriptor { image := path }
  let some (image, rest) := cutLastOccurrence DeepZoom.tileSeparator.toList cs
    | throw (.notDeepZoomPath path)
  let tile ← DeepZoom.TileRequest.ofParts (String.ofList image) (String.ofList rest) query
  return .deepZoomTile tile

/-! ## Any request -/

/-- The raw parts of a request, as the front end finds them. -/
inductive RawRequest where
  | iip (query : Option String)
  | iiifImage (identifier region size rotation file : String)
  | iiifInfo (identifier file : String)
  | deepZoom (path : String) (query : Option String)
  deriving DecidableEq, Repr

def RawRequest.read : RawRequest → Reading Request
  | .iip query => Request.iip <$> Iip.Request.ofQuery query
  | .iiifImage identifier region size rotation file =>
    .ok (.iiifImage (.ofPath identifier region size rotation file))
  | .iiifInfo identifier file => Request.iiifInfo <$> Iiif.InfoRequest.ofPath identifier file
  | .deepZoom path query => DeepZoom.requestOfPath path query

end ImageGate
