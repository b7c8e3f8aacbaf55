import ImageGate.Request.Violation
import ImageGate.Text.Blank

/-! The rules of the three protocols. Each rule is a check on one part of a request; the checks of a
protocol run in a fixed order and the first one that fails says what is wrong. -/
namespace ImageGate
open Text Number
set_option autoImplicit false

abbrev Check := Except Violation Unit

/-- The outcome of one rule: `broken` says what is wrong when the rule does not hold. -/
def require (holds : Bool) (broken : Violation) : Check :=
  if holds then .ok () else .error broken

/-- Checks a value that is given. -/
def checkGiven {α : Type} (value : Option α) (check : α → Check) : Check :=
  match value with
  | none => .ok ()
  | some v => check v

/-! ## Rules that protocols share -/

def checkIdentifier (field value : String) : Check :=
  require (!allBlank value) (.undefined field)

def checkOneOf (field : String) (allowed : List String) (value : String) : Check :=
  require (allowed.contains value) (.notOneOf field allowed value)

def colormaps : List String := ["GREY", "JET", "COLD", "HOT", "RED", "GREEN", "BLUE"]

def colorSpaces : List String := ["grey", "gray", "binary"]

/-- Below zero, not counting the negative zero. -/
def isNegative (x : Single) : Bool := Binary.lt x (.ofNat 0)

def checkContrast (contrast : Option Single) : Check :=
  checkGiven contrast fun c => require (!isNegative c) (.contrastNegative c)

def checkColormap (colormap : Option String) : Check :=
  checkGiven colormap (checkOneOf "CMP" colormaps)

def checkColorSpace (colorSpace : Option String) : Check :=
  checkGiven colorSpace (checkOneOf "COL" colorSpaces)

/-! ## Colour twist -/

def twistComponents : List String := ["r", "g", "b"]

/-- The text between the outermost brackets, which blanks may surround. -/
def insideBrackets? (cs : List Char) : Option (List Char) := do
  let inner ← afterPrefix? ['['] (trimChars cs)
  beforeSuffix? [']'] inner

def isFiniteNumber (cs : List Char) : Bool :=
  match Binary.read? Format.single (trimChars cs) with
  | some v => v.isFinite
  | none => false

/-- One row is three numbers. -/
def checkTwistRow (whole : String) (row : Nat) (cs : List Char) : Check := do
  let values := pieces ',' cs
  require (values.length == 3) (.twistRow row (String.ofList cs) whole)
  (twistComponents.zip values).forM fun (component, value) =>
    require (isFiniteNumber value) (.twistNumber component row (String.ofList value) whole)

def checkTwistRows (whole : String) : Nat → List (List Char) → Check
  | _, [] => .ok ()
  | row, cs :: rest => do
    checkTwistRow whole row cs
    checkTwistRows whole (row + 1) rest

/-- A matrix is rows between brackets, counted from one. -/
def checkTwistText (twist : String) : Check :=
  match insideBrackets? twist.toList with
  | none => .error (.twistBrackets twist)
  | some inner => checkTwistRows twist 1 (pieces ';' inner)

def checkTwist (twist : Option String) : Check := checkGiven twist checkTwistText

/-! ## Profile -/

def profileComponents : List String := ["r", "x1", "y1", "x2", "y2"]

/-- Cuts at the last minus sign that leaves something on both sides. -/
def cutAtMinus? (cs : List Char) : Option (List Char × List Char) :=
  match cs.reverse with
  | [] => none
  | z :: front =>
    match cutLast '-' front.reverse with
    | some (a :: before, after) => some (a :: before, after ++ [z])
    | _ => none

/-- The five pieces of a text that is shaped like a profile, none of them empty. -/
def profileParts? (cs : List Char) : Option (List (List Char)) := do
  let (r, rest) ← cutFirst ':' cs
  match pieces ',' rest with
  | [x1, middle, y2] =>
    let (y1, x2) ← cutAtMinus? middle
    if r.isEmpty || x1.isEmpty || y2.isEmpty then none else some [r, x1, y1, x2, y2]
  | _ => none

/-- Digits from 0 to 9, of value below `2 ^ 32`. -/
def isProfileNumber (cs : List Char) : Bool :=
  match readDigits? cs with
  | some n => n < 2 ^ 32
  | none => false

def checkProfile (profile : String) : Check :=
  match profileParts? profile.toList with
  | none => .error (.profileShape profile)
  | some parts =>
    (profileComponents.zip parts).forM fun (component, part) =>
      require (isProfileNumber part) (.profilePart component (String.ofList part))

/-! ## Internet Imaging Protocol -/

namespace Iip

def exportFormats : List String := ["jpeg", "jpg", "png"]

def rotations : List String := ["0", "90", "180", "270", "!0", "!90", "!180", "!270"]

def regionComponents : List String := ["x", "y", "w", "h"]

/-- The names of the parameters that choose an output, those that are given. -/
def Request.outputNames (r : Request) : List String :=
  (if r.jpegTile.isSome then ["JTL"] else []) ++ (if r.pngTile.isSome then ["PTL"] else [])
    ++ (if r.exportAs.isSome then ["CVT"] else [])

def checkTileIndex (field : String) (values : List Int) : Check :=
  require (values.length == 2) (.tileIndex field values)

/-- From 0 to 1, both included. -/
def isPart (x : Single) : Bool := Binary.le (.ofNat 0) x && Binary.le x (.ofNat 1)

def checkRegion (exporting : Bool) (values : List Single) : Check := do
  require exporting (.regionNeedsExport values)
  require (values.length == 4) (.regionCount values)
  (regionComponents.zip values).forM fun (component, value) =>
    require (isPart value) (.regionBounds component value)

def checkQuality (output : Output) (quality : Int) : Check := do
  require (0 ≤ quality) (.qualityNegative quality)
  match output with
  | .png => require (quality ≤ 9) (.qualityAbovePng quality)
  | .jpeg => require (quality ≤ 100) (.qualityAboveJpeg quality)

def Request.check (r : Request) : Check := do
  checkIdentifier "FIF" r.image
  require (r.outputNames.length ≤ 1) (.severalOutputs r.outputNames)
  checkGiven r.exportAs fun v => require (exportFormats.contains v) (.exportFormat v)
  checkGiven r.jpegTile (checkTileIndex "JTL")
  checkGiven r.pngTile (checkTileIndex "PTL")
  let exporting := r.exportAs.isSome
  checkGiven r.width fun w => require exporting (.needsExport "WID" w)
  checkGiven r.height fun h => require exporting (.needsExport "HEI" h)
  checkGiven r.region (checkRegion exporting)
  checkGiven r.quality (checkQuality r.output)
  checkContrast r.contrast
  checkGiven r.rotation (checkOneOf "ROT" rotations)
  checkColormap r.colormap
  checkGiven r.profile checkProfile
  checkTwist r.twist
  checkColorSpace r.colorSpace

end Iip

/-! ## DeepZoom -/

namespace DeepZoom

def tileFormats : List String := ["jpg", "jpeg", "png"]

/-- Two runs of digits of any script, joined by an underscore. -/
def isTileCoordinate (tile : String) : Bool :=
  match cutFirst '_' tile.toList with
  | some (column, row) => isRunOf isDecimalDigit column && isRunOf isDecimalDigit row
  | none => false

def DescriptorRequest.check (r : DescriptorRequest) : Check := checkIdentifier "imageid" r.image

def TileRequest.check (r : TileRequest) : Check := do
  checkIdentifier "imageid" r.image
  require (isTileCoordinate r.tile) (.tileCoordinate r.tile)
  checkGiven r.format fun v => require (tileFormats.contains v) (.tileFormat v)
  checkContrast r.contrast
  checkColormap r.colormap
  checkTwist r.twist
  checkColorSpace r.colorSpace

end DeepZoom

/-! ## IIIF -/

namespace Iiif

def qualities : List String := ["color", "gray", "bitonal", "default"]

def formats : List String := ["jpg", "tif", "png", "gif", "jp2", "pdf", "webp"]

/-- A run of digits, or two of them around a point. -/
def isDecimalText (cs : List Char) : Bool :=
  match cutFirst '.' cs with
  | some (whole, fraction) => isRunOf isDecimalDigit whole && isRunOf isDecimalDigit fraction
  | none => isRunOf isDecimalDigit cs

/-- Four pieces between commas, each passing `p`. -/
def isQuadruple (p : List Char → Bool) (cs : List Char) : Bool :=
  let parts := pieces ',' cs
  parts.length == 4 && parts.all p

def isRegion (region : String) : Bool :=
  region == "full" || region == "square"
    || match afterPrefix? "pct:".toList region.toList with
      | some rest => isQuadruple isDecimalText rest
      | none => isQuadruple (isRunOf isDecimalDigit) region.toList

/-- Width and height around a comma; either may be left out. -/
def isExtent (cs : List Char) : Bool :=
  match cutFirst ',' cs with
  | none => false
  | some (width, height) =>
    let given := isRunOf isDecimalDigit
    (given width && (height.isEmpty || given height)) || (width.isEmpty && given height)

/-- Width and height around a comma, both given. -/
def isBox (cs : List Char) : Bool :=
  match cutFirst ',' cs with
  | none => false
  | some (width, height) => isRunOf isDecimalDigit width && isRunOf isDecimalDigit height

def isPlainSize (cs : List Char) : Bool :=
  cs == "max".toList
    || match afterPrefix? "pct:".toList cs with
      | some rest => isDecimalText rest
      | none =>
        match cs with
        | '!' :: rest => isBox rest
        | _ => isExtent cs

/-- A caret in front allows enlarging. -/
def isSize (size : String) : Bool :=
  match size.toList with
  | '^' :: rest => isPlainSize rest
  | cs => isPlainSize cs

/-- At most 360 once rounded to double precision. An exclamation mark in front flips the image. -/
def isRotation (rotation : String) : Bool :=
  let degrees := match rotation.toList with
    | '!' :: rest => rest
    | cs => cs
  isDecimalText degrees
    && match Binary.read? Format.double degrees with
      | some d => Binary.le d (.ofNat 360)
      | none => false

def ImageRequest.check (r : ImageRequest) : Check := do
  checkIdentifier "identifier" r.identifier
  require (isRegion r.region) (.iiifRegion r.region)
  require (isSize r.size) (.iiifSize r.size)
  require (isRotation r.rotation) (.iiifRotation r.rotation)
  require (qualities.contains r.quality) (.iiifChoice "quality" qualities r.quality)
  checkGiven r.format fun v => require (formats.contains v) (.iiifChoice "format" formats v)

def InfoRequest.check (r : InfoRequest) : Check := do
  checkIdentifier "identifier" r.identifier
  require (r.extension == "json") (.infoExtension r.extension)

end Iiif

/-! ## Any request -/

def Request.check : Request → Check
  | iip r => r.check
  | iiifImage r => r.check
  | iiifInfo r => r.check
  | deepZoomDescriptor r => r.check
  | deepZoomTile r => r.check

end ImageGate
