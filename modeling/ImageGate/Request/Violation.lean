import ImageGate.Request.Basic

/-! What can be wrong with a request, as causes; the words for each cause are given in one place. -/
namespace ImageGate
open Text Number
set_option autoImplicit false

/-- The types that a parameter can be required to have. -/
inductive ValueKind where
  | natural
  | integer
  | integers
  | number
  deriving DecidableEq, Repr

def ValueKind.words : ValueKind → String
  | .natural => "a non-negative integer"
  | .integer => "an integer"
  | .integers => "a list of integers"
  | .number => "a number"

/-- A broken rule of one of the protocols, with what it was broken by. -/
inductive Violation where
  -- reading
  | notOfKind (field : String) (kind : ValueKind) (raw : String)
  | notAFlag (field : String) (value : String)
  | notInfoDocument (file : String)
  | notDeepZoomPath (path : String)
  | notTilePath (rest : String)
  -- every protocol
  | undefined (field : String)
  | notOneOf (field : String) (allowed : List String) (value : String)
  -- the Internet Imaging Protocol and the options shared with tiles
  | severalOutputs (names : List String)
  | exportFormat (value : String)
  | tileIndex (field : String) (values : List Int)
  | needsExport (field : String) (value : Nat)
  | regionNeedsExport (values : List Single)
  | regionCount (values : List Single)
  | regionBounds (component : String) (value : Single)
  | qualityNegative (value : Int)
  | qualityAbovePng (value : Int)
  | qualityAboveJpeg (value : Int)
  | contrastNegative (value : Single)
  | profileShape (value : String)
  | profilePart (component : String) (part : String)
  | twistBrackets (value : String)
  | twistRow (row : Nat) (text : String) (value : String)
  | twistNumber (component : String) (row : Nat) (text : String) (value : String)
  -- tiles
  | tileCoordinate (value : String)
  | tileFormat (value : String)
  -- IIIF
  | iiifRegion (value : String)
  | iiifSize (value : String)
  | iiifRotation (value : String)
  | iiifChoice (field : String) (allowed : List String) (value : String)
  | infoExtension (value : String)
  deriving DecidableEq

def joined (sep : String) (parts : List String) : String := sep.intercalate parts

def integersText (values : List Int) : String := joined "," (values.map intText)

def numbersText (values : List Single) : String := joined "," (values.map Binary.text)

namespace Violation

/-- The part of the request that is at fault. -/
def field : Violation → String
  | notOfKind f _ _ | notAFlag f _ | undefined f | notOneOf f _ _ => f
  | notInfoDocument _ => "info"
  | notDeepZoomPath _ => "imageid"
  | notTilePath _ | tileCoordinate _ => "tiles"
  | severalOutputs names => joined "," names
  | exportFormat _ => "CVT"
  | tileIndex f _ | needsExport f _ | iiifChoice f _ _ => f
  | regionNeedsExport _ | regionCount _ => "RGN"
  | regionBounds c _ | profilePart c _ => c
  | qualityNegative _ | qualityAbovePng _ | qualityAboveJpeg _ => "QLT"
  | contrastNegative _ => "CNT"
  | profileShape _ => "PFL"
  | twistBrackets _ | twistRow .. | twistNumber .. => "CTW"
  | tileFormat _ | infoExtension _ => "format"
  | iiifRegion _ => "region"
  | iiifSize _ => "size"
  | iiifRotation _ => "rotation"

/-- The value that the caller gave; an undefined parameter has none. -/
def value? : Violation → Option String
  | notOfKind _ _ v | notAFlag _ v | notInfoDocument v | notDeepZoomPath v | notTilePath v => some v
  | undefined _ => none
  | notOneOf _ _ v | exportFormat v | profileShape v | profilePart _ v => some v
  | severalOutputs names => some (joined "," names)
  | tileIndex _ vs => some (integersText vs)
  | needsExport _ v => some (natText v)
  | regionNeedsExport vs | regionCount vs => some (numbersText vs)
  | regionBounds _ v | contrastNegative v => some v.text
  | qualityNegative v | qualityAbovePng v | qualityAboveJpeg v => some (intText v)
  | twistBrackets v | twistRow _ _ v | twistNumber _ _ _ v => some v
  | tileCoordinate v | tileFormat v | iiifRegion v | iiifSize v | iiifRotation v => some v
  | iiifChoice _ _ v | infoExtension v => some v

def message : Violation → String
  | notOfKind f kind raw => s!"The parameter {f} must be {kind.words}, but was: '{raw}'"
  | notAFlag f v => s!"The parameter {f} takes no value or a boolean, but was: '{v}'"
  | notInfoDocument file =>
    s!"IIIF information requests must be 'info.json', but was: '{file}'"
  | notDeepZoomPath path =>
    "DeepZoom requests must be '\x7bimageid\x7d.dzi' or "
      ++ "'\x7bimageid\x7d_files/\x7blayer\x7d/\x7bx\x7d_\x7by\x7d.\x7bformat\x7d', but was: '"
      ++ path ++ "'"
  | notTilePath rest =>
    "Deepzoom tile path must end in '\x7blayer\x7d/\x7bx\x7d_\x7by\x7d.\x7bformat\x7d', but was: '"
      ++ rest ++ "'"
  | undefined f => s!"The parameter {f} must be defined"
  | notOneOf f allowed v =>
    let all := joined ", " allowed
    s!"{f} has to be specified as one of the following values when set: {all}. "
      ++ s!"The provided {f} was: '{v}'"
  | severalOutputs names =>
    "More than one of the parameters JTL, PTL and CVT are set. Only one can be set at a time, "
      ++ "but got: " ++ joined " and " names
  | exportFormat v => s!"The parameter CVT must be either 'jpeg' or 'png'. It was '{v}'"
  | tileIndex f vs =>
    s!"The parameter {f} has to contain two values index x and resolution level r. "
      ++ s!"Input was: '{integersText vs}'"
  | needsExport f _ =>
    s!"The parameter {f} is only to be set, when the parameter CVT is in use"
  | regionNeedsExport _ => "The parameter RGN can only be used when the parameter CVT is in use"
  | regionCount vs =>
    "The parameter RGN has to contain four numbers x,y,w,h, all between 0.0 and 1.0. "
      ++ s!"Input was: '{numbersText vs}'"
  | regionBounds c _ =>
    s!"The value of {c} in parameter RGN is out of bounds. It has to be between 0.0 and 1.0"
  | qualityNegative _ => "QLT has to be equal to or greater than 0."
  | qualityAbovePng _ =>
    "QLT has to be less than or equal to 9, when the output format is PNG"
  | qualityAboveJpeg _ =>
    "QLT has to be less than or equal to 100, when the output format is JPEG"
  | contrastNegative _ => "CNT has to be equal to or greater than 0"
  | profileShape v =>
    s!"The value of PFL needs to be defined specifically as r:x1,y1-x2,y2 but was: '{v}'"
  | profilePart c part =>
    s!"The value of {c} in PFL needs to be a non-negative integer, but was: '{part}'"
  | twistBrackets v =>
    "CTW has to be defined as [array;array;array] using ; between arrays and , between numbers, "
      ++ s!"but was: '{v}'"
  | twistRow row text _ =>
    s!"array{row} in CTW has to contain exactly three comma-separated numbers, but was: '{text}'"
  | twistNumber c row text _ =>
    s!"The value of {c} in array{row} needs to be a number, but was: {text}"
  | tileCoordinate v => s!"Deepzoom parameter 'tiles' was '{v}' but must be specified as x_y"
  | tileFormat _ => "Format for Deepzoom tile has to be either 'jpg', 'jpeg' or 'png'"
  | iiifRegion v =>
    s!"The parameter region must be 'full', 'square', 'x,y,w,h' or 'pct:x,y,w,h', but was: '{v}'"
  | iiifSize v =>
    "The parameter size must be one of 'max', 'w,', ',h', 'pct:n', 'w,h' or '!w,h', "
      ++ s!"optionally prefixed with '^', but was: '{v}'"
  | iiifRotation v =>
    "The parameter rotation must be a number between 0 and 360, optionally prefixed with '!', "
      ++ s!"but was: '{v}'"
  | iiifChoice f allowed v =>
    let all := joined ", " allowed
    s!"The parameter {f} must be one of {all}, but was: '{v}'"
  | infoExtension v =>
    s!"IIIF image information is only available as 'json', but '{v}' was requested"

end Violation

end ImageGate
