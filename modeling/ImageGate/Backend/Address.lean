import ImageGate.Request.Rules
import ImageGate.Text.Percent

/-! Where a request goes: the base addresses of the image servers, and the address that a request
has there. Names of images are decoded once and encoded once, so a name that came encoded is not
encoded twice. -/
namespace ImageGate
open Text Number
set_option autoImplicit false

/-! ## Base addresses -/

/-- Whether a DeepZoom server takes the image path as part of its own path or as a query value. -/
inductive Addressing where
  | path
  | param
  deriving DecidableEq, Repr

def Addressing.name : Addressing → String
  | .path => "path"
  | .param => "param"

def withoutEndSlashes (s : String) : String := String.ofList (dropEndWhile '/' s.toList)

/-- A DeepZoom server. -/
structure DeepZoom.Server where
  base : String
  addressing : Addressing
  deriving DecidableEq, Repr

/-- Slashes at the end of the base are dropped. -/
def DeepZoom.Server.ofBase (base : String) (addressing : Addressing) : DeepZoom.Server :=
  ⟨withoutEndSlashes base, addressing⟩

/-- The image servers, each of which may be missing. -/
structure Backends where
  iip : Option String := none
  iiif : Option String := none
  deepZoom : Option DeepZoom.Server := none
  deriving DecidableEq, Repr

/-! ## Encoding -/

/-- Only unreserved characters stand for themselves. -/
def encodeComponent (s : String) : String :=
  Percent.encode Percent.isUnreserved (Percent.decodeText s)

/-- Slashes between folders stay. -/
def encodeImagePath (s : String) : String :=
  Percent.encode Percent.isFolderPathByte (Percent.decodeText s)

/-- For text that is not encoded yet: the marks of the IIIF grammar stay. -/
def encodeSegment (s : String) : String := Percent.encode Percent.isSegmentByte s

/-! ## Query tokens -/

/-- A parameter with its encoded value, or a bare name. -/
inductive Token where
  | valued (name value : String)
  | bare (name : String)
  deriving DecidableEq, Repr

def Token.text : Token → String
  | valued name value => name ++ "=" ++ value
  | bare name => name

/-- The token of a value that is given. -/
def Token.given (name : String) (value : Option String) : List Token :=
  (value.map (Token.valued name)).toList

def Token.flag (name : String) (isSet : Bool) : List Token := if isSet then [.bare name] else []

/-- `first` stands before the first token and an ampersand before each other one. -/
def queryText (first : String) (tokens : List Token) : String :=
  match tokens with
  | [] => ""
  | t :: rest => first ++ t.text ++ String.join (rest.map fun u => "&" ++ u.text)

/-! ## Internet Imaging Protocol -/

/-- Tiles choose their own format; anything else is exported, as JPEG unless told otherwise. -/
def Iip.Request.exportToken? (r : Iip.Request) : Option String :=
  match r.exportAs with
  | some format => some (if format = "jpg" then "jpeg" else format)
  | none => if r.jpegTile.isNone && r.pngTile.isNone then some "jpeg" else none

def pointedTexts (values : List Single) : String := joined "," (values.map Binary.pointedText)

def Iip.Request.tokens (r : Iip.Request) : List Token :=
  Token.given "FIF" (some (encodeComponent r.image))
    ++ Token.given "WID" (r.width.map natText)
    ++ Token.given "HEI" (r.height.map natText)
    ++ Token.given "RGN" (r.region.map pointedTexts)
    ++ Token.given "QLT" (r.quality.map intText)
    ++ Token.given "CNT" (r.contrast.map Binary.pointedText)
    ++ Token.given "ROT" (r.rotation.map encodeComponent)
    ++ Token.given "GAM" (r.gamma.map Binary.pointedText)
    ++ Token.given "CMP" (r.colormap.map encodeComponent)
    ++ Token.given "PFL" (r.profile.map encodeComponent)
    ++ Token.given "CTW" (r.twist.map encodeComponent)
    ++ Token.flag "INV" r.invert
    ++ Token.given "COL" (r.colorSpace.map encodeComponent)
    ++ Token.given "JTL" (r.jpegTile.map integersText)
    ++ Token.given "PTL" (r.pngTile.map integersText)
    ++ Token.given "CVT" (r.exportToken?.map encodeComponent)

def Iip.Request.address (r : Iip.Request) (base : String) : String :=
  withoutEndSlashes base ++ queryText "?" r.tokens

/-! ## IIIF -/

def Iiif.ImageRequest.address (r : Iiif.ImageRequest) (base : String) : String :=
  joined "/" [withoutEndSlashes base, encodeComponent r.identifier, encodeSegment r.region,
    encodeSegment r.size, encodeSegment r.rotation,
    encodeSegment r.quality ++ "." ++ encodeSegment (r.format.getD "jpg")]

def Iiif.InfoRequest.address (r : Iiif.InfoRequest) (base : String) : String :=
  joined "/" [withoutEndSlashes base, encodeComponent r.identifier,
    "info." ++ encodeSegment r.extension]

/-! ## DeepZoom -/

namespace DeepZoom

/-- The image path behind the base, in the server's way of taking it. -/
def Server.locate (server : Server) (path : String) : String :=
  match server.addressing with
  | .path => server.base ++ "/" ++ path
  | .param => server.base ++ "?DeepZoom=" ++ path

/-- A query of its own, or the rest of one that the image path began. -/
def Server.optionMark (server : Server) : String :=
  match server.addressing with
  | .path => "?"
  | .param => "&"

/-- The descriptor extension is added where it is missing. -/
def DescriptorRequest.path (r : DescriptorRequest) : String :=
  if (beforeSuffix? ".dzi".toList r.image.toList).isSome then r.image else r.image ++ ".dzi"

def DescriptorRequest.address (r : DescriptorRequest) (server : Server) : String :=
  server.locate (encodeImagePath r.path)

def TileRequest.path (r : TileRequest) : String :=
  encodeImagePath r.image ++ "_files/" ++ natText r.layer ++ "/" ++ encodeComponent r.tile ++ "."
    ++ encodeComponent (r.format.getD "jpeg")

def TileRequest.tokens (r : TileRequest) : List Token :=
  Token.given "CNT" (r.contrast.map Binary.pointedText)
    ++ Token.given "GAM" (r.gamma.map Binary.pointedText)
    ++ Token.given "CMP" (r.colormap.map encodeComponent)
    ++ Token.given "CTW" (r.twist.map encodeComponent)
    ++ Token.flag "INV" r.invert
    ++ Token.given "COL" (r.colorSpace.map encodeComponent)

def TileRequest.address (r : TileRequest) (server : Server) : String :=
  server.locate r.path ++ queryText server.optionMark r.tokens

end DeepZoom

/-! ## Any request -/

/-- The image servers by protocol. -/
inductive Protocol where
  | iip
  | iiif
  | deepZoom
  deriving DecidableEq, Repr

def Protocol.name : Protocol → String
  | .iip => "IIP"
  | .iiif => "IIIF"
  | .deepZoom => "DeepZoom"

/-- A server that the settings do not name. -/
structure MissingServer where
  protocol : Protocol
  deriving DecidableEq, Repr

def MissingServer.message (m : MissingServer) : String := s!"No {m.protocol.name} server defined"

def serverFor {α : Type} (protocol : Protocol) : Option α → Except MissingServer α
  | some server => .ok server
  | none => .error ⟨protocol⟩

def Request.address (request : Request) (backends : Backends) : Except MissingServer String :=
  match request with
  | iip r => r.address <$> serverFor .iip backends.iip
  | iiifImage r => r.address <$> serverFor .iiif backends.iiif
  | iiifInfo r => r.address <$> serverFor .iiif backends.iiif
  | deepZoomDescriptor r => r.address <$> serverFor .deepZoom backends.deepZoom
  | deepZoomTile r => r.address <$> serverFor .deepZoom backends.deepZoom

end ImageGate
