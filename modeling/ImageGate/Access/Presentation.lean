import ImageGate.Request.Basic
import ImageGate.Number.Integer

/-! Presentations. Access is granted separately for thumbnails and for everything else, and only a
plain rendition of the whole image, scaled to fit the thumbnail limits, is a thumbnail. -/
namespace ImageGate
open Text Number
set_option autoImplicit false

inductive Presentation where
  | thumbnail
  | fullsize
  deriving DecidableEq, Repr

/-- The name that the rights service knows. -/
def Presentation.name : Presentation → String
  | .thumbnail => "Thumbnails"
  | .fullsize => "Fullsize"

/-- The largest size that still counts as a thumbnail. -/
structure ThumbnailLimits where
  maxWidth : Nat := 600
  maxHeight : Nat := 600
  deriving DecidableEq, Repr

def ThumbnailLimits.admits (limits : ThumbnailLimits) (width height : Nat) : Bool :=
  width ≤ limits.maxWidth && height ≤ limits.maxHeight

/-- Whether the request changes more than the size. -/
def Iip.Request.isCustomised (r : Iip.Request) : Bool :=
  r.region.isSome || r.quality.isSome || r.contrast.isSome || r.rotation.any (· != "0")
    || r.gamma.isSome || r.colormap.isSome || r.profile.isSome || r.twist.isSome || r.invert
    || r.colorSpace.isSome || r.jpegTile.isSome || r.pngTile.isSome

/-- The size that the request names in full, if it changes nothing else. -/
def Iip.Request.plainSize? (r : Iip.Request) : Option (Nat × Nat) :=
  if r.isCustomised then none
  else
    match r.width, r.height with
    | some width, some height => some (width, height)
    | _, _ => none

/-- Width and height below `2 ^ 64`, after an optional caret and an optional exclamation mark. -/
def Iiif.readSize? (size : String) : Option (Nat × Nat) := do
  let cs := size.toList
  let cs := (afterPrefix? ['^'] cs).getD cs
  let cs := (afterPrefix? ['!'] cs).getD cs
  let (width, height) ← cutFirst ',' cs
  let w ← (readDigits? width).filter (· < 2 ^ 64)
  let h ← (readDigits? height).filter (· < 2 ^ 64)
  return (w, h)

def Iiif.ImageRequest.plainSize? (r : Iiif.ImageRequest) : Option (Nat × Nat) :=
  if r.region = "full" && r.rotation = "0" && r.quality = "default" then Iiif.readSize? r.size
  else none

/-- The size of a plain rendition of the whole image. A tile is a part, and a description is no
rendition. -/
def Request.plainSize? : Request → Option (Nat × Nat)
  | iip r => r.plainSize?
  | iiifImage r => r.plainSize?
  | iiifInfo _ | deepZoomDescriptor _ | deepZoomTile _ => none

def Request.presentation (request : Request) (limits : ThumbnailLimits) : Presentation :=
  match request.plainSize? with
  | some (width, height) => if limits.admits width height then .thumbnail else .fullsize
  | none => .fullsize

end ImageGate
