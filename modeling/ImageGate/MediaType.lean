import ImageGate.Number.Decimal

/-! Media types of image formats and descriptions. -/
namespace ImageGate
open Text
set_option autoImplicit false

def lowerAsciiText (s : String) : String := String.ofList (s.toList.map Number.lowerAscii)

/-- What stands for a body of unknown kind. -/
def unknownMediaType : String := "application/octet-stream"

/-- The media type of a format name or file extension, in any case. -/
def mediaType (format : String) : String :=
  match lowerAsciiText format with
  | "jpg" | "jpeg" => "image/jpeg"
  | "gif" => "image/gif"
  | "tif" | "tiff" => "image/tiff"
  | "png" => "image/png"
  | "jp2" | "jp2k" | "jpeg2k" | "jpeg2000" => "image/jp2"
  | "webp" => "image/webp"
  | "pdf" => "application/pdf"
  | "json" => "application/json"
  | "xml" | "dzi" => "application/xml"
  | _ => unknownMediaType

end ImageGate
