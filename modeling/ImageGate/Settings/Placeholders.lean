import ImageGate.Access.Gate
import ImageGate.MediaType
import ImageGate.Settings.Fault

/-! Placeholder images from the files that the settings name. -/
namespace ImageGate
open Settings
set_option autoImplicit false

/-- The content of a file, or why there is none. -/
abbrev FileReader := String → Except ReadFailure (List UInt8)

/-- The media type follows the file name. -/
def Placeholder.ofFile (path : String) (body : List UInt8) : Placeholder :=
  ⟨ImageGate.mediaType ((fileExtension? path).getD ""), body⟩

/-- Without a file the blank image stands in. -/
def Placeholder.load (read : FileReader) (path : Option String) :
    Except Settings.Fault Placeholder :=
  match path with
  | none => .ok .blank
  | some path =>
    match read path with
    | .ok body => .ok (.ofFile path body)
    | .error failure => .error (.unreadable path failure)

def Placeholders.load (read : FileReader) (images : Images) :
    Except Settings.Fault Placeholders := do
  return ⟨← Placeholder.load read images.noAccess, ← Placeholder.load read images.nonExisting⟩

end ImageGate
