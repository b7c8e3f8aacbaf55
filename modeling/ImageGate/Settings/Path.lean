import ImageGate.Text.Cut

/-! Paths of files. Two spellings name the same path when they have the same components: slashes may
be repeated or stand at the end, and a dot counts only at the front of a relative path. -/
namespace ImageGate.Settings
open Text
set_option autoImplicit false

/-- Whether a path starts at the root, whether it starts with a dot, and its other components. -/
structure PathShape where
  isAbsolute : Bool
  startsHere : Bool
  components : List (List Char)
  deriving DecidableEq, Repr

def PathShape.ofText (path : String) : PathShape :=
  let parts := pieces '/' path.toList
  { isAbsolute := path.toList.head? == some '/'
    startsHere := parts.head? == some ['.']
    components := parts.filter fun part => part ≠ [] && part ≠ ['.'] }

def samePath (p q : String) : Bool := PathShape.ofText p = PathShape.ofText q

/-- The last component, unless it leads upwards. -/
def fileName? (path : String) : Option (List Char) :=
  ((PathShape.ofText path).components.getLast?).filter (· ≠ ['.', '.'])

/-- What follows the last dot of the file name; a dot at the front of the name does not count. -/
def fileExtension? (path : String) : Option String :=
  match (fileName? path).bind (cutLast '.') with
  | some (_ :: _, extension) => some (String.ofList extension)
  | _ => none

end ImageGate.Settings
