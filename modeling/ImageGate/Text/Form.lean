import ImageGate.Text.Cut
import ImageGate.Text.Percent

/-! Query strings as lists of named values: pieces between ampersands, the empty ones skipped, cut at
the first equals sign; a plus is a space, triplets are decoded, and bytes that are no text are
repaired. -/
namespace ImageGate.Text.Form
set_option autoImplicit false

/-- The text that a name or a value stands for. -/
def plain (bs : List UInt8) : String :=
  Utf8.textLossy (Percent.decode (bs.map fun b => if b = 0x2b then 0x20 else b))

def pair (piece : List UInt8) : String × String :=
  match cutFirst 0x3d piece with
  | some (name, value) => (plain name, plain value)
  | none => (plain piece, "")

def pairs (query : String) : List (String × String) :=
  ((pieces 0x26 (Utf8.bytes query)).filter fun p => !p.isEmpty).map pair

end ImageGate.Text.Form
