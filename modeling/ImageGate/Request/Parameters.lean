import ImageGate.Request.Violation
import ImageGate.Text.Blank
import ImageGate.Text.Form

/-! Query parameters. Names are compared in upper case, of several values for one name the last
counts, and a blank value counts as none. Each kind of parameter has a reader that answers the
value, nothing, or what is wrong with it. -/
namespace ImageGate
open Text Number
set_option autoImplicit false

/-- Named values in the order of the query, names in upper case. -/
structure Parameters where
  entries : List (String × String)

namespace Parameters

def upperAscii (c : Char) : Char :=
  if 'a'.toNat ≤ c.toNat && c.toNat ≤ 'z'.toNat then Char.ofNat (c.toNat - 32) else c

def upperName (s : String) : String := String.ofList (s.toList.map upperAscii)

/-- No query is an empty one. -/
def ofQuery (query : Option String) : Parameters :=
  ⟨(Form.pairs (query.getD "")).map fun (name, value) => (upperName name, value)⟩

/-- The last value given for `name`. -/
def last? (ps : Parameters) (name : String) : Option String :=
  (ps.entries.reverse.find? fun e => e.1 == name).map (·.2)

/-- The last value, unless it is blank. -/
def text? (ps : Parameters) (name : String) : Option String :=
  (ps.last? name).filter fun v => !allBlank v

abbrev Reading (α : Type) := Except Violation α

/-- Reads a trimmed value by `read`, which gives nothing for a value of another kind. -/
def readAs {α : Type} (name : String) (kind : ValueKind) (read : List Char → Option α)
    (raw : String) : Reading α :=
  match read (trimChars raw.toList) with
  | some v => .ok v
  | none => .error (.notOfKind name kind raw)

/-- Reads the value of a parameter that is given. -/
def optional {α : Type} (ps : Parameters) (name : String) (read : String → Reading α) :
    Reading (Option α) :=
  match ps.text? name with
  | none => .ok none
  | some raw => (read raw).map some

/-- Reads the elements between commas, up to the first bad one. -/
def readList {α : Type} (read : String → Reading α) (raw : String) : Reading (List α) :=
  ((pieces ',' raw.toList).map String.ofList).mapM read

def wordBits : Nat := 64

def readFinite? (cs : List Char) : Option Single :=
  (Binary.read? Format.single cs).filter (·.isFinite)

def natural (ps : Parameters) (name : String) : Reading (Option Nat) :=
  ps.optional name (readAs name .natural (readNat? (2 ^ wordBits)))

def integer (ps : Parameters) (name : String) : Reading (Option Int) :=
  ps.optional name (readAs name .integer (readInt? wordBits))

def integers (ps : Parameters) (name : String) : Reading (Option (List Int)) :=
  ps.optional name (readList (readAs name .integers (readInt? wordBits)))

def number (ps : Parameters) (name : String) : Reading (Option Single) :=
  ps.optional name (readAs name .number readFinite?)

def numbers (ps : Parameters) (name : String) : Reading (Option (List Single)) :=
  ps.optional name (readList (readAs name .number readFinite?))

/-- A flag is set by its bare name or by `true`. -/
def flag (ps : Parameters) (name : String) : Reading Bool :=
  match (ps.last? name).map trim with
  | none => .ok false
  | some value =>
    match lowerAsciiText value with
    | "" | "true" => .ok true
    | "false" => .ok false
    | _ => .error (.notAFlag name value)

end Parameters

end ImageGate
