import ImageGate.Access.Rights
import ImageGate.Fault

/-! The gate before every image. The rights service is asked about the identifier; the request goes
on only if the answer lists it with access, and otherwise a placeholder image or a fault takes the
place of the image. -/
namespace ImageGate
open Text
set_option autoImplicit false

/-! ## Placeholders -/

structure Placeholder where
  mediaType : String
  body : List UInt8
  deriving DecidableEq, Repr

/-- A transparent image of one pixel. -/
def Placeholder.blank : Placeholder :=
  ⟨"image/gif",
    [0x47, 0x49, 0x46, 0x38, 0x39, 0x61, 0x01, 0x00, 0x01, 0x00, 0x80, 0x00, 0x00, 0x00, 0x00,
      0x00, 0xff, 0xff, 0xff, 0x21, 0xf9, 0x04, 0x01, 0x00, 0x00, 0x00, 0x00, 0x2c, 0x00, 0x00,
      0x00, 0x00, 0x01, 0x00, 0x01, 0x00, 0x00, 0x02, 0x02, 0x44, 0x01, 0x00, 0x3b]⟩

structure Placeholders where
  noAccess : Placeholder := .blank
  nonExisting : Placeholder := .blank
  deriving DecidableEq, Repr

/-! ## Verdicts -/

inductive Verdict where
  | access
  | noAccess
  | nonExisting
  deriving DecidableEq, Repr

/-- The first list that names the identifier decides. -/
def AccessLists.verdict? (lists : AccessLists) (identifier : String) : Option Verdict :=
  if lists.access.contains identifier then some .access
  else if lists.noAccess.contains identifier then some .noAccess
  else if lists.nonExisting.contains identifier then some .nonExisting
  else none

/-- Why there is no verdict. -/
inductive VerdictFailure where
  | call (identifier : String) (failure : RightsFailure)
  | unmatched (identifier : String)
  deriving DecidableEq, Repr

def VerdictFailure.message : VerdictFailure → String
  | .call identifier _ => s!"Error calling rights service for resource ID '{identifier}'"
  | .unmatched identifier => s!"Could not match resource ID '{identifier}' to any access type"

def VerdictFailure.fault (f : VerdictFailure) : Fault := .internal f.message

/-! ## The gate -/

structure Gate where
  placeholders : Placeholders := {}
  deriving DecidableEq, Repr

inductive Passage where
  | proceed
  | placeholder (status : Nat) (image : Placeholder)
  deriving DecidableEq, Repr

namespace Gate

/-- The question that the gate asks. -/
def query (identifier : String) (presentation : Presentation) : AccessQuery :=
  .anonymous identifier presentation.name

/-- The verdict in an answer to that question. -/
def verdict (identifier : String) (answer : Except RightsFailure AccessLists) :
    Except VerdictFailure Verdict :=
  match answer with
  | .error failure => .error (.call identifier failure)
  | .ok lists =>
    match lists.verdict? identifier with
    | some v => .ok v
    | none => .error (.unmatched identifier)

def passage (gate : Gate) : Verdict → Passage
  | .access => .proceed
  | .noAccess => .placeholder 403 gate.placeholders.noAccess
  | .nonExisting => .placeholder 404 gate.placeholders.nonExisting

def check (gate : Gate) (identifier : String) (answer : Except RightsFailure AccessLists) :
    Except VerdictFailure Passage :=
  gate.passage <$> verdict identifier answer

end Gate

end ImageGate
