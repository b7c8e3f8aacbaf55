import ImageGate.Backend.Address

/-! What a caller is told when a request fails: an argument of the request is at fault, something
inside is, or the server behind is. -/
namespace ImageGate
set_option autoImplicit false

/-- A fault of one argument, in words. -/
structure Complaint where
  field : String
  reason : String
  value : Option String
  deriving DecidableEq, Repr

inductive Fault where
  | argument (complaint : Complaint)
  | internal (reason : String)
  | backend (status : Nat) (message : String)
  deriving DecidableEq, Repr

namespace Fault

def ofViolation (v : Violation) : Fault := .argument ⟨v.field, v.message, v.value?⟩

def ofMissingServer (m : MissingServer) : Fault := .internal m.message

/-- The status that the caller sees. -/
def status : Fault → Nat
  | argument _ => 400
  | internal _ => 500
  | backend status _ => status

/-- The full words, for those who may read them. -/
def message : Fault → String
  | argument c => c.reason
  | internal reason => "Internal error: " ++ reason
  | backend status message => s!"Upstream error {status}: {message}"

end Fault

end ImageGate
