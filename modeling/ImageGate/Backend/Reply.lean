import ImageGate.Fault

/-! Replies of the image servers. A reply of success is handed on; everything else becomes a fault
that names the identifier and never the address. -/
namespace ImageGate
set_option autoImplicit false

/-! ## The request -/

/-- A request for the body at an address. -/
structure FetchRequest where
  address : String
  accept : Option String := none
  deriving DecidableEq, Repr

/-! ## The outcome -/

/-- A body as it arrives: its chunks, and whether it breaks off after them. -/
structure ReplyBody where
  chunks : List (List UInt8)
  breaksOff : Bool := false
  deriving DecidableEq, Repr

structure Reply where
  status : Nat
  /-- The media type as sent, in bytes. -/
  mediaType : Option (List UInt8) := none
  body : ReplyBody
  deriving DecidableEq, Repr

/-- How far a fetch came before it failed. -/
inductive FetchStage where
  | building
  | connecting
  | exchanging
  deriving DecidableEq, Repr

inductive FailureCause where
  | timeout
  | other
  deriving DecidableEq, Repr

/-- A failed fetch and everything that it was caused by, the nearest cause first. -/
structure FetchFailure where
  stage : FetchStage
  causes : List FailureCause := []
  deriving DecidableEq, Repr

abbrev FetchOutcome := Except FetchFailure Reply

/-! ## Faults -/

/-- The code that stands for a reply without a status. -/
def noStatus : Int := -1

/-- The status for the caller, or the fault that the status of a reply means. -/
def relayStatus (status : Int) (identifier : String) : Except Fault Nat :=
  if 200 ≤ status && status < 300 then .ok status.toNat
  else if 400 ≤ status && status < 600 then
    .error (.backend status.toNat s!"Unable to proxy request for '{identifier}'")
  else if status = noStatus then
    .error (.backend 500
      s!"Unable to proxy request for '{identifier}' due to proxied server error -1")
  else
    let code := Number.intText status
    .error (.backend 500 s!"Unhandled status code {code} for proxy connection for '{identifier}'")

/-- A timeout counts wherever it is among the causes. -/
def FetchFailure.fault (f : FetchFailure) (identifier : String) : Fault :=
  if f.causes.contains .timeout then
    .backend 504 s!"Timeout establishing proxy connection for '{identifier}'"
  else
    match f.stage with
    | .building => .internal s!"Unable to create proxy request for '{identifier}'"
    | .connecting => .backend 502 s!"Unable to establish proxy connection for '{identifier}'"
    | .exchanging =>
      match relayStatus noStatus identifier with
      | .error fault => fault
      | .ok _ => .internal s!"Unable to proxy request for '{identifier}'"

/-! ## Images -/

/-- An image on its way to the caller. -/
structure FetchedImage where
  status : Nat
  mediaType : Option String
  body : ReplyBody
  deriving DecidableEq, Repr

/-- The text of a header value that is visible ASCII, blanks and tabs. -/
def visibleText? (value : List UInt8) : Option String :=
  if value.all fun b => (0x20 ≤ b && b < 0x7f) || b == 0x09 then
    some (String.ofList (value.map fun b => Char.ofNat b.toNat))
  else none

def FetchedImage.ofOutcome (outcome : FetchOutcome) (identifier : String) :
    Except Fault FetchedImage :=
  match outcome with
  | .error failure => .error (failure.fault identifier)
  | .ok reply =>
    match relayStatus reply.status identifier with
    | .error fault => .error fault
    | .ok status => .ok ⟨status, reply.mediaType.bind visibleText?, reply.body⟩

end ImageGate
