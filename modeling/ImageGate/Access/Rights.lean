import ImageGate.Access.Presentation
import ImageGate.Backend.Address
import ImageGate.Text.Json

/-! The rights service. It is asked which of some identifiers may be shown in a presentation, and
answers with three lists: those with access, those without, and those that do not exist. -/
namespace ImageGate
open Text
set_option autoImplicit false

/-! ## The question -/

/-- Something known about the one who asks. -/
structure UserAttribute where
  name : String
  values : List String
  deriving DecidableEq, Repr

structure AccessQuery where
  identifiers : List String
  presentation : String
  attributes : List UserAttribute
  deriving DecidableEq, Repr

/-- Asks about one identifier for anybody. -/
def AccessQuery.anonymous (identifier presentation : String) : AccessQuery :=
  ⟨[identifier], presentation, [⟨"everybody", ["yes"]⟩]⟩

def UserAttribute.json (a : UserAttribute) : String :=
  Json.object [("attribute", Json.quote a.name),
    ("values", Json.array (a.values.map Json.quote))]

/-- The question as it is sent. -/
def AccessQuery.json (q : AccessQuery) : String :=
  Json.object [("accessIds", Json.array (q.identifiers.map Json.quote)),
    ("presentationType", Json.quote q.presentation),
    ("attributes", Json.array (q.attributes.map UserAttribute.json))]

/-! ## The answer -/

structure AccessLists where
  access : List String := []
  noAccess : List String := []
  nonExisting : List String := []
  deriving DecidableEq, Repr

/-- The lists read so far; a list may be given once. -/
structure PartialLists where
  access : Option (List String) := none
  noAccess : Option (List String) := none
  nonExisting : Option (List String) := none

/-- A list that is not given is empty. -/
def PartialLists.lists (p : PartialLists) : AccessLists :=
  ⟨p.access.getD [], p.noAccess.getD [], p.nonExisting.getD []⟩

namespace AccessLists

open Json

/-- Reads the value of the member `name`; a member of another name is skipped. -/
def member? (name : String) (p : PartialLists) (bs : Bytes) : Option (PartialLists × Bytes) :=
  match name with
  | "accessIds" =>
    if p.access.isSome then none
    else (strings? bs).map fun (ids, rest) => ({ p with access := some ids }, rest)
  | "nonAccessIds" =>
    if p.noAccess.isSome then none
    else (strings? bs).map fun (ids, rest) => ({ p with noAccess := some ids }, rest)
  | "nonExistingIds" =>
    if p.nonExisting.isSome then none
    else (strings? bs).map fun (ids, rest) => ({ p with nonExisting := some ids }, rest)
  | _ => (skipAny? bs).map fun rest => (p, rest)

def members? : Nat → PartialLists → Bytes → Option (PartialLists × Bytes)
  | 0, _, _ => none
  | count + 1, p, bs => do
    let (name, rest) ← string? bs
    let (p, rest) ← member? name p (← expect? 0x3a rest)
    match skipSpace rest with
    | 0x7d :: rest => return (p, rest)
    | 0x2c :: rest => members? count p rest
    | _ => none

/-- The lists in their order, as the items of an array. -/
def items? : Nat → Bytes → Option (List (List String) × Bytes)
  | 0, _ => none
  | count + 1, bs => do
    let (ids, rest) ← strings? bs
    match skipSpace rest with
    | 0x5d :: rest => return ([ids], rest)
    | 0x2c :: rest =>
      let (more, rest) ← items? count rest
      return (ids :: more, rest)
    | _ => none

def ofItems (items : List (List String)) : AccessLists :=
  ⟨items[0]?.getD [], items[1]?.getD [], items[2]?.getD []⟩

/-- An object with the lists as members, or an array of at most three of them. -/
def value? (bs : Bytes) : Option (AccessLists × Bytes) :=
  match skipSpace bs with
  | 0x7b :: rest =>
    match skipSpace rest with
    | 0x7d :: rest => some ({}, rest)
    | rest => (members? rest.length {} rest).map fun (p, rest) => (p.lists, rest)
  | 0x5b :: rest =>
    match skipSpace rest with
    | 0x5d :: rest => some ({}, rest)
    | rest => (items? 3 rest).map fun (items, rest) => (ofItems items, rest)
  | _ => none

/-- The lists that a whole body holds. -/
def read? (body : Bytes) : Option AccessLists := do
  let (lists, rest) ← value? body
  if (skipSpace rest).isEmpty then some lists else none

end AccessLists

/-! ## The call -/

/-- Why a call gave no lists. -/
inductive RightsFailure where
  | transport
  | status (code : Nat)
  | undecodable
  deriving DecidableEq, Repr

def RightsFailure.message : RightsFailure → String
  | .transport => "Rights service request failed"
  | .status code => s!"Rights service returned HTTP {code}"
  | .undecodable => "Rights service response could not be decoded"

/-- How a call over the network ends: it fails, or there is a reply whose body arrives in full or
breaks off. -/
inductive RightsReply where
  | failed
  | replied (status : Nat) (body : Option (List UInt8))
  deriving DecidableEq, Repr

def isSuccess (status : Nat) : Bool := 200 ≤ status && status < 300

/-- A body counts only behind a status of success. -/
def RightsReply.lists : RightsReply → Except RightsFailure AccessLists
  | .failed => .error .transport
  | .replied status body =>
    if isSuccess status then
      match body.bind AccessLists.read? with
      | some lists => .ok lists
      | none => .error .undecodable
    else .error (.status status)

/-- The answers to questions about access. -/
abbrev RightsAnswer := AccessQuery → Except RightsFailure AccessLists

/-- Who answers: everybody may see everything, or a service decides at its address. -/
inductive RightsSource where
  | everyone
  | service (endpoint : String)
  deriving DecidableEq, Repr

/-- The service that is rooted at `base`. -/
def RightsSource.ofBase (base : String) : RightsSource :=
  .service (withoutEndSlashes base ++ "/checkAccessForIds")

def RightsSource.answer (source : RightsSource) (call : String → AccessQuery → RightsReply) :
    RightsAnswer :=
  match source with
  | .everyone => fun query => .ok { access := query.identifiers }
  | .service endpoint => fun query => (call endpoint query).lists

end ImageGate
