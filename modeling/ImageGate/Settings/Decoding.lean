import ImageGate.Settings.Rules
import ImageGate.Text.Utf8
import ImageGate.Toml.Document

/-! Settings from the text of a settings file. Every section may be left out, and so may every entry
in it; entries of other names do not matter. -/
namespace ImageGate.Settings
open Toml
set_option autoImplicit false

/-! ## Entries -/

/-- The entries of a section, each of which may be left out. -/
abbrev Lookup := String → Option Value

/-- A section is a table, or an array that gives the entries in their order. A date has no
entries. -/
def lookup? (names : List String) : Value → Option Lookup
  | .table _ entries => some fun name => entries.lookup name
  | .array items => some fun name => (names.zip items).lookup name
  | .tables items =>
    some fun name => (names.zip (items.map (Value.table .header))).lookup name
  | .dateTime => some fun _ => none
  | _ => none

def text? : Value → Option String
  | .string text => some text
  | _ => none

def flag? : Value → Option Bool
  | .boolean value => some value
  | _ => none

/-- A number of 64 bits without a sign. -/
def number? : Value → Option Nat
  | .integer value => if 0 ≤ value && value < 2 ^ 64 then some value.toNat else none
  | _ => none

/-- The entry under a name, or `default`; an entry of the wrong kind is a fault. -/
def entry {α : Type} (entries : Lookup) (name : String) (read : Value → Option α) (default : α) :
    Option α :=
  match entries name with
  | some value => read value
  | none => some default

def optional {α : Type} (entries : Lookup) (name : String) (read : Value → Option α) :
    Option (Option α) :=
  entry entries name (fun value => (read value).map some) none

/-! ## Sections -/

def DeepZoomBases.ofValue? (value : Value) : Option DeepZoomBases := do
  let entries ← lookup? ["path", "param"] value
  return { path := ← optional entries "path" text?, param := ← optional entries "param" text? }

def Servers.ofValue? (value : Value) : Option Servers := do
  let entries ← lookup? ["iip", "iiif", "deepzoom"] value
  return {
    iip := ← optional entries "iip" text?
    iiif := ← optional entries "iiif" text?
    deepZoom := ← entry entries "deepzoom" DeepZoomBases.ofValue? {} }

def thumbnail? (value : Value) : Option ThumbnailLimits := do
  let entries ← lookup? ["max_width", "max_height"] value
  let initial : ThumbnailLimits := {}
  return {
    maxWidth := ← entry entries "max_width" number? initial.maxWidth
    maxHeight := ← entry entries "max_height" number? initial.maxHeight }

def Images.ofValue? (value : Value) : Option Images := do
  let entries ← lookup? ["no_access", "non_existing"] value
  return {
    noAccess := ← optional entries "no_access" text?
    nonExisting := ← optional entries "non_existing" text? }

def Rights.ofValue? (value : Value) : Option Rights := do
  let entries ← lookup? ["url", "enabled"] value
  let initial : Rights := {}
  return {
    url := ← optional entries "url" text?
    isEnabled := ← entry entries "enabled" flag? initial.isEnabled }

def Timeouts.ofValue? (value : Value) : Option Timeouts := do
  let entries ← lookup? ["connect_timeout_ms", "read_timeout_ms"] value
  return {
    connect := ← optional entries "connect_timeout_ms" number?
    read := ← optional entries "read_timeout_ms" number? }

def Autoupdate.ofValue? (value : Value) : Option Autoupdate := do
  let entries ← lookup? ["enabled", "interval_ms"] value
  let initial : Autoupdate := {}
  return {
    isEnabled := ← entry entries "enabled" flag? initial.isEnabled
    interval := ← entry entries "interval_ms" number? initial.interval }

/-- The settings in the outermost table of a settings file. -/
def ofEntries? (entries : Entries) : Option Settings := do
  let found : Lookup := fun name => entries.lookup name
  return {
    servers := ← entry found "imageservers" Servers.ofValue? {}
    thumbnail := ← entry found "thumbnail" thumbnail? {}
    images := ← entry found "images" Images.ofValue? {}
    rights := ← entry found "rights" Rights.ofValue? {}
    timeouts := ← entry found "proxy" Timeouts.ofValue? {}
    autoupdate := ← entry found "autoupdate" Autoupdate.ofValue? {} }

/-! ## Files -/

/-- The settings that a text gives, if they obey the rules. -/
def ofText (text : String) : Except Fault Settings :=
  match (Toml.read? text).bind ofEntries? with
  | none => .error .malformed
  | some settings =>
    match settings.check with
    | .ok () => .ok settings
    | .error breach => .error (.invalid breach)

/-- The settings in the file at `path`; `content` is what the file holds, if it is there. -/
def load (path : String) (content : Option (List UInt8)) : Except Fault Settings :=
  match content with
  | none => .error (.unreadable path .missing)
  | some bytes =>
    match Text.Utf8.text? bytes with
    | none => .error (.unreadable path .notText)
    | some text => ofText text

end ImageGate.Settings
