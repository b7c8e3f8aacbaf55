import ImageGate.Settings.Basic
import ImageGate.Url.Basic

/-! What can be wrong with the settings: the file cannot be read, its text is not in the format of
settings files, or the settings break a rule. -/
namespace ImageGate.Settings
set_option autoImplicit false

/-- Why a file cannot be read as needed. -/
inductive ReadFailure where
  | missing
  | notText
  deriving DecidableEq, Repr

def ReadFailure.message : ReadFailure → String
  | .missing => "No such file or directory (os error 2)"
  | .notText => "stream did not contain valid UTF-8"

/-- The settings that hold an address. -/
inductive AddressKey where
  | iip
  | iiif
  | deepZoomPath
  | deepZoomParam
  | rights
  deriving DecidableEq, Repr

def AddressKey.name : AddressKey → String
  | .iip => "imageservers.iip"
  | .iiif => "imageservers.iiif"
  | .deepZoomPath => "imageservers.deepzoom.path"
  | .deepZoomParam => "imageservers.deepzoom.param"
  | .rights => "rights.url"

/-- A rule that the settings break. -/
inductive Breach where
  | address (key : AddressKey) (text : String) (fault : UrlFault)
  | twoAddressings
  | emptyThumbnail
  | missingRights
  | shortInterval (interval : Nat)
  deriving DecidableEq, Repr

/-- The least time between two readings of the settings, in milliseconds. -/
def shortestInterval : Nat := 1000

def Breach.message : Breach → String
  | .address key text fault =>
    s!"{key.name} is not a valid URL '{text}': {fault.message}"
  | .twoAddressings => "imageservers.deepzoom must set either 'path' or 'param', not both"
  | .emptyThumbnail => "thumbnail.max_width and thumbnail.max_height must be greater than 0"
  | .missingRights => "rights.url is required when the rights check is enabled"
  | .shortInterval interval =>
    let least := Number.natText shortestInterval
    let given := Number.natText interval
    s!"autoupdate.interval_ms must be at least {least}, got {given}"

inductive Fault where
  | unreadable (path : String) (failure : ReadFailure)
  | malformed
  | invalid (breach : Breach)
  deriving DecidableEq, Repr

/-- The words for a fault; what a malformed text gets wrong is for its reader to say. -/
def Fault.message : Fault → String
  | .unreadable path failure => s!"Failed to read config file '{path}': {failure.message}"
  | .malformed => "Failed to parse config file"
  | .invalid breach => s!"Invalid configuration: {breach.message}"

end ImageGate.Settings
