import ImageGate.Settings.Fault

/-! The rules that settings obey beyond their format, and the order in which they are checked. -/
namespace ImageGate.Settings
set_option autoImplicit false

def checkAddress (key : AddressKey) (text : Option String) : Except Breach Unit :=
  match text with
  | none => .ok ()
  | some text =>
    match Url.read text with
    | .ok _ => .ok ()
    | .error fault => .error (.address key text fault)

def require (condition : Bool) (breach : Breach) : Except Breach Unit :=
  if condition then .ok () else .error breach

def Servers.check (servers : Servers) : Except Breach Unit := do
  checkAddress .iip servers.iip
  checkAddress .iiif servers.iiif
  checkAddress .deepZoomPath servers.deepZoom.path
  checkAddress .deepZoomParam servers.deepZoom.param
  require (servers.deepZoom.path.isNone || servers.deepZoom.param.isNone) .twoAddressings

/-- An address is needed only for a check that is made. -/
def Rights.check (rights : Rights) : Except Breach Unit :=
  if rights.isEnabled then do
    require rights.url.isSome .missingRights
    checkAddress .rights rights.url
  else .ok ()

def Autoupdate.check (autoupdate : Autoupdate) : Except Breach Unit :=
  require (!autoupdate.isEnabled || shortestInterval ≤ autoupdate.interval)
    (.shortInterval autoupdate.interval)

def check (settings : Settings) : Except Breach Unit := do
  settings.servers.check
  require (settings.thumbnail.maxWidth ≠ 0 && settings.thumbnail.maxHeight ≠ 0) .emptyThumbnail
  settings.rights.check
  settings.autoupdate.check

end ImageGate.Settings
