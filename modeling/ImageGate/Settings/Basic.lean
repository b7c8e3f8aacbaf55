import ImageGate.Access.Presentation
import ImageGate.Backend.Address
import ImageGate.Settings.Path

/-! The settings of the service: where the image servers are, what counts as a thumbnail, which
images stand in for others, who decides about access, how long to wait, and how often to read the
settings again. -/
namespace ImageGate
set_option autoImplicit false

namespace Settings

/-- The base addresses of a DeepZoom server, one for each way of addressing; at most one is set. -/
structure DeepZoomBases where
  path : Option String := none
  param : Option String := none
  deriving DecidableEq, Repr

structure Servers where
  iip : Option String := none
  iiif : Option String := none
  deepZoom : DeepZoomBases := {}
  deriving DecidableEq, Repr

/-- The files with the placeholder images. -/
structure Images where
  noAccess : Option String := none
  nonExisting : Option String := none
  deriving DecidableEq, Repr

structure Rights where
  url : Option String := none
  /-- Without the check every image may be seen. -/
  isEnabled : Bool := true
  deriving DecidableEq, Repr

/-- In milliseconds; without a value there is no limit. -/
structure Timeouts where
  connect : Option Nat := none
  read : Option Nat := none
  deriving DecidableEq, Repr

structure Autoupdate where
  isEnabled : Bool := false
  /-- In milliseconds. -/
  interval : Nat := 60000
  deriving DecidableEq, Repr

end Settings

structure Settings where
  servers : Settings.Servers := {}
  thumbnail : ThumbnailLimits := {}
  images : Settings.Images := {}
  rights : Settings.Rights := {}
  timeouts : Settings.Timeouts := {}
  autoupdate : Settings.Autoupdate := {}
  deriving DecidableEq, Repr

namespace Settings

def DeepZoomBases.server? (bases : DeepZoomBases) : Option DeepZoom.Server :=
  match bases.path, bases.param with
  | some base, _ => some (.ofBase base .path)
  | none, some base => some (.ofBase base .param)
  | none, none => none

def backends (settings : Settings) : Backends :=
  { iip := settings.servers.iip, iiif := settings.servers.iiif
    deepZoom := settings.servers.deepZoom.server? }

/-! ## Changes -/

def sameOptionalPath : Option String → Option String → Bool
  | some p, some q => samePath p q
  | none, none => true
  | _, _ => false

/-- Files are the same under every spelling of their paths. -/
def Images.same (a b : Images) : Bool :=
  sameOptionalPath a.noAccess b.noAccess && sameOptionalPath a.nonExisting b.nonExisting

/-- Equality up to the spelling of paths. -/
def same (a b : Settings) : Bool :=
  a.servers = b.servers && a.thumbnail = b.thumbnail && a.images.same b.images
    && a.rights = b.rights && a.timeouts = b.timeouts && a.autoupdate = b.autoupdate

/-- A part of the settings that is only read at the start. -/
inductive Section where
  | rights
  | images
  | timeouts
  | autoupdate
  deriving DecidableEq, Repr

def Section.name : Section → String
  | .rights => "rights"
  | .images => "images"
  | .timeouts => "proxy"
  | .autoupdate => "autoupdate"

def Section.all : List Section := [.rights, .images, .timeouts, .autoupdate]

def Section.differs (before after : Settings) : Section → Bool
  | .rights => before.rights ≠ after.rights
  | .images => !before.images.same after.images
  | .timeouts => before.timeouts ≠ after.timeouts
  | .autoupdate => before.autoupdate ≠ after.autoupdate

/-- The changes that take effect only after a restart. -/
def needingRestart (before after : Settings) : List Section :=
  Section.all.filter (Section.differs before after)

end Settings

end ImageGate
