import ImageGate.Access.Gate
import ImageGate.CommandLine
import ImageGate.Http.Cors
import ImageGate.Http.Server
import ImageGate.Settings.Handle
import ImageGate.Settings.Placeholders

/-! The start of the server: its settings are read and reported, its parts put together, and its
address taken. The log tells how far it came. -/
namespace ImageGate
open Text Number
set_option autoImplicit false

/-! ## The log -/

inductive LogLevel where
  | info
  | warn
  | error
  deriving DecidableEq, Repr

def LogLevel.name : LogLevel → String
  | .info => "INFO"
  | .warn => "WARN"
  | .error => "ERROR"

structure LogLine where
  level : LogLevel
  message : String
  deriving DecidableEq, Repr

def LogLine.text (line : LogLine) : String := line.level.name ++ " " ++ line.message

def info (message : String) : LogLine := ⟨.info, message⟩

/-- A quoted text, with names for what cannot be seen. -/
def visibleQuote (s : String) : String := "\"" ++ String.ofList (s.toList.flatMap shown) ++ "\""
where
  shown (c : Char) : List Char :=
    match c with
    | '\x00' => ['\\', '0']
    | '\t' => ['\\', 't']
    | '\r' => ['\\', 'r']
    | '\n' => ['\\', 'n']
    | '"' => ['\\', '"']
    | '\\' => ['\\', '\\']
    | _ =>
      if Http.isControl c then
        "\\u\x7b".toList ++ Nat.toDigits 16 c.toNat ++ ['\x7d']
      else [c]

/-! ## What is reported -/

namespace Startup

def addressText (address : Option String) : String := address.getD "(not configured)"

def deepZoomText (server : Option DeepZoom.Server) : String :=
  match server with
  | some s => s!"{s.base} ({s.addressing.name} addressing)"
  | none => addressText none

def rightsLines (rights : Settings.Rights) : List LogLine :=
  if rights.isEnabled then [info s!"  Rights service: {addressText rights.url}"]
  else
    [⟨.warn, "  Rights check: DISABLED - all images are publicly accessible"⟩,
      ⟨.warn, "        Enable for production: [rights] enabled = true, url = \"...\""⟩]

def limitText : Option Nat → String
  | some n => s!"Some({natText n})"
  | none => "None"

def timeoutsLine (timeouts : Settings.Timeouts) : LogLine :=
  if timeouts = {} then info "  Upstream timeouts: none"
  else
    let connect := limitText timeouts.connect
    let read := limitText timeouts.read
    info s!"  Upstream timeouts: connect {connect} ms, read {read} ms"

def autoupdateLines (autoupdate : Settings.Autoupdate) : List LogLine :=
  if autoupdate.isEnabled then [info s!"  Autoupdate: every {natText autoupdate.interval} ms"]
  else []

def settingsLines (line : CommandLine) (settings : Settings) : List LogLine :=
  let width := natText settings.thumbnail.maxWidth
  let height := natText settings.thumbnail.maxHeight
  [info s!"DS Image Proxy v{Http.version}",
    info "",
    info "Configuration:",
    info s!"  Config file: {line.settingsPath}",
    info s!"  IIP server: {addressText settings.servers.iip}",
    info s!"  IIIF server: {addressText settings.servers.iiif}",
    info s!"  DeepZoom server: {deepZoomText settings.backends.deepZoom}",
    info s!"  Thumbnail limit: {width}x{height}"]
  ++ rightsLines settings.rights
  ++ [timeoutsLine settings.timeouts]
  ++ autoupdateLines settings.autoupdate

def rule : LogLine := info (String.ofList (List.replicate 64 '─'))

def listeningLines (address : String) : List LogLine :=
  [info "",
    rule,
    info s!"  Server listening on: http://{address}",
    info "",
    info "  Try these endpoints:",
    info s!"    curl http://{address}/health",
    info s!"    curl 'http://{address}/iip?FIF=<image>&WID=200&HEI=200&CVT=jpeg'",
    info s!"    curl http://{address}/iiif/<image>/info.json",
    info s!"    curl http://{address}/deepzoom/<image>.dzi",
    rule,
    info ""]

/-! ## What is put together -/

/-- The policy that the command line asks for. -/
def corsPolicy (line : CommandLine) : Http.CorsPolicy :=
  match line.corsOrigins with
  | some origins => .ofOrigins origins
  | none => .anyOrigin

/-- The origins that no header can hold; next to an asterisk nobody looks at them. -/
def skippedOrigins (line : CommandLine) : List String :=
  let entries := Http.CorsPolicy.entries (line.corsOrigins.getD [])
  if entries.contains "*" then [] else entries.filter fun origin => !Http.isHeaderValue origin

/-- The gate is open to everyone only when the check is switched off; a check without an address
does not pass the rules for settings. -/
def rightsSource (rights : Settings.Rights) : RightsSource :=
  match rights.isEnabled, rights.url with
  | true, some url => .ofBase url
  | _, _ => .everyone

/-- Everything that a server runs with. -/
structure Assembly where
  line : CommandLine
  running : Settings.Running
  gate : Gate
  rights : RightsSource
  cors : Http.CorsPolicy

/-! ## The run -/

/-- What the start finds around it: environment variables and files, and why its client cannot be built
or its address cannot be taken, if so. -/
structure Surroundings where
  environment : String → Option String
  files : FileReader
  clientFailure : Settings.Timeouts → Option String := fun _ => none
  bindFailure : String → Option String

/-- How the start ends. -/
structure Outcome where
  exitCode : Nat
  log : List LogLine := []
  /-- What serves from now on, if it came that far. -/
  serving : Option Assembly := none

def failure (log : List LogLine) (message : String) : Outcome :=
  { exitCode := 1, log := log ++ [⟨.error, message⟩] }

/-- The content of a file, with which reading the settings starts. -/
def contentOf (files : FileReader) (path : String) : Settings.FileContent := (files path).toOption

/-- Takes the address and begins to serve. -/
def listen (around : Surroundings) (log : List LogLine) (assembly : Assembly) : Outcome :=
  let address := assembly.line.bindAddress
  let log := log ++ listeningLines address
  match around.bindFailure address with
  | some reason => failure log s!"Failed to bind to {address}: {reason}"
  | none => { exitCode := 0, log, serving := some assembly }

def autoupdateLog (running : Settings.Running) : List LogLine :=
  match running.task? with
  | some task => [info s!"Configuration autoupdate enabled interval_ms={natText task.period}"]
  | none => []

/-- There is no client that images and rights could be asked for with. -/
def clientFault (reason : String) : Fault := .internal s!"Unable to build HTTP client: {reason}"

/-- Puts the parts together. -/
def assemble (around : Surroundings) (line : CommandLine) (handle : Settings.Handle) : Outcome :=
  let settings := handle.current
  let log := settingsLines line settings
  match Placeholders.load around.files settings.images with
  | .error fault => failure log s!"Failed to load placeholder images: {fault.message}"
  | .ok placeholders =>
    match around.clientFailure settings.timeouts with
    | some reason => failure log (clientFault reason).message
    | none =>
      let running : Settings.Running :=
        { handle, file := contentOf around.files line.settingsPath }
      let skipped := (skippedOrigins line).map fun origin =>
        LogLine.mk .warn s!"Ignoring invalid CORS origin origin={visibleQuote origin}"
      let log := log ++ skipped ++ autoupdateLog running
      listen around log {
        line
        running := running.startAutoupdate.2
        gate := ⟨placeholders⟩
        rights := rightsSource settings.rights
        cors := corsPolicy line }

/-- Starts with the settings in the file that the command line names. -/
def start (around : Surroundings) (line : CommandLine) : Outcome :=
  match line.check with
  | .error lack => failure [] s!"Configuration error: {lack.message}"
  | .ok () =>
    match Settings.Handle.ofFile line.settingsPath (contentOf around.files line.settingsPath) with
    | .error fault => failure [] fault.message
    | .ok handle => assemble around line handle

/-- The exit code for arguments that start no server. -/
def refusalCode : CommandLine.Refusal → Nat
  | .help | .version => 0
  | _ => 2

def run (around : Surroundings) (args : List String) : Outcome :=
  match CommandLine.read args around.environment with
  | .error refusal => { exitCode := refusalCode refusal }
  | .ok line => start around line

end Startup

end ImageGate
