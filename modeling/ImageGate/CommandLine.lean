import ImageGate.Number.Integer
import ImageGate.Text.Blank
import ImageGate.Text.Cut

/-! The command line of the server. Options stand in any order and each at most once, except that
the list of origins grows with every repetition; an option that is not given takes the value of its
environment variable, and then its default. -/
namespace ImageGate
open Text Number
set_option autoImplicit false

/-- How the server is started. -/
structure CommandLine where
  host : String := "0.0.0.0"
  port : Nat := 3000
  settingsPath : String := "config/ds-image.toml"
  /-- The origins whose pages may read images; without a list, every origin may. -/
  corsOrigins : Option (List String) := none
  isVerbose : Bool := false
  skipsTracing : Bool := false
  deriving DecidableEq, Repr

namespace CommandLine

/-! ## Options -/

/-- An option with a value. -/
inductive Setting where
  | host
  | port
  | settingsPath
  | corsOrigins
  deriving DecidableEq, Repr

/-- An option without a value. -/
inductive Flag where
  | verbose
  | skipTracing
  | help
  | version
  deriving DecidableEq, Repr

inductive Switch where
  | setting (s : Setting)
  | flag (f : Flag)
  deriving DecidableEq, Repr

def Switch.ofLong? (name : String) : Option Switch :=
  match name with
  | "host" => some (.setting .host)
  | "port" => some (.setting .port)
  | "config" => some (.setting .settingsPath)
  | "cors-origins" => some (.setting .corsOrigins)
  | "verbose" => some (.flag .verbose)
  | "no-tracing" => some (.flag .skipTracing)
  | "help" => some (.flag .help)
  | "version" => some (.flag .version)
  | _ => none

def Switch.ofShort? (letter : Char) : Option Switch :=
  match letter with
  | 'p' => some (.setting .port)
  | 'c' => some (.setting .settingsPath)
  | 'v' => some (.flag .verbose)
  | 'h' => some (.flag .help)
  | 'V' => some (.flag .version)
  | _ => none

/-- The environment variables, in the order in which they are read. -/
def variableNames : List (Setting × String) :=
  [(.host, "DSIMAGE_HOST"), (.port, "DSIMAGE_PORT"), (.settingsPath, "DSIMAGE_CONFIG"),
    (.corsOrigins, "DSIMAGE_CORS_ORIGINS")]

/-! ## Values -/

/-- Why the arguments start no server. -/
inductive Refusal where
  | unknownArgument
  | missingValue
  | badValue
  | repeated
  | surplusValue
  | help
  | version
  deriving DecidableEq, Repr

/-- What the arguments and the environment give so far. -/
structure Given where
  host : Option String := none
  port : Option Nat := none
  settingsPath : Option String := none
  corsOrigins : Option (List String) := none
  isVerbose : Bool := false
  skipsTracing : Bool := false
  deriving DecidableEq, Repr

def Given.has (given : Given) : Setting → Bool
  | .host => given.host.isSome
  | .port => given.port.isSome
  | .settingsPath => given.settingsPath.isSome
  | .corsOrigins => given.corsOrigins.isSome

/-- A port is below `2 ^ 16`, and a path is not empty. -/
def Given.set (given : Given) (s : Setting) (value : String) : Except Refusal Given :=
  match s with
  | .host => .ok { given with host := some value }
  | .port =>
    match (readInt? 64 value.toList).filter fun n => 0 ≤ n && n < 2 ^ 16 with
    | some n => .ok { given with port := some n.toNat }
    | none => .error .badValue
  | .settingsPath =>
    if value = "" then .error .missingValue else .ok { given with settingsPath := some value }
  | .corsOrigins =>
    let origins := (pieces ',' value.toList).map String.ofList
    .ok { given with corsOrigins := some (given.corsOrigins.getD [] ++ origins) }

/-- Only the list of origins may be given again. -/
def Given.add (given : Given) (s : Setting) (value : String) : Except Refusal Given :=
  if given.has s && s ≠ .corsOrigins then .error .repeated else given.set s value

def Given.raise (given : Given) (f : Flag) : Except Refusal Given :=
  match f with
  | .verbose => if given.isVerbose then .error .repeated else .ok { given with isVerbose := true }
  | .skipTracing =>
    if given.skipsTracing then .error .repeated else .ok { given with skipsTracing := true }
  | .help => .error .help
  | .version => .error .version

/-! ## Arguments -/

/-- The state between two arguments. The last option may still wait for its value, or for being
looked at. -/
structure Scan where
  given : Given := {}
  pending : Option (Setting × Option String) := none
  /-- Whether a bare double hyphen has ended the options. -/
  isEnded : Bool := false
  deriving DecidableEq, Repr

namespace Scan

/-- Looks at the last option. -/
def settle (scan : Scan) : Except Refusal Given :=
  match scan.pending with
  | none => .ok scan.given
  | some (_, none) => .error .missingValue
  | some (s, some value) => scan.given.add s value

/-- An option; a value that is attached to it is looked at at once. -/
def takeSetting (scan : Scan) (s : Setting) (attached : Option String) : Except Refusal Scan := do
  let given ← scan.settle
  match attached with
  | none => return { given, pending := some (s, none) }
  | some value => return { given := ← given.add s value }

def takeFlag (scan : Scan) (f : Flag) : Except Refusal Scan := do
  return { given := ← (← scan.settle).raise f }

def takeLong (scan : Scan) (name : String) (attached : Option String) : Except Refusal Scan :=
  match Switch.ofLong? name, attached with
  | none, _ => .error .unknownArgument
  | some (.setting s), _ => scan.takeSetting s attached
  | some (.flag _), some _ => .error .surplusValue
  | some (.flag f), none => scan.takeFlag f

/-- Letters behind one hyphen. The first option with a value takes what follows it, without an
equals sign. -/
def takeShort (scan : Scan) : List Char → Except Refusal Scan
  | [] => .ok scan
  | letter :: rest =>
    match Switch.ofShort? letter with
    | none => .error .unknownArgument
    | some (.flag f) => do (← scan.takeFlag f).takeShort rest
    | some (.setting s) =>
      if rest.isEmpty then scan.takeSetting s none
      else scan.takeSetting s (some (String.ofList ((afterPrefix? ['='] rest).getD rest)))

/-- A plain word is the value that the last option waits for. -/
def takeWord (scan : Scan) (word : String) : Except Refusal Scan :=
  match scan.pending with
  | some (s, none) => .ok { scan with pending := some (s, some word) }
  | _ => .error .unknownArgument

def take (scan : Scan) (arg : String) : Except Refusal Scan :=
  if scan.isEnded then .error .unknownArgument
  else
    match arg.toList with
    | ['-', '-'] => .ok { scan with isEnded := true }
    | '-' :: '-' :: body =>
      match cutFirst '=' body with
      | some (name, value) => scan.takeLong (String.ofList name) (some (String.ofList value))
      | none => scan.takeLong (String.ofList body) none
    | '-' :: letter :: rest => scan.takeShort (letter :: rest)
    | _ => scan.takeWord arg

end Scan

/-- An argument wins over its environment variable. -/
def Given.fill (environment : String → Option String) (given : Given) :
    List (Setting × String) → Except Refusal Given
  | [] => .ok given
  | (s, name) :: rest =>
    match environment name with
    | some value =>
      if given.has s then given.fill environment rest
      else do (← given.set s value).fill environment rest
    | none => given.fill environment rest

def Given.commandLine (given : Given) : CommandLine :=
  let initial : CommandLine := {}
  { host := given.host.getD initial.host
    port := given.port.getD initial.port
    settingsPath := given.settingsPath.getD initial.settingsPath
    corsOrigins := given.corsOrigins
    isVerbose := given.isVerbose
    skipsTracing := given.skipsTracing }

def read (args : List String) (environment : String → Option String) :
    Except Refusal CommandLine := do
  let scan ← args.foldlM Scan.take {}
  let given ← (← scan.settle).fill environment variableNames
  return given.commandLine

/-! ## Use -/

/-- What a server cannot be started with. -/
inductive Lack where
  | host
  | settingsPath
  deriving DecidableEq, Repr

def Lack.message : Lack → String
  | .host => "Host must not be empty. Set --host or DSIMAGE_HOST"
  | .settingsPath => "Service configuration path is required. Set --config or DSIMAGE_CONFIG"

def check (line : CommandLine) : Except Lack Unit :=
  if allBlank line.host then .error .host
  else if line.settingsPath = "" then .error .settingsPath
  else .ok ()

/-- Where the server listens. -/
def bindAddress (line : CommandLine) : String := line.host ++ ":" ++ natText line.port

end CommandLine

end ImageGate
