import ImageGate.Startup

/-! The program. It collects the environment and the files that a start looks at, runs the start,
and prints its log. It has no way to listen on a network, so the last step always fails. -/
namespace ImageGate
set_option autoImplicit false

/-- The value of each variable that is set. -/
def readVariables : IO (List (String × String)) := do
  let found ← CommandLine.variableNames.mapM fun (_, name) => do
    return (← IO.getEnv name).map fun value => (name, value)
  return found.filterMap id

/-- The content of each file that can be read. -/
def readFiles (paths : List String) : IO (List (String × List UInt8)) := do
  let found ← paths.mapM fun (path : String) => do
    match ← (IO.FS.readBinFile path).toBaseIO with
    | .ok content => return some (path, content.toList)
    | .error _ => return none
  return found.filterMap id

/-- The settings file and the images that it names. -/
def readNamedFiles (args : List String) (environment : String → Option String) :
    IO (List (String × List UInt8)) := do
  match CommandLine.read args environment with
  | .error _ => return []
  | .ok line =>
    let path := line.settingsPath
    let files ← readFiles [path]
    match Settings.load path (files.lookup path) with
    | .error _ => return files
    | .ok settings =>
      let images := settings.images
      return files ++ (← readFiles (images.noAccess.toList ++ images.nonExisting.toList))

/-- The file with this path, among those read. -/
def reader (files : List (String × List UInt8)) : FileReader := fun path =>
  match files.lookup path with
  | some content => .ok content
  | none => .error .missing

end ImageGate

open ImageGate in
def main (args : List String) : IO UInt32 := do
  let given ← readVariables
  let environment : String → Option String := fun name => given.lookup name
  let files ← readNamedFiles args environment
  let around : Startup.Surroundings := {
    environment
    files := reader files
    bindFailure := fun _ => some "Operation not supported (os error 95)" }
  let outcome := Startup.run around args
  for line in outcome.log do
    IO.println line.text
  return UInt32.ofNat outcome.exitCode
