import ImageGate.Settings.Decoding

/-! Settings in use. A handle holds the current settings, which requests read as a whole, and the
file that they may be read from again, by request or by tasks that run on a clock. -/
namespace ImageGate.Settings
set_option autoImplicit false

/-- The content of the settings file, if it is there. -/
abbrev FileContent := Option (List UInt8)

/-! ## The handle -/

structure Handle where
  current : Settings
  /-- The file to read again. -/
  path : Option String := none
  deriving DecidableEq, Repr

namespace Handle

def ofFile (path : String) (content : FileContent) : Except Fault Handle :=
  (load path content).map fun settings => ⟨settings, some path⟩

def replace (handle : Handle) (settings : Settings) : Handle := { handle with current := settings }

/-- What came of reading the file again. -/
structure Reloaded where
  result : Except Fault Bool
  handle : Handle

/-- Reads the file again. The answer says whether the settings changed; with a fault, and without a
file, the current settings stay. -/
def reload (handle : Handle) (content : FileContent) : Reloaded :=
  match handle.path with
  | none => ⟨.ok false, handle⟩
  | some path =>
    match load path content with
    | .error fault => ⟨.error fault, handle⟩
    | .ok settings =>
      if handle.current.same settings then ⟨.ok false, handle⟩
      else ⟨.ok true, handle.replace settings⟩

end Handle

/-! ## Tasks on a clock -/

/-- A task that reads the file again after each period since its start. -/
structure Task where
  start : Nat
  period : Nat
  deriving DecidableEq, Repr

/-- Whether a whole number of periods ends after `before` and up to `after`. -/
def Task.isDue (task : Task) (before after : Nat) : Bool :=
  (before - task.start) / task.period < (after - task.start) / task.period

/-- A handle with its file and the tasks that run; times are in milliseconds. -/
structure Running where
  handle : Handle
  file : FileContent
  now : Nat := 0
  tasks : List Task := []
  deriving DecidableEq, Repr

namespace Running

def setFile (running : Running) (content : FileContent) : Running :=
  { running with file := content }

def replace (running : Running) (settings : Settings) : Running :=
  { running with handle := running.handle.replace settings }

def reload (running : Running) : Except Fault Bool × Running :=
  let reloaded := running.handle.reload running.file
  (reloaded.result, { running with handle := reloaded.handle })

/-- The task that the current settings ask for; there is none without a file. -/
def task? (running : Running) : Option Task :=
  let autoupdate := running.handle.current.autoupdate
  if autoupdate.isEnabled && running.handle.path.isSome then
    some ⟨running.now, autoupdate.interval⟩
  else none

/-- Starts the task, with the period of this moment for good. -/
def startAutoupdate (running : Running) : Bool × Running :=
  match running.task? with
  | none => (false, running)
  | some task => (true, { running with tasks := running.tasks ++ [task] })

/-- One reading by a task; faults are only for the log. -/
def tick (running : Running) : Running := running.reload.2

/-- Moves the clock. The file stays the same meanwhile, so the first reading decides, and further
ones in that time change nothing. -/
def advance (running : Running) (time : Nat) : Running :=
  let later := running.now + time
  let isDue := running.tasks.any fun task => task.isDue running.now later
  { (if isDue then running.tick else running) with now := later }

end Running

end ImageGate.Settings
