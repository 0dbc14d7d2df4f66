import Provision.Disk.Basic
import Provision.Log
import Provision.Recipe.Wire
import Provision.Step.Setting
import Provision.Timestamp

/-! # The workspace

Everything that running the program can change or depend on besides its arguments: the disk, the
clock, the ids that have been given out, and what is logged where. -/

namespace Provision

structure Workspace where
  disk : Disk
  tempDir : Path
  now : Timestamp
  /-- How many ids have been given out. -/
  issued : Nat := 0
  log : Log.Setup := .none
  /-- What the console handler has written. -/
  console : String := ""

namespace Workspace

/-- Writes a line of the log: to the console, or to the file that is held for it. -/
def writeLine (w : Workspace) : Log.Sink × String → Workspace
  | (.console, line) => { w with console := w.console ++ line }
  | (.file _, line) => { w with disk := w.disk.append line.toUTF8 }

/-- Ends a log: its file is let go. -/
def withoutLog (w : Workspace) : Workspace :=
  { w with disk := { w.disk with held := none }, log := .none, console := "" }

def emit (r : Log.Record) (w : Workspace) : Workspace :=
  (w.log.lines w.now r).foldl writeLine w

end Workspace

/-- Computations on a workspace; what was done before a failure stays done. -/
abbrev WorkM (ε : Type) := ExceptT ε (StateM Workspace)

namespace WorkM

variable {ε : Type}

def log (severity : Log.Severity) (source message : String) : WorkM ε Unit :=
  modify (Workspace.emit ⟨severity, source, message⟩)

def now : WorkM ε Timestamp :=
  return (← get).now

/-- Runs disk operations, with their faults as failures. -/
def onDisk {α : Type} (failure : DiskFault → ε) (x : DiskM α) : WorkM ε α := do
  let w ← get
  let (r, disk) := x.run w.disk
  set { w with disk }
  match r with
  | .ok a => return a
  | .error f => throw (failure f)

/-- The next id: a number never given out before, in 32 hexadecimal digits. -/
def freshId : WorkM ε String := do
  let n := (← get).issued + 1
  modify fun w => { w with issued := n }
  return String.ofList (Text.hex 32 n)

end WorkM

end Provision
