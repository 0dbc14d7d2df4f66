import Provision.Moment
import Provision.Script.Fragment
import Provision.Script.Preflight
import Provision.Text.Quoted

/-! # The installer script

The sections of `install.sh` in their fixed order: preamble, variables, log file, banner, root
check, command checks, the steps behind a progress line each, and the summary. -/

namespace Provision.Installer

open Shell

def preamble : String :=
  "#!/bin/bash\nset -eu\n\nSCRIPT_DIR=\"$(cd \"$(dirname \"$0\")\" && pwd)\"\n" ++
    "ASSET_DIR=\"$SCRIPT_DIR/assets\"\n"

def logging : String :=
  "LOG_FILE=\"$LOG_DIR/install-$(date +%Y%m%d-%H%M%S).log\"\nmkdir -p \"$LOG_DIR\"\n" ++
    "exec > >(tee -a \"$LOG_FILE\") 2>&1\n"

def rootCheck : String :=
  "if [ \"$(id -u)\" -ne 0 ]; then\n" ++
    "  echo \"Please run as root (sudo ./install.sh)\" >&2\n  exit 1\nfi\n"

def summary : String :=
  "echo \"Completed $total steps\"\n"

/-- Every variable with its value, and the log directory at the end where it is not among them. -/
def withLogDir (vars : List (String × String)) : List (String × String) :=
  if vars.any (·.1 == "LOG_DIR") then vars else vars ++ [("LOG_DIR", Recipe.defaultLogDir)]

/-- Assigns a variable unless the environment has set it, and exports it. -/
def assignment (name value : String) : List String :=
  ["[ -n \"$\x7b" ++ name ++ ":-\x7d\" ] || " ++ name ++ "=" ++ doubleQuoted value,
    "export " ++ name]

/-- The variables in the author's order; those with unusable names are left out. -/
def varsSection (vars : List (String × String)) : String :=
  "\n".intercalate
    ((withLogDir vars).flatMap fun (name, value) =>
      if isName name then assignment name value else []) ++ "\n"

/-- The variables that are left out. -/
def skippedVars (vars : List (String × String)) : List String :=
  ((withLogDir vars).map (·.1)).filter (!isName ·)

def number (n : Nat) : String :=
  Decimal.intText n

def stepSection (index total : Nat) (s : Step) (f : Fragment) : String :=
  let position := number index ++ "/" ++ number total
  let progress :=
    "[" ++ position ++ "] step=" ++ s.id ++ " type=" ++ s.type ++ " name=" ++ s.name
  "\n".intercalate
    (("# ── Step " ++ position ++ " ──") :: ("echo " ++ singleQuoted progress) ::
      f.lines.map Line.text) ++ "\n"

def stepSections (total : Nat) : Nat → List (Step × Fragment) → List String
  | _, [] => []
  | index, (s, f) :: rest => stepSection index total s f :: stepSections total (index + 1) rest

def bannerText (r : Recipe) (generatedAt : Moment) : String :=
  "[InstallForge] project=" ++ r.project.name ++ " generated at " ++ generatedAt.text

def fragments (steps : List Step) (room : Room := .standard) :
    Except SettingsFault (List (Step × Fragment)) :=
  match steps with
  | [] => .ok []
  | s :: rest => do
    let f ← Fragment.ofStep s room
    let fs ← fragments rest room
    return (s, f) :: fs

/-- The commands that the fragments ask for. -/
def commands (fs : List (Step × Fragment)) : List String :=
  Preflight.sortedSet (fs.flatMap fun p => p.2.requires)

def assemble (r : Recipe) (generatedAt : Moment) (fs : List (Step × Fragment)) : String :=
  let total := r.steps.length
  "\n".intercalate
    ([preamble, varsSection r.vars, logging,
      "echo " ++ singleQuoted (bannerText r generatedAt) ++ "\n",
      rootCheck, Preflight.block (commands fs), "total=" ++ number total ++ "\n"] ++
      stepSections total 1 fs ++ [summary])

def script (r : Recipe) (generatedAt : Moment) (room : Room := .standard) :
    Except SettingsFault String :=
  (fragments r.steps room).map (assemble r generatedAt)

end Provision.Installer
