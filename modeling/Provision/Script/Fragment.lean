import Provision.Shell.HereDoc
import Provision.Shell.Quoting
import Provision.Shell.Sed
import Provision.Step.Action
import Provision.Step.Check

/-! # Shell blocks of steps

`Fragment.ofAction` compiles an action to lines of shell code. A step of an unknown type compiles
to a block that reports the type and fails, so nothing is skipped in silence. -/

namespace Provision

open Shell Shell.Piece

/-- The block of a step and the commands it runs on the target. -/
structure Fragment where
  stepType : String
  lines : List Line
  requires : List String

namespace Fragment

def text (f : Fragment) : String :=
  "\n".intercalate (f.lines.map Line.text)

def copyBackup : String := "cp -a \"$target\" \"$target.bak.$(date +%s)\""

def backup (enabled : Bool) : List Line :=
  if enabled then [[code copyBackup]] else []

def backupIfExists (enabled : Bool) : List Line :=
  if enabled then [[code ("if [ -e \"$target\" ]; then " ++ copyBackup ++ "; fi")]] else []

/-- Runs a filter into a file beside the target, gives it the target's mode and owner, and moves it
over the target. -/
def rewriteTarget (filter : Line) : List Line :=
  [[code "tmp=\"$target.tmp.$$\""],
    filter ++ [code " > \"$tmp\" || \x7b rm -f \"$tmp\"; exit 1; \x7d"],
    [code "chmod --reference=\"$target\" \"$tmp\" 2>/dev/null || true"],
    [code "chown --reference=\"$target\" \"$tmp\" 2>/dev/null || true"],
    [code "mv -f \"$tmp\" \"$target\""]]

def setTarget (file : String) : Line :=
  [code "target=", double file]

def unknown (type : String) : List Line :=
  [[code "echo ", single ("Unknown step type " ++ type), code " >&2"], [code "exit 1"]]

/-- The file name of a unit. -/
def unitName (name : String) : String :=
  if name.endsWith ".service" then name else name ++ ".service"

def sysvService (src name : String) (start : Bool) : List Line :=
  let script := double ("/etc/init.d/" ++ name)
  [[code "cp ", double src, code " ", script],
    [code "chmod +x ", script],
    [code "if command -v chkconfig >/dev/null 2>&1; then"],
    [code "  chkconfig --add ", double name],
    [code "  chkconfig ", double name, code " on"],
    [code "else"],
    [code "  echo \"chkconfig not found; ensure service enabled manually\" >&2"],
    [code "fi"]] ++
    (if start then [[code "service ", double name, code " start"]] else [])

def systemdService (src name : String) (start : Bool) : List Line :=
  [[code "cp ", double src, code " ", double ("/etc/systemd/system/" ++ unitName name)],
    [code "systemctl daemon-reload"]] ++
    (if start then [[code "systemctl enable --now ", double name]] else [])

def unpack (archive : Archive) (src dest : String) : Line :=
  match archive with
  | .tarGz => [code "tar -xzf ", double src, code " -C ", double dest]
  | .zip => [code "unzip -o ", double src, code " -d ", double dest]

def archiveType : Archive → String
  | .tarGz => "extract_tar_gz"
  | .zip => "extract_zip"

def copyLines (src dest : String) (overwrite : Bool) (mode : String) : List Line :=
  (if overwrite then [[code "cp -f ", double src, code " ", double dest]]
   else
    [[code "if [ -e ", double dest, code " ] && [ ! -d ", double dest, code " ]; then"],
      [code "  echo ", single ("skip copy: " ++ dest ++ " exists")],
      [code "else"],
      [code "  cp -n ", double src, code " ", double dest],
      [code "fi"]]) ++
  (if mode = "" then [] else [[code "chmod ", double mode, code " ", double dest]])

def extractLines (archive : Archive) (src dest creates : String) : List Line :=
  let body := [[code "mkdir -p ", double dest], unpack archive src dest]
  if creates = "" then body
  else
    [[code "if [ -e ", double creates, code " ]; then"],
      [code "  echo ",
        single ("skip " ++ archiveType archive ++ " because creates exists: " ++ creates)],
      [code "else"]] ++ body.map Line.indented ++ [[code "fi"]]

def rpmLines (rpms : List String) (mode : String) (nodeps : Bool) : List Line :=
  if rpms.isEmpty then [[code "echo 'rpm_install: no packages listed'"]]
  else
    let install := if Text.lower mode = "upgrade" then "-Uvh" else "-ivh"
    [code "for pkg in " :: (rpms.map double).intersperse (code " ") ++ [code "; do"],
      [code ("  rpm " ++ install ++ (if nodeps then " --nodeps" else "") ++ " \"$pkg\"")],
      [code "done"]]

def appendLoop (unique : Bool) : List Line :=
  if unique then
    [[code "  if ! grep -Fqx -- \"$line\" \"$target\" 2>/dev/null; then"],
      [code "    printf '%s\\n' \"$line\" >> \"$target\""],
      [code "  fi"]]
  else [[code "  printf '%s\\n' \"$line\" >> \"$target\""]]

def appendLines (file : String) (lines : List String) (unique enabled : Bool) : List Line :=
  let marker := HereDoc.marker lines
  [setTarget file] ++ backupIfExists enabled ++ [[code "while IFS= read -r line; do"]] ++
    appendLoop unique ++ [[code ("done <<'" ++ marker ++ "'")]] ++
    lines.map (fun l => [code l]) ++ [[code marker]]

/-- The selection succeeds also when it leaves no line. -/
def deleteFilter (pattern mode : String) : Line :=
  let matching := if Text.lower mode = "regex" then "-Ev" else "-Fv"
  [code ("\x7b grep " ++ matching ++ " -- "), single pattern,
    code " \"$target\" || [ $? -eq 1 ]; \x7d"]

/-- The substitution of a pattern by a replacement, everywhere in a line. -/
def substitution (pattern replacement mode : String) : String :=
  let d := Sed.delimiter [pattern, replacement]
  let (p, r) :=
    if Text.lower mode = "regex" then
      (Sed.protectDelimiter (some d) pattern, Sed.protectDelimiter (some d) replacement)
    else (Sed.literalPattern (some d) pattern, Sed.literalReplacement (some d) replacement)
  let sep := d.toString
  "s" ++ sep ++ p ++ sep ++ r ++ sep ++ "g"

def replaceFilter (pattern replacement mode : String) : Line :=
  [code (if Text.lower mode = "regex" then "sed -r " else "sed "),
    single (substitution pattern replacement mode), code " \"$target\""]

def runLines (cmd cwd : String) : List Line :=
  [[code "(cd ", if cwd = "" then code "\"$SCRIPT_DIR\"" else double cwd, code (" && " ++ cmd)],
    [code ")"]]

/-- The init system is known on the target only, so the choice is made there. -/
def autoServiceLines (name sysvSrc systemdSrc : String) (start : Bool) : List Line :=
  [[code "if command -v systemctl >/dev/null 2>&1; then"]] ++
    (systemdService systemdSrc name start).map Line.indented ++ [[code "else"]] ++
    (sysvService sysvSrc name start).map Line.indented ++ [[code "fi"]]

def ofAction : Action → List Line
  | .mkdir path => [[code "mkdir -p ", double path]]
  | .copy src dest overwrite mode => copyLines src dest overwrite mode
  | .chmod path mode => [[code "chmod ", double mode, code " ", double path]]
  | .chown path owner group =>
    [[code "chown ", double (if group = "" then owner else owner ++ ":" ++ group), code " ",
      double path]]
  | .extract archive src dest creates => extractLines archive src dest creates
  | .rpmInstall rpms mode nodeps => rpmLines rpms mode nodeps
  | .appendLines file lines unique enabled => appendLines file lines unique enabled
  | .deleteLines file pattern mode enabled =>
    setTarget file :: backup enabled ++ rewriteTarget (deleteFilter pattern mode)
  | .replace file pattern replacement mode enabled =>
    setTarget file :: backup enabled ++ rewriteTarget (replaceFilter pattern replacement mode)
  | .runCmd cmd cwd => runLines cmd cwd
  | .service .sysv src name start => sysvService src name start
  | .service .systemd src name start => systemdService src name start
  | .autoService name sysvSrc systemdSrc start =>
    autoServiceLines name sysvSrc systemdSrc start

def ofStep (s : Step) (room : Room := .standard) : Except SettingsFault Fragment :=
  match s.kind? with
  | none => .ok ⟨s.type, unknown s.type, []⟩
  | some k => (Action.read k s.config room).map fun a => ⟨s.type, ofAction a, k.commands⟩

end Fragment

end Provision
