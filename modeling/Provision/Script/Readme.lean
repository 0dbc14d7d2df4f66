import Provision.Recipe.Basic

/-! # Usage notes

The notes that come with every bundle. They depend on the name and the targets of the project. -/

namespace Provision

def targetsText (targets : List String) : String :=
  let joined := ", ".intercalate targets
  if joined = "" then "(none)" else joined

def readme (p : Project) : String :=
  "InstallForge bundle\n===================\n\nProject: " ++ p.name ++ "\nTargets: " ++
    targetsText p.target ++ "\n\nUsage:\n  chmod +x install.sh\n  sudo ./install.sh\n\n" ++
    "Logs are written under $LOG_DIR (default " ++ Recipe.defaultLogDir ++ ").\n"

end Provision
