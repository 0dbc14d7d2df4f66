import Provision.Script.Artifacts
import Provision.Store.Fault

/-! # Failures

Everything that can stop an operation on stored projects. Faults of the store are part of what its
operations promise. All else comes from below: a call the system refuses where no fault of the
store stands for it, a file that cannot be decoded, or a recipe that cannot be compiled. -/

namespace Provision

inductive Failure where
  | store (fault : StoreFault)
  | disk (fault : DiskFault)
  /-- A file that is no UTF-8 text. -/
  | encoding
  /-- A document with an integer of too many digits. -/
  | digits
  /-- A document with containers nested too deep. -/
  | nesting
  | write (fault : WriteFault)
  | compile (fault : CompileFault)

/-- Whether the system refused a call, rather than being asked for what cannot be named. -/
def DiskFault.isRefusal : DiskFault → Bool
  | nulByte | emptyName _ => false
  | _ => true

namespace Failure

/-- A refusal of the system as a fault of the store. -/
def wrapping (fault : DiskFault → StoreFault) (f : DiskFault) : Failure :=
  if f.isRefusal then store (fault f) else disk f

def isStoreFault : Failure → Bool
  | store _ => true
  | _ => false

/-- The report of a refusal of the system or a fault of the store. Other failures have none. -/
def refusal? : Failure → Option String
  | store f => some f.message
  | disk f => if f.isRefusal then some f.message else none
  | _ => none

end Failure

end Provision
