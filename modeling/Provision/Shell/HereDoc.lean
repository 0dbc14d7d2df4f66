import Provision.Decimal.Text

/-! # Here-documents

The marker that ends a here-document has to differ from every line in it. -/

namespace Provision.HereDoc

def baseMarker : String := "INSTALLFORGE_LINES"

def numbered (base : String) (n : Nat) : String :=
  base ++ "_" ++ Decimal.intText n

/-- The base where no line equals it, or else the base with the least number that makes it differ
from all lines. As many numbers as there are lines are enough. -/
def marker (lines : List String) (base : String := baseMarker) : String :=
  if lines.contains base then
    (((List.range lines.length).map fun n => numbered base (n + 1)).find?
      (!lines.contains ·)).getD base
  else base

end Provision.HereDoc
