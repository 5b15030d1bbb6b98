/-!
# Configuration

How scripts are compiled and run.

* `Config` — the settings.
* `Config.default` — the settings where nothing is said.
-/

namespace NpcDialog

/-- The settings of scripts. -/
structure Config where
  /-- Are the notes for error messages left out of compiled code? -/
  stripDebugInfo : Bool
  /-- The most bytes a program may have in use; zero is no bound either. -/
  memoryLimit : Option Nat
  deriving DecidableEq

/-- The settings where nothing is said. -/
def Config.default : Config := ⟨true, none⟩

end NpcDialog
