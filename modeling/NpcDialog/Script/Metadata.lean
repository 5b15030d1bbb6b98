import NpcDialog.Bytes

/-!
# Metadata

What a server needs to know of a script before anybody talks to it: where its
entity stands, what it looks like, and the compiled code of its entry function.

* `Bytecode` — compiled code.
* `Metadata` — all that is known of a script.
-/

namespace NpcDialog

/-- Compiled code of an entry function, as an archive. -/
structure Bytecode where
  /-- The archive. -/
  bytes : Bytes

/-- Two codes are the same when their archives are. -/
instance : DecidableEq Bytecode := fun ⟨a⟩ ⟨b⟩ =>
  match ByteArray.instDecidableEq a b with
  | isTrue same => isTrue (same ▸ rfl)
  | isFalse other => isFalse fun h => other (Bytecode.mk.inj h)

/-- The number of bytes of compiled code. -/
def Bytecode.size (c : Bytecode) : Nat := c.bytes.size

/-- Is there nothing in it? -/
def Bytecode.isEmpty (c : Bytecode) : Bool := c.size == 0

/-- What compiled code looks like to somebody who looks for errors; `size`
writes its size. -/
def Bytecode.describe (size : Nat → String) (c : Bytecode) : String :=
  "Bytecode \x7b len: " ++ size c.size ++ " \x7d"

/-- What is known of a script. -/
structure Metadata where
  /-- The file it is from. -/
  path : String
  /-- The map on which its entity stands. -/
  map : String
  /-- The column there. -/
  x : Int
  /-- The row there. -/
  y : Int
  /-- Where it looks. -/
  facing : Int
  /-- The name that is shown. -/
  name : String
  /-- The number of its sprite. -/
  sprite : Int
  /-- The code of its entry function, if it has one. -/
  code : Option Bytecode
  deriving DecidableEq

/-- Has the script anything to run? -/
def Metadata.hasCode (m : Metadata) : Bool := m.code.isSome

end NpcDialog
