import KernelCore.Flags
import KernelCore.Text.Item

/-! # Mapping permissions

What may be done with a mapping: read it, write it, execute it, and whether user code may touch
it at all.
-/

namespace KernelCore

abbrev Permissions := Flags 8 0xf

namespace Permissions

def read : Permissions := ⟨1⟩
def write : Permissions := ⟨2⟩
def exec : Permissions := ⟨4⟩
def user : Permissions := ⟨8⟩

/-- One letter for each permission, a dash for each that is missing. -/
def items (p : Permissions) : List Item :=
  [(user, 'U'), (read, 'R'), (write, 'W'), (exec, 'X')].map fun (q, c) =>
    .char (if p.contains q then c else '-').toUInt8

end Permissions

end KernelCore
