import KernelCore.Space.Permissions

/-! # Protection and mapping flags

The bits with which a caller says what a new mapping is for. A mapping is always open to user code;
the protection bits add reading, writing and executing.
-/

namespace KernelCore

abbrev Protection := Flags 32 0x7

namespace Protection

def read : Protection := ⟨1⟩
def write : Protection := ⟨2⟩
def exec : Protection := ⟨4⟩

def toPermissions (p : Protection) : Permissions :=
  let grant (q : Protection) (r : Permissions) : Permissions := if p.contains q then r else .empty
  .user ∪ grant read .read ∪ grant write .write ∪ grant exec .exec

end Protection

abbrev MapFlags := Flags 32 0x24033

namespace MapFlags

def fixed : MapFlags := ⟨0x10⟩
def anonymous : MapFlags := ⟨0x20⟩

end MapFlags

end KernelCore
