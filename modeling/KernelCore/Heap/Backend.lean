import KernelCore.Word.Align

/-! # Heap backends

A backend serves the kernel's heap requests once early boot is over. A request either has a pointer
for its answer or none; freeing is refused when the backend never handed the pointer out.
-/

namespace KernelCore

class HeapBackend (β : Type) where
  allocate (h : β) (size align : UInt64) : Option Address × β
  free? (h : β) (a : Address) : Option β

end KernelCore
