import KernelCore.Heap.Backend

/-! # Arena heaps

A heap that hands out the bytes of one arena in ascending order and never reuses any, for runs whose
addresses have to repeat. Only its failing on request is that of the heap in the kernel's tests; the arena
and its limits are its own, and what is true of the kernel is stated for every backend.
-/

namespace KernelCore

structure ArenaHeap where
  limit : Address
  next : Address
  live : List Address
  failures : UInt64
  deriving DecidableEq, Repr

namespace ArenaHeap

/-- The largest size and alignment that are served. Other backends need not have such a limit. -/
def maxRequest : UInt64 := 0x1000000

/-- The smallest alignment that pointers of this heap have. -/
def minAlign : UInt64 := 16

def spanning (base : Address) (size : UInt64) : ArenaHeap := ⟨base + size, base, [], 0⟩

def failNext (h : ArenaHeap) (count : UInt64) : ArenaHeap := { h with failures := count }

/-- The least multiple of `align` from `x` on. -/
def roundUp (x align : UInt64) : UInt64 := (x + align - 1) / align * align

def allocate (h : ArenaHeap) (size align : UInt64) : Option Address × ArenaHeap :=
  if h.failures ≠ 0 then (none, { h with failures := h.failures - 1 })
  else
    let align := max align minAlign
    let first := roundUp h.next align
    if maxRequest < align ∨ maxRequest < size ∨ h.limit < first + size then (none, h)
    else (some first, { h with next := first + max size 1, live := first :: h.live })

def free? (h : ArenaHeap) (a : Address) : Option ArenaHeap :=
  if a ∈ h.live then some { h with live := h.live.erase a } else none

instance : HeapBackend ArenaHeap := ⟨allocate, free?⟩

end ArenaHeap

end KernelCore
