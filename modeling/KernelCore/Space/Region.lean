import KernelCore.Memory.Boot
import KernelCore.Memory.Bytes
import KernelCore.Space.Permissions

/-! # Mapped regions

A region is one mapping of an address space: where it lies, what may be done with it, and its
bytes. Two spans meet when each starts before the other one ends.
-/

namespace KernelCore

structure Region where
  start : Address
  length : UInt64
  permissions : Permissions
  populated : Bool
  contents : ByteStore

namespace Region

def stop (r : Region) : Address := r.start + r.length

def meets (r : Region) (start : Address) (length : UInt64) : Bool :=
  start < r.stop && r.start < start + length

def contains (r : Region) (a : Address) : Bool := r.start ≤ a && a < r.stop

def holds (r : Region) (a : Address) (length : UInt64) : Bool :=
  Span.covers r.start r.length a length

def offset (r : Region) (a : Address) : Nat := (a - r.start).toNat

def write (r : Region) (a : Address) (data : ByteArray) : Region :=
  { r with contents := r.contents.write (r.offset a) data }

end Region

end KernelCore
