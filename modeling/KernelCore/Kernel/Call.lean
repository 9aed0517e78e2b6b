import KernelCore.Files.Table
import KernelCore.Memory.Range
import KernelCore.Space.Error
import KernelCore.Space.Permissions

/-! # Calls to collaborators

What the kernel asks of its heaps, of the address space, of the file table and of the task, each
call with its arguments and with what came back.
-/

namespace KernelCore

abbrev MemoryId := Fin 3

abbrev HeapId := Fin 2

inductive Call where
  | heapAllocate (heap : HeapId) (size align : UInt64) (result : Option Address)
  | heapFree (heap : HeapId) (pointer : Address) (accepted : Bool)
  | findFreeArea (hint : Address) (length : UInt64) (limit : Range) (result : Option Address)
  | mapAlloc (start : Address) (length : UInt64) (permissions : Permissions) (populate : Bool)
      (result : Except SpaceError Unit)
  | spaceWrite (start source : Address) (length : UInt64) (result : Except SpaceError Unit)
  | fileOpen (path : Address) (flags mode : UInt32) (result : Except Errno Descriptor)
  | fileClose (fd : Descriptor) (result : Except Errno Unit)
  | fileRead (fd : Descriptor) (buffer : Address) (length : UInt64) (result : Except Errno UInt64)
  | fileWrite (fd : Descriptor) (buffer : Address) (length : UInt64) (result : Except Errno UInt64)
  | fileWriteVectors (fd : Descriptor) (vectors : Address) (count : UInt64)
      (result : Except Errno UInt64)
  | fileSeek (fd : Descriptor) (offset : Int64) (whence : Whence) (result : Except Errno UInt64)
  | fileIsOpen (fd : Descriptor) (result : Bool)
  | setClearChildTid (address : Address)

namespace Call

/-- The calls that touch the address space and so have to hold its lock. -/
def touchesSpace : Call → Bool
  | findFreeArea .. | mapAlloc .. | spaceWrite .. => true
  | _ => false

end Call

end KernelCore
