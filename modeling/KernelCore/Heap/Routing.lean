import KernelCore.Kernel.State

/-! # Heap routing

Heap requests go to the attached boot memory until a backend is installed, which retires that
memory and takes over. Pointers that came from boot memory still go back to it afterwards: a pointer
is freed where it is owned, and only then by the backend.
-/

namespace KernelCore.Kernel

variable {β : Type} [HeapBackend β]

/-- Lets a boot memory serve heap requests until a backend takes over. -/
def attach (m : MemoryId) : Action (Kernel β) Unit := do
  if (← Action.current).installed.isSome then Action.halt .attachedAfterHandOff
  Action.update ({ · with attached := some m })

/-- Lets a backend serve all heap requests from now on. -/
def install (h : HeapId) : Action (Kernel β) Unit := do
  if let some m := (← Action.current).attached then
    let _ ← onMemory m .retire
  Action.update ({ · with installed := some h })
  Action.say .important [.text "Kernel heap handed off from early memory\n"]

/-- Forgets who serves heap requests. -/
def resetRouting : Action (Kernel β) Unit :=
  Action.update ({ · with attached := none, installed := none })

def askHeap (h : HeapId) (size align : UInt64) : Action (Kernel β) (Option Address) :=
  ask (fun k =>
      let (p, x) := HeapBackend.allocate (k.getHeap h) size align
      (p, k.setHeap h x))
    (.heapAllocate h size align)

/-- Gives a pointer back to a backend and answers whether it was accepted. -/
def giveHeap (h : HeapId) (a : Address) : Action (Kernel β) Bool :=
  ask (fun k =>
      match HeapBackend.free? (k.getHeap h) a with
      | some x => (true, k.setHeap h x)
      | none => (false, k))
    (.heapFree h a)

def allocate (size align : UInt64) : Action (Kernel β) (Option Address) := do
  let k ← Action.current
  match k.installed, k.attached with
  | some h, _ => return (← askHeap h size align).bind BootMemory.pointer?
  | none, some m =>
      match ← onMemory m (.allocate size align) with
      | .pointer p => return p
      | _ => return none
  | none, none => return none

/-- Whether the attached boot memory owns an address. -/
def attachedOwner? (k : Kernel β) (a : Address) : Option MemoryId :=
  k.attached.filter fun m => (k.getMemory m).owns a

/-- Freeing the null pointer does nothing. -/
def free (a : Address) : Action (Kernel β) Unit := do
  if a = 0 then return
  let k ← Action.current
  match k.attachedOwner? a, k.installed with
  | some m, _ => let _ ← onMemory m (.free a)
  | none, some h =>
      if ← giveHeap h a then return
      Action.fault .foreignPointer
  | none, none => Action.halt (.unownedPointer a)

end KernelCore.Kernel
