import KernelCore.Heap.Backend
import KernelCore.Kernel.Action
import KernelCore.Memory.Boot.Operation
import KernelCore.Memory.Window
import KernelCore.Space.AddressSpace
import KernelCore.Sync.Spinlock

/-! # Kernel state

All that the kernel works on: its boot memories and heaps, which of them serve heap requests, the
accessible memory, and the current task with its address space, the lock of that space, and its
files. Every call to a collaborator is noted with whether the lock was held.
-/

namespace KernelCore

structure Task where
  id : UInt64
  present : Bool
  clearChildTid : Option Address
  deriving DecidableEq, Repr

structure Kernel (β : Type) where
  memories : Vector BootMemory 3
  heaps : Vector β 2
  attached : Option MemoryId
  installed : Option HeapId
  memory : Memory
  space : AddressSpace
  lock : Spinlock
  files : FileTable
  task : Task

namespace Kernel

variable {β α : Type}

def getMemory (k : Kernel β) (m : MemoryId) : BootMemory := k.memories[m]

def getHeap (k : Kernel β) (h : HeapId) : β := k.heaps[h]

def setMemory (k : Kernel β) (m : MemoryId) (b : BootMemory) : Kernel β :=
  { k with memories := k.memories.set m b }

def setHeap (k : Kernel β) (h : HeapId) (x : β) : Kernel β := { k with heaps := k.heaps.set h x }

/-- Puts a request to a collaborator, and notes the call with its result and with whether the lock
was held. -/
def ask (f : Kernel β → α × Kernel β) (c : α → Call) : Action (Kernel β) α := fun m =>
  let locked := m.state.lock.held
  let (a, k) := f m.state
  .ok a { m with state := k, trace := m.trace.push (.called (c a) locked) }

/-- Asks for the address-space lock. Nobody else would give it back, so to find it held is a fault. -/
def acquireLock : Action (Kernel β) Unit := fun m =>
  let m := { m with trace := m.trace.push .locking }
  match m.state.lock.acquire? with
  | none => .error .lockHeld m
  | some held => .ok () { m with state := { m.state with lock := held } }

/-- The machine that has given the address-space lock back. -/
def unlocked (m : Machine (Kernel β)) : Machine (Kernel β) :=
  { m with
    state := { m.state with lock := m.state.lock.release }
    trace := m.trace.push .unlocking }

/-- Runs an action while it holds the address-space lock, which is free again however the action
ends. -/
def holdingLock (act : Action (Kernel β) α) : Action (Kernel β) α := fun m =>
  match acquireLock m with
  | .error f m => .error f m
  | .ok () m =>
      match act m with
      | .ok a m' => .ok a (unlocked m')
      | .error f m' => .error f (unlocked m')

/-- Faults when there is no current task. -/
def needTask : Action (Kernel β) Unit := do
  unless (← Action.current).task.present do Action.fault .noCurrentTask

/-- Carries out an operation on a boot memory, with its log records. -/
def onMemory (m : MemoryId) (op : BootMemory.Operation) :
    Action (Kernel β) BootMemory.Outcome := do
  let b := (← Action.current).getMemory m
  Action.sayAll (b.records op)
  match b.apply op with
  | .ok (outcome, b') =>
      Action.update (·.setMemory m b')
      return outcome
  | .error p => Action.halt p

end Kernel

end KernelCore
