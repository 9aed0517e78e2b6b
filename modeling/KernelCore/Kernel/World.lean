import KernelCore.Boot.Table
import KernelCore.Heap.Arena
import KernelCore.Syscall.Table

/-! # Worlds and commands

A world is a kernel with the log and the trace that it has left so far. A command asks something of the
kernel or changes what it works in; it comes to an answer or a fault, and the world goes on from the state
that it left behind.
-/

namespace KernelCore

inductive Answer where
  | nothing
  | truth (b : Bool)
  | pointer (a : Option Address)
  | failures (n : Nat)
  | reply (r : Int64)
  | descriptor (fd : Descriptor)
  | cursor (r : Except Errno UInt64)

namespace Answer

def ofOutcome : BootMemory.Outcome → Answer
  | .done => nothing
  | .accepted => truth true
  | .refused => truth false
  | .pointer a => pointer a

end Answer

/-- What can be asked of a kernel, and any change that others make to what it works on. -/
inductive Command (β : Type) where
  | memory (m : MemoryId) (op : BootMemory.Operation)
  | owns (m : MemoryId) (pointer : Address)
  | attach (m : MemoryId)
  | install (h : HeapId)
  | resetRouting
  | allocate (size align : UInt64)
  | free (pointer : Address)
  | boot (m : MemoryId) (regions : List Range) (minimal : Importance)
  | table (cs : List (Component (Kernel β))) (minimal : Importance)
  | syscall (f : Frame)
  | setThreshold (t : Importance)
  | change (F : Kernel β → Answer × Kernel β)

namespace Kernel

variable {β : Type}

/-- A kernel whose memories are dormant, with nothing mapped and no file open. -/
def initial (memory : Memory) (heaps : Vector β 2) (space : AddressSpace) (id : UInt64) :
    Kernel β where
  memories := Vector.replicate 3 .dormant
  heaps := heaps
  attached := none
  installed := none
  memory := memory
  space := space
  lock := .free
  files := .empty
  task := ⟨id, true, none⟩

def execute [HeapBackend β] : Command β → Action (Kernel β) Answer
  | .memory m op => return .ofOutcome (← onMemory m op)
  | .owns m a => return .truth (((← Action.current).getMemory m).owns a)
  | .attach m => do attach m; return .nothing
  | .install h => do install h; return .nothing
  | .resetRouting => do resetRouting; return .nothing
  | .allocate size align => return .pointer (← allocate size align)
  | .free a => do free a; return .nothing
  | .boot m regions minimal => return .failures (← Component.runTable minimal (Boot.table m regions))
  | .table cs minimal => return .failures (← Component.runTable minimal cs)
  | .syscall f => return .reply (← handleSyscall f)
  | .setThreshold t => do
      modify fun m => { m with console := ⟨t⟩ }
      return .nothing
  | .change F => do
      let (a, k) := F (← Action.current)
      Action.update fun _ => k
      return a

end Kernel

namespace Command

variable {β : Type}

def setsThreshold : Command β → Bool
  | .setThreshold _ => true
  | _ => false

/-- The components that a command brings along. -/
def components : Command β → List (Component (Kernel β))
  | .table cs _ => cs
  | _ => []

/-- Boots from a table made for trying out boot. -/
def bootTable [HeapBackend β] (m : MemoryId) (regions : List Range) (entries : List Boot.Entry)
    (minimal : Importance) : Command β :=
  .table (Boot.tableOf m regions entries) minimal

def failHeap (h : HeapId) (count : UInt64) : Command ArenaHeap :=
  .change fun k => (.nothing, k.setHeap h ((k.getHeap h).failNext count))

def setTaskPresent (present : Bool) : Command β :=
  .change fun k => (.nothing, { k with task := { k.task with present := present } })

def addFile (path contents : ByteArray) : Command β :=
  .change fun k =>
    let (fd, files) := k.files.add path contents
    (.descriptor fd, k.setFiles files)

def seek (fd : Descriptor) (offset : Int64) (whence : Whence) : Command β :=
  .change fun k =>
    let (r, files) := k.files.seekUncounted fd offset whence
    (.cursor r, k.setFiles files)

def configureFiles (p : FilePolicy) : Command β :=
  .change fun k => (.nothing, k.setFiles (k.files.configure p))

def configureSpace (p : SpacePolicy) : Command β :=
  .change fun k => (.nothing, { k with space := { k.space with policy := p } })

def poke (a : Address) (data : ByteArray) : Command β :=
  .change fun k => (.nothing, { k with memory := k.memory.store a data })

end Command

structure World (β : Type) where
  machine : Machine (Kernel β)

/-- What one command came to, the events that it left, and what it wrote to the serial log. -/
structure Report where
  result : Except Fault Answer
  events : List Event
  written : List Item

namespace Report

variable {β : Type}

/-- What a machine that became another one reports. -/
def between (m n : Machine (Kernel β)) (r : Except Fault Answer) : Report where
  result := r
  events := (n.trace.extract m.trace.size).toList
  written := (n.serial.extract m.serial.size).toList

def calls (r : Report) : List Call := r.events.filterMap Event.call?

/-- The boot components that ran, by their place in the table. -/
def ran (r : Report) : List Nat := r.events.filterMap Event.ran?

end Report

namespace World

variable {β : Type}

/-- The size of the memory behind each of the kernel's arenas. -/
def arenaBytes : UInt64 := 0x1000000

def heapBases : Vector Address 2 := #v[0x200000000000, 0x201000000000]

/-- User memory, an arena for boot memory, and the arenas of the heaps, all zero. -/
def zeroedMemory : Memory where
  user := .zeroed 0x300000000000 0x10000
  arenas := (0x100000000000 :: heapBases.toList).map (.zeroed · arenaBytes)
  flat := ⟨by decide, by decide⟩

/-- A world in which nothing has happened yet. -/
def initial (threshold : Importance) (task : UInt64) (space : AddressSpace) : World ArenaHeap where
  machine :=
    { state := .initial zeroedMemory (heapBases.map (.spanning · arenaBytes)) space task
      console := ⟨threshold⟩
      serial := #[]
      trace := #[] }

def step [HeapBackend β] (w : World β) (c : Command β) : Report × World β :=
  match Kernel.execute c w.machine with
  | .ok a m => (.between w.machine m (.ok a), ⟨m⟩)
  | .error f m => (.between w.machine m (.error f), ⟨m⟩)

def run [HeapBackend β] (w : World β) : List (Command β) → List Report × World β
  | [] => ([], w)
  | c :: cs =>
      let (r, w) := w.step c
      let (rs, w) := w.run cs
      (r :: rs, w)

/-- How many calls touched the address space while its lock was free. -/
def unguardedCalls (w : World β) : Nat := (w.machine.trace.toList.filter Event.unguarded).length

end World

end KernelCore
