import KernelCore.Boot.Component
import KernelCore.Heap.Routing

/-! # The kernel's boot table

Boot activates a boot memory on the first region that the machine reports and makes it serve heap
requests; a second region, where there is one, moves the page boundary. Only the first step is
required.
-/

namespace KernelCore.Boot

variable {β : Type} [HeapBackend β]

/-- How many regions boot asks for. -/
def maxRegions : Nat := 8

def accepted : BootMemory.Outcome → Bool
  | .accepted => true
  | _ => false

/-- Activates the memory on the first region and attaches it. -/
def startMemory (m : MemoryId) (regions : List Range) : Action (Kernel β) Bool := do
  match regions.take maxRegions with
  | [] =>
      Action.say .error [.text "No boot memory regions reported\n"]
      return false
  | r :: _ =>
      if accepted (← Kernel.onMemory m (.activate r)) then
        Kernel.attach m
        return true
      else return false

/-- Extends the memory by the second region, if there is one. -/
def extendMemory (m : MemoryId) (regions : List Range) : Action (Kernel β) Bool := do
  match regions.take maxRegions with
  | _ :: r :: _ => return accepted (← Kernel.onMemory m (.extend r))
  | _ => return true

def table (m : MemoryId) (regions : List Range) : List (Component (Kernel β)) :=
  [⟨some "Early memory", none, 4, .critical⟩,
    ⟨some "Early allocator", some (startMemory m regions), 1, .critical⟩,
    ⟨some "Early allocator extension", some (extendMemory m regions), 0, .important⟩,
    .sentinel]

/-- What a component of a table made for trying out boot does. -/
inductive Role where
  | marker
  | succeeds
  | fails
  | startsMemory
  | extendsMemory
  | ends
  deriving DecidableEq, Repr

structure Entry where
  role : Role
  name : Option String
  flags : UInt8
  importance : Importance
  deriving DecidableEq, Repr

/-- An initializer that only notes that it ran. -/
def probe (index : Nat) (succeeds : Bool) : Action (Kernel β) Bool := do
  Action.note (.ran index)
  return succeeds

def Role.initializer (m : MemoryId) (regions : List Range) (index : Nat) :
    Role → Option (Action (Kernel β) Bool)
  | .marker | .ends => none
  | .succeeds => some (probe index true)
  | .fails => some (probe index false)
  | .startsMemory => some (startMemory m regions)
  | .extendsMemory => some (extendMemory m regions)

def Entry.component (m : MemoryId) (regions : List Range) (index : Nat) (e : Entry) :
    Component (Kernel β) :=
  if e.role = .ends then .sentinel
  else ⟨e.name, e.role.initializer m regions index, e.flags, e.importance⟩

/-- A table from its entries, with a sentinel after the last. -/
def tableOf (m : MemoryId) (regions : List Range) (entries : List Entry) :
    List (Component (Kernel β)) :=
  entries.mapIdx (Entry.component m regions) ++ [.sentinel]

end KernelCore.Boot
