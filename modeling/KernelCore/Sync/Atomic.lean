/-! # Atomic cells

A cell holds one value and changes it in a single step. Comparing and exchanging replaces the
value exactly when it is the expected one.
-/

namespace KernelCore

structure AtomicCell (α : Type) where
  value : α
  deriving DecidableEq, Repr

namespace AtomicCell

variable {α : Type}

def load (c : AtomicCell α) : α := c.value

def store (_ : AtomicCell α) (v : α) : AtomicCell α := ⟨v⟩

def compareExchange [DecidableEq α] (c : AtomicCell α) (expected desired : α) :
    Bool × AtomicCell α :=
  if c.value = expected then (true, ⟨desired⟩) else (false, c)

end AtomicCell

end KernelCore
