import KernelCore.Sync.Atomic

/-! # Spinlocks

A lock that is either held or free. Acquiring a held lock would wait for another holder to release
it, so alone it has no result; releasing a free lock does nothing.
-/

namespace KernelCore

structure Spinlock where
  flag : AtomicCell Bool
  deriving DecidableEq, Repr

namespace Spinlock

def free : Spinlock := ⟨⟨false⟩⟩

def held (l : Spinlock) : Bool := l.flag.load

def acquire? (l : Spinlock) : Option Spinlock :=
  match l.flag.compareExchange false true with
  | (true, flag) => some ⟨flag⟩
  | (false, _) => none

def release (l : Spinlock) : Spinlock := ⟨l.flag.store false⟩

theorem acquire?_eq_some_iff {l l' : Spinlock} :
    l.acquire? = some l' ↔ l.held = false ∧ l' = ⟨⟨true⟩⟩ := by
  obtain ⟨⟨b⟩⟩ := l
  cases b <;> simp [acquire?, AtomicCell.compareExchange, held, AtomicCell.load, eq_comm]

end Spinlock

end KernelCore
