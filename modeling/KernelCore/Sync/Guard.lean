import KernelCore.Sync.Spinlock

/-! # Lock guards

A guard acquires a lock when it is made and releases it when it is given up, even when the lock has
been released and taken anew since. Giving up a guard that does not exist leaves the lock alone. There
is one place for a guard: another one acquires the lock first and then takes the place of the old one,
which is given up and so releases the lock again.
-/

namespace KernelCore

structure GuardedLock where
  lock : Spinlock
  guarded : Bool
  deriving DecidableEq, Repr

namespace GuardedLock

def free : GuardedLock := ⟨.free, false⟩

def held (g : GuardedLock) : Bool := g.lock.held

def acquire? (g : GuardedLock) : Option GuardedLock := g.lock.acquire?.map ({ g with lock := · })

def release (g : GuardedLock) : GuardedLock := { g with lock := g.lock.release }

/-- Gives up the guard, if there is one. -/
def unguard (g : GuardedLock) : GuardedLock := if g.guarded then free else g

/-- Makes a guard, and gives up the old one after that. -/
def guard? (g : GuardedLock) : Option GuardedLock :=
  g.acquire?.map fun h => { h.unguard with guarded := true }

inductive Operation where
  | acquire
  | release
  | guard
  | unguard
  | abandonedScope
  deriving DecidableEq, Repr

/-- What an operation leaves, unless it would wait for ever. A scope that is left by a fault gives up
its own guard. -/
def step? (g : GuardedLock) : Operation → Option GuardedLock
  | .acquire => g.acquire?
  | .release => some g.release
  | .guard => g.guard?
  | .unguard => some g.unguard
  | .abandonedScope => g.acquire?.map release

end GuardedLock

end KernelCore
