import KernelCore.Lifetime.Storage
import KernelCore.Panic

/-! # Result cells

A cell that holds either one object or an error. Assigning destroys what was there and constructs a
copy of the source; a source that is given up by the assignment is copied all the same and keeps its
value.
-/

namespace KernelCore

inductive ResultCell (α ε : Type) where
  | ok (storage : Storage α)
  | error (e : ε)
  deriving DecidableEq, Repr

namespace ResultCell

variable {α ε γ : Type}

def isOk : ResultCell α ε → Bool
  | ok _ => true
  | error _ => false

def ofCopy (a : α) : Life (ResultCell α ε) := return ok (← Storage.raw.construct a)

/-- A cell with the value that is moved out of an object, and the storage of that object. -/
def ofMove [Movable α] (source : Storage α) : Life (ResultCell α ε × Storage α) := do
  let (a, source) ← source.moveOut
  return (ok (← Storage.raw.construct a), source)

def value : ResultCell α ε → Life (Except ε α)
  | ok s => return .ok (← s.read)
  | error e => return .error e

/-- Raw storage in place of what the cell held. -/
def vacate : ResultCell α ε → Life (Storage α)
  | ok s => s.destroy
  | error _ => return .raw

def fill (s : Storage α) : ResultCell α ε → Life (ResultCell α ε)
  | ok t => return ok (← s.construct (← t.read))
  | error e => return error e

def copyOf (x : ResultCell α ε) : Life (ResultCell α ε) := fill .raw x

/-- A cell with the value moved out of another, and that other cell. -/
def moveOf [Movable α] : ResultCell α ε → Life (ResultCell α ε × ResultCell α ε)
  | ok s => do
      let (c, s) ← ofMove s
      return (c, ok s)
  | error e => return (error e, error e)

def assign (d x : ResultCell α ε) : Life (ResultCell α ε) := do
  fill (← d.vacate) x

/-- Copies a temporary cell into another and gives the temporary up. -/
def assignTemporary (d temporary : ResultCell α ε) : Life (ResultCell α ε) := do
  let d ← d.assign temporary
  let _ ← temporary.vacate
  return d

def deref (c : ResultCell α ε) : Life (Except Panic α) := do
  match ← c.value with
  | .ok a => return .ok a
  | .error _ => return .error .valueOfFailure

/-- A new object with a copy of the value of a cell, or of the object to fall back on. -/
def valueOr (c : ResultCell α ε) (fallback : Storage α) : Life (Storage α) := do
  match c with
  | ok s => Storage.raw.construct (← s.read)
  | error _ => Storage.raw.construct (← fallback.read)

def takeError : ResultCell α ε → Except Panic ε
  | ok _ => .error .errorOfSuccess
  | error e => .ok e

/-- A new cell with another kind of error. -/
def transformError (c : ResultCell α ε) (f : ε → γ) : Life (ResultCell α γ) := do
  match c with
  | ok s => ofCopy (← s.read)
  | error e => return error (f e)

end ResultCell

end KernelCore
