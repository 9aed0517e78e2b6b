import KernelCore.Lifetime.Storage
import KernelCore.Panic

/-! # Optional cells

A cell that may be occupied by one object. Copying leaves the source as it is; moving leaves it
occupied, with what moving leaves behind.
-/

namespace KernelCore

structure OptionalCell (α : Type) where
  storage : Storage α
  occupied : Bool
  deriving DecidableEq, Repr

namespace OptionalCell

variable {α β : Type}

def null : OptionalCell α := ⟨.raw, false⟩

/-- A cell with a copy of a value. -/
def ofCopy (a : α) : Life (OptionalCell α) := return ⟨← Storage.raw.construct a, true⟩

/-- A cell with the value that is moved out of an object, and the storage of that object. -/
def ofMove [Movable α] (source : Storage α) : Life (OptionalCell α × Storage α) := do
  let (a, source) ← source.moveOut
  return (⟨← Storage.raw.construct a, true⟩, source)

/-- The value of the object in a cell. -/
def value? (c : OptionalCell α) : Life (Option α) :=
  if c.occupied then return some (← c.storage.read) else return none

def reset (c : OptionalCell α) : Life (OptionalCell α) :=
  if c.occupied then return ⟨← c.storage.destroy, false⟩ else return c

/-- Fills a cell with a new object in place of the old one. -/
def emplace (c : OptionalCell α) (a : α) : Life (OptionalCell α) := do
  let c ← c.reset
  return ⟨← c.storage.construct a, true⟩

def copyOf (x : OptionalCell α) : Life (OptionalCell α) := do
  if x.occupied then ofCopy (← x.storage.read) else return null

/-- A cell with the value moved out of another, and that other cell. -/
def moveOf [Movable α] (x : OptionalCell α) : Life (OptionalCell α × OptionalCell α) := do
  if x.occupied then
    let (c, source) ← ofMove x.storage
    return (c, { x with storage := source })
  else return (null, x)

def assignCopy (d x : OptionalCell α) : Life (OptionalCell α) := do
  let d ← d.reset
  if x.occupied then return ⟨← d.storage.construct (← x.storage.read), true⟩ else return d

/-- The target and the source of a move. -/
def assignMove [Movable α] (d x : OptionalCell α) : Life (OptionalCell α × OptionalCell α) := do
  let d ← d.reset
  if x.occupied then
    let (a, source) ← x.storage.moveOut
    return (⟨← d.storage.construct a, true⟩, { x with storage := source })
  else return (d, x)

/-- Moves a temporary cell into another and gives the temporary up. -/
def assignTemporary [Movable α] (d temporary : OptionalCell α) : Life (OptionalCell α) := do
  let (d, temporary) ← d.assignMove temporary
  let _ ← temporary.reset
  return d

def deref (c : OptionalCell α) : Life (Except Panic α) := do
  match ← c.value? with
  | some a => return .ok a
  | none => return .error .emptyOptional

def equals [DecidableEq α] (c d : OptionalCell α) : Life Bool :=
  return (← c.value?) = (← d.value?)

/-- A new object with a copy of the value of a cell, or of the object to fall back on. -/
def valueOr (c : OptionalCell α) (fallback : Storage α) : Life (Storage α) := do
  if c.occupied then Storage.raw.construct (← c.storage.read)
  else Storage.raw.construct (← fallback.read)

/-- A new cell that takes over the object which a function makes of the value. -/
def transform [Movable β] (c : OptionalCell α) (f : α → β) : Life (OptionalCell β) := do
  if c.occupied then
    let made ← Storage.raw.construct (f (← c.storage.read))
    let (t, made) ← ofMove made
    let _ ← made.destroy
    return t
  else return null

end OptionalCell

end KernelCore
