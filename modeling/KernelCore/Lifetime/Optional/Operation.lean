import KernelCore.Lifetime.Optional
import KernelCore.Lifetime.Reply

/-! # Operations on optional cells

All that can be done to a row of optional cells, by their places. Assigning a cell to itself leaves it
alone. A row grows by cells that are built new and shrinks by cells that end.
-/

namespace KernelCore.OptionalCell

inductive Operation (α : Type) (n : Nat) where
  | setCopy (d : Fin n) (a : α)
  | setMove (d : Fin n) (a : α)
  | clear (d : Fin n)
  | copy (d x : Fin n)
  | move (d x : Fin n)
  | copyNew (d x : Fin n)
  | moveNew (d x : Fin n)
  | emplace (d : Fin n) (a : α)
  | reset (d : Fin n)
  | deref (d : Fin n)
  | put (d : Fin n) (a : α)
  | valueOr (d : Fin n) (a : α)
  | equals (d x : Fin n)
  | occupied (d : Fin n)
  | transform (d : Fin n) (f : α → α)

/-- What a new cell is built from. -/
inductive Source (α : Type) (n : Nat) where
  | empty
  | copy (a : α)
  | move (a : α)
  | copyOf (x : Fin n)
  | moveOf (x : Fin n)

variable {α ε γ : Type} {n : Nat} [Movable α]

/-- Builds a new cell behind those of a row. -/
def build (cells : Vector (OptionalCell α) n) : Source α n → Life (Vector (OptionalCell α) (n + 1))
  | .empty => return cells.push null
  | .copy a => do
      let source ← Storage.raw.construct a
      let c ← ofCopy (← source.read)
      let _ ← source.destroy
      return cells.push c
  | .move a => do
      let source ← Storage.raw.construct a
      let (c, source) ← ofMove source
      let _ ← source.destroy
      return cells.push c
  | .copyOf x => return cells.push (← (cells.get x).copyOf)
  | .moveOf x => do
      let (c, source) ← (cells.get x).moveOf
      return (cells.set x source x.isLt).push c

def discard (cells : Vector (OptionalCell α) n) (x : Fin n) : Life (Vector (OptionalCell α) (n - 1)) := do
  let _ ← (cells.get x).reset
  return cells.eraseIdx x x.isLt

variable [DecidableEq α]

def step (cells : Vector (OptionalCell α) n) :
    Operation α n → Life (CellReply α ε γ × Vector (OptionalCell α) n)
  | .setCopy d a => do
      let source ← Storage.raw.construct a
      let t ← ofCopy (← source.read)
      let c ← (cells.get d).assignTemporary t
      let _ ← source.destroy
      return (.nothing, cells.set d c d.isLt)
  | .setMove d a => do
      let source ← Storage.raw.construct a
      let (t, source) ← ofMove source
      let c ← (cells.get d).assignTemporary t
      let _ ← source.destroy
      return (.nothing, cells.set d c d.isLt)
  | .clear d => return (.nothing, cells.set d (← (cells.get d).assignTemporary null) d.isLt)
  | .copy d x =>
      if d = x then return (.nothing, cells)
      else return (.nothing, cells.set d (← (cells.get d).assignCopy (cells.get x)) d.isLt)
  | .move d x =>
      if d = x then return (.nothing, cells)
      else do
        let (c, source) ← (cells.get d).assignMove (cells.get x)
        return (.nothing, (cells.set d c d.isLt).set x source x.isLt)
  | .copyNew d x => do
      let t ← (cells.get x).copyOf
      return (.nothing, cells.set d (← (cells.get d).assignTemporary t) d.isLt)
  | .moveNew d x => do
      let (t, source) ← (cells.get x).moveOf
      let cells := cells.set x source x.isLt
      return (.nothing, cells.set d (← (cells.get d).assignTemporary t) d.isLt)
  | .emplace d a => return (.nothing, cells.set d (← (cells.get d).emplace a) d.isLt)
  | .reset d => return (.nothing, cells.set d (← (cells.get d).reset) d.isLt)
  | .deref d => return (.ofValue (← (cells.get d).deref), cells)
  | .put d a => do
      match ← (cells.get d).deref with
      | .error p => return (.panicked p, cells)
      | .ok _ =>
          let storage ← (cells.get d).storage.assign a
          return (.nothing, cells.set d { cells.get d with storage := storage } d.isLt)
  | .valueOr d a => do
      let fallback ← Storage.raw.construct a
      let copy ← (cells.get d).valueOr fallback
      let value ← copy.read
      let _ ← copy.destroy
      let _ ← fallback.destroy
      return (.value value, cells)
  | .equals d x => return (.truth (← (cells.get d).equals (cells.get x)), cells)
  | .occupied d => return (.truth (cells.get d).occupied, cells)
  | .transform d f => do
      let t ← (cells.get d).transform f
      let value ← t.value?
      let _ ← t.reset
      return (.optional value, cells)

end KernelCore.OptionalCell
