import KernelCore.Lifetime.Reply
import KernelCore.Lifetime.Result

/-! # Operations on result cells

All that can be done to a row of result cells, and to a row of results that hold no value, by their
places. Assigning a cell to itself leaves it alone. A row of result cells grows by cells that are built
new and shrinks by cells that end.
-/

namespace KernelCore.ResultCell

inductive Operation (α ε γ : Type) (n : Nat) where
  | succeed (d : Fin n) (a : α)
  | succeedMove (d : Fin n) (a : α)
  | fail (d : Fin n) (e : ε)
  | copy (d x : Fin n)
  | move (d x : Fin n)
  | copyNew (d x : Fin n)
  | moveNew (d x : Fin n)
  | deref (d : Fin n)
  | put (d : Fin n) (a : α)
  | takeError (d : Fin n)
  | valueOr (d : Fin n) (a : α)
  | isOk (d : Fin n)
  | transformError (d : Fin n) (f : ε → γ)

/-- What a new cell is built from. -/
inductive Source (α ε : Type) (n : Nat) where
  | copy (a : α)
  | move (a : α)
  | error (e : ε)
  | copyOf (x : Fin n)
  | moveOf (x : Fin n)

variable {α ε γ : Type} {n : Nat} [Movable α]

/-- Builds a new cell behind those of a row. -/
def build (cells : Vector (ResultCell α ε) n) : Source α ε n → Life (Vector (ResultCell α ε) (n + 1))
  | .copy a => do
      let source ← Storage.raw.construct a
      let c ← ofCopy (← source.read)
      let _ ← source.destroy
      return cells.push c
  | .move a => do
      let source ← Storage.raw.construct a
      let (c, source) ← ofMove source
      let _ ← source.destroy
      return cells.push c
  | .error e => return cells.push (.error e)
  | .copyOf x => return cells.push (← (cells.get x).copyOf)
  | .moveOf x => do
      let (c, source) ← (cells.get x).moveOf
      return (cells.set x source x.isLt).push c

def discard (cells : Vector (ResultCell α ε) n) (x : Fin n) : Life (Vector (ResultCell α ε) (n - 1)) := do
  let _ ← (cells.get x).vacate
  return cells.eraseIdx x x.isLt

def step (cells : Vector (ResultCell α ε) n) :
    Operation α ε γ n → Life (CellReply α ε γ × Vector (ResultCell α ε) n)
  | .succeed d a => do
      let source ← Storage.raw.construct a
      let t ← ofCopy (← source.read)
      let c ← (cells.get d).assignTemporary t
      let _ ← source.destroy
      return (.nothing, cells.set d c d.isLt)
  | .succeedMove d a => do
      let source ← Storage.raw.construct a
      let (t, source) ← ofMove source
      let c ← (cells.get d).assignTemporary t
      let _ ← source.destroy
      return (.nothing, cells.set d c d.isLt)
  | .fail d e => return (.nothing, cells.set d (← (cells.get d).assignTemporary (error e)) d.isLt)
  | .copy d x | .move d x =>
      if d = x then return (.nothing, cells)
      else return (.nothing, cells.set d (← (cells.get d).assign (cells.get x)) d.isLt)
  | .copyNew d x => do
      let t ← (cells.get x).copyOf
      return (.nothing, cells.set d (← (cells.get d).assignTemporary t) d.isLt)
  | .moveNew d x => do
      let (t, source) ← (cells.get x).moveOf
      let cells := cells.set x source x.isLt
      return (.nothing, cells.set d (← (cells.get d).assignTemporary t) d.isLt)
  | .deref d => return (.ofValue (← (cells.get d).deref), cells)
  | .put d a =>
      match cells.get d with
      | ok storage => return (.nothing, cells.set d (ok (← storage.assign a)) d.isLt)
      | error _ => return (.panicked .valueOfFailure, cells)
  | .takeError d => return (.ofError (cells.get d).takeError, cells)
  | .valueOr d a => do
      let fallback ← Storage.raw.construct a
      let copy ← (cells.get d).valueOr fallback
      let value ← copy.read
      let _ ← copy.destroy
      let _ ← fallback.destroy
      return (.value value, cells)
  | .isOk d => return (.truth (cells.get d).isOk, cells)
  | .transformError d f => do
      let t ← (cells.get d).transformError f
      let outcome ← t.value
      let _ ← t.vacate
      return (.outcome outcome, cells)

end KernelCore.ResultCell

namespace KernelCore.VoidResult

inductive Operation (ε γ : Type) (n : Nat) where
  | succeed (d : Fin n)
  | fail (d : Fin n) (e : ε)
  | copy (d x : Fin n)
  | takeError (d : Fin n)
  | isOk (d : Fin n)
  | transformError (d : Fin n) (f : ε → γ)

variable {α ε γ : Type} {n : Nat}

def step (cells : Vector (Except ε Unit) n) :
    Operation ε γ n → CellReply α ε γ × Vector (Except ε Unit) n
  | .succeed d => (.nothing, cells.set d (.ok ()) d.isLt)
  | .fail d e => (.nothing, cells.set d (.error e) d.isLt)
  | .copy d x => (.nothing, cells.set d (cells.get x) d.isLt)
  | .takeError d =>
      match cells.get d with
      | .ok () => (.panicked .errorOfSuccess, cells)
      | .error e => (.error e, cells)
  | .isOk d => (.truth (cells.get d).toOption.isSome, cells)
  | .transformError d f => (.voidOutcome ((cells.get d).mapError f), cells)

end KernelCore.VoidResult
