/-! # Object lifetimes

Storage is raw or holds one live object. Constructing needs raw storage and destroying needs a live
object; anything else is a misuse. A census counts both, so that the objects in existence are known at
every moment. Moving an object out leaves its storage live, with whatever value moving leaves behind.
-/

namespace KernelCore

inductive Storage (α : Type) where
  | raw
  | live (a : α)
  deriving DecidableEq, Repr

inductive Misuse where
  | constructedOverLive
  | destroyedRaw
  | readRaw
  deriving DecidableEq, Repr

structure Census where
  constructed : Nat
  destroyed : Nat
  deriving DecidableEq, Repr

namespace Census

def zero : Census := ⟨0, 0⟩

def alive (c : Census) : Nat := c.constructed - c.destroyed

end Census

/-- Work on objects, which may come to a misuse. -/
abbrev Life := StateT Census (Except Misuse)

/-- What is left in an object when its value is moved out. -/
class Movable (α : Type) where
  leftBehind : α → α

namespace Storage

variable {α : Type}

def isLive : Storage α → Bool
  | raw => false
  | live _ => true

def construct (s : Storage α) (a : α) : Life (Storage α) := do
  match s with
  | raw =>
      modify fun c => { c with constructed := c.constructed + 1 }
      return live a
  | live _ => throw .constructedOverLive

def destroy (s : Storage α) : Life (Storage α) := do
  match s with
  | raw => throw .destroyedRaw
  | live _ =>
      modify fun c => { c with destroyed := c.destroyed + 1 }
      return raw

def read (s : Storage α) : Life α := do
  match s with
  | raw => throw .readRaw
  | live a => return a

/-- Replaces the value of a live object. -/
def assign (s : Storage α) (a : α) : Life (Storage α) := do
  let _ ← s.read
  return live a

/-- The value of an object and the storage that it was moved out of. -/
def moveOut [Movable α] (s : Storage α) : Life (α × Storage α) := do
  let a ← s.read
  return (a, live (Movable.leftBehind a))

end Storage

end KernelCore
