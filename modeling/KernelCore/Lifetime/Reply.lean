import KernelCore.Panic

/-! # Replies

What an operation on cells comes to. A panic changes no cell.
-/

namespace KernelCore

inductive CellReply (α ε γ : Type) where
  | nothing
  | value (a : α)
  | optional (a : Option α)
  | truth (b : Bool)
  | error (e : ε)
  | outcome (r : Except γ α)
  | voidOutcome (r : Except γ Unit)
  | panicked (p : Panic)

namespace CellReply

variable {α ε γ : Type}

def ofValue : Except Panic α → CellReply α ε γ
  | .ok a => value a
  | .error p => panicked p

def ofError : Except Panic ε → CellReply α ε γ
  | .ok e => error e
  | .error p => panicked p

end CellReply

end KernelCore
