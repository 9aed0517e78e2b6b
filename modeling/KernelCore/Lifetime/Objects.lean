import KernelCore.Lifetime.Optional.Operation
import KernelCore.Lifetime.Result.Operation

/-! # Collections of cells

Any number of optional cells, result cells and results without a value, and all that can be done to
them. New cells may be built and cells may end. The objects in existence between operations are those
that the cells hold.
-/

namespace KernelCore

structure Objects (α ε : Type) (n m k : Nat) where
  optionals : Vector (OptionalCell α) n
  results : Vector (ResultCell α ε) m
  voids : Vector (Except ε Unit) k

namespace Objects

variable {α ε γ : Type} {n m k : Nat}

/-- A row of result cells that hold a value. -/
def row (a : α) : (m : Nat) → Life (Vector (ResultCell α ε) m)
  | 0 => return #v[]
  | m + 1 => return (← row a m).push (← ResultCell.ofCopy a)

/-- Empty optionals and results that hold a value. -/
def initial (a : α) : Life (Objects α ε n m k) :=
  return ⟨Vector.replicate n .null, ← row a m, Vector.replicate k (.ok ())⟩

inductive Operation (α ε γ : Type) (n m k : Nat) where
  | optional (op : OptionalCell.Operation α n)
  | result (op : ResultCell.Operation α ε γ m)
  | void (op : VoidResult.Operation ε γ k)

def step [Movable α] [DecidableEq α] (s : Objects α ε n m k) :
    Operation α ε γ n m k → Life (CellReply α ε γ × Objects α ε n m k)
  | .optional op => do
      let (r, cells) ← OptionalCell.step s.optionals op
      return (r, { s with optionals := cells })
  | .result op => do
      let (r, cells) ← ResultCell.step s.results op
      return (r, { s with results := cells })
  | .void op =>
      let (r, cells) := VoidResult.step s.voids op
      return (r, { s with voids := cells })

/-- What was done to cells that come and go, from the first rows to the last. -/
inductive History (α ε γ : Type) (n₀ m₀ k : Nat) : Nat → Nat → Type where
  | start : History α ε γ n₀ m₀ k n₀ m₀
  | act {n m : Nat} (h : History α ε γ n₀ m₀ k n m) (op : Operation α ε γ n m k) :
      History α ε γ n₀ m₀ k n m
  | newOptional {n m : Nat} (h : History α ε γ n₀ m₀ k n m) (source : OptionalCell.Source α n) :
      History α ε γ n₀ m₀ k (n + 1) m
  | endOptional {n m : Nat} (h : History α ε γ n₀ m₀ k (n + 1) m) (x : Fin (n + 1)) :
      History α ε γ n₀ m₀ k n m
  | newResult {n m : Nat} (h : History α ε γ n₀ m₀ k n m) (source : ResultCell.Source α ε m) :
      History α ε γ n₀ m₀ k n (m + 1)
  | endResult {n m : Nat} (h : History α ε γ n₀ m₀ k n (m + 1)) (x : Fin (m + 1)) :
      History α ε γ n₀ m₀ k n m

/-- The replies in a history and the cells after it. -/
def run [Movable α] [DecidableEq α] {n₀ m₀ : Nat} (a : α) : {n m : Nat} →
    History α ε γ n₀ m₀ k n m → Life (List (CellReply α ε γ) × Objects α ε n m k)
  | _, _, .start => return ([], ← initial a)
  | _, _, .act h op => do
      let (replies, s) ← run a h
      let (r, s) ← s.step op
      return (replies ++ [r], s)
  | _, _, .newOptional h source => do
      let (replies, s) ← run a h
      return (replies, ⟨← OptionalCell.build s.optionals source, s.results, s.voids⟩)
  | _, _, .endOptional h x => do
      let (replies, s) ← run a h
      return (replies, ⟨← OptionalCell.discard s.optionals x, s.results, s.voids⟩)
  | _, _, .newResult h source => do
      let (replies, s) ← run a h
      return (replies, ⟨s.optionals, ← ResultCell.build s.results source, s.voids⟩)
  | _, _, .endResult h x => do
      let (replies, s) ← run a h
      return (replies, ⟨s.optionals, ← ResultCell.discard s.results x, s.voids⟩)

/-- How many cells hold an object. -/
def occupied (s : Objects α ε n m k) : Nat :=
  s.optionals.toList.countP (·.occupied) + s.results.toList.countP (·.isOk)

end Objects

end KernelCore
