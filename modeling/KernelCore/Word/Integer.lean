/-! # Machine integers

The eight fixed-width integers that can be written out, each with its size in bytes and the
values that it holds. A signed integer reads the low bits of a word as two's complement.
-/

namespace KernelCore

inductive IntegerType where
  | u8 | u16 | u32 | u64 | i8 | i16 | i32 | i64
  deriving DecidableEq, Repr

namespace IntegerType

def bytes : IntegerType → Nat
  | u8 | i8 => 1
  | u16 | i16 => 2
  | u32 | i32 => 4
  | u64 | i64 => 8

def count : IntegerType → Nat
  | u8 | i8 => UInt8.size
  | u16 | i16 => UInt16.size
  | u32 | i32 => UInt32.size
  | u64 | i64 => UInt64.size

def signed : IntegerType → Bool
  | u8 | u16 | u32 | u64 => false
  | i8 | i16 | i32 | i64 => true

/-- The integers that a type holds. -/
def Holds (t : IntegerType) (z : Int) : Prop :=
  if t.signed then -(t.count / 2 : Int) ≤ z ∧ z < t.count / 2 else 0 ≤ z ∧ z < t.count

/-- The value of the low bits of a word. -/
def read (t : IntegerType) (w : UInt64) : Int :=
  if t.signed then (w.toNat : Int).bmod t.count else (w.toNat : Int) % t.count

theorem holds_read (t : IntegerType) (w : UInt64) : t.Holds (t.read w) := by
  have low : ∀ n : Nat, 0 < n → -(n / 2 : Int) ≤ (w.toNat : Int).bmod n := fun _ => Int.le_bmod
  have high : ∀ n : Nat, 0 < n → (w.toNat : Int).bmod n < (n + 1) / 2 := fun _ => Int.bmod_lt
  have l8 := low UInt8.size (by decide)
  have l16 := low UInt16.size (by decide)
  have l32 := low UInt32.size (by decide)
  have l64 := low UInt64.size (by decide)
  have h8 := high UInt8.size (by decide)
  have h16 := high UInt16.size (by decide)
  have h32 := high UInt32.size (by decide)
  have h64 := high UInt64.size (by decide)
  cases t <;> simp only [Holds, read, signed, count] <;> simp at * <;> omega

end IntegerType

end KernelCore
