import KernelCore.Memory.Bytes

/-! # Checksums of stored bytes

The 64-bit FNV-1a checksum of the first bytes of a store. Zero bytes only multiply, so the bytes that a
store does not keep are multiplied in without being looked at.
-/

namespace KernelCore.ByteStore

def fnvOffset : UInt64 := 0xcbf29ce484222325

def fnvPrime : UInt64 := 0x100000001b3

def fnvStep (h : UInt64) (b : UInt8) : UInt64 := (h ^^^ b.toUInt64) * fnvPrime

def fnvZeros (h : UInt64) : Nat → UInt64
  | 0 => h
  | n + 1 => fnvZeros (h * fnvPrime) n

def checksum (s : ByteStore) (length : Nat) : UInt64 :=
  let front := s.kept.extract 0 length
  fnvZeros (front.foldl fnvStep fnvOffset) (length - front.size)

theorem fnvZeros_eq_foldl (h : UInt64) (n : Nat) :
    fnvZeros h n = (List.replicate n 0).foldl fnvStep h := by
  induction n generalizing h with
  | zero => rfl
  | succ n ih => simp [fnvZeros, ih, List.replicate_succ, fnvStep]

end KernelCore.ByteStore
