/-! # Aligned words

Rounding of 64-bit words to a multiple of an alignment, and sums and products that notice when
they do not fit. Rounding clears the low bits of an address, so the formulas also have a value
for alignments that are not powers of two; only for powers of two is that value a multiple.
-/

namespace KernelCore

/-- A place in the 64-bit address space. Sums of addresses and sizes wrap around. -/
abbrev Address := UInt64

namespace Word

def isPowerOfTwo (x : UInt64) : Bool := x != 0 && x &&& (x - 1) == 0

def alignDown (x a : UInt64) : UInt64 := x &&& ~~~(a - 1)

/-- Wraps around to 0 when the next multiple does not fit. -/
def alignUp (x a : UInt64) : UInt64 := alignDown (x + a - 1) a

def isAligned (x a : UInt64) : Bool := x &&& (a - 1) == 0

/-- The sum, unless it does not fit in a word. -/
def add? (x y : UInt64) : Option UInt64 :=
  if x.toNat + y.toNat < UInt64.size then some (x + y) else none

/-- The product, unless it does not fit in a word. -/
def mul? (x y : UInt64) : Option UInt64 :=
  if x.toNat * y.toNat < UInt64.size then some (x * y) else none

/-- Rounds up to a multiple of `a`, unless adding `a - 1` does not fit in a word. -/
def alignUp? (x a : UInt64) : Option UInt64 := (add? x (a - 1)).map (alignDown · a)

theorem add?_eq_some_iff {x y z : UInt64} :
    add? x y = some z ↔ x.toNat + y.toNat = z.toNat := by
  unfold add?
  have hz : z.toNat < UInt64.size := z.toNat_lt
  split
  · rename_i h
    simp only [Option.some.injEq, ← UInt64.toNat_inj, UInt64.toNat_add,
      Nat.mod_eq_of_lt (show x.toNat + y.toNat < 2 ^ 64 from h)]
  · simp only [reduceCtorEq, false_iff]; omega

theorem add?_eq_none_iff {x y : UInt64} : add? x y = none ↔ UInt64.size ≤ x.toNat + y.toNat := by
  unfold add?
  split <;> simp_all

theorem mul?_eq_some_iff {x y z : UInt64} :
    mul? x y = some z ↔ x.toNat * y.toNat = z.toNat := by
  unfold mul?
  have hz : z.toNat < UInt64.size := z.toNat_lt
  split
  · rename_i h
    simp only [Option.some.injEq, ← UInt64.toNat_inj, UInt64.toNat_mul,
      Nat.mod_eq_of_lt (show x.toNat * y.toNat < 2 ^ 64 from h)]
  · simp only [reduceCtorEq, false_iff]; omega

theorem mul?_eq_none_iff {x y : UInt64} : mul? x y = none ↔ UInt64.size ≤ x.toNat * y.toNat := by
  unfold mul?
  split <;> simp_all

theorem isPowerOfTwo_eq_true_iff {x : UInt64} :
    isPowerOfTwo x = true ↔ x ≠ 0 ∧ x &&& (x - 1) = 0 := by
  simp [isPowerOfTwo]

theorem isAligned_eq_true_iff {x a : UInt64} : isAligned x a = true ↔ x &&& (a - 1) = 0 := by
  simp [isAligned]

theorem alignDown_le (x a : UInt64) : alignDown x a ≤ x := by
  rw [UInt64.le_iff_toNat_le, alignDown, UInt64.toNat_and]
  exact Nat.and_le_left

end Word

end KernelCore
