import KernelCore.Word.Align

/-! # Address ranges

Half-open ranges of addresses. A range may be inverted, and a range given by its start and size
may wrap around; its size is then the wrapped difference of its ends. A span covers another when
that one starts and ends inside it, told without any sum that could wrap.
-/

namespace KernelCore

structure Range where
  start : Address
  stop : Address
  deriving DecidableEq, Repr

namespace Range

def ofStartSize (start : Address) (size : UInt64) : Range := ⟨start, start + size⟩

def size (r : Range) : UInt64 := r.stop - r.start

def contains (r : Range) (a : Address) : Bool := r.start ≤ a && a < r.stop

def inverted (r : Range) : Bool := r.stop < r.start

/-- A range that is not inverted stops at its start plus its size. -/
theorem add?_start_size {r : Range} (h : r.start ≤ r.stop) :
    Word.add? r.start r.size = some r.stop := by
  rw [Word.add?_eq_some_iff, Range.size, UInt64.toNat_sub_of_le _ _ h]
  have := UInt64.le_iff_toNat_le.mp h
  omega

theorem contains_eq_true_iff {r : Range} {a : Address} :
    r.contains a = true ↔ r.start ≤ a ∧ a < r.stop := by
  simp [contains]

end Range

namespace Span

/-- Whether the `size` bytes from `base` on cover the `length` bytes from `a` on. An empty span may
lie at the very end. -/
def covers (base : Address) (size : UInt64) (a : Address) (length : UInt64) : Bool :=
  base ≤ a && a - base ≤ size && length ≤ size - (a - base)

theorem covers_eq_true_iff {base a : Address} {size length : UInt64} :
    covers base size a length = true ↔
      base.toNat ≤ a.toNat ∧ a.toNat + length.toNat ≤ base.toNat + size.toNat := by
  simp only [covers, Bool.and_eq_true, decide_eq_true_eq, UInt64.le_iff_toNat_le]
  constructor
  · rintro ⟨⟨h₁, h₂⟩, h₃⟩
    rw [UInt64.toNat_sub_of_le _ _ (UInt64.le_iff_toNat_le.mpr h₁)] at h₂
    rw [UInt64.toNat_sub_of_le _ _ (UInt64.le_iff_toNat_le.mpr (by
      rwa [UInt64.toNat_sub_of_le _ _ (UInt64.le_iff_toNat_le.mpr h₁)])),
      UInt64.toNat_sub_of_le _ _ (UInt64.le_iff_toNat_le.mpr h₁)] at h₃
    omega
  · rintro ⟨h₁, h₂⟩
    have hd := UInt64.toNat_sub_of_le _ _ (UInt64.le_iff_toNat_le.mpr h₁)
    have hs : (a - base).toNat ≤ size.toNat := by omega
    refine ⟨⟨h₁, hs⟩, ?_⟩
    rw [UInt64.toNat_sub_of_le _ _ (UInt64.le_iff_toNat_le.mpr hs)]
    omega

end Span

end KernelCore
