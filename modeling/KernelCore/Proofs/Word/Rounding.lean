import KernelCore.Word.Align
import Mathlib.Algebra.Group.Nat.Defs

/-! # Rounding to powers of two

For an alignment that is a power of two, clearing the low bits takes away the remainder. Rounding
down then never goes up, and rounding up never goes down.
-/

namespace KernelCore.Word

variable {x y a : UInt64}

theorem toNat_add_of_lt (h : x.toNat + y.toNat < 2 ^ 64) : (x + y).toNat = x.toNat + y.toNat := by
  rw [UInt64.toNat_add, Nat.mod_eq_of_lt h]

theorem ne_zero_of_toNat_pos (h : 0 < x.toNat) : x ≠ 0 := by
  rintro rfl
  exact Nat.lt_irrefl 0 h

theorem isPowerOfTwo_iff_toNat : isPowerOfTwo x = true ↔ x.toNat.isPowerOfTwo := by
  rw [isPowerOfTwo_eq_true_iff, ← Nat.ne_zero_and_sub_one_eq_zero_iff_isPowerOfTwo]
  by_cases hx : x = 0
  · simp [hx]
  · have hn : x.toNat ≠ 0 := fun h => hx (UInt64.toNat_inj.mp h)
    have h1 : (1 : UInt64) ≤ x := UInt64.le_iff_toNat_le.mpr (Nat.one_le_iff_ne_zero.mpr hn)
    rw [← UInt64.toNat_inj, UInt64.toNat_and, UInt64.toNat_sub_of_le _ _ h1]
    simp [hx, hn]

theorem toNat_pos_of_isPowerOfTwo (ha : isPowerOfTwo a = true) : 0 < a.toNat :=
  Nat.pos_of_isPowerOfTwo (isPowerOfTwo_iff_toNat.mp ha)

theorem toNat_sub_one (ha : isPowerOfTwo a = true) : (a - 1).toNat = a.toNat - 1 :=
  UInt64.toNat_sub_of_le _ _ (UInt64.le_iff_toNat_le.mpr (toNat_pos_of_isPowerOfTwo ha))

/-- Clearing the low `k` bits takes away the remainder by `2 ^ k`. -/
theorem and_complement_two_pow {n k : Nat} (hn : n < 2 ^ 64) (hk : 2 ^ k ≤ 2 ^ 64) :
    n &&& (2 ^ 64 - (2 ^ k - 1 + 1)) = n - n % 2 ^ k := by
  have hd : n - n % 2 ^ k = 2 ^ k * (n / 2 ^ k) := by
    have := Nat.div_add_mod n (2 ^ k)
    omega
  have hm : 2 ^ k - 1 < 2 ^ 64 := by have := Nat.two_pow_pos k; omega
  apply Nat.eq_of_testBit_eq
  intro i
  rw [hd, Nat.testBit_and, Nat.testBit_two_pow_sub_succ hm, Nat.testBit_two_pow_sub_one,
    Nat.testBit_two_pow_mul, Nat.testBit_div_two_pow]
  by_cases hi : i < 64
  · by_cases hki : k ≤ i
    · simp [hi, hki]
    · simp [hki, Nat.lt_of_not_le hki]
  · have hf : n.testBit i = false :=
      Nat.testBit_lt_two_pow (Nat.lt_of_lt_of_le hn (Nat.pow_le_pow_right (by decide) (by omega)))
    by_cases hki : k ≤ i
    · simp [hf, hki]
    · simp [hf, hki]

theorem toNat_alignDown (ha : isPowerOfTwo a = true) (x : UInt64) :
    (alignDown x a).toNat = x.toNat - x.toNat % a.toNat := by
  obtain ⟨k, hk⟩ := isPowerOfTwo_iff_toNat.mp ha
  have hsize : UInt64.size = 2 ^ 64 := rfl
  have hc : UInt64.size - 1 - (2 ^ k - 1) = 2 ^ 64 - (2 ^ k - 1 + 1) := by omega
  rw [alignDown, UInt64.toNat_and, UInt64.toNat_not, toNat_sub_one ha, hk, hc]
  exact and_complement_two_pow x.toNat_lt (hk ▸ Nat.le_of_lt a.toNat_lt)

theorem isAligned_iff_toNat (ha : isPowerOfTwo a = true) :
    isAligned x a = true ↔ x.toNat % a.toNat = 0 := by
  obtain ⟨k, hk⟩ := isPowerOfTwo_iff_toNat.mp ha
  rw [isAligned_eq_true_iff, ← UInt64.toNat_inj, UInt64.toNat_and, toNat_sub_one ha, hk,
    Nat.and_two_pow_sub_one_eq_mod]
  rfl

theorem dvd_two_pow (ha : isPowerOfTwo a = true) : a.toNat ∣ 2 ^ 64 := by
  obtain ⟨k, hk⟩ := isPowerOfTwo_iff_toNat.mp ha
  have hlt : 2 ^ k < 2 ^ 64 := hk ▸ a.toNat_lt
  rw [hk]
  exact Nat.pow_dvd_pow 2 (Nat.le_of_lt ((Nat.pow_lt_pow_iff_right (by decide)).mp hlt))

/-- Taking away the remainder and dropping what does not fit commute. -/
theorem sub_mod_mod {d n : Nat} (h : d ∣ n) (hn : 0 < n) (s : Nat) :
    (s - s % d) % n = s % n - s % n % d := by
  have hrest : s % d ≤ s % n := Nat.mod_mod_of_dvd s h ▸ Nat.mod_le (s % n) d
  have hlt : s % n - s % d < n := by
    have := Nat.mod_lt s hn
    omega
  calc
    (s - s % d) % n = (n * (s / n) + (s % n - s % d)) % n := by
      congr 1
      have := Nat.div_add_mod s n
      omega
    _ = s % n - s % d := by rw [Nat.mul_add_mod, Nat.mod_eq_of_lt hlt]
    _ = s % n - s % n % d := by rw [Nat.mod_mod_of_dvd s h]

theorem toNat_alignUp_eq_mod (ha : isPowerOfTwo a = true) (x : UInt64) :
    (alignUp x a).toNat =
      (x.toNat + (a.toNat - 1) - (x.toNat + (a.toNat - 1)) % a.toNat) % 2 ^ 64 := by
  have hpos := toNat_pos_of_isPowerOfTwo ha
  have hsum : (x + a - 1).toNat = (x.toNat + (a.toNat - 1)) % 2 ^ 64 := by
    rw [UInt64.toNat_sub, UInt64.toNat_add, UInt64.toNat_one]
    omega
  rw [alignUp, toNat_alignDown ha, hsum, sub_mod_mod (dvd_two_pow ha) (by decide)]

theorem toNat_alignUp (ha : isPowerOfTwo a = true) (h : x.toNat + a.toNat ≤ 2 ^ 64) :
    (alignUp x a).toNat = x.toNat + (a.toNat - 1) - (x.toNat + (a.toNat - 1)) % a.toNat := by
  have hpos := toNat_pos_of_isPowerOfTwo ha
  rw [toNat_alignUp_eq_mod ha, Nat.mod_eq_of_lt (by omega)]

theorem toNat_alignUp? (ha : isPowerOfTwo a = true) (h : alignUp? x a = some y) :
    y.toNat = x.toNat + (a.toNat - 1) - (x.toNat + (a.toNat - 1)) % a.toNat := by
  obtain ⟨z, hz, rfl⟩ := Option.map_eq_some_iff.mp h
  rw [toNat_alignDown ha, ← add?_eq_some_iff.mp hz, toNat_sub_one ha]

theorem exists_alignUp? (ha : isPowerOfTwo a = true) (h : x.toNat + (a.toNat - 1) < 2 ^ 64) :
    ∃ y, alignUp? x a = some y := by
  rw [← toNat_sub_one ha] at h
  exact ⟨_, congrArg (Option.map (alignDown · a)) (add?_eq_some_iff.mpr (toNat_add_of_lt h).symm)⟩

theorem le_of_alignUp? (ha : isPowerOfTwo a = true) (h : alignUp? x a = some y) :
    x.toNat ≤ y.toNat := by
  have hm := Nat.mod_lt (x.toNat + (a.toNat - 1)) (toNat_pos_of_isPowerOfTwo ha)
  rw [toNat_alignUp? ha h]
  omega

end KernelCore.Word
