import KernelCore.Proofs.Word.Rounding
import Mathlib.Order.Bounds.Basic

/-! # Nearest multiples

Rounding down finds the greatest multiple of a power of two that is not above a word, and rounding up the
least one that is not below it. Rounding up is refused only where that multiple does not fit in a word; the
unchecked form wraps around to 0 there.
-/

namespace KernelCore.Word

variable {x y a : UInt64}

theorem isGreatest_sub_mod (n d : Nat) : IsGreatest {m | d ∣ m ∧ m ≤ n} (n - n % d) := by
  refine ⟨⟨Nat.dvd_sub_mod n, Nat.sub_le n _⟩, ?_⟩
  rintro m ⟨hd, hm⟩
  calc
    m = m / d * d := (Nat.div_mul_cancel hd).symm
    _ ≤ n / d * d := Nat.mul_le_mul_right d (Nat.div_le_div_right hm)
    _ = n - n % d := Nat.div_mul_self_eq_mod_sub_self

theorem isLeast_add_sub_mod (n : Nat) {d : Nat} (hd : 0 < d) :
    IsLeast {m | d ∣ m ∧ n ≤ m} (n + (d - 1) - (n + (d - 1)) % d) := by
  have hrest := Nat.mod_lt (n + (d - 1)) hd
  refine ⟨⟨Nat.dvd_sub_mod _, by omega⟩, ?_⟩
  rintro m ⟨hm, hn⟩
  obtain ⟨k, rfl⟩ := hm
  have hlt : n + (d - 1) < (k + 1) * d := by
    rw [Nat.add_mul, Nat.one_mul, Nat.mul_comm k]
    omega
  rw [← Nat.div_mul_self_eq_mod_sub_self, Nat.mul_comm d]
  exact Nat.mul_le_mul_right d (Nat.le_of_lt_succ ((Nat.div_lt_iff_lt_mul hd).mpr hlt))

theorem isGreatest_alignDown (ha : isPowerOfTwo a = true) (x : UInt64) :
    IsGreatest {m | a.toNat ∣ m ∧ m ≤ x.toNat} (alignDown x a).toNat := by
  rw [toNat_alignDown ha]
  exact isGreatest_sub_mod _ _

theorem isLeast_alignUp? (ha : isPowerOfTwo a = true) (h : alignUp? x a = some y) :
    IsLeast {m | a.toNat ∣ m ∧ x.toNat ≤ m} y.toNat := by
  rw [toNat_alignUp? ha h]
  exact isLeast_add_sub_mod _ (toNat_pos_of_isPowerOfTwo ha)

theorem two_pow_le_of_alignUp? (ha : isPowerOfTwo a = true) (h : alignUp? x a = none) {m : Nat}
    (hd : a.toNat ∣ m) (hx : x.toNat ≤ m) : 2 ^ 64 ≤ m := by
  by_contra hm
  have hpos := toNat_pos_of_isPowerOfTwo ha
  -- The words end at a multiple, so the next one after `m` still ends inside them.
  have hnext : m + a.toNat ≤ 2 ^ 64 := by
    obtain ⟨i, rfl⟩ := hd
    obtain ⟨j, hj⟩ := dvd_two_pow ha
    rw [hj] at hm ⊢
    have hij : i < j := Nat.lt_of_mul_lt_mul_left (Nat.not_le.mp hm)
    exact Nat.mul_le_mul_left a.toNat (Nat.succ_le_of_lt hij)
  obtain ⟨y, hy⟩ := exists_alignUp? (x := x) ha (by omega)
  rw [h] at hy
  cases hy

theorem isLeast_alignUp (ha : isPowerOfTwo a = true) (x : UInt64) :
    ∃ m, IsLeast {m | a.toNat ∣ m ∧ x.toNat ≤ m} m ∧ (alignUp x a).toNat = m % 2 ^ 64 :=
  ⟨_, isLeast_add_sub_mod x.toNat (toNat_pos_of_isPowerOfTwo ha), toNat_alignUp_eq_mod ha x⟩

theorem alignUp?_eq_some_iff (ha : isPowerOfTwo a = true) {m : Nat}
    (hm : IsLeast {m | a.toNat ∣ m ∧ x.toNat ≤ m} m) : alignUp? x a = some y ↔ y.toNat = m := by
  constructor
  · intro h
    exact (isLeast_alignUp? ha h).unique hm
  · intro h
    cases hr : alignUp? x a with
    | none =>
      have hlarge := two_pow_le_of_alignUp? ha hr hm.1.1 hm.1.2
      have hsmall := y.toNat_lt
      omega
    | some z =>
      have hz := (isLeast_alignUp? ha hr).unique hm
      rw [UInt64.toNat_inj.mp (hz.trans h.symm)]

theorem alignUp?_eq_none_iff (ha : isPowerOfTwo a = true) {m : Nat}
    (hm : IsLeast {m | a.toNat ∣ m ∧ x.toNat ≤ m} m) : alignUp? x a = none ↔ m = 2 ^ 64 := by
  constructor
  · intro h
    have hend : m ≤ 2 ^ 64 := hm.2 ⟨dvd_two_pow ha, Nat.le_of_lt x.toNat_lt⟩
    exact Nat.le_antisymm hend (two_pow_le_of_alignUp? ha h hm.1.1 hm.1.2)
  · intro h
    refine Option.eq_none_iff_forall_ne_some.mpr fun y hy => ?_
    exact Nat.ne_of_lt y.toNat_lt (((alignUp?_eq_some_iff ha hm).mp hy).trans h)

/-- Rounding finds the nearest multiples, and the checked form is refused where there is none. -/
theorem rounding_exact (x a : UInt64) :
    (isPowerOfTwo a = true ↔ ∃ k, a.toNat = 2 ^ k) ∧
      (isPowerOfTwo a = true →
        IsGreatest {m | a.toNat ∣ m ∧ m ≤ x.toNat} (alignDown x a).toNat ∧
          (isAligned x a = true ↔ a.toNat ∣ x.toNat) ∧
          ∃ m, IsLeast {m | a.toNat ∣ m ∧ x.toNat ≤ m} m ∧ (alignUp? x a = none ↔ m = 2 ^ 64) ∧
            (∀ y, alignUp? x a = some y ↔ y.toNat = m) ∧ (alignUp x a).toNat = m % 2 ^ 64) := by
  refine ⟨isPowerOfTwo_iff_toNat, fun ha => ⟨isGreatest_alignDown ha x, ?_, ?_⟩⟩
  · rw [isAligned_iff_toNat ha, Nat.dvd_iff_mod_eq_zero]
  · obtain ⟨m, hm, hup⟩ := isLeast_alignUp ha x
    exact ⟨m, hm, alignUp?_eq_none_iff ha hm, fun y => alignUp?_eq_some_iff ha hm, hup⟩

/-- The word after the last multiple of the greatest alignment: the next is no word. -/
theorem rounding_exact_greatest_alignment :
    isPowerOfTwo 0x8000000000000000 = true ∧
      IsGreatest {m | 2 ^ 63 ∣ m ∧ m ≤ 2 ^ 63 + 1} (2 ^ 63) ∧
      IsLeast {m | 2 ^ 63 ∣ m ∧ 2 ^ 63 + 1 ≤ m} (2 ^ 64) ∧
      alignUp? 0x8000000000000001 0x8000000000000000 = none ∧
      alignUp 0x8000000000000001 0x8000000000000000 = 0 := by
  have ha : isPowerOfTwo 0x8000000000000000 = true := by decide
  have hrefused : alignUp? 0x8000000000000001 0x8000000000000000 = none := by decide
  obtain ⟨hdown, -, m, hm, hnone, -⟩ := (rounding_exact 0x8000000000000001 0x8000000000000000).2 ha
  exact ⟨ha, hdown, hnone.mp hrefused ▸ hm, hrefused, by decide⟩

end KernelCore.Word
