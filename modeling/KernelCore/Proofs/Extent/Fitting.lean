import KernelCore.Proofs.Extent.Zone
import KernelCore.Proofs.Word.Nearest

/-! # What fits between the cursors

An extent hands something out whenever there is a place for it: bytes at the lowest place between the
cursors, pages at the highest one. Sums and products that do not fit in a word never turn away a request
that there is room for, and never let one pass that there is no room for.
-/

namespace KernelCore.Extent

open Word

variable {pageSize : UInt64} {e e' : Extent pageSize} {a : Address} {p : Nat}

/-- The multiples of an alignment from which on so many bytes lie between the cursors. -/
def places (e : Extent pageSize) (align length : Nat) : Set Nat :=
  {p | align ∣ p ∧ e.byteCursor.toNat ≤ p ∧ p + length ≤ e.pageCursor.toNat}

theorem exists_alloc {bytes align : UInt64} (halign : isPowerOfTwo align = true)
    (hp : p ∈ e.places align.toNat bytes.toNat) : ∃ a e', e.alloc bytes align = .ok (a, e') := by
  obtain ⟨hdvd, hlow, hstop⟩ := hp
  have hword := e.pageCursor.toNat_lt
  cases hfirst : alignUp? e.byteCursor align with
  | none =>
    have hlarge := two_pow_le_of_alignUp? halign hfirst hdvd hlow
    omega
  | some first =>
    have hle : first.toNat ≤ p := (isLeast_alignUp? halign hfirst).2 ⟨hdvd, hlow⟩
    cases hnext : add? first bytes with
    | none =>
      have hlarge : 2 ^ 64 ≤ first.toNat + bytes.toNat := add?_eq_none_iff.mp hnext
      omega
    | some next =>
      have hsum := add?_eq_some_iff.mp hnext
      have hroom : ¬ e.pageCursor < next := by
        rw [UInt64.lt_iff_toNat_lt]
        omega
      refine ⟨first, { e with byteCursor := next, live := e.live + 1 }, ?_⟩
      simp only [alloc, halign, hfirst, hnext, hroom, if_true, if_false]

theorem isLeast_of_alloc {bytes align : UInt64} (h : e.alloc bytes align = .ok (a, e')) :
    IsLeast (e.places align.toNat bytes.toNat) a.toNat := by
  obtain ⟨halign, hfirst, next, hnext, hle, -⟩ := alloc_eq_ok h
  obtain ⟨⟨hdvd, hlow⟩, hleast⟩ := isLeast_alignUp? halign hfirst
  have hsum := add?_eq_some_iff.mp hnext
  refine ⟨⟨hdvd, hlow, hsum ▸ UInt64.le_iff_toNat_le.mp hle⟩, ?_⟩
  rintro p ⟨hp, hlow', -⟩
  exact hleast ⟨hp, hlow'⟩

/-- An allocation succeeds exactly when there is a place, and takes the lowest. -/
theorem alloc_takes_lowest (pageSize : UInt64) (ops : List Operation) (bytes : UInt64)
    {align : UInt64} (halign : align.toNat.isPowerOfTwo) :
    let e := (empty : Extent pageSize).run ops
    ((∃ a e', e.alloc bytes align = .ok (a, e')) ↔ (e.places align.toNat bytes.toNat).Nonempty) ∧
      ∀ a e', e.alloc bytes align = .ok (a, e') →
        IsLeast (e.places align.toNat bytes.toNat) a.toNat ∧
          ∃ next : Address, next.toNat = a.toNat + bytes.toNat ∧
            e' = { e with byteCursor := next, live := e.live + 1 } := by
  intro e
  refine ⟨⟨?_, ?_⟩, fun a e' h => ⟨isLeast_of_alloc h, ?_⟩⟩
  · rintro ⟨a, e', h⟩
    exact ⟨a.toNat, (isLeast_of_alloc h).1⟩
  · rintro ⟨p, hp⟩
    exact exists_alloc (isPowerOfTwo_iff_toNat.mpr halign) hp
  · obtain ⟨next, -, hnext, -, he⟩ := alloc_bounds h
    exact ⟨next, hnext.symm, he⟩

/-- Room next to the end of the address space, but no multiple of the alignment in it. -/
theorem alloc_takes_lowest_near_end :
    let e : Extent 4096 := ⟨0xffffffffffff0000, 0xffff, 0xffffffffffff0064, 0xffffffffffffffff, 1⟩
    (empty : Extent 4096).run [.init 0xffffffffffff0000 0xffff, .alloc 100 8] = e ∧
      (4096 : UInt64).toNat.isPowerOfTwo ∧ (0x8000000000000000 : UInt64).toNat.isPowerOfTwo ∧
      IsLeast (e.places 4096 0xefff) 0xffffffffffff1000 ∧
      e.places 0x8000000000000000 16 = ∅ := by
  intro e
  have he : (empty : Extent 4096).run [.init 0xffffffffffff0000 0xffff, .alloc 100 8] = e := by
    decide +kernel
  have hsmall : (4096 : UInt64).toNat.isPowerOfTwo := ⟨12, rfl⟩
  have hlarge : (0x8000000000000000 : UInt64).toNat.isPowerOfTwo := ⟨63, rfl⟩
  obtain ⟨-, hplaced⟩ := alloc_takes_lowest 4096 _ 0xefff hsmall
  obtain ⟨hiff, -⟩ := alloc_takes_lowest 4096 _ 16 hlarge
  rw [he] at hplaced hiff
  have hok : e.alloc 0xefff 4096 = .ok (0xffffffffffff1000,
      { e with byteCursor := 0xffffffffffffffff, live := 2 }) := by decide +kernel
  have hrefused : e.alloc 16 0x8000000000000000 = .error .noMemory := by decide +kernel
  exact ⟨he, hsmall, hlarge, (hplaced _ _ hok).1,
    Set.not_nonempty_iff_eq_empty.mp (mt hiff.mpr (by simp [hrefused]))⟩

theorem Zoned.exists_allocPages {count align : UInt64} (hz : e.Zoned)
    (halign : isPowerOfTwo align = true)
    (hp : p ∈ e.places align.toNat (count.toNat * pageSize.toNat)) :
    ∃ a e', e.allocPages count align = .ok (a, e') := by
  obtain ⟨hdvd, hlow, hstop⟩ := hp
  have hword := e.pageCursor.toNat_lt
  -- A place leaves room for the rounding: rounding down does not go below it.
  cases hrequired : mul? count pageSize with
  | none =>
    have hlarge : 2 ^ 64 ≤ count.toNat * pageSize.toNat := mul?_eq_none_iff.mp hrequired
    omega
  | some required =>
    have hproduct := mul?_eq_some_iff.mp hrequired
    have hroom : ¬ e.pageCursor - e.byteCursor < required := by
      rw [UInt64.lt_iff_toNat_lt, UInt64.toNat_sub_of_le _ _ (UInt64.le_iff_toNat_le.mpr hz.byte_le)]
      omega
    have hsub : (e.pageCursor - required).toNat = e.pageCursor.toNat - required.toNat :=
      UInt64.toNat_sub_of_le _ _ (UInt64.le_iff_toNat_le.mpr (by omega))
    have hle : p ≤ (alignDown (e.pageCursor - required) align).toNat :=
      (isGreatest_alignDown halign _).2 ⟨hdvd, by omega⟩
    have hfirst : ¬ alignDown (e.pageCursor - required) align < e.byteCursor := by
      rw [UInt64.lt_iff_toNat_lt]
      omega
    refine ⟨alignDown (e.pageCursor - required) align,
      { e with pageCursor := alignDown (e.pageCursor - required) align }, ?_⟩
    simp only [Extent.allocPages, halign, hrequired, hroom, hfirst, if_true, if_false]

theorem Zoned.isGreatest_of_allocPages {count align : UInt64} (hz : e.Zoned)
    (h : e.allocPages count align = .ok (a, e')) :
    IsGreatest (e.places align.toNat (count.toNat * pageSize.toNat)) a.toNat := by
  obtain ⟨hlow, hstop, -⟩ := hz.allocPages_bounds h
  obtain ⟨halign, required, hrequired, hroom, ha, -, -⟩ := allocPages_eq_ok h
  have hproduct := mul?_eq_some_iff.mp hrequired
  have hsub : (e.pageCursor - required).toNat = e.pageCursor.toNat - required.toNat :=
    UInt64.toNat_sub_of_le _ _ (UInt64.le_iff_toNat_le.mpr (by omega))
  obtain ⟨⟨hdvd, -⟩, hgreatest⟩ := isGreatest_alignDown halign (e.pageCursor - required)
  rw [← ha] at hdvd hgreatest
  refine ⟨⟨hdvd, hlow, hstop⟩, ?_⟩
  rintro p ⟨hp, -, hstop'⟩
  exact hgreatest ⟨hp, by omega⟩

/-- Pages are handed out exactly when there is a place, and take the highest. -/
theorem allocPages_takes_highest (pageSize : UInt64) (ops : List Operation) (count : UInt64)
    {align : UInt64} (halign : align.toNat.isPowerOfTwo) :
    let e := (empty : Extent pageSize).run ops
    ((∃ a e', e.allocPages count align = .ok (a, e')) ↔
        (e.places align.toNat (count.toNat * pageSize.toNat)).Nonempty) ∧
      ∀ a e', e.allocPages count align = .ok (a, e') →
        IsGreatest (e.places align.toNat (count.toNat * pageSize.toNat)) a.toNat ∧
          e' = { e with pageCursor := a } := by
  intro e
  have hz : e.Zoned := zoned_empty.run ops
  refine ⟨⟨?_, ?_⟩, fun a e' h => ⟨hz.isGreatest_of_allocPages h, (hz.allocPages_bounds h).2.2⟩⟩
  · rintro ⟨a, e', h⟩
    exact ⟨a.toNat, (hz.isGreatest_of_allocPages h).1⟩
  · rintro ⟨p, hp⟩
    exact hz.exists_allocPages (isPowerOfTwo_iff_toNat.mpr halign) hp

/-- Room for 14 pages, but not at a multiple of four, nor for a count that wraps. -/
theorem allocPages_takes_highest_above_bytes :
    let e : Extent 4096 := ⟨0x100000, 0x10000, 0x101800, 0x110000, 1⟩
    (empty : Extent 4096).run [.init 0x100000 0x10000, .alloc 0x1800 1] = e ∧
      (0x1000 : UInt64).toNat.isPowerOfTwo ∧ (0x4000 : UInt64).toNat.isPowerOfTwo ∧
      IsGreatest (e.places 0x1000 (14 * 0x1000)) 0x102000 ∧
      e.places 0x4000 (14 * 0x1000) = ∅ ∧
      e.places 0x1000 (0x10000000000000 * 0x1000) = ∅ := by
  intro e
  have he : (empty : Extent 4096).run [.init 0x100000 0x10000, .alloc 0x1800 1] = e := by
    decide +kernel
  have hpage : (0x1000 : UInt64).toNat.isPowerOfTwo := ⟨12, rfl⟩
  have hfour : (0x4000 : UInt64).toNat.isPowerOfTwo := ⟨14, rfl⟩
  obtain ⟨-, hplaced⟩ := allocPages_takes_highest 4096 _ 14 hpage
  obtain ⟨hiff, -⟩ := allocPages_takes_highest 4096 _ 14 hfour
  obtain ⟨hiff', -⟩ := allocPages_takes_highest 4096 _ 0x10000000000000 hpage
  rw [he] at hplaced hiff hiff'
  have hok : e.allocPages 14 0x1000 = .ok (0x102000, { e with pageCursor := 0x102000 }) := by
    decide +kernel
  have hcrossing : e.allocPages 14 0x4000 = .error .noMemory := by decide +kernel
  have hwrapping : e.allocPages 0x10000000000000 0x1000 = .error .noMemory := by decide +kernel
  exact ⟨he, hpage, hfour, (hplaced _ _ hok).1,
    Set.not_nonempty_iff_eq_empty.mp (mt hiff.mpr (by simp [hcrossing])),
    Set.not_nonempty_iff_eq_empty.mp (mt hiff'.mpr (by simp [hwrapping]))⟩

end KernelCore.Extent
