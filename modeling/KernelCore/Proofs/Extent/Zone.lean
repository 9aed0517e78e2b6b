import KernelCore.Memory.Extent.Operation
import KernelCore.Proofs.Word.Rounding

/-! # Zones of an extent

The byte zone and the page zone of an extent grow toward each other and never cross: the cursors
stay in order between the start and the ceiling, and the ceiling does not wrap around. What each
operation does to the cursors is stated in exact integers.
-/

namespace KernelCore.Extent

open Word

variable {pageSize : UInt64}

/-- The cursors are in order inside an extent that does not wrap around. -/
structure Zoned (e : Extent pageSize) : Prop where
  start_le : e.start.toNat ≤ e.byteCursor.toNat
  byte_le : e.byteCursor.toNat ≤ e.pageCursor.toNat
  page_le : e.pageCursor.toNat ≤ e.start.toNat + e.size.toNat
  fits : e.start.toNat + e.size.toNat < 2 ^ 64

variable {e e' : Extent pageSize} {a : Address}

theorem Zoned.toNat_ceiling (h : e.Zoned) :
    e.ceiling.toNat = e.start.toNat + e.size.toNat :=
  toNat_add_of_lt h.fits

theorem zoned_spanning {start : Address} {size : UInt64}
    (h : start.toNat + size.toNat < 2 ^ 64) : (spanning start size : Extent pageSize).Zoned where
  start_le := Nat.le_refl _
  byte_le := Nat.le_trans (Nat.le_add_right _ _) (Nat.le_of_eq (toNat_add_of_lt h).symm)
  page_le := Nat.le_of_eq (toNat_add_of_lt h)
  fits := h

theorem zoned_empty : (empty : Extent pageSize).Zoned :=
  ⟨Nat.le_refl _, Nat.le_refl _, Nat.zero_le _, Nat.two_pow_pos 64⟩

@[simp] theorem release_start : e.release.start = e.start := rfl

theorem release_byteCursor :
    e.release.byteCursor = if e.release.live = 0 then e.start else e.byteCursor := rfl

theorem toNat_live_release : e.release.live.toNat = e.live.toNat - 1 := by
  unfold release
  split
  · rename_i h
    rw [h]
    rfl
  · rename_i h
    have hn : e.live.toNat ≠ 0 := fun hn => h (UInt64.toNat_inj.mp hn)
    exact UInt64.toNat_sub_of_le _ _ (UInt64.le_iff_toNat_le.mpr (Nat.one_le_iff_ne_zero.mpr hn))

theorem toNat_live_add_one (h : e.live.toNat + 1 < 2 ^ 64) :
    (e.live + 1).toNat = e.live.toNat + 1 := by
  rw [UInt64.toNat_add, UInt64.toNat_one, Nat.mod_eq_of_lt h]

theorem alloc_bounds {bytes align : UInt64} (h : e.alloc bytes align = .ok (a, e')) :
    ∃ next : Address, e.byteCursor.toNat ≤ a.toNat ∧ a.toNat + bytes.toNat = next.toNat ∧
      next.toNat ≤ e.pageCursor.toNat ∧
      e' = { e with byteCursor := next, live := e.live + 1 } := by
  obtain ⟨hp, ha, next, hn, hle, he⟩ := alloc_eq_ok h
  exact ⟨next, le_of_alignUp? hp ha, add?_eq_some_iff.mp hn, UInt64.le_iff_toNat_le.mp hle, he⟩

theorem Zoned.allocPages_bounds {count align : UInt64} (hz : e.Zoned)
    (h : e.allocPages count align = .ok (a, e')) :
    e.byteCursor.toNat ≤ a.toNat ∧
      a.toNat + count.toNat * pageSize.toNat ≤ e.pageCursor.toNat ∧
      e' = { e with pageCursor := a } := by
  obtain ⟨-, required, hm, hr, ha, hb, he⟩ := allocPages_eq_ok h
  have hcur : e.byteCursor ≤ e.pageCursor := UInt64.le_iff_toNat_le.mpr hz.byte_le
  have hroom := UInt64.le_iff_toNat_le.mp hr
  rw [UInt64.toNat_sub_of_le _ _ hcur] at hroom
  have hreq : required ≤ e.pageCursor := UInt64.le_iff_toNat_le.mpr (by omega)
  have hdown := UInt64.le_iff_toNat_le.mp (alignDown_le (e.pageCursor - required) align)
  rw [← ha, UInt64.toNat_sub_of_le _ _ hreq] at hdown
  refine ⟨UInt64.le_iff_toNat_le.mp hb, ?_, he⟩
  rw [mul?_eq_some_iff.mp hm]
  omega

theorem Zoned.toNat_blockEnd (hz : e.Zoned) (first : Address) (count : UInt64) :
    (e.blockEnd first count).toNat =
      min (first.toNat + count.toNat * pageSize.toNat) (e.start.toNat + e.size.toNat) := by
  have hc := hz.toNat_ceiling
  have hfits := hz.fits
  unfold blockEnd
  cases hm : mul? count pageSize with
  | none =>
    have : 2 ^ 64 ≤ count.toNat * pageSize.toNat := mul?_eq_none_iff.mp hm
    rw [Option.bind_none, hc]
    omega
  | some released =>
    have hreleased := mul?_eq_some_iff.mp hm
    rw [Option.bind_some]
    cases ha : add? first released with
    | none =>
      have : 2 ^ 64 ≤ first.toNat + released.toNat := add?_eq_none_iff.mp ha
      rw [hc]
      omega
    | some stop =>
      have := add?_eq_some_iff.mp ha
      dsimp only
      split
      · have := UInt64.lt_iff_toNat_lt.mp ‹e.ceiling < stop›
        omega
      · have := UInt64.le_iff_toNat_le.mp (UInt64.not_lt.mp ‹¬ e.ceiling < stop›)
        omega

theorem exists_freePages_eq (e : Extent pageSize) (first : Address) (count : UInt64) :
    ∃ c, e.freePages first count = { e with pageCursor := c } := by
  unfold Extent.freePages
  split
  · exact ⟨_, rfl⟩
  · exact ⟨e.pageCursor, rfl⟩

theorem Zoned.le_pageCursor_freePages (hz : e.Zoned) (first : Address) (count : UInt64) :
    e.pageCursor ≤ (e.freePages first count).pageCursor := by
  unfold Extent.freePages
  split
  · rename_i hf
    have hend := hz.toNat_blockEnd first count
    have hpage := hz.page_le
    have hfirst := congrArg UInt64.toNat hf
    rw [UInt64.le_iff_toNat_le]
    dsimp only
    omega
  · exact UInt64.le_refl _

theorem Zoned.movePages? {start : Address} {size : UInt64} (hz : e.Zoned)
    (h : e.movePages? start size = some e') : e'.Zoned := by
  obtain ⟨boundary, -, hc, hb, rfl⟩ := movePages?_eq_some_iff.mp h
  exact ⟨hz.start_le, UInt64.le_iff_toNat_le.mp hb,
    hz.toNat_ceiling ▸ UInt64.le_iff_toNat_le.mp hc, hz.fits⟩

theorem Zoned.alloc {bytes align : UInt64} (hz : e.Zoned)
    (h : e.alloc bytes align = .ok (a, e')) : e'.Zoned := by
  obtain ⟨next, hb, hn, hle, rfl⟩ := alloc_bounds h
  have := hz.start_le
  exact ⟨by dsimp only; omega, hle, hz.page_le, hz.fits⟩

theorem Zoned.release (hz : e.Zoned) : e.release.Zoned := by
  have hs := hz.start_le
  have hb := hz.byte_le
  have hc : e.release.byteCursor = e.start ∨ e.release.byteCursor = e.byteCursor := by
    rw [release_byteCursor]
    split
    · exact Or.inl rfl
    · exact Or.inr rfl
  rcases hc with hc | hc
  · exact ⟨hc ▸ Nat.le_refl _, hc ▸ Nat.le_trans hs hb, hz.page_le, hz.fits⟩
  · exact ⟨hc ▸ hs, hc ▸ hb, hz.page_le, hz.fits⟩

theorem Zoned.allocPages {count align : UInt64} (hz : e.Zoned)
    (h : e.allocPages count align = .ok (a, e')) : e'.Zoned := by
  obtain ⟨hb, hle, rfl⟩ := hz.allocPages_bounds h
  have := hz.page_le
  exact ⟨hz.start_le, hb, by dsimp only; omega, hz.fits⟩

theorem Zoned.freePages (hz : e.Zoned) (first : Address) (count : UInt64) :
    (e.freePages first count).Zoned := by
  unfold Extent.freePages
  split
  · rename_i hf
    have hend := hz.toNat_blockEnd first count
    have := hz.byte_le
    have := hz.page_le
    have := congrArg UInt64.toNat hf
    exact ⟨hz.start_le, by dsimp only; omega, by dsimp only; omega, hz.fits⟩
  · exact hz

theorem init?_eq_some_iff {start : Address} {size : UInt64} :
    (init? start size : Option (Extent pageSize)) = some e' ↔
      start.toNat + size.toNat < 2 ^ 64 ∧ e' = spanning start size := by
  unfold init?
  cases h : add? start size with
  | none =>
    have : 2 ^ 64 ≤ start.toNat + size.toNat := add?_eq_none_iff.mp h
    simp only [Option.map_none, reduceCtorEq, false_iff, not_and]
    omega
  | some stop =>
    have := add?_eq_some_iff.mp h
    have := stop.toNat_lt
    simp only [Option.map_some, Option.some.injEq, eq_comm (b := e'), iff_and_self]
    omega

theorem Zoned.placement {p : Panic} {r : Except AllocError (Address × Extent pageSize)}
    (hz : e.Zoned) (h : ∀ a e', r = .ok (a, e') → e'.Zoned) : (e.placement p r).2.Zoned := by
  match r with
  | .ok (a, e') => exact h a e' rfl
  | .error .noMemory => exact hz
  | .error .badAlignment => exact hz

/-- Every operation keeps the zones in order. -/
theorem Zoned.apply (hz : e.Zoned) (op : Operation) : (e.apply op).2.Zoned := by
  cases op with
  | init start size =>
    unfold Extent.apply
    dsimp only
    split
    · rename_i h
      obtain ⟨hf, rfl⟩ := init?_eq_some_iff.mp h
      exact zoned_spanning hf
    · exact hz
  | movePages start size =>
    unfold Extent.apply
    dsimp only
    split
    · exact hz.movePages? ‹_›
    · exact hz
  | alloc bytes align => exact hz.placement fun _ _ h => hz.alloc h
  | release => exact hz.release
  | allocPages count align => exact hz.placement fun _ _ h => hz.allocPages h
  | freePages first count => exact hz.freePages first count

theorem Zoned.run (hz : e.Zoned) (ops : List Operation) : (e.run ops).Zoned := by
  induction ops generalizing e with
  | nil => exact hz
  | cons op ops ih => exact ih (hz.apply op)

/-- Outcomes that hand nothing out because of a shortage or of misuse. -/
def Outcome.Failed : Outcome → Prop
  | .noMemory | .panicked _ => True
  | .done | .placed _ => False

/-- What no caller may ask for: a region that wraps around, or an alignment that is not a power of
two. -/
def Operation.Misused : Operation → Prop
  | .init start size => 2 ^ 64 ≤ start.toNat + size.toNat
  | .alloc _ align | .allocPages _ align => ¬ align.toNat.isPowerOfTwo
  | .movePages .. | .release | .freePages .. => False

theorem placement_of_failed {p : Panic} {r : Except AllocError (Address × Extent pageSize)}
    (h : (e.placement p r).1.Failed) : (e.placement p r).2 = e := by
  match r with
  | .ok (a, e') => exact h.elim
  | .error .noMemory => rfl
  | .error .badAlignment => rfl

theorem apply_of_failed {op : Operation} (h : (e.apply op).1.Failed) : (e.apply op).2 = e := by
  cases op with
  | init start size =>
    unfold Extent.apply at h ⊢
    dsimp only at h ⊢
    split at h <;> simp_all [Outcome.Failed]
  | movePages start size =>
    unfold Extent.apply at h ⊢
    dsimp only at h ⊢
    split at h <;> simp_all [Outcome.Failed]
  | alloc bytes align => exact placement_of_failed h
  | release => exact h.elim
  | allocPages count align => exact placement_of_failed h
  | freePages first count => exact h.elim

theorem placement_panics_iff {p : Panic} {r : Except AllocError (Address × Extent pageSize)} :
    (∃ q, (e.placement p r).1 = .panicked q) ↔ r = .error .badAlignment := by
  match r with
  | .ok (a, e') => simp [Extent.placement]
  | .error .noMemory => simp [Extent.placement]
  | .error .badAlignment => simp [Extent.placement]

theorem alloc_eq_badAlignment_iff {bytes align : UInt64} :
    e.alloc bytes align = .error .badAlignment ↔ ¬ align.toNat.isPowerOfTwo := by
  rw [← isPowerOfTwo_iff_toNat]
  unfold Extent.alloc
  repeat' split
  all_goals simp_all

theorem allocPages_eq_badAlignment_iff {count align : UInt64} :
    e.allocPages count align = .error .badAlignment ↔ ¬ align.toNat.isPowerOfTwo := by
  rw [← isPowerOfTwo_iff_toNat]
  unfold Extent.allocPages
  dsimp only
  repeat' split
  all_goals simp_all

theorem apply_panics_iff {op : Operation} :
    (∃ p, (e.apply op).1 = .panicked p) ↔ op.Misused := by
  cases op with
  | init start size =>
    unfold Extent.apply
    dsimp only [Operation.Misused]
    split
    · rename_i h
      have := (init?_eq_some_iff.mp h).1
      simp only [reduceCtorEq, exists_false, false_iff]
      omega
    · rename_i h
      have hn : ¬ start.toNat + size.toNat < 2 ^ 64 := fun hf => by
        simp [init?_eq_some_iff.mpr ⟨hf, rfl⟩] at h
      simp only [Outcome.panicked.injEq, exists_eq', true_iff]
      omega
  | movePages start size =>
    unfold Extent.apply
    dsimp only [Operation.Misused]
    split <;> simp
  | alloc bytes align => exact placement_panics_iff.trans alloc_eq_badAlignment_iff
  | release => simp [Extent.apply, Operation.Misused]
  | allocPages count align => exact placement_panics_iff.trans allocPages_eq_badAlignment_iff
  | freePages first count => simp [Extent.apply, Operation.Misused]

/-- After any run the zones are in order, and only misuse panics. -/
theorem zoned_of_run (pageSize : UInt64) (ops : List Operation) :
    ((empty : Extent pageSize).run ops).Zoned ∧ ∀ op : Operation,
      ((∃ p, (((empty : Extent pageSize).run ops).apply op).1 = .panicked p) ↔ op.Misused) ∧
      ((((empty : Extent pageSize).run ops).apply op).1.Failed →
        (((empty : Extent pageSize).run ops).apply op).2 = (empty : Extent pageSize).run ops) :=
  ⟨zoned_empty.run ops, fun _ => ⟨apply_panics_iff, apply_of_failed⟩⟩

end KernelCore.Extent
