import KernelCore.Proofs.Extent.Zone
import Mathlib.Data.List.Induction

/-! # When the byte zone starts over

The byte cursor goes back to the start of an extent with the last live allocation. It leaves the start
with the next one, unless that takes no room: an allocation of no bytes at the very start is counted
and leaves the cursor where it is.
-/

namespace KernelCore.Extent

open Word

variable {pageSize : UInt64} {e e' : Extent pageSize} {op : Operation} {n : Nat}

/-- What becomes of the start, the byte cursor and the count. Bytes end at the new cursor. -/
inductive BytesMove (e : Extent pageSize) (op : Operation) : Extent pageSize → Prop
  | kept {e' : Extent pageSize} (hstart : e'.start = e.start)
      (hcursor : e'.byteCursor = e.byteCursor) (hlive : e'.live = e.live) : BytesMove e op e'
  | restarted {e' : Extent pageSize} (hcursor : e'.byteCursor = e'.start) (hlive : e'.live = 0) :
      BytesMove e op e'
  | released : BytesMove e op e.release
  | taken (bytes align : UInt64) (a next : Address) (hop : op = .alloc bytes align)
      (hplaced : (e.apply op).1 = .placed a) (hlow : e.byteCursor.toNat ≤ a.toNat)
      (hnext : a.toNat + bytes.toNat = next.toNat) :
      BytesMove e op { e with byteCursor := next, live := e.live + 1 }

theorem bytesMove_alloc (e : Extent pageSize) (bytes align : UInt64) :
    e.BytesMove (.alloc bytes align) (e.apply (.alloc bytes align)).2 := by
  have hkept : e.BytesMove (.alloc bytes align) e := .kept rfl rfl rfl
  cases ha : e.alloc bytes align with
  | error r =>
    rw [apply, ha]
    cases r <;> exact hkept
  | ok x =>
    obtain ⟨a, e'⟩ := x
    obtain ⟨next, hlow, hnext, -, rfl⟩ := alloc_bounds ha
    have hplaced : (e.apply (.alloc bytes align)).1 = .placed a := by
      rw [apply, ha]
      rfl
    have hmove := BytesMove.taken bytes align a next rfl hplaced hlow hnext
    rwa [apply, ha]

theorem bytesMove_apply (e : Extent pageSize) (op : Operation) : e.BytesMove op (e.apply op).2 := by
  have hkept : e.BytesMove op e := .kept rfl rfl rfl
  cases op with
  | init start size =>
    unfold apply
    dsimp only
    split
    · obtain ⟨-, rfl⟩ := init?_eq_some_iff.mp ‹_›
      exact .restarted rfl rfl
    · exact hkept
  | movePages start size =>
    unfold apply
    dsimp only
    split
    · obtain ⟨-, -, -, -, rfl⟩ := movePages?_eq_some_iff.mp ‹_›
      exact .kept rfl rfl rfl
    · exact hkept
  | alloc bytes align => exact e.bytesMove_alloc bytes align
  | release => exact .released
  | allocPages count align =>
    cases ha : e.allocPages count align with
    | error r =>
      rw [apply, ha]
      cases r <;> exact hkept
    | ok x =>
      obtain ⟨a, e'⟩ := x
      obtain ⟨-, -, -, -, -, -, rfl⟩ := allocPages_eq_ok ha
      rw [apply, ha]
      exact .kept rfl rfl rfl
  | freePages first count =>
    obtain ⟨c, he⟩ := exists_freePages_eq e first count
    rw [apply, he]
    exact .kept rfl rfl rfl

/-- What at most `n` operations make of the empty extent: the cursor does not stay ahead of the start
when nothing is live. -/
structure Counting (e : Extent pageSize) (n : Nat) : Prop where
  zoned : e.Zoned
  live_le : e.live.toNat ≤ n
  rewound : e.live = 0 → e.byteCursor = e.start

theorem counting_empty : (empty : Extent pageSize).Counting 0 :=
  ⟨zoned_empty, Nat.le_refl 0, fun _ => rfl⟩

theorem live_add_one_ne_zero (h : e.live.toNat + 1 < 2 ^ 64) : e.live + 1 ≠ 0 := by
  intro hz
  have := toNat_live_add_one h
  rw [hz] at this
  cases this

theorem byteCursor_release_of_live (h : e.release.live = 0) :
    e.release.byteCursor = e.release.start := by
  rw [release_byteCursor, if_pos h, release_start]

theorem Counting.move (h : e.Counting n) (hn : n + 1 < 2 ^ 64) (hz : e'.Zoned)
    (hm : e.BytesMove op e') : e'.Counting (n + 1) := by
  have hle := h.live_le
  refine ⟨hz, ?_, ?_⟩
  · cases hm with
    | kept hstart hcursor hlive =>
      rw [hlive]
      omega
    | restarted hcursor hlive =>
      rw [hlive]
      exact Nat.zero_le _
    | released =>
      rw [toNat_live_release]
      omega
    | taken bytes align a next hop hplaced hlow hnext =>
      dsimp only
      rw [toNat_live_add_one (by omega)]
      omega
  · cases hm with
    | kept hstart hcursor hlive =>
      rw [hlive, hcursor, hstart]
      exact h.rewound
    | restarted hcursor hlive => exact fun _ => hcursor
    | released => exact byteCursor_release_of_live
    | taken bytes align a next hop hplaced hlow hnext =>
      exact fun h0 => absurd h0 (live_add_one_ne_zero (by omega))

theorem Counting.run {ops : List Operation} (h : e.Counting n) (hn : n + ops.length < 2 ^ 64) :
    (e.run ops).Counting (n + ops.length) := by
  induction ops generalizing e n with
  | nil => exact h
  | cons op ops ih =>
    rw [List.length_cons] at hn ⊢
    have hnext := h.move (by omega) (h.zoned.apply op) (e.bytesMove_apply op)
    rw [run_cons, show n + (ops.length + 1) = n + 1 + ops.length by omega]
    exact ih hnext (by omega)

/-- The cursor is at the start exactly while nothing is live. -/
def Settled (e : Extent pageSize) : Prop := e.live = 0 ↔ e.byteCursor = e.start

/-- An allocation of no bytes that is placed at the very start. -/
def TakesNoRoom (e : Extent pageSize) (op : Operation) : Prop :=
  ∃ align, op = .alloc 0 align ∧ (e.apply op).1 = .placed e.start

theorem settled_empty : (empty : Extent pageSize).Settled := iff_of_true rfl rfl

/-- Only an allocation that takes no room leaves the cursor at the start while something is live. -/
theorem Settled.move (hs : e.Settled) (h : e.Counting n) (hn : n + 1 < 2 ^ 64)
    (hm : e.BytesMove op e') (hop : ¬ e.TakesNoRoom op) : e'.Settled := by
  have hle := h.live_le
  cases hm with
  | kept hstart hcursor hlive =>
    rw [Settled, hlive, hcursor, hstart]
    exact hs
  | restarted hcursor hlive => exact iff_of_true hlive hcursor
  | released =>
    refine ⟨byteCursor_release_of_live, fun hcursor => ?_⟩
    rw [release_byteCursor] at hcursor
    split at hcursor
    · assumption
    · have hlive : e.live = 0 := hs.mpr hcursor
      rw [release, if_pos hlive]
  | taken bytes align a next hop' hplaced hlow hnext =>
    have hstart := h.zoned.start_le
    refine iff_of_false (live_add_one_ne_zero (by omega)) fun hcursor => hop ?_
    -- The cursor has not moved, so there was nothing to place and no padding before it.
    have hcursor : next.toNat = e.start.toNat := congrArg UInt64.toNat hcursor
    have hbytes : bytes = 0 := UInt64.toNat_inj.mp (by rw [UInt64.toNat_zero]; omega)
    have ha : a = e.start := UInt64.toNat_inj.mp (by omega)
    exact ⟨align, hbytes ▸ hop', ha ▸ hplaced⟩

theorem apply_of_takesNoRoom (h : e.Counting n) (hn : n + 1 < 2 ^ 64) (hop : e.TakesNoRoom op) :
    (e.apply op).2.live ≠ 0 ∧ (e.apply op).2.byteCursor = (e.apply op).2.start := by
  obtain ⟨align, rfl, hplaced⟩ := hop
  have hle := h.live_le
  cases ha : e.alloc 0 align with
  | error r =>
    rw [apply, ha] at hplaced
    cases r <;> cases hplaced
  | ok x =>
    obtain ⟨a, e'⟩ := x
    rw [apply, ha] at hplaced ⊢
    obtain rfl := Outcome.placed.inj hplaced
    obtain ⟨next, -, hnext, -, rfl⟩ := alloc_bounds ha
    exact ⟨live_add_one_ne_zero (by omega), UInt64.toNat_inj.mp hnext.symm⟩

theorem settled_of_run {ops : List Operation} (hn : ops.length < 2 ^ 64)
    (hroom : ∀ before op after, ops = before ++ op :: after →
      ¬ ((empty : Extent pageSize).run before).TakesNoRoom op) :
    ((empty : Extent pageSize).run ops).Settled := by
  induction ops using List.reverseRecOn with
  | nil => exact settled_empty
  | append_singleton ops op ih =>
    rw [List.length_append, List.length_singleton] at hn
    have hsettled := ih (by omega) fun before q after h =>
      hroom before q (after ++ [op]) (by rw [h, List.append_assoc, List.cons_append])
    have hcounting : ((empty : Extent pageSize).run ops).Counting (0 + ops.length) :=
      counting_empty.run (by omega)
    rw [run_append]
    exact hsettled.move hcounting (by omega) (bytesMove_apply _ op) (hroom ops op [] rfl)

/-- The byte cursor is at the start when nothing is live, and otherwise only for empty allocations. -/
theorem settled_unless_no_room (pageSize : UInt64) {ops : List Operation}
    (hn : ops.length < 2 ^ 64) :
    let e := (empty : Extent pageSize).run ops
    (e.live = 0 → e.byteCursor = e.start) ∧
      ((∀ before op after, ops = before ++ op :: after →
          ¬ ((empty : Extent pageSize).run before).TakesNoRoom op) →
        (e.live = 0 ↔ e.byteCursor = e.start)) ∧
      ∀ before op, ops = before ++ [op] → ((empty : Extent pageSize).run before).TakesNoRoom op →
        e.live ≠ 0 ∧ e.byteCursor = e.start := by
  intro e
  refine ⟨?_, settled_of_run hn, ?_⟩
  · have hcounting : e.Counting (0 + ops.length) := counting_empty.run (by omega)
    exact hcounting.rewound
  · rintro before op rfl hop
    rw [List.length_append, List.length_singleton] at hn
    have hcounting : ((empty : Extent pageSize).run before).Counting (0 + before.length) :=
      counting_empty.run (by omega)
    have happly := apply_of_takesNoRoom hcounting (by omega) hop
    rwa [show e = _ from run_append _ _ _]

/-- Bytes below a few pages, with padding between them, of which one allocation is given back. -/
theorem settled_unless_no_room_padded :
    let ops : List Operation := [.init 0x100000 0x10000, .alloc 100 8, .allocPages 3 0x1000,
      .alloc 1 64, .release]
    let e := (empty : Extent 4096).run ops
    ops.length < 2 ^ 64 ∧ e.live = 1 ∧ (e.live = 0 ↔ e.byteCursor = e.start) := by
  intro ops e
  have hn : ops.length < 2 ^ 64 := by decide
  obtain ⟨-, hiff, -⟩ := settled_unless_no_room 4096 hn
  refine ⟨hn, by decide +kernel, hiff ?_⟩
  rintro before op after h ⟨align, rfl, -⟩
  have hmem : Operation.alloc 0 align ∈ ops := by
    rw [h]
    exact List.mem_append_right before List.mem_cons_self
  simp [ops] at hmem

/-- One allocation of no bytes is live, and the byte cursor is at the start. -/
theorem live_at_start :
    let e := (empty : Extent 4096).run [.init 0x100000 0x10000, .alloc 0 1]
    e.live = 1 ∧ e.byteCursor = e.start := by
  decide +kernel

end KernelCore.Extent
