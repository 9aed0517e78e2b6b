import KernelCore.Kernel.World
import KernelCore.Proofs.Boot.Disjoint
import KernelCore.Proofs.Boot.Lifecycle
import KernelCore.Proofs.Heap.Routing

/-! # Who takes a pointer back

Boot memory owns what it handed out for as long as it lives, so that a pointer comes back to it before
and after the hand-off. There is one exception: while all bytes are taken, a request for no bytes at
all is answered with the ceiling, and there the memory owns nothing.
-/

namespace KernelCore

namespace BootMemory

/-- A memory that once answered a request for some bytes with an address. -/
structure Gave (b : BootMemory) (a : Address) (size : UInt64) : Prop where
  nonnull : a ≠ 0
  awake : b.phase ≠ .dormant
  start_le : b.extent.start ≤ a
  le_ceiling : a ≤ b.extent.ceiling
  lt_ceiling : size ≠ 0 → a < b.extent.ceiling

variable {b b' : BootMemory} {ops : List Operation} {a : Address} {size align : UInt64}

theorem gave_of_allocate (hz : b.extent.Zoned)
    (h : b.allocate size align = .ok (some a, b')) : b'.Gave a size := by
  rcases allocate_eq_ok h with ⟨hnone, -⟩ | ⟨hp, x, e, he, hx, rfl⟩
  · cases hnone
  obtain ⟨hne, rfl⟩ := pointer?_eq_some_iff.mp hx.symm
  obtain ⟨next, hlow, hnext, hroom, rfl⟩ := Extent.alloc_bounds he
  have hstart := hz.start_le
  have hpage := hz.page_le
  have hceil : (b.extent.start + b.extent.size).toNat = _ := hz.toNat_ceiling
  constructor
  · exact hne
  · simp [hp]
  · rw [UInt64.le_iff_toNat_le]
    exact Nat.le_trans hstart hlow
  · rw [UInt64.le_iff_toNat_le, Extent.ceiling, hceil]
    omega
  · intro hsize
    have hbytes : size.toNat ≠ 0 := fun h0 => hsize (UInt64.toNat_inj.mp h0)
    rw [UInt64.lt_iff_toNat_lt, Extent.ceiling, hceil]
    omega

namespace Gave

theorem ages (h : b.Gave a size) (hb : b.Ages b') : b'.Gave a size where
  nonnull := h.nonnull
  awake := hb.awake h.awake
  start_le := hb.start_eq h.awake ▸ h.start_le
  le_ceiling := hb.ceiling_eq h.awake ▸ h.le_ceiling
  lt_ceiling := hb.ceiling_eq h.awake ▸ h.lt_ceiling

theorem run (h : b.Gave a size) (ops : List Operation) : (b.run ops).Gave a size :=
  h.ages (Ages.run b ops)

theorem owns_iff (h : b.Gave a size) : b.owns a = true ↔ a ≠ b.extent.ceiling := by
  have hle := h.le_ceiling
  rw [owns_eq_true_iff, UInt64.lt_iff_le_and_ne]
  simp [h.awake, h.start_le, hle]

theorem toNat_live_free (h : b.Gave a size) :
    (b.free a).extent.live.toNat = b.extent.live.toNat - 1 := by
  rw [BootMemory.free, if_neg (not_or.mpr ⟨h.awake, h.nonnull⟩)]
  exact Extent.toNat_live_release

end Gave

end BootMemory

namespace Kernel

open BootMemory

variable {β : Type} [HeapBackend β] {m t u : Machine (Kernel β)} {id : MemoryId} {a : Address}
  {size align : UInt64}

theorem allocate_eq_ok_of_attached (ha : m.state.attached = some id)
    (hi : m.state.installed = none) (h : allocate size align m = .ok (some a) t) :
    ∃ b, (m.state.getMemory id).allocate size align = .ok (some a, b) ∧
      t.state.getMemory id = b := by
  cases hb : (m.state.getMemory id).allocate size align with
  | error p =>
    rw [allocate, Action.bind_apply, Action.current_apply] at h
    dsimp only at h
    rw [hi, ha] at h
    dsimp only at h
    rw [Action.bind_apply, onMemory_apply, apply, hb] at h
    cases h
  | ok x =>
    obtain ⟨p, b⟩ := x
    rw [allocate_of_attached hi ha hb] at h
    cases h
    exact ⟨b, rfl, getMemory_setMemory_self⟩

/-- What boot memory handed out comes back to it, its ceiling apart. -/
theorem free_of_handed_out {before since : List Operation} {c : BootMemory}
    (hb : m.state.getMemory id = dormant.run before) (ha : m.state.attached = some id)
    (hi : m.state.installed = none) (h : allocate size align m = .ok (some a) t)
    (hc : c = (t.state.getMemory id).run since) :
    (c.owns a = true ↔ a ≠ c.extent.ceiling) ∧ (size ≠ 0 → a ≠ c.extent.ceiling) ∧
      (c.free a).extent.live.toNat = c.extent.live.toNat - 1 ∧
      (∀ ops held, Session.Reached ops ⟨c, held⟩ → Session.requests ops < 2 ^ 64 →
        (a, size) ∈ held.bytes → 0 < c.extent.live.toNat) ∧
      ∀ u : Machine (Kernel β), u.state.attached = some id → u.state.getMemory id = c →
        (a ≠ c.extent.ceiling → free a u = .ok () (onState u (u.state.setMemory id (c.free a)))) ∧
        (a = c.extent.ceiling → u.state.installed = none →
          free a u = .error (.panicked (.unownedPointer a))
            (u.push [.printed (Action.panicRecord (.unownedPointer a))])) ∧
        (a = c.extent.ceiling → ∀ h, u.state.installed = some h → ∃ accepted v,
          v.state.memories = u.state.memories ∧ v.calls = u.calls ++ [.heapFree h a accepted] ∧
          free a u = if accepted then .ok () v else .error .foreignPointer v) := by
  obtain ⟨b, hb', rfl⟩ := allocate_eq_ok_of_attached ha hi h
  have hzoned : (m.state.getMemory id).extent.Zoned := hb ▸ zoned_run Extent.zoned_empty before
  have hgave : c.Gave a size := hc ▸ (gave_of_allocate hzoned hb').run since
  refine ⟨hgave.owns_iff, fun hsize => ?_, hgave.toNat_live_free, ?_, ?_⟩
  · rintro rfl
    exact absurd (hgave.lt_ceiling hsize) (UInt64.lt_irrefl _)
  · intro ops held hreached hrequests hheld
    have hcounted := (hreached.sound hrequests).bytes.counted
    exact Nat.lt_of_lt_of_le (List.length_pos_of_mem hheld) hcounted
  · rintro u hu rfl
    have hnobody (heq : a = (u.state.getMemory id).extent.ceiling) :
        u.state.attachedOwner? a = none := by
      refine attachedOwner?_eq_none hu (Bool.eq_false_iff.mpr fun ho => ?_)
      exact hgave.owns_iff.mp ho heq
    refine ⟨fun hne => ?_, fun heq hnone => ?_, fun heq i hi => ?_⟩
    · exact free_of_owned hgave.nonnull hu (hgave.owns_iff.mpr hne)
    · exact free_of_nobody hgave.nonnull (hnobody heq) hnone
    · obtain ⟨accepted, v, hmemories, -, -, hcalls, hfree⟩ :=
        free_by_backend hgave.nonnull (hnobody heq) hi
      exact ⟨accepted, v, hmemories, hcalls, hfree⟩

/-- A pointer comes back after the hand-off, when more bytes and pages were handed out above it. -/
theorem free_of_handed_out_late :
    let w := ((World.initial .important 42 (.empty 0x40000000 0x100000)).run
      [.memory 0 (.activate ⟨0x100000000000, 0x100000010000⟩), .attach 0]).2
    let m := w.machine
    let t := (allocate 64 16).after m
    let u := ((⟨t⟩ : World ArenaHeap).run
      [.allocate 8 8, .memory 0 (.allocatePages 2), .install 0]).2.machine
    let c := u.state.getMemory 0
    allocate 64 16 m = .ok (some 0x100000000000) t ∧
      free 0x100000000000 u = .ok () (onState u (u.state.setMemory 0 (c.free 0x100000000000))) ∧
      c.extent.live = 2 ∧ (c.free 0x100000000000).extent.live = 1 := by
  intro w m t u c
  have hb : m.state.getMemory 0 =
      dormant.run [.activate ⟨0x100000000000, 0x100000010000⟩] := by decide +kernel
  have ha : m.state.attached = some 0 := by decide +kernel
  have hi : m.state.installed = none := by decide +kernel
  have hanswer : Action.answers (allocate 64 16) m (some 0x100000000000) = true := by
    decide +kernel
  have hc : c = (t.state.getMemory 0).run [.allocate 8 8, .allocatePages 2, .retire] := by
    decide +kernel
  have hu : u.state.attached = some 0 := by decide +kernel
  have hne : 0x100000000000 ≠ c.extent.ceiling := by decide +kernel
  obtain ⟨-, -, -, -, hfree⟩ := free_of_handed_out hb ha hi (Action.run_of_answers hanswer) hc
  exact ⟨Action.run_of_answers hanswer, (hfree u hu rfl).1 hne, by decide +kernel,
    by decide +kernel⟩

/-- A request for no bytes is answered with the ceiling, which can not be freed. -/
theorem ceiling_not_taken_back :
    let m := ((World.initial .important 42 (.empty 0x40000000 0x100000)).run
      [.memory 0 (.activate ⟨0x100000000000, 0x100000010000⟩), .attach 0,
        .allocate 0x10000 1]).2.machine
    let t := (allocate 0 1).after m
    m.state.installed = none ∧ allocate 0 1 m = .ok (some 0x100000010000) t ∧
      (t.state.getMemory 0).owns 0x100000010000 = false ∧
      ∃ u, free 0x100000010000 t = .error (.panicked (.unownedPointer 0x100000010000)) u := by
  intro m t
  have hanswer : Action.answers (allocate 0 1) m (some 0x100000010000) = true := by decide +kernel
  have howner : t.state.attachedOwner? 0x100000010000 = none := by decide +kernel
  exact ⟨by decide +kernel, Action.run_of_answers hanswer, by decide +kernel, _,
    free_of_nobody (by decide) howner (by decide +kernel)⟩

end Kernel

end KernelCore
