import KernelCore.Proofs.Boot.Holdings
import Mathlib.Order.Defs.Unbundled

/-! # The life of boot memory

Operations take a boot memory one way: once it was activated its bounds stay where they are, and once
it was retired it hands nothing out any more and only takes back what is out.
-/

namespace KernelCore.BootMemory

variable {b b' c : BootMemory} {op : Operation} {o : Outcome}

/-- The memory after operations, whoever asks for them. One that panics changes nothing. -/
def run (b : BootMemory) : List Operation → BootMemory
  | [] => b
  | op :: ops =>
      match b.apply op with
      | .ok (_, c) => c.run ops
      | .error _ => b.run ops

/-- What every operation keeps, a run of operations keeps. -/
theorem run_induction {P : BootMemory → Prop}
    (hstep : ∀ b op o c, P b → b.apply op = .ok (o, c) → P c) (hb : P b) (ops : List Operation) :
    P (b.run ops) := by
  induction ops generalizing b with
  | nil => exact hb
  | cons op ops ih =>
    unfold run
    split
    · exact ih (hstep b op _ _ hb ‹_›)
    · exact ih hb

theorem zoned_run (hz : b.extent.Zoned) (ops : List Operation) : (b.run ops).extent.Zoned :=
  run_induction (P := fun b => b.extent.Zoned) (fun _ _ _ _ => zoned_apply) hz ops

/-- The second memory is the first one later on. -/
structure Ages (b b' : BootMemory) : Prop where
  zoned : b.extent.Zoned → b'.extent.Zoned
  awake : b.phase ≠ .dormant → b'.phase ≠ .dormant
  start_eq : b.phase ≠ .dormant → b'.extent.start = b.extent.start
  size_eq : b.phase ≠ .dormant → b'.extent.size = b.extent.size
  retired : b.phase = .retired → b'.phase = .retired
  byteCursor_le : b.phase = .retired → b.extent.Zoned → b'.extent.byteCursor ≤ b.extent.byteCursor
  le_pageCursor : b.phase = .retired → b.extent.Zoned → b.extent.pageCursor ≤ b'.extent.pageCursor
  live_le : b.phase = .retired → b'.extent.live ≤ b.extent.live

namespace Ages

theorem refl (b : BootMemory) : b.Ages b :=
  ⟨id, id, fun _ => rfl, fun _ => rfl, id, fun _ _ => UInt64.le_refl _, fun _ _ => UInt64.le_refl _,
    fun _ => UInt64.le_refl _⟩

theorem trans (h : b.Ages b') (h' : b'.Ages c) : b.Ages c where
  zoned := h'.zoned ∘ h.zoned
  awake := h'.awake ∘ h.awake
  start_eq hp := (h'.start_eq (h.awake hp)).trans (h.start_eq hp)
  size_eq hp := (h'.size_eq (h.awake hp)).trans (h.size_eq hp)
  retired := h'.retired ∘ h.retired
  byteCursor_le hp hz :=
    UInt64.le_trans (h'.byteCursor_le (h.retired hp) (h.zoned hz)) (h.byteCursor_le hp hz)
  le_pageCursor hp hz :=
    UInt64.le_trans (h.le_pageCursor hp hz) (h'.le_pageCursor (h.retired hp) (h.zoned hz))
  live_le hp := UInt64.le_trans (h'.live_le (h.retired hp)) (h.live_le hp)

instance : IsPreorder BootMemory Ages where
  refl := refl
  trans _ _ _ := trans

theorem of_dormant (hd : b.phase = .dormant) (hz : b.extent.Zoned → b'.extent.Zoned) : b.Ages b' := by
  constructor
  · exact hz
  all_goals simp [hd]

theorem of_active (hp : b.phase = .active) (hz : b.extent.Zoned → b'.extent.Zoned)
    (hp' : b'.phase ≠ .dormant) (hs : b'.extent.start = b.extent.start)
    (hn : b'.extent.size = b.extent.size) : b.Ages b' := by
  refine ⟨hz, fun _ => hp', fun _ => hs, fun _ => hn, ?_, ?_, ?_, ?_⟩
  all_goals simp [hp]

theorem release (b : BootMemory) : b.Ages { b with extent := b.extent.release } := by
  refine ⟨Extent.Zoned.release, id, fun _ => rfl, fun _ => rfl, id, fun _ hz => ?_,
    fun _ _ => UInt64.le_refl _, fun _ => ?_⟩
  · dsimp only
    rw [Extent.release_byteCursor]
    split
    · exact UInt64.le_iff_toNat_le.mpr hz.start_le
    · exact UInt64.le_refl _
  · rw [UInt64.le_iff_toNat_le]
    exact Extent.toNat_live_release ▸ Nat.sub_le _ _

theorem freePages (b : BootMemory) (first : Address) (count : UInt64) :
    b.Ages { b with extent := b.extent.freePages first count } := by
  obtain ⟨c, he⟩ := Extent.exists_freePages_eq b.extent first count
  refine ⟨fun hz => hz.freePages first count, id, fun _ => ?_, fun _ => ?_, id, fun _ _ => ?_,
    fun _ hz => hz.le_pageCursor_freePages first count, fun _ => ?_⟩
  all_goals simp [he]

theorem apply (h : b.apply op = .ok (o, b')) : b.Ages b' := by
  have hz (hz : b.extent.Zoned) : b'.extent.Zoned := zoned_apply hz h
  cases op with
  | activate r =>
    rcases apply_activate_cases h with ⟨-, ha⟩ | ⟨-, rfl⟩
    · exact of_dormant (activate_eq_ok_iff.mp ha).1 hz
    · exact refl b'
  | extend r =>
    rcases apply_extend_cases h with ⟨-, he⟩ | ⟨-, rfl⟩
    · obtain ⟨hp, -, -, -, -, rfl⟩ := extend_eq_ok he
      exact of_active hp hz (by simp [hp]) rfl rfl
    · exact refl b'
  | retire =>
    rcases apply_retire_cases h with ⟨-, hp, rfl⟩ | ⟨-, rfl⟩
    · exact of_active hp hz nofun rfl rfl
    · exact refl b'
  | allocate size align =>
    rcases apply_allocate_cases h with ⟨-, rfl⟩ | ⟨hp, a, e, he, -, rfl⟩
    · exact refl b'
    · obtain ⟨next, -, -, -, rfl⟩ := Extent.alloc_bounds he
      exact of_active hp hz (by simp [hp]) rfl rfl
  | free a =>
    obtain ⟨-, ⟨-, rfl⟩ | ⟨-, -, rfl⟩⟩ := apply_free_cases h
    · exact refl b'
    · exact release b
  | allocatePages count =>
    rcases apply_allocatePages_cases h with ⟨-, rfl⟩ | ⟨hp, a, e, he, -, rfl⟩
    · exact refl b'
    · obtain ⟨-, -, -, -, -, -, rfl⟩ := Extent.allocPages_eq_ok he
      exact of_active hp hz (by simp [hp]) rfl rfl
  | freePages first count =>
    obtain ⟨-, ⟨-, rfl⟩ | ⟨-, rfl⟩⟩ := apply_freePages_cases h
    · exact refl b'
    · exact freePages b first count

theorem run (b : BootMemory) (ops : List Operation) : b.Ages (b.run ops) :=
  run_induction (P := b.Ages) (fun _ _ _ _ h ha => h.trans (Ages.apply ha)) (refl b) ops

theorem ceiling_eq (h : b.Ages b') (hp : b.phase ≠ .dormant) :
    b'.extent.ceiling = b.extent.ceiling := by
  rw [Extent.ceiling, Extent.ceiling, h.start_eq hp, h.size_eq hp]

/-- A memory that was activated owns the same addresses for ever. -/
theorem owns_eq (h : b.Ages b') (hp : b.phase ≠ .dormant) (a : Address) :
    b'.owns a = b.owns a := by
  rw [Bool.eq_iff_iff, owns_eq_true_iff, owns_eq_true_iff, h.start_eq hp, h.ceiling_eq hp]
  simp [hp, h.awake hp]

end Ages

/-- Outcomes with which something was given or changed for the caller. -/
def Outcome.Granted : Outcome → Prop
  | .accepted | .pointer (some _) => True
  | .done | .refused | .pointer none => False

/-- A retired memory answers every operation, also one with a bad alignment, and grants none. -/
theorem apply_of_retired (hp : b.phase = .retired) (op : Operation) :
    ∃ o b', b.apply op = .ok (o, b') ∧ ¬ o.Granted := by
  cases op with
  | activate r => exact ⟨.refused, b, by simp [BootMemory.apply, activate, hp, attempt, Except.toOption], id⟩
  | extend r => exact ⟨.refused, b, by simp [BootMemory.apply, extend, hp, attempt, Except.toOption], id⟩
  | retire => exact ⟨.refused, b, by simp [BootMemory.apply, retire?, hp, attempt], id⟩
  | allocate size align =>
    exact ⟨.pointer none, b, by simp [BootMemory.apply, allocate, hp, Except.map], id⟩
  | free a => exact ⟨.done, _, rfl, id⟩
  | allocatePages count => exact ⟨.pointer none, b, by simp [BootMemory.apply, allocatePages, hp], id⟩
  | freePages first count => exact ⟨.done, _, rfl, id⟩

end KernelCore.BootMemory
