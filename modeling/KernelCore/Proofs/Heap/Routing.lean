import KernelCore.Heap.Routing
import KernelCore.Proofs.Boot.Holdings
import KernelCore.Proofs.Kernel.Actions

/-! # Who serves a heap request

What each heap request does to the machine, by the two facts that decide it: which boot memory is
attached and whether it owns the pointer, and which backend is installed.
-/

namespace KernelCore.Kernel

variable {β : Type} {k : Kernel β} {id : MemoryId} {h : HeapId} {b : BootMemory}

@[simp] theorem getMemory_setMemory_self : (k.setMemory id b).getMemory id = b := by
  simp [setMemory, getMemory]

theorem getMemory_setMemory_of_ne {i : MemoryId} (h : i ≠ id) :
    (k.setMemory i b).getMemory id = k.getMemory id :=
  Vector.getElem_set_ne i.isLt id.isLt fun hv => h (Fin.ext hv)

@[simp] theorem setMemory_getMemory_self : k.setMemory id (k.getMemory id) = k := by
  simp [setMemory, getMemory]

theorem getMemory_congr {k l : Kernel β} (h : k.memories = l.memories) :
    k.getMemory id = l.getMemory id := by
  simp only [getMemory, h]

theorem onMemory_eq_ok {op : BootMemory.Operation} {o : BootMemory.Outcome}
    {m : Machine (Kernel β)} (hr : (m.state.getMemory id).records op = [])
    (ha : (m.state.getMemory id).apply op = .ok (o, b)) :
    onMemory id op m = .ok o (onState m (m.state.setMemory id b)) := by
  rw [onMemory_apply, ha]
  dsimp only
  rw [hr, List.map_nil, Machine.push_nil]

theorem attachedOwner?_eq_none {m : Machine (Kernel β)} {a : Address}
    (ha : m.state.attached = some id)
    (ho : (m.state.getMemory id).owns a = false) : m.state.attachedOwner? a = none := by
  refine Option.filter_eq_none_iff.mpr fun i hi => ?_
  obtain rfl := Option.some.inj (ha.symm.trans hi)
  simpa using ho

/-- Installing a backend retires the attached memory. -/
theorem install_of_attached {m : Machine (Kernel β)} (ha : m.state.attached = some id) :
    ∃ t, install h m = .ok () t ∧ t.state.attached = some id ∧ t.state.installed = some h ∧
      t.state.getMemory id = ((m.state.getMemory id).attempt (m.state.getMemory id).retire?).2 := by
  have hop : (m.state.getMemory id).apply .retire =
      .ok ((m.state.getMemory id).attempt (m.state.getMemory id).retire?) := rfl
  let b := ((m.state.getMemory id).attempt (m.state.getMemory id).retire?).2
  let rs := (m.state.getMemory id).records .retire ++
    [⟨some .important, [.text "Kernel heap handed off from early memory\n"]⟩]
  refine ⟨(onState m { m.state.setMemory id b with installed := some h }).push (rs.map .printed),
    ?_, ha, rfl, getMemory_setMemory_self⟩
  rw [install, Action.bind_apply, Action.current_apply]
  dsimp only
  rw [ha]
  dsimp only
  rw [Action.bind_apply, onMemory_apply, hop]
  dsimp only
  rw [Action.bind_apply, Action.update_apply]
  dsimp only
  rw [Action.say_apply, List.map_append, ← Machine.push_push]
  rfl

variable [HeapBackend β] {m : Machine (Kernel β)} {a : Address} {size align : UInt64}

theorem allocate_of_attached {p : Option Address} (hi : m.state.installed = none)
    (ha : m.state.attached = some id) (hb : (m.state.getMemory id).allocate size align = .ok (p, b)) :
    allocate size align m = .ok p (onState m (m.state.setMemory id b)) := by
  have hop : (m.state.getMemory id).apply (.allocate size align) = .ok (.pointer p, b) := by
    rw [BootMemory.apply, hb]
    rfl
  rw [allocate, Action.bind_apply, Action.current_apply]
  dsimp only
  rw [hi, ha]
  dsimp only
  rw [Action.bind_apply, onMemory_eq_ok rfl hop]
  rfl

theorem allocate_of_installed (hi : m.state.installed = some h) :
    allocate size align m =
      .ok ((HeapBackend.allocate (m.state.getHeap h) size align).1.bind BootMemory.pointer?)
        ((onState m (m.state.setHeap h (HeapBackend.allocate (m.state.getHeap h) size align).2)).push
          [.called (.heapAllocate h size align (HeapBackend.allocate (m.state.getHeap h) size align).1)
            m.state.lock.held]) := by
  rw [allocate, Action.bind_apply, Action.current_apply]
  dsimp only
  rw [hi]
  dsimp only
  rw [Action.bind_apply, askHeap, ask_apply]
  rfl

theorem free_zero (m : Machine (Kernel β)) : free 0 m = .ok () m := by
  rw [free, if_pos rfl]
  rfl

theorem free_of_owned (hn : a ≠ 0) (ha : m.state.attached = some id)
    (ho : (m.state.getMemory id).owns a = true) :
    free a m = .ok () (onState m (m.state.setMemory id ((m.state.getMemory id).free a))) := by
  have hown : m.state.attachedOwner? a = some id := Option.filter_eq_some_iff.mpr ⟨ha, ho⟩
  rw [free, if_neg hn, Action.bind_apply, Action.current_apply]
  dsimp only
  rw [hown]
  dsimp only
  rw [Action.bind_apply, onMemory_eq_ok rfl rfl]
  rfl

theorem free_of_not_owned (hn : a ≠ 0) (ho : m.state.attachedOwner? a = none)
    (hi : m.state.installed = some h) :
    free a m = match HeapBackend.free? (m.state.getHeap h) a with
      | some x => .ok () ((onState m (m.state.setHeap h x)).push
          [.called (.heapFree h a true) m.state.lock.held])
      | none => .error .foreignPointer (m.push [.called (.heapFree h a false) m.state.lock.held]) := by
  rw [free, if_neg hn, Action.bind_apply, Action.current_apply]
  dsimp only
  rw [ho, hi]
  dsimp only
  rw [Action.bind_apply, giveHeap, ask_apply]
  dsimp only
  cases HeapBackend.free? (m.state.getHeap h) a with
  | none => rfl
  | some x => rfl

theorem free_by_backend (hn : a ≠ 0) (ho : m.state.attachedOwner? a = none)
    (hi : m.state.installed = some h) : ∃ accepted t,
      t.state.memories = m.state.memories ∧ t.state.attached = m.state.attached ∧
      t.state.installed = m.state.installed ∧ t.calls = m.calls ++ [.heapFree h a accepted] ∧
      free a m = if accepted then .ok () t else .error .foreignPointer t := by
  have hfree := free_of_not_owned hn ho hi
  cases hf : HeapBackend.free? (m.state.getHeap h) a with
  | none =>
    rw [hf] at hfree
    refine ⟨false, _, ?_, ?_, ?_, Machine.calls_push _ _, hfree⟩ <;> rfl
  | some x =>
    rw [hf] at hfree
    refine ⟨true, _, ?_, ?_, ?_, Machine.calls_push _ _, hfree⟩ <;> rfl

/-- A pointer that nobody owns is a panic while there is no backend. -/
theorem free_of_nobody (hn : a ≠ 0) (ho : m.state.attachedOwner? a = none)
    (hi : m.state.installed = none) :
    free a m =
      .error (.panicked (.unownedPointer a))
        (m.push [.printed (Action.panicRecord (.unownedPointer a))]) := by
  rw [free, if_neg hn, Action.bind_apply, Action.current_apply]
  dsimp only
  rw [ho, hi]
  exact Action.halt_apply _ _

end KernelCore.Kernel
