import KernelCore.Files.Calls
import KernelCore.Heap.Routing
import KernelCore.Proofs.Kernel.Actions

/-! # Actions run twice

An action that is started from related kernels may come to the same both times and leave related
kernels. Only runs that return are compared: whatever the first run comes to, the second one has to.
-/

namespace KernelCore.Kernel

open KernelCore.Action

variable {β α γ : Type} {S T U : Kernel β → Kernel β → Prop}

/-- From related kernels on, the second action comes to whatever the first one comes to. -/
def Follows (S T : Kernel β → Kernel β → Prop) (x y : Action (Kernel β) α) : Prop :=
  ∀ m n a t, S m.state n.state → x m = .ok a t → ∃ u, y n = .ok a u ∧ T t.state u.state

/-- From related kernels on, the second handler answers whatever the first one answers. -/
def Repeats (S T : Kernel β → Kernel β → Prop) (x y : Handler (Kernel β) α) : Prop :=
  ∀ m n a t, S m.state n.state → x.run m = .ok (.ok a) t →
    ∃ u, y.run n = .ok (.ok a) u ∧ T t.state u.state

section Actions

variable {x y : Action (Kernel β) α} {g g' : α → Action (Kernel β) γ}

theorem follows_pure (a : α) : Follows S S (pure a : Action (Kernel β) α) (pure a) := by
  intro m n b t h hx
  cases hx
  exact ⟨n, rfl, h⟩

theorem follows_of_fault {e : Fault} : Follows S T (fault e) y := by
  intro m n a t _ hx
  cases hx

theorem Follows.bind (hx : Follows S T x y) (hg : ∀ a, Follows T U (g a) (g' a)) :
    Follows S U (x >>= g) (y >>= g') := by
  intro m n b t h hm
  obtain ⟨a, u, hxu, hgu⟩ := bind_eq_ok hm
  obtain ⟨v, hyv, hv⟩ := hx m n a u h hxu
  rw [bind_apply, hyv]
  exact hg a u v b t hv hgu

theorem follows_current {g g' : Kernel β → Action (Kernel β) γ}
    (h : ∀ k l, S k l → Follows S T (g k) (g' l)) : Follows S T (current >>= g) (current >>= g') :=
  fun m n a t hmn => h m.state n.state hmn m n a t hmn

theorem follows_note (e : Event) : Follows S S (note e : Action (Kernel β) Unit) (note e) := by
  intro m n a t h hx
  rw [note_apply] at hx ⊢
  cases hx
  exact ⟨_, rfl, h⟩

theorem follows_update {F : Kernel β → Kernel β} (h : ∀ k l, S k l → T (F k) (F l)) :
    Follows S T (update F) (update F) := by
  intro m n a t hmn hx
  cases hx
  exact ⟨_, rfl, h _ _ hmn⟩

theorem follows_ask {F : Kernel β → α × Kernel β} {c : α → Call}
    (h : ∀ k l, S k l → (F k).1 = (F l).1 ∧ T (F k).2 (F l).2) :
    Follows S T (ask F c) (ask F c) := by
  intro m n a t hmn hx
  obtain ⟨hvalue, hstate⟩ := h _ _ hmn
  rw [ask_apply] at hx
  cases hx
  rw [ask_apply, ← hvalue]
  exact ⟨_, rfl, hstate⟩

end Actions

section Handlers

variable {x y : Handler (Kernel β) α} {g g' : α → Handler (Kernel β) γ}

theorem repeats_pure (a : α) : Repeats S S (pure a : Handler (Kernel β) α) (pure a) := by
  intro m n b t h hx
  cases hx
  exact ⟨n, rfl, h⟩

theorem repeats_of_throw {e : Errno} : Repeats S T (throw e) y := by
  intro m n a t _ hx
  cases hx

theorem repeats_of_throw_bind {e : Errno} {y : Handler (Kernel β) γ} :
    Repeats S T (throw e >>= g) y := by
  intro m n a t _ hx
  cases hx

theorem Repeats.mono (h : Repeats S T x y) (hTU : ∀ k l, T k l → U k l) : Repeats S U x y := by
  intro m n a t hmn hx
  obtain ⟨u, hu, htu⟩ := h m n a t hmn hx
  exact ⟨u, hu, hTU _ _ htu⟩

theorem Repeats.bind (hx : Repeats S T x y) (hg : ∀ a, Repeats T U (g a) (g' a)) :
    Repeats S U (x >>= g) (y >>= g') := by
  intro m n b t h hm
  obtain ⟨a, u, hxu, hgu⟩ := Handler.bind_eq_ok hm
  obtain ⟨v, hyv, hv⟩ := hx m n a u h hxu
  rw [Handler.bind_apply, hyv]
  exact hg a u v b t hv hgu

theorem repeats_bind_lift {x y : Action (Kernel β) α} (hx : Follows S T x y)
    (hg : ∀ a, Repeats T U (g a) (g' a)) :
    Repeats S U (ExceptT.lift x >>= g) (ExceptT.lift y >>= g') := by
  intro m n b t h hm
  obtain ⟨a, u, hxu, hgu⟩ := Handler.bind_lift_eq_ok hm
  obtain ⟨v, hyv, hv⟩ := hx m n a u h hxu
  rw [Handler.bind_lift_apply, hyv]
  exact hg a u v b t hv hgu

theorem repeats_bind_current {g g' : Kernel β → Handler (Kernel β) γ}
    (h : ∀ k l, S k l → Repeats S T (g k) (g' l)) :
    Repeats S T (ExceptT.lift current >>= g) (ExceptT.lift current >>= g') :=
  fun m n a t hmn => h m.state n.state hmn m n a t hmn

theorem repeats_request {F : Kernel β → Except Errno α × Kernel β} {c : Except Errno α → Call}
    (h : ∀ k l, S k l → (F k).1 = (F l).1 ∧ T (F k).2 (F l).2) :
    Repeats S T (request F c) (request F c) := fun m n a t =>
  follows_ask h m n (.ok a) t

theorem repeats_holdingLock {x y : Handler (Kernel β) α} (hlock : ∀ k l, S k l → k.lock = l.lock)
    (hset : ∀ k l b, S k l → S { k with lock := b } { l with lock := b })
    (h : Repeats S T x y) :
    Repeats S (fun _ _ => True) (ExceptT.mk (holdingLock x.run))
      (ExceptT.mk (holdingLock y.run)) := by
  intro m n a t hmn hm
  obtain ⟨u, v, hu, hx, -⟩ := holdingLock_eq_ok hm
  cases hheld : m.state.lock.held with
  | true =>
    rw [acquireLock_of_held hheld] at hu
    cases hu
  | false =>
    rw [acquireLock_of_free hheld] at hu
    cases hu
    have hfree : n.state.lock.held = false := hlock _ _ hmn ▸ hheld
    obtain ⟨w, hw, -⟩ := h _ ((onState n { n.state with lock := ⟨⟨true⟩⟩ }).push [.locking]) a v
      (hset _ _ ⟨⟨true⟩⟩ hmn) hx
    refine ⟨unlocked w, ?_, trivial⟩
    rw [ExceptT.run_mk, holdingLock, acquireLock_of_free hfree]
    dsimp only
    rw [hw]

end Handlers

/-- Two kernels that serve heap requests alike. -/
structure SameHeaps (k l : Kernel β) : Prop where
  memories_eq : k.memories = l.memories
  heaps_eq : k.heaps = l.heaps
  attached_eq : k.attached = l.attached
  installed_eq : k.installed = l.installed

theorem SameHeaps.attachedOwner?_eq {k l : Kernel β} (h : SameHeaps k l) (a : Address) :
    k.attachedOwner? a = l.attachedOwner? a := by
  simp only [attachedOwner?, getMemory, h.attached_eq, h.memories_eq]

/-- A relation of kernels that serve heap requests alike, and go on to do so. -/
structure Heapwise (S : Kernel β → Kernel β → Prop) : Prop where
  same : ∀ k l, S k l → SameHeaps k l
  setMemory : ∀ k l id b, S k l → S (k.setMemory id b) (l.setMemory id b)
  setHeap : ∀ k l h x, S k l → S (k.setHeap h x) (l.setHeap h x)

theorem heapwise_sameHeaps : Heapwise (SameHeaps (β := β)) where
  same _ _ h := h
  setMemory k l id b h :=
    ⟨congrArg (·.set id b) h.memories_eq, h.heaps_eq, h.attached_eq, h.installed_eq⟩
  setHeap k l i x h :=
    ⟨h.memories_eq, congrArg (·.set i x) h.heaps_eq, h.attached_eq, h.installed_eq⟩

namespace Heapwise

variable (s : Heapwise S)

include s

theorem onMemory (id : MemoryId) (op : BootMemory.Operation) :
    Follows S S (onMemory id op) (onMemory id op) := by
  intro m n a t h hx
  have hmemory : n.state.getMemory id = m.state.getMemory id :=
    (congrArg (·[id]) (s.same _ _ h).memories_eq).symm
  rw [onMemory_apply] at hx ⊢
  rw [hmemory]
  cases hop : (m.state.getMemory id).apply op with
  | error p =>
    rw [hop] at hx
    cases hx
  | ok o =>
    rw [hop] at hx
    cases hx
    exact ⟨_, rfl, s.setMemory _ _ id _ h⟩

variable [HeapBackend β]

theorem askHeap (h : HeapId) (size align : UInt64) :
    Follows S S (askHeap h size align) (askHeap h size align) := by
  refine follows_ask fun k l hkl => ?_
  have hheap : l.getHeap h = k.getHeap h := (congrArg (·[h]) (s.same k l hkl).heaps_eq).symm
  rw [hheap]
  exact ⟨rfl, s.setHeap k l h _ hkl⟩

theorem giveHeap (h : HeapId) (a : Address) : Follows S S (giveHeap h a) (giveHeap h a) := by
  refine follows_ask fun k l hkl => ?_
  have hheap : l.getHeap h = k.getHeap h := (congrArg (·[h]) (s.same k l hkl).heaps_eq).symm
  rw [hheap]
  cases HeapBackend.free? (k.getHeap h) a with
  | none => exact ⟨rfl, hkl⟩
  | some x => exact ⟨rfl, s.setHeap k l h x hkl⟩

theorem allocate (size align : UInt64) :
    Follows S S (allocate size align) (allocate size align) := by
  refine follows_current fun k l h => ?_
  rw [← (s.same k l h).installed_eq, ← (s.same k l h).attached_eq]
  cases k.installed with
  | some i => exact (s.askHeap i size align).bind fun o => follows_pure _
  | none =>
    cases k.attached with
    | none => exact follows_pure _
    | some id =>
      refine (s.onMemory id _).bind fun o => ?_
      cases o <;> exact follows_pure _

theorem free (a : Address) : Follows S S (free a) (free a) := by
  unfold Kernel.free
  split
  · exact follows_pure ()
  · refine follows_current fun k l h => ?_
    rw [← (s.same k l h).installed_eq, ← (s.same k l h).attachedOwner?_eq]
    cases k.attachedOwner? a with
    | some id => exact (s.onMemory id _).bind fun o => follows_pure ()
    | none =>
      cases k.installed with
      | none => exact (follows_note _).bind fun _ => follows_of_fault
      | some i =>
        refine (s.giveHeap i a).bind fun o => ?_
        cases o with
        | true => exact follows_pure ()
        | false => exact follows_of_fault

end Heapwise

end KernelCore.Kernel
