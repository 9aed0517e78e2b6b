import KernelCore.Kernel.World
import KernelCore.Proofs.Boot.Lifecycle
import KernelCore.Proofs.Heap.Routing

/-! # Retirement is final

Whatever is asked of the boot memories and of the kernel heap, a retired memory stays retired, hands
nothing out, and only takes back what is out. It owns the addresses that it owned when it was activated.
-/

namespace KernelCore

/-- What can be asked of the boot memories and of the kernel heap. -/
inductive MemoryRequest where
  | operation (i : MemoryId) (op : BootMemory.Operation)
  | attach (i : MemoryId)
  | install (h : HeapId)
  | allocate (size align : UInt64)
  | free (a : Address)
  deriving DecidableEq, Repr

namespace Kernel

open KernelCore.Action BootMemory

variable {β α : Type} {m : Machine (Kernel β)} {id : MemoryId} {qs : List MemoryRequest}

/-- An action that takes a boot memory one way only. -/
abbrev AgesMemory (id : MemoryId) (x : Action (Kernel β) α) : Prop :=
  Takes (fun m => m.state.getMemory id) Ages x

theorem compositional_agesMemory : Compositional (κ := Kernel β) (AgesMemory id) :=
  compositional_takes

theorem agesMemory_note (e : Event) : AgesMemory id (note e : Action (Kernel β) Unit) :=
  (keeps_note fun _ => rfl).takes

theorem agesMemory_fault (e : Fault) : AgesMemory id (fault e : Action (Kernel β) α) :=
  (keeps_fault e).takes

theorem agesMemory_update {f : Kernel β → Kernel β} (h : ∀ k, (f k).memories = k.memories) :
    AgesMemory id (update f) :=
  Keeps.takes fun m => getMemory_congr (h m.state)

theorem agesMemory_ask {f : Kernel β → α × Kernel β} {c : α → Call}
    (h : ∀ k, (f k).2.memories = k.memories) : AgesMemory id (ask f c) :=
  Keeps.takes fun m => by
    rw [after_of_ok (ask_apply f c m)]
    exact getMemory_congr (h m.state)

theorem agesMemory_halt (p : Panic) : AgesMemory id (halt p : Action (Kernel β) α) :=
  compositional_agesMemory.bind (agesMemory_note _) fun _ => agesMemory_fault _

theorem agesMemory_onMemory (i : MemoryId) (op : Operation) :
    AgesMemory id (onMemory i op : Action (Kernel β) Outcome) := by
  intro m
  rw [after, onMemory_apply]
  cases hb : (m.state.getMemory i).apply op with
  | error p => exact Ages.refl _
  | ok x =>
    obtain ⟨o, b⟩ := x
    dsimp only
    rw [Machine.state_push, state_onState]
    by_cases hi : i = id
    · subst hi
      rw [getMemory_setMemory_self]
      exact Ages.apply hb
    · rw [getMemory_setMemory_of_ne hi]
      exact Ages.refl _

theorem agesMemory_attach (i : MemoryId) :
    AgesMemory id (attach i : Action (Kernel β) Unit) := by
  have c : Compositional (κ := Kernel β) (AgesMemory id) := compositional_agesMemory
  have hset : AgesMemory id (update ({ · with attached := some i }) : Action (Kernel β) Unit) :=
    agesMemory_update fun _ => rfl
  exact c.bind c.current fun _ => c.ite (c.bind (agesMemory_halt _) fun _ => hset) hset

theorem agesMemory_install (h : HeapId) :
    AgesMemory id (install h : Action (Kernel β) Unit) := by
  have c : Compositional (κ := Kernel β) (AgesMemory id) := compositional_agesMemory
  have hset : AgesMemory id (do
      update ({ · with installed := some h })
      say .important [.text "Kernel heap handed off from early memory\n"] :
      Action (Kernel β) Unit) :=
    c.bind (agesMemory_update fun _ => rfl) fun _ => agesMemory_note _
  refine c.bind c.current fun k => ?_
  cases k.attached with
  | none => exact hset
  | some i => exact c.bind (agesMemory_onMemory i _) fun _ => hset

variable [HeapBackend β]

theorem agesMemory_allocate (size align : UInt64) :
    AgesMemory id (allocate size align : Action (Kernel β) (Option Address)) := by
  have c : Compositional (κ := Kernel β) (AgesMemory id) := compositional_agesMemory
  refine c.bind c.current fun k => ?_
  cases k.installed with
  | some h => exact c.bind (agesMemory_ask fun _ => rfl) fun _ => c.pure _
  | none =>
    cases k.attached with
    | none => exact c.pure none
    | some i =>
      refine c.bind (agesMemory_onMemory i _) fun o => ?_
      cases o <;> exact c.pure _

theorem agesMemory_free (a : Address) : AgesMemory id (free a : Action (Kernel β) Unit) := by
  have c : Compositional (κ := Kernel β) (AgesMemory id) := compositional_agesMemory
  refine c.ite (c.pure ()) (c.bind c.current fun k => ?_)
  cases k.attachedOwner? a with
  | some i => exact c.bind (agesMemory_onMemory i _) fun _ => c.pure ()
  | none =>
    cases k.installed with
    | none => exact agesMemory_halt _
    | some h =>
      refine c.bind (agesMemory_ask fun k => ?_) fun _ => c.ite (c.pure ()) (agesMemory_fault _)
      cases HeapBackend.free? (k.getHeap h) a <;> rfl

def serve : MemoryRequest → Action (Kernel β) Unit
  | .operation i op => do let _ ← onMemory i op
  | .attach i => attach i
  | .install h => install h
  | .allocate size align => do let _ ← allocate size align
  | .free a => free a

/-- The machine after requests, each of which may end in a fault. -/
def served (m : Machine (Kernel β)) (qs : List MemoryRequest) : Machine (Kernel β) :=
  qs.foldl (fun m q => (serve q).after m) m

theorem agesMemory_serve (q : MemoryRequest) : AgesMemory id (serve q : Action (Kernel β) Unit) := by
  have c : Compositional (κ := Kernel β) (AgesMemory id) := compositional_agesMemory
  cases q with
  | operation i op => exact c.bind (agesMemory_onMemory i op) fun _ => c.pure _
  | attach i => exact agesMemory_attach i
  | install h => exact agesMemory_install h
  | allocate size align => exact c.bind (agesMemory_allocate size align) fun _ => c.pure _
  | free a => exact agesMemory_free a

theorem ages_served (m : Machine (Kernel β)) (qs : List MemoryRequest) :
    (m.state.getMemory id).Ages ((served m qs).state.getMemory id) := by
  induction qs generalizing m with
  | nil => exact Ages.refl _
  | cons q qs ih => exact (agesMemory_serve q m).trans (ih _)

theorem served_append (m : Machine (Kernel β)) (qs qs' : List MemoryRequest) :
    served m (qs ++ qs') = served (served m qs) qs' :=
  List.foldl_append

omit [HeapBackend β] in
theorem onMemory_of_retired (hp : (m.state.getMemory id).phase = .retired) (op : Operation) :
    ∃ o t, onMemory id op m = .ok o t ∧ ¬ o.Granted := by
  obtain ⟨o, b, hb, ho⟩ := apply_of_retired hp op
  rw [onMemory_apply, hb]
  exact ⟨o, _, rfl, ho⟩

/-- The kernel heap gets nothing from a retired memory, even where it still asks the memory. -/
theorem allocate_of_retired (ha : m.state.attached = some id)
    (hp : (m.state.getMemory id).phase = .retired) (size align : UInt64) :
    ((allocate size align).after m).state.memories = m.state.memories ∧
      (m.state.installed = none → ∃ t, allocate size align m = .ok none t) := by
  cases hi : m.state.installed with
  | some h =>
    rw [after_of_ok (allocate_of_installed hi)]
    exact ⟨rfl, nofun⟩
  | none =>
    have hb : (m.state.getMemory id).allocate size align = .ok (none, m.state.getMemory id) := by
      rw [BootMemory.allocate, if_pos (by simp [hp])]
    have hallocate := allocate_of_attached hi ha hb
    rw [after_of_ok hallocate, setMemory_getMemory_self]
    exact ⟨rfl, fun _ => ⟨_, hallocate⟩⟩

/-- A retired memory grants nothing any more, and owns what it owned before. -/
theorem retirement_is_final {r : Range} {before : List MemoryRequest}
    (hactive : dormant.activate r = .ok (m.state.getMemory id))
    (hretired : ((served m before).state.getMemory id).phase = .retired)
    (later : List MemoryRequest) :
    let b := (served m before).state.getMemory id
    let t := served m (before ++ later)
    let c := t.state.getMemory id
    c.phase = .retired ∧ c.extent.byteCursor ≤ b.extent.byteCursor ∧
      b.extent.pageCursor ≤ c.extent.pageCursor ∧ c.extent.live ≤ b.extent.live ∧
      (∀ a, c.owns a = (m.state.getMemory id).owns a) ∧
      (∀ op, ∃ o u, onMemory id op t = .ok o u ∧ ¬ o.Granted) ∧
      (t.state.attached = some id → ∀ size align,
        ((allocate size align).after t).state.memories = t.state.memories ∧
          (t.state.installed = none → ∃ u, allocate size align t = .ok none u)) := by
  intro b t c
  have hages : b.Ages c := by
    rw [show c = (served (served m before) later).state.getMemory id by rw [← served_append]]
    exact ages_served _ later
  have hzoned : b.extent.Zoned := (ages_served m before).zoned (zoned_activate hactive)
  have hawake : (m.state.getMemory id).phase ≠ .dormant := by
    rw [(activate_eq_ok_iff.mp hactive).2.2.2]
    exact nofun
  have hc : c.phase = .retired := hages.retired hretired
  exact ⟨hc, hages.byteCursor_le hretired hzoned, hages.le_pageCursor hretired hzoned,
    hages.live_le hretired, (ages_served m (before ++ later)).owns_eq hawake, onMemory_of_retired hc,
    fun ha => allocate_of_retired ha hc⟩

/-- After the hand-off callers give back what they hold and what they never had, and ask again. -/
theorem retirement_is_final_handed_off :
    let r : Range := ⟨0x100000000000, 0x100000020000⟩
    let w := World.initial .debug 1 (.empty 0 0)
    let m := (onMemory 0 (.activate r)).after w.machine
    let before : List MemoryRequest := [.attach 0, .allocate 24 8, .operation 0 (.allocatePages 2),
      .allocate 1 64, .install 1]
    let later : List MemoryRequest := [.free 0x100000000000, .operation 0 (.freePages 0x10000001e000 9),
      .free 0x10000001ffff, .free 16, .operation 0 (.activate r), .operation 0 (.extend r),
      .allocate 100 16, .operation 0 (.allocate 8 3)]
    dormant.activate r = .ok (m.state.getMemory 0) ∧
      ((served m before).state.getMemory 0).phase = .retired ∧
      ((served m before).state.getMemory 0).extent.live = 2 ∧
      ((served m (before ++ later)).state.getMemory 0).extent.live = 0 ∧
      ((served m (before ++ later)).state.getMemory 0).phase = .retired ∧
      ((served m (before ++ later)).state.getMemory 0).extent.byteCursor ≤
        ((served m before).state.getMemory 0).extent.byteCursor ∧
      ∀ a, ((served m (before ++ later)).state.getMemory 0).owns a = (m.state.getMemory 0).owns a := by
  intro r w m before later
  have hactive : dormant.activate r = .ok (m.state.getMemory 0) :=
    activate_eq_ok_iff.mpr ⟨rfl, by decide, by decide, by decide +kernel⟩
  have hretired : ((served m before).state.getMemory 0).phase = .retired := by decide +kernel
  obtain ⟨hphase, hbytes, -, -, howns, -⟩ := retirement_is_final hactive hretired later
  exact ⟨hactive, hretired, by decide +kernel, by decide +kernel, hphase, hbytes, howns⟩

end Kernel

end KernelCore
