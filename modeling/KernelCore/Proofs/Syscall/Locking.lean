import KernelCore.Kernel.World
import KernelCore.Proofs.Syscall.Runs

/-! # The address-space lock

A mapping takes the lock once and gives it back however it ends; whatever it asks of a collaborator
it asks in between. No other system call touches the lock, so a run that starts with a free lock
finds it free at every call.
-/

namespace KernelCore

namespace Event

def acquires : Event → Bool
  | locking => true
  | _ => false

/-- An event that may be left while nobody takes the lock or gives it back. -/
def keepsLock (held : Bool) : Event → Prop
  | called _ locked => locked = held
  | locking | unlocking => False
  | printed _ | ran _ => True

/-- The events of a call that asks for the lock at most once and for nothing else without it. -/
structure Guarded (es : List Event) : Prop where
  covered : ∀ c locked, called c locked ∈ es → locked = true
  once : es.countP acquires ≤ 1

theorem Guarded.nil : Guarded [] := ⟨nofun, Nat.zero_le 1⟩

theorem Guarded.cons_printed {es : List Event} (h : Guarded es) (r : Record) :
    Guarded (printed r :: es) where
  covered c locked hc := by
    rcases List.mem_cons.mp hc with hc | hc
    · cases hc
    · exact h.covered c locked hc
  once := by
    rw [List.countP_cons_of_neg (by simp [acquires])]
    exact h.once

theorem Guarded.of_keepsLock {es : List Event} (h : ∀ e ∈ es, e.keepsLock true) :
    Guarded (locking :: es ++ [unlocking]) where
  covered c locked hc := by
    rcases List.mem_append.mp hc with hc | hc
    · rcases List.mem_cons.mp hc with hc | hc
      · cases hc
      · exact h _ hc
    · cases List.mem_singleton.mp hc
  once := by
    have hnone : es.countP acquires = 0 := by
      refine List.countP_eq_zero.mpr fun e he ha => ?_
      cases e with
      | locking => exact h _ he
      | _ => cases ha
    rw [List.countP_append, List.countP_cons_of_pos rfl, hnone]
    exact Nat.le_refl 1

end Event

namespace Kernel

open KernelCore.Action

variable {β α : Type} {m t u : Machine (Kernel β)}

/-- Between two machines the lock stays as it is, and every call is noted with what it is. -/
structure Stays (m t : Machine (Kernel β)) : Prop where
  lock_eq : t.state.lock = m.state.lock
  left : ∃ es, m.Left es t ∧ ∀ e ∈ es, e.keepsLock m.state.lock.held

theorem Stays.refl (m : Machine (Kernel β)) : Stays m m :=
  ⟨rfl, [], Machine.left_nil rfl, nofun⟩

theorem Stays.trans (h : Stays m t) (k : Stays t u) : Stays m u := by
  obtain ⟨ht, es, htrace, hes⟩ := h
  obtain ⟨hu, fs, hutrace, hfs⟩ := k
  refine ⟨hu.trans ht, es ++ fs, htrace.trans hutrace, fun e he => ?_⟩
  rcases List.mem_append.mp he with he | he
  · exact hes e he
  · exact ht ▸ hfs e he

instance : IsPreorder (Machine (Kernel β)) Stays where
  refl := Stays.refl
  trans _ _ _ := Stays.trans

theorem stays_note {e : Event} (h : ∀ held, e.keepsLock held) :
    Takes id Stays (note e : Action (Kernel β) Unit) := by
  intro m
  rw [after_of_ok (note_apply e m)]
  refine ⟨rfl, [e], rfl, fun x hx => ?_⟩
  rw [List.mem_singleton.mp hx]
  exact h _

theorem stays_update {F : Kernel β → Kernel β} (h : ∀ k, (F k).lock = k.lock) :
    Takes id Stays (update F) := fun m =>
  ⟨h m.state, [], Machine.left_nil rfl, nofun⟩

theorem stays_ask {F : Kernel β → α × Kernel β} {c : α → Call} (h : ∀ k, (F k).2.lock = k.lock) :
    Takes id Stays (ask F c) := by
  intro m
  rw [after_of_ok (ask_apply F c m)]
  refine ⟨h m.state, [.called (c (F m.state).1) m.state.lock.held], rfl, fun x hx => ?_⟩
  rw [List.mem_singleton.mp hx]
  rfl

theorem stays_request {F : Kernel β → Except Errno α × Kernel β} {c : Except Errno α → Call}
    (h : ∀ k, (F k).2.lock = k.lock) : Takes id Stays (request F c).run :=
  stays_ask h

/-- The lock was asked for at most once and given back, and nothing was asked for without it. -/
structure Disciplined (m t : Machine (Kernel β)) : Prop where
  free : t.state.lock.held = false
  left : ∃ es, m.Left es t ∧ Event.Guarded es

theorem Disciplined.of_push {r : Record} (h : Disciplined (m.push [.printed r]) t) :
    Disciplined m t := by
  obtain ⟨hfree, es, ht, hes⟩ := h
  exact ⟨hfree, .printed r :: es, (m.left_push [.printed r]).trans ht, hes.cons_printed r⟩

theorem disciplined_refl (h : m.state.lock.held = false) : Disciplined m m :=
  ⟨h, [], Machine.left_nil rfl, Event.Guarded.nil⟩

/-- An action that leaves the lock alone is disciplined while it holds the lock. -/
theorem disciplined_holdingLock {x : Action (Kernel β) α} (hx : Takes id Stays x)
    (h : m.state.lock.held = false) : Disciplined m ((holdingLock x).after m) := by
  have hacquire := acquireLock_of_free h
  generalize hu : (onState m { m.state with lock := ⟨⟨true⟩⟩ }).push [.locking] = u at hacquire
  obtain ⟨-, es, hes, hkeeps⟩ := hx u
  have hheld : u.state.lock.held = true := by rw [← hu]; rfl
  have hlocking : m.Left [.locking] u := by rw [← hu]; rfl
  have hunlocking : (x.after u).Left [.unlocking] (unlocked (x.after u)) := by rw [unlocked_eq]; rfl
  change u.Left es (x.after u) at hes
  rw [id, hheld] at hkeeps
  rw [after_holdingLock, hacquire]
  change Disciplined m (unlocked (x.after u))
  exact ⟨rfl, .locking :: es ++ [.unlocking], (hlocking.trans hes).trans hunlocking,
    Event.Guarded.of_keepsLock hkeeps⟩

variable [HeapBackend β]

theorem quiet_stays : Quiet (β := β) (Takes id Stays) where
  toCompositional := compositional_takes
  fault e := (keeps_fault e).takes
  printed _ := stays_note fun _ => trivial
  setMemory _ _ := stays_update fun _ => rfl
  clearBytes _ _ := stays_update fun _ => rfl
  askHeap _ _ _ := stays_ask fun _ => rfl
  giveHeap h a := by
    refine stays_ask fun k => ?_
    cases HeapBackend.free? (k.getHeap h) a <;> rfl
  findArea _ _ _ := stays_ask fun _ => rfl
  isOpenFile _ := stays_ask fun _ => rfl

theorem stays_mapPlaced {r : MapRequest} {prot : Protection} {flags : MapFlags} {length : UInt64} :
    Takes id Stays (mapPlaced r prot flags length : Handler (Kernel β) Address).run := by
  refine quiet_stays.mapPlaced fun start => quiet_stays.mapAt (stays_ask fun k => ?_) ?_
  · cases k.space.mapAlloc start length prot.toPermissions true <;> rfl
  · refine quiet_stays.populate (fun buffer => ?_) fun buffer count => stays_ask fun k => ?_
    · exact compositional_takes.readContents (fun _ _ => stays_request fun _ => rfl)
        fun _ _ => stays_request fun _ => rfl
    · cases k.space.write start ((k.memory.load? buffer count).getD .empty) <;> rfl

theorem disciplined_mapMemory (h : m.state.lock.held = false) (r : MapRequest) :
    Disciplined m ((mapMemory r).run.after m) := by
  obtain ⟨record, hcases⟩ := mapMemory_cases r m
  have hpushed : (m.push [.printed record]).state.lock.held = false := h
  rcases hcases with ⟨e, hr⟩ | ⟨hr, -⟩ | ⟨prot, flags, length, -, -, -, -, hr⟩
  · rw [after_of_ok hr]
    exact (disciplined_refl hpushed).of_push
  · rw [after_of_error hr]
    exact (disciplined_refl hpushed).of_push
  · rw [after, hr]
    exact (disciplined_holdingLock stays_mapPlaced hpushed).of_push

/-- A lock that was free is free again. -/
def FreeAgain (k l : Spinlock) : Prop := k.held = false → l.held = false

instance : Std.Refl FreeAgain := ⟨fun _ h => h⟩

theorem free_of_handleSyscall (h : m.state.lock.held = false) (fr : Frame) :
    ((handleSyscall fr).after m).state.lock.held = false := by
  have hmap : Takes (fun m : Machine (Kernel β) => m.state.lock) FreeAgain
      (mapMemory fr.mapRequest).run :=
    fun m h => (disciplined_mapMemory h fr.mapRequest).free
  exact (grounded_state fun _ _ _ hlock => hlock).handleSyscall (fun _ => hmap) m h

theorem free_of_run (h : m.state.lock.held = false) (hrun : Run m t) :
    t.state.lock.held = false := by
  induction hrun with
  | start => exact h
  | call fr _ ih => exact free_of_handleSyscall ih fr
  | between k es _ hlock _ ih =>
    rw [Machine.state_push, state_onState, hlock]
    exact ih

/-- A mapping takes the lock once at most, asks for nothing without it, and gives it back. -/
theorem lock_discipline (h : m.state.lock.held = false) :
    (∀ r : MapRequest, Disciplined m ((mapMemory r).run.after m)) ∧
      ∀ t, Run m t → t.state.lock.held = false :=
  ⟨disciplined_mapMemory h, fun _ => free_of_run h⟩

/-- A file is mapped whose first read fails, and the same call is made once more. -/
theorem lock_discipline_failed_read :
    let m : Machine (Kernel ArenaHeap) :=
      ((World.initial .important 42 (.empty 0x40000000 0x100000)).run
        [.install 0, .addFile ⟨#[47, 97]⟩ ⟨#[104, 105]⟩,
          .configureFiles { FilePolicy.plain with readsBeforeFailure := some 0 }]).2.machine
    let r : MapRequest := ⟨0x40000000, 4096, 1, 0x12, 3, 1⟩
    let fr : Frame := ⟨222, #v[0x40000000, 4096, 1, 0x12, 3, 1]⟩
    let t := (handleSyscall fr).after ((handleSyscall fr).after m)
    m.state.lock.held = false ∧ Disciplined m ((mapMemory r).run.after m) ∧
      t.state.lock.held = false := by
  intro m r fr t
  have h : m.state.lock.held = false := by decide +kernel
  exact ⟨h, (lock_discipline h).1 r, (lock_discipline h).2 t (.call fr (.call fr .start))⟩

end Kernel

end KernelCore
