import KernelCore.Kernel.World
import KernelCore.Proofs.Syscall.Runs

/-! # Actions do not look back

Everything that the kernel does is put together from a few primitive actions. None of them reads the
trace or the serial log, so what was left before an action only stays in front of what the action leaves.
-/

namespace KernelCore

variable {κ α : Type}

namespace Machine

/-- The same machine with all behind it that another one has left. -/
def behind (past m : Machine κ) : Machine κ :=
  { m with serial := past.serial ++ m.serial, trace := past.trace ++ m.trace }

/-- The same machine with nothing behind it. -/
def fresh (m : Machine κ) : Machine κ := { m with serial := #[], trace := #[] }

@[simp] theorem behind_fresh (m : Machine κ) : m.behind m.fresh = m := by
  simp [behind, fresh]

theorem push_behind (past m : Machine κ) (es : List Event) :
    (past.behind m).push es = past.behind (m.push es) := by
  simp [push, behind, Array.append_assoc]

theorem calls_behind (past m : Machine κ) : (past.behind m).calls = past.calls ++ m.calls := by
  simp [calls, behind]

end Machine

namespace Action

/-- How a run ends when more had been left before it. -/
def endBehind (past : Machine κ) :
    EStateM.Result Fault (Machine κ) α → EStateM.Result Fault (Machine κ) α
  | .ok a t => .ok a (past.behind t)
  | .error e t => .error e (past.behind t)

/-- What was left before an action only stays in front of what the action leaves. -/
def Forgetful (x : Action κ α) : Prop := ∀ past m, x (past.behind m) = endBehind past (x m)

theorem compositional_forgetful : Compositional (κ := κ) Forgetful where
  pure _ _ _ := rfl
  current _ _ := rfl
  bind {_ _ x _} hx hg past m := by
    rw [bind_apply, bind_apply, hx past m]
    cases x m with
    | ok a t => exact hg a past t
    | error e t => rfl

namespace Forgetful

variable {x : Action κ α} {m t : Machine κ} {a : α}

/-- A run comes to the same whatever was left before it. -/
theorem apply (h : Forgetful x) (m : Machine κ) : x m = endBehind m (x m.fresh) := by
  rw [← h, Machine.behind_fresh]

theorem fresh (h : Forgetful x) (hx : x m = .ok a t) :
    ∃ u, x m.fresh = .ok a u ∧ t = m.behind u := by
  rw [h.apply] at hx
  cases hr : x m.fresh with
  | ok b u =>
    rw [hr] at hx
    cases hx
    exact ⟨u, rfl, rfl⟩
  | error e u =>
    rw [hr] at hx
    cases hx

theorem calls (h : Forgetful x) (hx : x m = .ok a t) : ∃ cs, t.calls = m.calls ++ cs := by
  obtain ⟨u, -, rfl⟩ := h.fresh hx
  exact ⟨u.calls, Machine.calls_behind _ _⟩

end Forgetful

end Action

namespace Kernel

open KernelCore.Action

variable {β : Type} {P : ∀ {α : Type}, Action (Kernel β) α → Prop}

/-- A property of all that an action of the kernel can be put together from. -/
structure Elementary (P : ∀ {α : Type}, Action (Kernel β) α → Prop) : Prop
    extends Compositional P where
  fault : ∀ {α : Type} (e : Fault), P (fault e : Action (Kernel β) α)
  note : ∀ e, P (note e)
  update : ∀ F, P (update F)
  ask : ∀ {α : Type} (F : Kernel β → α × Kernel β) (c : α → Call), P (ask F c)
  holdingLock : ∀ {α : Type} {x : Action (Kernel β) α}, P x → P (holdingLock x)

theorem elementary_forgetful : Elementary (β := β) Forgetful where
  toCompositional := compositional_forgetful
  fault _ _ _ := rfl
  note e past m := by
    rw [note_apply, note_apply, Machine.push_behind]
    rfl
  update _ _ _ := rfl
  ask F c past m := by
    rw [ask_apply, ask_apply, endBehind, ← Machine.push_behind]
    rfl
  holdingLock {_ x} hx past m := by
    have hlock : acquireLock (past.behind m) = endBehind past (acquireLock m) := by
      cases h : m.state.lock.held with
      | true =>
        rw [acquireLock_of_held h, acquireLock_of_held (m := past.behind m) h, Machine.push_behind]
        rfl
      | false =>
        rw [acquireLock_of_free h, acquireLock_of_free (m := past.behind m) h, endBehind,
          ← Machine.push_behind]
        rfl
    have hunlocked (t : Machine (Kernel β)) :
        unlocked (past.behind t) = past.behind (unlocked t) := by
      rw [unlocked_eq, unlocked_eq, ← Machine.push_behind]
      rfl
    unfold Kernel.holdingLock
    rw [hlock]
    cases acquireLock m with
    | error e u => rfl
    | ok a u =>
      dsimp only [endBehind]
      rw [hx past u]
      cases x u <;> simp only [endBehind, hunlocked]

namespace Elementary

variable (e : Elementary P)

include e

theorem print (items : List Item) : P (print items) := e.note _

theorem say (i : Importance) (items : List Item) : P (say i items) := e.note _

theorem request {α : Type} (F : Kernel β → Except Errno α × Kernel β) (c : Except Errno α → Call) :
    P (request F c).run :=
  e.ask F c

variable [HeapBackend β]

theorem serves : Serves P where
  toCompositional := e.toCompositional
  fault := e.fault
  printed _ := e.note _
  setMemory _ _ := e.update _
  clearBytes _ _ := e.update _
  askHeap _ _ _ := e.ask _ _
  giveHeap _ _ := e.ask _ _
  findArea _ _ _ := e.ask _ _
  isOpenFile _ := e.ask _ _
  openFile _ _ _ := e.request _ _
  closeFile _ := e.request _ _
  readFile _ _ _ := e.request _ _
  writeFile _ _ _ := e.request _ _
  writeVectors _ _ _ := e.request _ _
  setTidAddress a := by
    have hneed : P (needTask : Action (Kernel β) Unit) :=
      e.bind e.current fun k => e.ite (e.pure ()) (e.fault _)
    exact e.lift_bind hneed fun _ => e.lift_bind (e.ask _ _) fun _ =>
      e.lift_bind e.current fun k => e.handler_pure k.task.id

theorem mapMemory (r : MapRequest) : P (mapMemory r).run := by
  have q : Quiet P := e.serves.toQuiet
  have hplaced (prot : Protection) (flags : MapFlags) (length : UInt64) :
      P (mapPlaced r prot flags length).run :=
    q.mapPlaced fun start => q.mapAt (e.ask _ _) <| q.populate
      (fun _ => e.readContents (fun _ _ => e.request _ _) fun _ _ => e.request _ _)
      fun _ _ => e.ask _ _
  unfold Kernel.mapMemory
  split
  · refine e.lift_bind (e.note _) fun _ => ?_
    split
    · exact e.handler_throw _
    · rename_i prot flags _ _ _ _ length _
      have hmap := e.lift_bind q.needTask fun _ => (e.holdingLock (hplaced prot flags length) :
        P (ExceptT.mk (Kernel.holdingLock (mapPlaced r prot flags length).run)).run)
      exact e.ite (e.handler_bind (e.handler_throw _) fun _ => hmap) hmap
  · exact e.lift_bind (e.note _) fun _ => e.handler_throw _

theorem service {f : Frame} {x : Service β} (hx : x ∈ services f) : P x.handler.run :=
  e.serves.service hx fun _ => e.mapMemory _

theorem handleSyscall (f : Frame) : P (handleSyscall f) :=
  e.serves.handleSyscall fun _ => e.mapMemory _

theorem attach (id : MemoryId) : P (attach id : Action (Kernel β) Unit) := by
  refine e.bind e.current fun k => e.ite ?_ (e.update _)
  exact e.bind (e.serves.halt _) fun _ => e.update _

theorem install (h : HeapId) : P (install h : Action (Kernel β) Unit) := by
  have hset : P (do
      Action.update ({ · with installed := some h })
      Action.say .important [.text "Kernel heap handed off from early memory\n"] :
      Action (Kernel β) Unit) :=
    e.bind (e.update _) fun _ => e.say _ _
  refine e.bind e.current fun k => ?_
  cases k.attached with
  | none => exact hset
  | some id => exact e.bind (e.serves.onMemory _ _) fun _ => hset

theorem startMemory (id : MemoryId) (regions : List Range) :
    P (Boot.startMemory id regions : Action (Kernel β) Bool) := by
  unfold Boot.startMemory
  split
  · exact e.bind (e.say _ _) fun _ => e.pure false
  · refine e.bind (e.serves.onMemory _ _) fun o => e.ite ?_ (e.pure false)
    exact e.bind (e.attach id) fun _ => e.pure true

theorem extendMemory (id : MemoryId) (regions : List Range) :
    P (Boot.extendMemory id regions : Action (Kernel β) Bool) := by
  unfold Boot.extendMemory
  split
  · exact e.bind (e.serves.onMemory _ _) fun o => e.pure _
  · exact e.pure true

theorem initializer {id : MemoryId} {regions : List Range} {index : Nat} {role : Boot.Role}
    {act : Action (Kernel β) Bool} (h : role.initializer id regions index = some act) : P act := by
  cases role with
  | marker => cases h
  | ends => cases h
  | succeeds =>
    cases h
    exact e.bind (e.note _) fun _ => e.pure true
  | fails =>
    cases h
    exact e.bind (e.note _) fun _ => e.pure false
  | startsMemory =>
    cases h
    exact e.startMemory id regions
  | extendsMemory =>
    cases h
    exact e.extendMemory id regions

omit [HeapBackend β] in
theorem component {minimal : Importance} {c : Component (Kernel β)}
    (h : ∀ act, c.initializer = some act → P act) : P (c.run minimal) := by
  obtain ⟨name, initializer, flags, importance⟩ := c
  cases initializer with
  | none => exact e.ite (e.bind (e.print _) fun _ => e.fault _) (e.fault _)
  | some act =>
    have htell : P (do
        if Component.showsFailure minimal importance then
          Action.print [.text "Failed to initialize ", .name name, .text "\n"]
        return true : Action (Kernel β) Bool) :=
      e.ite (e.bind (e.print _) fun _ => e.pure true) (e.pure true)
    have hrun : P (do
        if ← act then return false
        if (⟨name, act, flags, importance⟩ : Component (Kernel β)).required then
          Action.halt (.requiredComponent name)
        if Component.showsFailure minimal importance then
          Action.print [.text "Failed to initialize ", .name name, .text "\n"]
        return true) := by
      have hhalt : P (Action.halt (.requiredComponent name) : Action (Kernel β) PUnit) :=
        e.bind (e.print _) fun _ => e.fault _
      exact e.bind (h act rfl) fun done =>
        e.ite (e.pure false) (e.ite (e.bind hhalt fun _ => htell) htell)
    exact e.ite (e.bind (e.print _) fun _ => hrun) hrun

omit [HeapBackend β] in
theorem runTable {minimal : Importance} {cs : List (Component (Kernel β))}
    (h : ∀ c ∈ cs, ∀ act, c.initializer = some act → P act) :
    P (Component.runTable minimal cs) := by
  induction cs with
  | nil => exact e.pure 0
  | cons c cs ih =>
    have hrest := ih fun d hd => h d (List.mem_cons_of_mem c hd)
    refine e.ite (e.pure 0) (e.ite (e.ite (e.bind (e.print _) fun _ => hrest) hrest) ?_)
    refine e.bind (e.component (h c List.mem_cons_self)) fun failed => ?_
    exact e.bind hrest fun failures => e.pure _

theorem table {id : MemoryId} {regions : List Range} {c : Component (Kernel β)}
    (hc : c ∈ Boot.table id regions) {act : Action (Kernel β) Bool}
    (h : c.initializer = some act) : P act := by
  simp only [Boot.table, List.mem_cons, List.not_mem_nil, or_false] at hc
  rcases hc with rfl | rfl | rfl | rfl
  · cases h
  · cases h
    exact e.startMemory id regions
  · cases h
    exact e.extendMemory id regions
  · cases h

theorem tableOf {id : MemoryId} {regions : List Range} {entries : List Boot.Entry}
    {c : Component (Kernel β)} (hc : c ∈ Boot.tableOf id regions entries)
    {act : Action (Kernel β) Bool} (h : c.initializer = some act) : P act := by
  rcases List.mem_append.mp hc with hc | hc
  · obtain ⟨i, hi, rfl⟩ := List.mem_mapIdx.mp hc
    unfold Boot.Entry.component at h
    split at h
    · cases h
    · exact e.initializer h
  · obtain rfl := List.mem_singleton.mp hc
    cases h

/-- What every part of an action has, a command has as well. -/
theorem execute {c : Command β} (hset : c.setsThreshold = false)
    (hown : ∀ d ∈ c.components, ∀ act, d.initializer = some act → P act) : P (execute c) := by
  cases c with
  | memory id op => exact e.bind (e.serves.onMemory id op) fun _ => e.pure _
  | owns id a => exact e.bind e.current fun _ => e.pure _
  | attach id => exact e.bind (e.attach id) fun _ => e.pure _
  | install h => exact e.bind (e.install h) fun _ => e.pure _
  | resetRouting => exact e.bind (e.update _) fun _ => e.pure _
  | allocate size align => exact e.bind e.serves.allocate fun _ => e.pure _
  | free a => exact e.bind e.serves.free fun _ => e.pure _
  | boot id regions minimal =>
    exact e.bind (e.runTable fun _ hc _ h => e.table hc h) fun _ => e.pure _
  | table cs minimal => exact e.bind (e.runTable hown) fun _ => e.pure _
  | syscall f => exact e.bind (e.handleSyscall f) fun _ => e.pure _
  | setThreshold t => cases hset
  | change F => exact e.bind e.current fun k => e.bind (e.update _) fun _ => e.pure _

end Elementary

end Kernel

end KernelCore
