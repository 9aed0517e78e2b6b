import KernelCore.Proofs.Kernel.Actions
import KernelCore.Syscall.Table

/-! # System calls, part by part

What a relation allows each primitive request to do to a view of the machine, it allows everything
that is put together from such requests. The requests of a mapping fall into three groups: those
that read its file, those that change what is mapped, and the quiet ones, which do neither.
-/

namespace KernelCore

/-- The calls that neither touch a file nor change what is mapped. -/
def Call.quiet : Call → Bool
  | .heapAllocate .. | .heapFree .. | .findFreeArea .. | .fileIsOpen .. => true
  | _ => false

/-- What the log shows, and the quiet calls. -/
def Event.quiet : Event → Bool
  | .printed _ => true
  | .called c _ => c.quiet
  | _ => false

namespace Kernel

open KernelCore.Action

variable {β α γ : Type} {f : Machine (Kernel β) → γ} {R : γ → γ → Prop} {m t : Machine (Kernel β)}
  {fd : Descriptor} {a buffer start : Address} {size align length total offset : UInt64}

/-- A part of the state, and those calls to collaborators that a test picks out. -/
def view (g : Kernel β → γ) (p : Call → Bool) (m : Machine (Kernel β)) : γ × List Call :=
  (g m.state, m.calls.filter p)

theorem view_push {g : Kernel β → γ} {p : Call → Bool} {es : List Event}
    (h : (es.filterMap Event.call?).filter p = []) : view g p (m.push es) = view g p m := by
  rw [view, Machine.calls_push, List.filter_append, h, List.append_nil]
  rfl

theorem keeps_ask {g : Kernel β → γ} {p : Call → Bool} {F : Kernel β → α × Kernel β} {c : α → Call}
    (hF : ∀ k, g (F k).2 = g k) (hc : ∀ a, p (c a) = false) : Keeps (view g p) (ask F c) := by
  intro m
  rw [after_of_ok (ask_apply F c m), view_push (by simp [Event.call?, hc])]
  exact congrArg (·, _) (hF m.state)

theorem keeps_request {g : Kernel β → γ} {p : Call → Bool}
    {F : Kernel β → Except Errno α × Kernel β} {c : Except Errno α → Call}
    (hF : ∀ k, g (F k).2 = g k) (hc : ∀ r, p (c r) = false) :
    Keeps (view g p) (request F c).run :=
  keeps_ask hF hc

/-- Two kernels that differ in their boot memories, heaps and accessible memory only. -/
structure Alike (k l : Kernel β) : Prop where
  space_eq : k.space = l.space
  lock_eq : k.lock = l.lock
  files_eq : k.files = l.files
  task_eq : k.task = l.task

/-- A view that shows nothing of what the quiet requests do. -/
structure Blind (f : Machine (Kernel β) → γ) : Prop where
  push : ∀ m e, e.quiet = true → f (m.push [e]) = f m
  state : ∀ m k, Alike k m.state → f (onState m k) = f m

theorem blind_view {g : Kernel β → γ} {p : Call → Bool} (hg : ∀ k l, Alike k l → g k = g l)
    (hp : ∀ c : Call, c.quiet = true → p c = false) : Blind (view g p) where
  push m e he := by
    refine view_push ?_
    cases e with
    | called c locked => simp [Event.call?, hp c he]
    | _ => rfl
  state m k hk := congrArg (·, _) (hg k m.state hk)

theorem blind_state {g : Kernel β → γ} (hg : ∀ k l, Alike k l → g k = g l) :
    Blind fun m => g m.state where
  push _ _ _ := rfl
  state m k hk := hg k m.state hk

theorem Blind.ask {F : Kernel β → α × Kernel β} {c : α → Call} (b : Blind f)
    (hF : ∀ k, Alike (F k).2 k) (hc : ∀ a, (c a).quiet = true) : Keeps f (ask F c) := by
  intro m
  rw [after_of_ok (ask_apply F c m), b.push _ (.called _ _) (hc (F m.state).1)]
  exact b.state m _ (hF m.state)

theorem Blind.update {F : Kernel β → Kernel β} (b : Blind f) (hF : ∀ k, Alike (F k) k) :
    Keeps f (update F) := fun m => b.state m _ (hF m.state)

/-- A view that shows nothing of the lock. -/
structure Lockless (f : Machine (Kernel β) → γ) : Prop where
  push : ∀ m e, e = .locking ∨ e = .unlocking → f (m.push [e]) = f m
  state : ∀ m l, f (onState m { m.state with lock := l }) = f m

theorem lockless_view {g : Kernel β → γ} {p : Call → Bool}
    (hg : ∀ k l, g { k with lock := l } = g k) : Lockless (view g p) where
  push m e he := by
    refine view_push ?_
    rcases he with rfl | rfl <;> rfl
  state m l := congrArg (·, _) (hg m.state l)

theorem lockless_state {g : Kernel β → γ} (hg : ∀ k l, g { k with lock := l } = g k) :
    Lockless fun m => g m.state where
  push _ _ _ := rfl
  state m l := hg m.state l

namespace Lockless

variable (l : Lockless f)

include l

theorem acquireLock : Keeps f acquireLock := by
  intro m
  cases h : m.state.lock.held with
  | false =>
    rw [after_of_ok (acquireLock_of_free h), l.push _ _ (Or.inl rfl)]
    exact l.state m _
  | true => rw [after_of_error (acquireLock_of_held h), l.push _ _ (Or.inl rfl)]

theorem unlocked (m : Machine (Kernel β)) : f (unlocked m) = f m := by
  rw [unlocked_eq, l.push _ _ (Or.inr rfl)]
  exact l.state m _

theorem holdingLock [Std.Refl R] {x : Action (Kernel β) α} (hx : Takes f R x) :
    Takes f R (holdingLock x) := by
  intro m
  have hlock := l.acquireLock m
  rw [after_holdingLock]
  cases h : Kernel.acquireLock m with
  | error e u =>
    rw [after_of_error h] at hlock
    dsimp only
    rw [hlock]
    exact Std.Refl.refl _
  | ok a u =>
    rw [after_of_ok h] at hlock
    dsimp only
    rw [l.unlocked, ← hlock]
    exact hx u

end Lockless

end Kernel

namespace Action.Compositional

open Kernel

variable {β : Type} {P : ∀ {α : Type}, Action (Kernel β) α → Prop} {fd : Descriptor}
  {buffer start : Address} {length total offset : UInt64} (c : Compositional P)

include c

theorem readOn
    (h : ∀ buffer length, P (readFile fd buffer length : Handler (Kernel β) UInt64).run) :
    P (readOn fd buffer length total : Action (Kernel β) (UInt64 × Option Errno)) := by
  induction total using Kernel.readOn.induct length with
  | case1 total hlt ih =>
    rw [Kernel.readOn, if_pos hlt]
    refine c.bind (h _ _) fun r => ?_
    cases r with
    | error e => exact c.pure _
    | ok got =>
      dsimp only
      split
      · exact c.pure _
      · split
        · exact c.pure _
        · exact ih got ‹_› ‹_›
  | case2 total hge =>
    rw [Kernel.readOn, if_neg hge]
    exact c.pure _

section Seeking

variable (hseek : ∀ offset whence,
  P (seekFile fd offset whence : Handler (Kernel β) UInt64).run)

include hseek

theorem moveCursor : P (moveCursor fd offset : Handler (Kernel β) (Option UInt64)).run := by
  refine c.ite (c.handler_pure none) (c.handler_bind (hseek _ _) fun cursor => ?_)
  exact c.handler_bind (hseek _ _) fun _ => c.handler_pure (some cursor)

theorem restoreCursor {saved : Option UInt64} :
    P (restoreCursor fd saved : Action (Kernel β) (Option Errno)) := by
  cases saved with
  | none => exact c.pure none
  | some cursor =>
    refine c.bind (hseek _ _) fun r => ?_
    cases r <;> exact c.pure _

theorem readContents
    (hread : ∀ buffer length, P (readFile fd buffer length : Handler (Kernel β) UInt64).run) :
    P (readContents fd offset buffer length : Handler (Kernel β) UInt64).run := by
  refine c.handler_bind (c.moveCursor hseek) fun saved =>
    c.lift_bind (c.readOn hread) fun x => c.lift_bind (c.restoreCursor hseek) fun o => ?_
  cases x.2.or o with
  | none => exact c.handler_pure _
  | some e => exact c.handler_throw e

end Seeking

section Filling

variable (hprint : ∀ r, P (note (.printed r)))

include hprint

theorem copyContents
    (hread : P (Kernel.readContents fd offset buffer length : Handler (Kernel β) UInt64).run)
    (hwrite : ∀ count, P (writeRegion start buffer count)) :
    P (copyContents start length fd offset buffer : Handler (Kernel β) Unit).run := by
  refine c.handler_bind hread fun count => c.lift_bind (hprint _) fun _ =>
    c.lift_bind (hwrite count) fun r => ?_
  cases r with
  | ok u => exact c.handler_pure _
  | error e => exact c.lift_bind (hprint _) fun _ => c.handler_throw _

theorem sayAll (rs : List Record) : P (sayAll rs) := by
  induction rs with
  | nil => exact c.pure ()
  | cons r rs ih => exact c.bind (hprint r) fun _ => ih

end Filling

theorem place [HeapBackend β] {r : MapRequest} {flags : MapFlags}
    (hfind : ∀ hint length limit, P (findArea hint length limit)) :
    P (place r flags length : Handler (Kernel β) Address).run := by
  refine c.ite (c.ite (c.handler_pure _) (c.handler_throw _)) ?_
  refine c.lift_bind c.current fun k => c.lift_bind (hfind _ _ _) fun o => ?_
  cases o with
  | some start => exact c.handler_pure start
  | none => exact c.handler_throw _

theorem needOpenFile (hopen : ∀ fd, P (isOpenFile fd)) :
    P (needOpenFile fd : Handler (Kernel β) Unit).run := by
  have h : P (do unless ← ExceptT.lift (Kernel.isOpenFile fd) do throw .badDescriptor :
      Handler (Kernel β) Unit).run :=
    c.lift_bind (hopen fd) fun _ => c.ite (c.handler_pure ()) (c.handler_throw _)
  exact c.ite (c.handler_bind (c.handler_throw _) fun _ => h) h

end Action.Compositional

namespace Kernel

open KernelCore.Action

variable {β α γ : Type} {f : Machine (Kernel β) → γ} {R : γ → γ → Prop}
  {P : ∀ {α : Type}, Action (Kernel β) α → Prop} {m t : Machine (Kernel β)} {fd : Descriptor}
  {a buffer start : Address} {size align length total offset : UInt64}

theorem needTask_apply (m : Machine (Kernel β)) :
    needTask m = if m.state.task.present then .ok () m else .error .noCurrentTask m := by
  rw [needTask, bind_apply, current_apply]
  dsimp only
  split <;> rfl

theorem keeps_needTask : Keeps f (needTask : Action (Kernel β) Unit) :=
  .bind keeps_current fun _ => .ite (keeps_pure ()) (keeps_fault _)

variable [HeapBackend β]

/-- A property of the quiet requests, which passes to what is put together from them. -/
structure Quiet (P : ∀ {α : Type}, Action (Kernel β) α → Prop) : Prop extends Compositional P where
  fault : ∀ {α : Type} (e : Fault), P (fault e : Action (Kernel β) α)
  printed : ∀ r, P (note (.printed r))
  setMemory : ∀ id b, P (update (·.setMemory id b))
  clearBytes : ∀ a length, P (clearBytes a length)
  askHeap : ∀ h size align, P (askHeap h size align)
  giveHeap : ∀ h a, P (giveHeap h a)
  findArea : ∀ hint length limit, P (findArea hint length limit)
  isOpenFile : ∀ fd, P (isOpenFile fd)

theorem Blind.quiet [IsPreorder γ R] (b : Blind f) : Quiet (Takes f R) where
  toCompositional := compositional_takes
  fault e := (keeps_fault e).takes
  printed _ := Keeps.takes (keeps_note fun m => b.push m _ rfl)
  setMemory id x := Keeps.takes <|
    b.update (F := (·.setMemory id x)) fun _ => ⟨rfl, rfl, rfl, rfl⟩
  clearBytes a n := Keeps.takes <|
    b.update (F := fun k => { k with memory := k.memory.clear a n }) fun _ => ⟨rfl, rfl, rfl, rfl⟩
  askHeap _ _ _ := (b.ask (fun _ => ⟨rfl, rfl, rfl, rfl⟩) fun _ => rfl).takes
  giveHeap h a := by
    refine (b.ask (fun k => ?_) fun _ => rfl).takes
    cases HeapBackend.free? (k.getHeap h) a <;> exact ⟨rfl, rfl, rfl, rfl⟩
  findArea _ _ _ := (b.ask (fun _ => ⟨rfl, rfl, rfl, rfl⟩) fun _ => rfl).takes
  isOpenFile _ := (b.ask (fun _ => ⟨rfl, rfl, rfl, rfl⟩) fun _ => rfl).takes

namespace Quiet

variable (q : Quiet P)

include q

theorem say (i : Importance) (items : List Item) : P (say i items) := q.printed _

theorem halt (p : Panic) : P (halt p : Action (Kernel β) α) :=
  q.bind (q.printed _) fun _ => q.fault _

theorem needTask : P (needTask : Action (Kernel β) Unit) := by
  exact q.bind q.current fun k => q.ite (q.pure ()) (q.fault _)

theorem onMemory (id : MemoryId) (op : BootMemory.Operation) : P (onMemory id op) := by
  refine q.bind q.current fun k => q.bind (q.toCompositional.sayAll q.printed _) fun _ => ?_
  cases (k.getMemory id).apply op with
  | ok x => exact q.bind (q.setMemory _ _) fun _ => q.pure _
  | error p => exact q.halt p

theorem allocate : P (allocate size align : Action (Kernel β) (Option Address)) := by
  refine q.bind q.current fun k => ?_
  cases k.installed with
  | some h => exact q.bind (q.askHeap _ _ _) fun _ => q.pure _
  | none =>
    cases k.attached with
    | none => exact q.pure none
    | some id =>
      refine q.bind (q.onMemory _ _) fun o => ?_
      cases o <;> exact q.pure _

theorem free : P (free a : Action (Kernel β) Unit) := by
  refine q.ite (q.pure ()) (q.bind q.current fun k => ?_)
  cases k.attachedOwner? a with
  | some id => exact q.bind (q.onMemory _ _) fun _ => q.pure ()
  | none =>
    cases k.installed with
    | some h => exact q.bind (q.giveHeap _ _) fun _ => q.ite (q.pure ()) (q.fault _)
    | none => exact q.halt _

theorem place {r : MapRequest} {flags : MapFlags} :
    P (place r flags length : Handler (Kernel β) Address).run :=
  q.toCompositional.place q.findArea

theorem needOpenFile : P (needOpenFile fd : Handler (Kernel β) Unit).run :=
  q.toCompositional.needOpenFile q.isOpenFile

theorem populate
    (hread : ∀ buffer, P (readContents fd offset buffer length : Handler (Kernel β) UInt64).run)
    (hwrite : ∀ buffer count, P (writeRegion start buffer count)) :
    P (populate start length fd offset : Handler (Kernel β) Unit).run := by
  refine q.lift_bind q.allocate fun p => ?_
  cases p with
  | none => exact q.handler_throw _
  | some buffer =>
    refine q.lift_bind (q.clearBytes _ _) fun _ =>
      q.lift_bind (q.copyContents q.printed (hread buffer) (hwrite buffer)) fun outcome =>
        q.lift_bind q.free fun _ => ?_
    exact q.pure outcome

theorem mapAt {r : MapRequest} {permissions : Permissions} {anonymous : Bool}
    (hmap : P (mapRegion start length permissions))
    (hfill : P (Kernel.populate start r.length r.fd r.offset : Handler (Kernel β) Unit).run) :
    P (mapAt r permissions anonymous length start : Handler (Kernel β) Address).run := by
  refine q.lift_bind hmap fun o => ?_
  cases o with
  | error e => exact q.lift_bind (q.say _ _) fun _ => q.handler_throw _
  | ok u =>
    cases anonymous with
    | true => exact q.handler_pure start
    | false => exact q.handler_bind hfill fun _ => q.handler_pure start

theorem mapPlaced {r : MapRequest} {prot : Protection} {flags : MapFlags}
    (h : ∀ start, P (Kernel.mapAt r prot.toPermissions (flags.contains MapFlags.anonymous)
      length start : Handler (Kernel β) Address).run) :
    P (mapPlaced r prot flags length : Handler (Kernel β) Address).run := by
  exact q.handler_bind q.place fun start =>
    q.ite (h start) (q.handler_bind q.needOpenFile fun _ => h start)

end Quiet

/-- A mapping is refused, finds no task, or is made under the lock. -/
theorem mapMemory_cases (r : MapRequest) (m : Machine (Kernel β)) :
    ∃ record : Record,
      (∃ e, (mapMemory r).run m = .ok (.error e) (m.push [.printed record])) ∨
      ((mapMemory r).run m = .error .noCurrentTask (m.push [.printed record]) ∧
        m.state.task.present = false) ∨
      ∃ (prot : Protection) (flags : MapFlags) (length : UInt64),
        Flags.ofBits? r.prot.toBitVec = some prot ∧ Flags.ofBits? r.flags.toBitVec = some flags ∧
        Word.alignUp? r.length pageBytes = some length ∧ length ≠ 0 ∧
        (mapMemory r).run m =
          holdingLock (mapPlaced r prot flags length).run (m.push [.printed record]) := by
  unfold mapMemory
  split
  · rename_i prot flags hprot hflags
    rw [Handler.bind_lift_apply, say_apply]
    refine ⟨⟨some .debug, requestItems r⟩, ?_⟩
    dsimp only
    split
    · exact Or.inl ⟨_, rfl⟩
    · rename_i length hlength
      by_cases hz : length = 0
      · rw [if_pos hz]
        exact Or.inl ⟨_, rfl⟩
      · rw [if_neg hz, Handler.bind_lift_apply, needTask_apply]
        by_cases htask : m.state.task.present = true
        · rw [Machine.state_push, if_pos htask]
          exact Or.inr (Or.inr ⟨prot, flags, length, hprot, hflags, hlength, hz, rfl⟩)
        · rw [Machine.state_push, if_neg htask]
          exact Or.inr (Or.inl ⟨rfl, Bool.eq_false_iff.mpr htask⟩)
  · rw [Handler.bind_lift_apply, say_apply]
    exact ⟨_, Or.inl ⟨_, rfl⟩⟩

theorem takes_mapMemory [Std.Refl R] (b : Blind f) (l : Lockless f) {r : MapRequest}
    (h : ∀ (prot : Protection) (anonymous : Bool) (length : UInt64) (start : Address),
      Flags.ofBits? r.prot.toBitVec = some prot → Word.alignUp? r.length pageBytes = some length →
      Takes f R (mapAt r prot.toPermissions anonymous length start).run) :
    Takes f R (mapMemory r).run := by
  intro m
  have q : Quiet (Takes f Eq) := b.quiet
  obtain ⟨record, hcases⟩ := mapMemory_cases r m
  have hpush : f (m.push [.printed record]) = f m := b.push m _ rfl
  rcases hcases with ⟨e, hr⟩ | ⟨hr, -⟩ | ⟨prot, flags, length, hprot, -, hlength, -, hr⟩
  · rw [after_of_ok hr, hpush]
    exact Std.Refl.refl _
  · rw [after_of_error hr, hpush]
    exact Std.Refl.refl _
  · have hmap (start : Address) :=
      h prot (flags.contains MapFlags.anonymous) length start hprot hlength
    have hplaced : Takes f R (mapPlaced r prot flags length).run :=
      Handler.takes_keeps_bind q.place.keeps fun start =>
        .ite (hmap start) (Handler.takes_keeps_bind q.needOpenFile.keeps fun _ => hmap start)
    rw [after, hr, ← hpush]
    exact l.holdingLock hplaced _

end Kernel

end KernelCore
