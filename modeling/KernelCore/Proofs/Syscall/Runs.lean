import KernelCore.Proofs.Syscall.Services
import KernelCore.Proofs.Syscall.Traversal

/-! # Runs of system calls

A run is a sequence of system calls with arbitrary frames. Between two calls everything may change
that is not the address-space lock or a mapping: the collaborators answer as they like. Only one
entry of the table maps memory; all the others leave the address space and its lock alone.
-/

namespace KernelCore

namespace Kernel

open KernelCore.Action

variable {β α γ : Type} {f : Machine (Kernel β) → γ} {R : γ → γ → Prop} {m t : Machine (Kernel β)}
  {fr : Frame}

/-- The number of the call that maps memory. -/
def mapNumber : UInt64 := 222

/-- A view that shows only the address space and its lock. -/
structure Grounded (f : Machine (Kernel β) → γ) : Prop where
  push : ∀ m es, f (m.push es) = f m
  state : ∀ m k, k.space = m.state.space → k.lock = m.state.lock → f (onState m k) = f m

theorem grounded_state {g : Kernel β → γ}
    (hg : ∀ k l : Kernel β, k.space = l.space → k.lock = l.lock → g k = g l) :
    Grounded fun m => g m.state where
  push _ _ := rfl
  state m k := hg k m.state

theorem Grounded.ask {F : Kernel β → α × Kernel β} {c : α → Call} (g : Grounded f)
    (hspace : ∀ k, (F k).2.space = k.space) (hlock : ∀ k, (F k).2.lock = k.lock) :
    Keeps f (ask F c) := by
  intro m
  rw [after_of_ok (ask_apply F c m), g.push]
  exact g.state m _ (hspace _) (hlock _)

theorem Grounded.request {F : Kernel β → Except Errno α × Kernel β} {c : Except Errno α → Call}
    (g : Grounded f) (hspace : ∀ k, (F k).2.space = k.space) (hlock : ∀ k, (F k).2.lock = k.lock) :
    Keeps f (request F c).run :=
  g.ask hspace hlock

variable [HeapBackend β]

/-- A property of the requests to the files and to the task as well. -/
structure Serves (P : ∀ {α : Type}, Action (Kernel β) α → Prop) : Prop extends Quiet P where
  openFile : ∀ path flags mode, P (openFile path flags mode).run
  closeFile : ∀ fd, P (closeFile fd).run
  readFile : ∀ fd buffer length, P (readFile fd buffer length).run
  writeFile : ∀ fd buffer length, P (writeFile fd buffer length).run
  writeVectors : ∀ fd vectors count, P (writeVectors fd vectors count).run
  setTidAddress : ∀ a, P (setTidAddress a).run

namespace Serves

variable {P : ∀ {α : Type}, Action (Kernel β) α → Prop} (s : Serves P)

include s

theorem replied [ReplyValue α] {body : Handler (Kernel β) α} (h : P body.run) :
    P body.replied.run :=
  s.handler_bind h fun _ => s.handler_pure _

theorem reply {name : String} [ReplyValue α] {body : Handler (Kernel β) α}
    (h : P body.run) : P (Handler.reply name body) := by
  refine s.bind h fun r => ?_
  cases r <;> exact s.bind (s.printed _) fun _ => s.pure _

theorem openPath (directory : Descriptor) (path : Address) (flags mode : UInt32) :
    P (openPath directory path flags mode).run := by
  have hopen : P (do
      ExceptT.lift needTask
      Kernel.openFile path flags mode : Handler (Kernel β) Descriptor).run :=
    s.lift_bind s.needTask fun _ => s.openFile _ _ _
  have hpath : P (do
      if path = 0 then throw .fault
      ExceptT.lift needTask
      Kernel.openFile path flags mode : Handler (Kernel β) Descriptor).run :=
    s.ite (s.handler_bind (s.handler_throw _) fun _ => hopen) hopen
  exact s.ite (s.handler_bind (s.handler_throw _) fun _ => hpath) hpath

theorem writeDescriptorVectors (fd : Descriptor) (vectors : Address) (count : Int32) :
    P (writeDescriptorVectors fd vectors count).run := by
  have hwrite : P (do
      ExceptT.lift needTask
      Kernel.writeVectors fd vectors count.toInt.toNat.toUInt64 : Handler (Kernel β) UInt64).run :=
    s.lift_bind s.needTask fun _ => s.writeVectors _ _ _
  exact s.ite (s.handler_bind (s.handler_throw _) fun _ => hwrite) hwrite

theorem exitTask (status : Int32) : P (exitTask status : Action (Kernel β) Int64) :=
  s.bind (s.printed _) fun _ => s.fault _

theorem service {x : Service β} (hx : x ∈ services fr)
    (hmap : x.number = mapNumber → P (mapMemory fr.mapRequest).run) : P x.handler.run := by
  simp only [services, List.mem_cons, List.not_mem_nil, or_false] at hx
  rcases hx with rfl | rfl | rfl | rfl | rfl | rfl | rfl | rfl | rfl | rfl
  · exact s.replied <| s.lift_bind (s.printed _) fun _ => s.handler_pure _
  · exact s.replied (s.openPath _ _ _ _)
  · exact s.replied <| s.lift_bind s.needTask fun _ => s.closeFile _
  · exact s.replied <| s.lift_bind s.needTask fun _ => s.readFile _ _ _
  · exact s.replied <| s.lift_bind s.needTask fun _ => s.writeFile _ _ _
  · exact s.replied (s.writeDescriptorVectors _ _ _)
  · exact s.lift (s.exitTask _)
  · exact s.lift (s.exitTask _)
  · exact s.replied (s.setTidAddress _)
  · exact s.replied (hmap rfl)

theorem handleSyscall (hmap : fr.number = mapNumber → P (mapMemory fr.mapRequest).run) :
    P (handleSyscall fr) := by
  rw [handleSyscall_eq]
  cases hx : (service? fr : Option (Service β)) with
  | none => exact s.bind (s.printed _) fun _ => s.pure _
  | some x =>
    have hnumber : x.number = fr.number := by simpa using List.find?_some hx
    refine s.bind (s.printed _) fun _ => s.reply (s.service (List.mem_of_find?_eq_some hx) ?_)
    rwa [hnumber]

theorem handleSyscall_of_ne (hn : fr.number ≠ mapNumber) : P (Kernel.handleSyscall fr) :=
  s.handleSyscall fun h => absurd h hn

end Serves

theorem Grounded.serves [IsPreorder γ R] (g : Grounded f) : Serves (Takes f R) where
  toQuiet := Blind.quiet
    ⟨fun m e _ => g.push m [e], fun m k hk => g.state m k hk.space_eq hk.lock_eq⟩
  openFile _ _ _ := (g.request (fun _ => rfl) fun _ => rfl).takes
  closeFile fd := by
    refine (g.request (fun k => ?_) fun k => ?_).takes
    all_goals cases k.files.close fd <;> rfl
  readFile _ _ _ := (g.request (fun _ => rfl) fun _ => rfl).takes
  writeFile _ _ _ := (g.request (fun _ => rfl) fun _ => rfl).takes
  writeVectors _ _ _ := (g.request (fun _ => rfl) fun _ => rfl).takes
  setTidAddress a :=
    Handler.takes_bind (Handler.takes_lift keeps_needTask.takes) fun _ =>
      Handler.takes_bind (Handler.takes_lift (g.ask (fun _ => rfl) fun _ => rfl).takes) fun _ =>
        Handler.takes_bind (Handler.takes_lift keeps_current.takes) fun k =>
          Handler.takes_pure k.task.id

theorem handleSyscall_of_eq (hn : fr.number = mapNumber) :
    (handleSyscall fr : Action (Kernel β) Int64) =
      say .debug [.text "handle_syscall [", .number fr.number.toNat, .text "] ", .text "mmap",
        .text "\n"] >>= fun _ => Handler.reply "mmap" (mapMemory fr.mapRequest) := by
  have hfind : (syscallTable : List (SyscallEntry β)).find? (·.number = fr.number) =
      some (replying mapNumber "mmap" fun f => mapMemory f.mapRequest) := by
    rw [hn]
    rfl
  unfold handleSyscall
  rw [hfind]
  rfl

/-- To the address space and its lock a system call does what a mapping does. -/
theorem Grounded.handleSyscall [Std.Refl R] (g : Grounded f)
    (hmap : fr.number = mapNumber → Takes f R (mapMemory fr.mapRequest).run) :
    Takes f R (handleSyscall fr) := by
  have s : Serves (Takes f Eq) := g.serves
  by_cases hn : fr.number = mapNumber
  · rw [handleSyscall_of_eq hn]
    refine .keeps_bind (s.printed _).keeps fun _ => .bind_keeps (hmap hn) fun r => ?_
    cases r <;> exact .bind (s.printed _).keeps fun _ => keeps_pure _
  · exact (s.handleSyscall_of_ne hn).keeps.takes

/-- What system calls lead to from a machine, whether they return or end in a fault. -/
inductive Run (m : Machine (Kernel β)) : Machine (Kernel β) → Prop
  | start : Run m m
  | call {t : Machine (Kernel β)} (fr : Frame) : Run m t → Run m ((handleSyscall fr).after t)
  | between {t : Machine (Kernel β)} (k : Kernel β) (es : List Event) : Run m t →
      k.lock = t.state.lock → k.space = { t.state.space with policy := k.space.policy } →
      Run m ((onState t k).push es)

end Kernel

end KernelCore
