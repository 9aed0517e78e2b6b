import KernelCore.Proofs.Kernel.Actions
import KernelCore.Syscall.Table

/-! # The services behind the system call table

An entry of the table runs a handler and replies with what it comes to. Here the handlers stand by
themselves, with the value that the caller sees, so that their result can be told from the reply.
-/

namespace KernelCore

variable {κ α : Type}

instance : ReplyValue Int64 := ⟨id⟩

namespace Handler

/-- A handler that comes to what its caller sees. -/
def replied [ReplyValue α] (body : Handler κ α) : Handler κ Int64 := do
  return ReplyValue.toReply (← body)

/-- What a caller sees of a result. -/
def replyOf : Except Errno Int64 → Int64
  | .ok r => r
  | .error e => e.toReply

theorem reply_replied [ReplyValue α] (name : String) (body : Handler κ α) :
    reply name body.replied = reply name body := by
  funext m
  rw [reply, reply, Action.bind_apply, Action.bind_apply, replied, bind_apply]
  cases body.run m with
  | ok r t => cases r <;> rfl
  | error e t => rfl

theorem reply_eq_ok {name : String} {body : Handler κ Int64} {m t : Machine κ} {r : Int64}
    (h : reply name body m = .ok r t) :
    ∃ result u record, body.run m = .ok result u ∧ r = replyOf result ∧
      t = u.push [.printed record] := by
  obtain ⟨result, u, hbody, h⟩ := Action.bind_eq_ok h
  cases result with
  | ok v =>
    dsimp only at h
    rw [Action.bind_apply, Action.say_apply] at h
    cases h
    exact ⟨.ok v, u, _, hbody, rfl, rfl⟩
  | error e =>
    dsimp only at h
    rw [Action.bind_apply, Action.say_apply] at h
    cases h
    exact ⟨.error e, u, _, hbody, rfl, rfl⟩

end Handler

namespace Kernel

variable {β : Type}

theorem exitTask_apply (status : Int32) (m : Machine (Kernel β)) :
    exitTask status m = .error (.exited status) (m.push [.printed ⟨some .important,
      [.text "system is exiting (status ", .number status.toInt, .text ")\n"]⟩]) := by
  rw [exitTask, Action.bind_apply, Action.say_apply]
  rfl

theorem reply_exitTask (name : String) (status : Int32) :
    Handler.reply name (ExceptT.lift (exitTask status) : Handler (Kernel β) Int64) =
      exitTask status := by
  funext m
  rw [Handler.reply, Action.bind_apply, Handler.lift_apply, exitTask_apply]

/-- An entry of the table for the arguments of one frame. -/
structure Service (β : Type) where
  number : UInt64
  name : String
  handler : Handler (Kernel β) Int64

variable [HeapBackend β]

/-- A frame has some arguments, so they are numbered from 0. -/
local instance neZero_arguments : @NeZero Nat Zero.ofOfNat0 6 := ⟨by decide⟩

def services (f : Frame) : List (Service β) :=
  [⟨29, "ioctl", (controlDevice (f.signed 0) (f.word 1)).replied⟩,
    ⟨56, "openat", (openPath (f.signed 0) (f.word 1) (f.unsigned 2) (f.unsigned 3)).replied⟩,
    ⟨57, "close", (closeDescriptor (f.signed 0)).replied⟩,
    ⟨63, "read", (readDescriptor (f.signed 0) (f.word 1) (f.word 2)).replied⟩,
    ⟨64, "write", (writeDescriptor (f.signed 0) (f.word 1) (f.word 2)).replied⟩,
    ⟨66, "writev", (writeDescriptorVectors (f.signed 0) (f.word 1) (f.signed 2)).replied⟩,
    ⟨93, "exit", ExceptT.lift (exitTask (f.signed 0))⟩,
    ⟨94, "exit_group", ExceptT.lift (exitTask (f.signed 0))⟩,
    ⟨96, "set_tid_address", (setTidAddress (f.word 0)).replied⟩,
    ⟨222, "mmap", (mapMemory f.mapRequest).replied⟩]

/-- The service that a frame asks for. -/
def service? (f : Frame) : Option (Service β) := (services f).find? (·.number = f.number)

theorem map_syscallTable (f : Frame) :
    (syscallTable : List (SyscallEntry β)).map (fun e => (e.number, e.name, e.run f)) =
      (services f).map fun s => (s.number, s.name, Handler.reply s.name s.handler) := by
  simp [syscallTable, services, replying, Handler.reply_replied, reply_exitTask]

/-- A system call announces its service and replies with what the handler comes to. -/
theorem handleSyscall_eq (f : Frame) :
    (handleSyscall f : Action (Kernel β) Int64) =
      match service? f with
      | some s => do
          Action.say .debug [.text "handle_syscall [", .number f.number.toNat, .text "] ",
            .text s.name, .text "\n"]
          Handler.reply s.name s.handler
      | none => do
          Action.say .important
            [.text "Unimplemented syscall: ", .number f.number.toNat, .text "\n"]
          return Errno.noSyscall.toReply := by
  have h := congrArg (List.find? (·.1 = f.number)) (map_syscallTable (β := β) f)
  simp only [List.find?_map, Function.comp_def] at h
  unfold handleSyscall service?
  cases hentry : (syscallTable (β := β)).find? (·.number = f.number) with
  | none =>
    rw [hentry] at h
    rw [Option.map_eq_none_iff.mp h.symm]
  | some entry =>
    rw [hentry] at h
    obtain ⟨s, hs, hsame⟩ := Option.map_eq_some_iff.mp h.symm
    simp only [Prod.mk.injEq] at hsame
    rw [hs]
    dsimp only
    rw [← hsame.2.1, hsame.2.2]

end Kernel

end KernelCore
