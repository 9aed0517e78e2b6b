import KernelCore.Syscall.Mapping

/-! # The system call table

A frame carries the number of a call and six argument registers. Arguments that are declared as 32-bit
integers are read from the low half of their register. A number outside the table is not implemented.
-/

namespace KernelCore

structure Frame where
  number : UInt64
  args : Vector UInt64 6
  deriving DecidableEq

namespace Frame

def word (f : Frame) (i : Fin 6) : UInt64 := f.args[i]

def unsigned (f : Frame) (i : Fin 6) : UInt32 := f.args[i].toUInt32

def signed (f : Frame) (i : Fin 6) : Int32 := f.args[i].toUInt32.toInt32

/-- What a frame asks to be mapped. -/
def mapRequest (f : Frame) : Kernel.MapRequest :=
  ⟨f.word 0, f.word 1, f.unsigned 2, f.unsigned 3, f.signed 4, f.word 5⟩

end Frame

namespace Kernel

variable {β : Type}

/-- The descriptor that stands for the working directory. -/
def workingDirectory : Descriptor := -100

/-- Device controls are ignored. -/
def controlDevice (fd : Descriptor) (op : UInt64) : Handler (Kernel β) UInt64 := do
  ExceptT.lift <| Action.say .important
    [.text "Ignore SYS_IOCTL (fd ", .number fd.toInt, .text ", op ", .number op.toNat, .text ")\n"]
  return 0

/-- Paths are relative to the working directory only. -/
def openPath (directory : Descriptor) (path : Address) (flags mode : UInt32) :
    Handler (Kernel β) Descriptor := do
  if directory ≠ workingDirectory then throw .invalid
  if path = 0 then throw .fault
  ExceptT.lift needTask
  openFile path flags mode

def closeDescriptor (fd : Descriptor) : Handler (Kernel β) Unit := do
  ExceptT.lift needTask
  closeFile fd

def readDescriptor (fd : Descriptor) (buffer : Address) (length : UInt64) :
    Handler (Kernel β) UInt64 := do
  ExceptT.lift needTask
  readFile fd buffer length

def writeDescriptor (fd : Descriptor) (buffer : Address) (length : UInt64) :
    Handler (Kernel β) UInt64 := do
  ExceptT.lift needTask
  writeFile fd buffer length

def writeDescriptorVectors (fd : Descriptor) (vectors : Address) (count : Int32) :
    Handler (Kernel β) UInt64 := do
  if count < 0 then throw .invalid
  ExceptT.lift needTask
  writeVectors fd vectors count.toInt.toNat.toUInt64

/-- Notes the address that is cleared when the task exits. -/
def setTidAddress (a : Address) : Handler (Kernel β) UInt64 := do
  ExceptT.lift needTask
  ExceptT.lift (ask (fun k => ((), { k with task := { k.task with clearChildTid := some a } }))
    (fun _ => .setClearChildTid a))
  return (← ExceptT.lift Action.current).task.id

def exitTask (status : Int32) : Action (Kernel β) Int64 := do
  Action.say .important
    [.text "system is exiting (status ", .number status.toInt, .text ")\n"]
  Action.fault (.exited status)

structure SyscallEntry (β : Type) where
  number : UInt64
  name : String
  run : Frame → Action (Kernel β) Int64

variable [HeapBackend β]

/-- An entry whose handler replies under its own name. -/
def replying {α : Type} [ReplyValue α] (number : UInt64) (name : String)
    (handler : Frame → Handler (Kernel β) α) : SyscallEntry β :=
  ⟨number, name, fun f => Handler.reply name (handler f)⟩

def syscallTable : List (SyscallEntry β) :=
  [replying 29 "ioctl" fun f => controlDevice (f.signed 0) (f.word 1),
    replying 56 "openat" fun f => openPath (f.signed 0) (f.word 1) (f.unsigned 2) (f.unsigned 3),
    replying 57 "close" fun f => closeDescriptor (f.signed 0),
    replying 63 "read" fun f => readDescriptor (f.signed 0) (f.word 1) (f.word 2),
    replying 64 "write" fun f => writeDescriptor (f.signed 0) (f.word 1) (f.word 2),
    replying 66 "writev" fun f => writeDescriptorVectors (f.signed 0) (f.word 1) (f.signed 2),
    ⟨93, "exit", fun f => exitTask (f.signed 0)⟩,
    ⟨94, "exit_group", fun f => exitTask (f.signed 0)⟩,
    replying 96 "set_tid_address" fun f => setTidAddress (f.word 0),
    replying 222 "mmap" fun f => mapMemory f.mapRequest]

/-- Runs the call that a frame asks for and answers what its caller sees. -/
def handleSyscall (f : Frame) : Action (Kernel β) Int64 := do
  match syscallTable.find? (·.number = f.number) with
  | some entry =>
      Action.say .debug [.text "handle_syscall [", .number f.number.toNat, .text "] ",
        .text entry.name, .text "\n"]
      entry.run f
  | none =>
      Action.say .important
        [.text "Unimplemented syscall: ", .number f.number.toNat, .text "\n"]
      return Errno.noSyscall.toReply

end Kernel

end KernelCore
