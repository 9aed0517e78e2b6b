import KernelCore.Files.Transfer
import KernelCore.Kernel.State
import KernelCore.Syscall.Reply

/-! # Calls to the file table

The requests that the kernel puts to the file table of the current task.
-/

namespace KernelCore.Kernel

variable {β : Type}

/-- A request that may be refused with an error number. -/
def request {α : Type} (f : Kernel β → Except Errno α × Kernel β) (c : Except Errno α → Call) :
    Handler (Kernel β) α :=
  ExceptT.mk (ask f c)

def setFiles (k : Kernel β) (t : FileTable) : Kernel β := { k with files := t }

def openFile (path : Address) (flags mode : UInt32) : Handler (Kernel β) Descriptor :=
  request (fun k => (k.files.openAt k.memory path).map id k.setFiles) (.fileOpen path flags mode)

def closeFile (fd : Descriptor) : Handler (Kernel β) Unit :=
  request (fun k =>
      match k.files.close fd with
      | .ok t => (.ok (), k.setFiles t)
      | .error e => (.error e, k))
    (.fileClose fd)

def readFile (fd : Descriptor) (buffer : Address) (length : UInt64) : Handler (Kernel β) UInt64 :=
  request (fun k =>
      let (r, t, m) := k.files.readInto k.memory fd buffer length
      (r, { k with files := t, memory := m }))
    (.fileRead fd buffer length)

def writeFile (fd : Descriptor) (buffer : Address) (length : UInt64) : Handler (Kernel β) UInt64 :=
  request (fun k => (k.files.appendFrom fd (k.memory.load? buffer length)).map id k.setFiles)
    (.fileWrite fd buffer length)

def writeVectors (fd : Descriptor) (vectors : Address) (count : UInt64) :
    Handler (Kernel β) UInt64 :=
  request (fun k =>
      (k.files.appendFrom fd (FileTable.vectorBytes? k.memory vectors count)).map id k.setFiles)
    (.fileWriteVectors fd vectors count)

def seekFile (fd : Descriptor) (offset : Int64) (whence : Whence) : Handler (Kernel β) UInt64 :=
  request (fun k => (k.files.seek fd offset whence).map id k.setFiles) (.fileSeek fd offset whence)

def isOpenFile (fd : Descriptor) : Action (Kernel β) Bool :=
  ask (fun k => (k.files.isOpen fd, k)) (.fileIsOpen fd)

end KernelCore.Kernel
