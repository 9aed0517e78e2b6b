/-! # Error numbers

The numbers with which system calls report failure. Any 32-bit code can be carried; those from 1
to 40 have a name of their own.
-/

namespace KernelCore

structure Errno where
  code : Int32
  deriving DecidableEq, Repr

namespace Errno

/-- The names of the codes 1 to 40, in order. -/
def names : List String :=
  ["EPERM", "ENOENT", "ESRCH", "EINTR", "EIO", "ENXIO", "E2BIG", "ENOEXEC", "EBADF", "ECHILD",
    "EAGAIN", "ENOMEM", "EACCES", "EFAULT", "ENOTBLK", "EBUSY", "EEXIST", "EXDEV", "ENODEV",
    "ENOTDIR", "EISDIR", "EINVAL", "ENFILE", "EMFILE", "ENOTTY", "ETXTBSY", "EFBIG", "ENOSPC",
    "ESPIPE", "EROFS", "EMLINK", "EPIPE", "EDOM", "ERANGE", "EDEADLK", "ENAMETOOLONG", "ENOLCK",
    "ENOSYS", "ENOTEMPTY", "ELOOP"]

def Named (e : Errno) : Prop := 1 ≤ e.code.toInt ∧ e.code.toInt ≤ 40

def name (e : Errno) : String :=
  if e.code.toInt ≤ 0 then "E?" else names[e.code.toInt.toNat - 1]?.getD "E?"

def io : Errno := ⟨5⟩
def badDescriptor : Errno := ⟨9⟩
def again : Errno := ⟨11⟩
def noMemory : Errno := ⟨12⟩
def fault : Errno := ⟨14⟩
def invalid : Errno := ⟨22⟩
def noSyscall : Errno := ⟨38⟩

end Errno

end KernelCore
