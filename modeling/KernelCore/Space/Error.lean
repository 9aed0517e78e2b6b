import KernelCore.Errno
import KernelCore.Text.Item

/-! # Address-space errors

Why an address space refuses a mapping or a write, and the error number that a system call
reports for it. A code outside the list prints nothing and counts as a passing failure.
-/

namespace KernelCore

inductive SpaceError where
  | noMemory
  | invalidInput
  | alreadyExists
  | badState
  | badAddress
  | unsupported
  | other (code : UInt8)
  deriving DecidableEq, Repr

namespace SpaceError

def ofCode (c : UInt8) : SpaceError :=
  match c.toNat with
  | 0 => noMemory
  | 1 => invalidInput
  | 2 => alreadyExists
  | 3 => badState
  | 4 => badAddress
  | 5 => unsupported
  | _ => other c

def items : SpaceError → List Item
  | noMemory => [.text "NoMemory"]
  | invalidInput => [.text "InvalidInput"]
  | alreadyExists => [.text "AlreadyExists"]
  | badState => [.text "BadState"]
  | badAddress => [.text "BadAddress"]
  | unsupported => [.text "Unsupported"]
  | other _ => []

def toErrno : SpaceError → Errno
  | noMemory => .noMemory
  | invalidInput => .invalid
  | alreadyExists | badState | badAddress | unsupported | other _ => .again

end SpaceError

end KernelCore
