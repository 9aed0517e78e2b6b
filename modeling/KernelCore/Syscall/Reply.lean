import KernelCore.Kernel.Action

/-! # System call replies

A handler either has a value for its caller or an error number. The caller sees a single signed
word: the value, read as signed, or the error number negated. The outcome is logged under the name
of the call, at debug importance for a success and for a failure that only asks to try again.
-/

namespace KernelCore

abbrev Handler (κ α : Type) := ExceptT Errno (Action κ) α

/-- Values that a system call can hand to its caller. -/
class ReplyValue (α : Type) where
  toReply : α → Int64

namespace ReplyValue

instance : ReplyValue Unit := ⟨fun _ => 0⟩
instance : ReplyValue UInt64 := ⟨UInt64.toInt64⟩
instance : ReplyValue Int32 := ⟨Int32.toInt64⟩
instance : ReplyValue UInt8 := ⟨fun v => v.toUInt64.toInt64⟩

end ReplyValue

namespace Errno

def toReply (e : Errno) : Int64 := -e.code.toInt64

/-- How much it matters that a call failed this way. -/
def importance (e : Errno) : Importance := if e = .again then .debug else .important

end Errno

namespace Handler

variable {κ α : Type} [ReplyValue α]

/-- Runs a handler under the name of its call. -/
def reply (name : String) (body : Handler κ α) : Action κ Int64 := do
  match ← body.run with
  | .ok v =>
      let value := ReplyValue.toReply v
      Action.say .debug [.text name, .text " => ", .number value.toInt, .text "\n"]
      return value
  | .error e =>
      Action.say e.importance [.text name, .text " => Err(", .text e.name, .text ")\n"]
      return e.toReply

end Handler

end KernelCore
