import KernelCore.Text.Item

/-! # Panics

The causes for which the kernel stops, and the message that each leaves behind.
-/

namespace KernelCore

inductive Panic where
  | extentWraps
  | byteAlignment (align : UInt64)
  | pageAlignment (align : UInt64)
  | attachedAfterHandOff
  | unownedPointer (pointer : UInt64)
  | requiredComponent (name : Option String)
  | emptyOptional
  | valueOfFailure
  | errorOfSuccess
  deriving DecidableEq, Repr

namespace Panic

def failedAssertion (message : List Item) : List Item := .text "Assert failed: " :: message

def items : Panic → List Item
  | extentWraps => failedAssertion [.text "Early allocator extent wraps around"]
  | byteAlignment a => failedAssertion
      [.text "Early allocator alignment must be a power of two, got ", .number a.toNat]
  | pageAlignment a => failedAssertion
      [.text "Page alignment must be a power of two, got ", .number a.toNat]
  | attachedAfterHandOff => failedAssertion [.text "Early memory attached after heap hand-off"]
  | unownedPointer p =>
      [.text "Assert not reached ", .text "kfree of a pointer no allocator owns: ", .pointer p]
  | requiredComponent n => [.text "Failed to initialize required component ", .name n]
  | emptyOptional => failedAssertion [.text "Tried to dereference empty optional"]
  | valueOfFailure => failedAssertion [.text "Tried to take the value of a failed result"]
  | errorOfSuccess => failedAssertion [.text "Tried to take the error of a successful result"]

end Panic

end KernelCore
