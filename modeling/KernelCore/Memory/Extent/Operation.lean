import KernelCore.Memory.Extent
import KernelCore.Panic

/-! # Operations on an extent

The requests that can be made of an extent, and what each comes to. An operation that is refused
or that panics leaves the extent as it was.
-/

namespace KernelCore.Extent

inductive Operation where
  | init (start : Address) (size : UInt64)
  | movePages (start : Address) (size : UInt64)
  | alloc (bytes align : UInt64)
  | release
  | allocPages (count align : UInt64)
  | freePages (first : Address) (count : UInt64)
  deriving DecidableEq, Repr

inductive Outcome where
  | done
  | placed (a : Address)
  | noMemory
  | panicked (p : Panic)
  deriving DecidableEq, Repr

variable {pageSize : UInt64}

def placement (e : Extent pageSize) (misaligned : Panic) :
    Except AllocError (Address × Extent pageSize) → Outcome × Extent pageSize
  | .ok (a, e') => (.placed a, e')
  | .error .noMemory => (.noMemory, e)
  | .error .badAlignment => (.panicked misaligned, e)

def apply (e : Extent pageSize) : Operation → Outcome × Extent pageSize
  | .init start size =>
      match init? start size with
      | some e' => (.done, e')
      | none => (.panicked .extentWraps, e)
  | .movePages start size =>
      match e.movePages? start size with
      | some e' => (.done, e')
      | none => (.noMemory, e)
  | .alloc bytes align => e.placement (.byteAlignment align) (e.alloc bytes align)
  | .release => (.done, e.release)
  | .allocPages count align => e.placement (.pageAlignment align) (e.allocPages count align)
  | .freePages first count => (.done, e.freePages first count)

def run (e : Extent pageSize) (ops : List Operation) : Extent pageSize :=
  ops.foldl (fun e op => (e.apply op).2) e

@[simp] theorem run_nil (e : Extent pageSize) : e.run [] = e := rfl

@[simp] theorem run_cons (e : Extent pageSize) (op : Operation) (ops : List Operation) :
    e.run (op :: ops) = (e.apply op).2.run ops := rfl

theorem run_append (e : Extent pageSize) (ops ops' : List Operation) :
    e.run (ops ++ ops') = (e.run ops).run ops' := by
  simp [run]

end KernelCore.Extent
