import KernelCore.Files.Calls

/-! # Reading file contents

Reads a file into a buffer, from an offset or, when the offset is 0, from the cursor on. Short reads
are accumulated until the buffer is full, a read fails or the file ends. Wherever an offset was
given the cursor is put back at the end; an error of a read counts before an error of putting it
back.
-/

namespace KernelCore.Kernel

variable {β : Type}

/-- Reads on after the first `total` bytes, and answers how many bytes there are in the end and how
the last read failed. -/
def readOn (fd : Descriptor) (buffer : Address) (length total : UInt64) :
    Action (Kernel β) (UInt64 × Option Errno) := do
  if total < length then
    match ← (readFile fd (buffer + total) (length - total)).run with
    | .error e => return (total, some e)
    | .ok got =>
        if got = 0 then return (total, none)
        else if length - total ≤ got then return (total + got, none)
        else readOn fd buffer length (total + got)
  else return (total, none)
termination_by length.toNat - total.toNat
decreasing_by
  rename_i h₀ h₁ h₂
  have h₀ := UInt64.lt_iff_toNat_lt.mp h₀
  have h₁ : got.toNat ≠ 0 := fun h => h₁ (UInt64.toNat_inj.mp h)
  have h₂ := UInt64.lt_iff_toNat_lt.mp (UInt64.not_le.mp h₂)
  rw [UInt64.toNat_sub_of_le _ _ (UInt64.le_iff_toNat_le.mpr (Nat.le_of_lt h₀))] at h₂
  have hl := length.toNat_lt
  rw [UInt64.toNat_add, Nat.mod_eq_of_lt (by omega)]
  omega

/-- Moves the cursor to an offset and answers where it was; offset 0 leaves it where it is. -/
def moveCursor (fd : Descriptor) (offset : UInt64) : Handler (Kernel β) (Option UInt64) :=
  if offset = 0 then return none
  else do
    let cursor ← seekFile fd 0 .cursor
    let _ ← seekFile fd offset.toInt64 .start
    return some cursor

/-- Puts a saved cursor back and answers how that failed. -/
def restoreCursor (fd : Descriptor) : Option UInt64 → Action (Kernel β) (Option Errno)
  | none => return none
  | some cursor => do
      match ← (seekFile fd cursor.toInt64 .start).run with
      | .ok _ => return none
      | .error e => return some e

def readContents (fd : Descriptor) (offset : UInt64) (buffer : Address) (length : UInt64) :
    Handler (Kernel β) UInt64 := do
  let saved ← moveCursor fd offset
  let (total, readError) ← ExceptT.lift (readOn fd buffer length 0)
  let restoreError ← ExceptT.lift (restoreCursor fd saved)
  match readError.or restoreError with
  | some e => throw e
  | none => return total

end KernelCore.Kernel
