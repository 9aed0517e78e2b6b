import KernelCore.Proofs.Files.Cursor
import KernelCore.Proofs.Memory.View

/-! # Portions of a file

The bytes of a file that are read from an offset on, or from its cursor on, and how many of them one
read is served.
-/

namespace KernelCore

namespace FilePolicy

variable {p : FilePolicy} {length : UInt64}

theorem toNat_min (x y : UInt64) : (min x y).toNat = min x.toNat y.toNat := by
  rw [Std.min_eq_if]
  split
  · rw [Nat.min_eq_left (UInt64.le_iff_toNat_le.mp ‹_›)]
  · rw [Nat.min_eq_right (Nat.le_of_lt (UInt64.lt_iff_toNat_lt.mp (UInt64.not_le.mp ‹_›)))]

theorem cap_le (p : FilePolicy) (length : UInt64) : (p.cap length).toNat ≤ length.toNat := by
  unfold cap
  split
  · exact Nat.le_refl _
  · rw [toNat_min]
    exact Nat.min_le_left _ _

theorem cap_pos (h : p.chunk ≠ some 0) (hl : 0 < length.toNat) : 0 < (p.cap length).toNat := by
  unfold cap
  split
  · exact hl
  · rename_i c hc
    have hpos : c.toNat ≠ 0 := fun hz => h (hc.trans (congrArg some (UInt64.toNat_inj.mp hz)))
    rw [toNat_min]
    omega

end FilePolicy

namespace OpenFile

variable {f : OpenFile} {offset length : UInt64} {i start stop : Nat}

/-- The byte of a file at a position, zero beyond its end. -/
def get (f : OpenFile) (i : Nat) : UInt8 := (ByteStore.ofBytes f.contents).get i

theorem getElem_extract (h : i < (f.contents.extract start stop).size) :
    (f.contents.extract start stop)[i] = f.get (start + i) := by
  have hi := h
  rw [ByteArray.size_extract] at hi
  rw [get, ByteStore.get_ofBytes (by omega)]
  exact ByteArray.getElem_extract h

/-- Where a file is read from: at an offset, or at the cursor when none is given. -/
def readFrom (f : OpenFile) (offset : UInt64) : UInt64 := if offset = 0 then f.cursor else offset

/-- The part of a file that is read when some length is asked for. -/
def portion (f : OpenFile) (offset length : UInt64) : ByteArray :=
  let start := (f.readFrom offset).toNat
  f.contents.extract start (start + min length.toNat (f.size.toNat - start))

theorem size_portion (f : OpenFile) (offset length : UInt64) :
    (f.portion offset length).size =
      min length.toNat (f.size.toNat - (f.readFrom offset).toNat) := by
  have hsize := f.toNat_size_le
  rw [portion, ByteArray.size_extract]
  omega

theorem getElem_portion (h : i < (f.portion offset length).size) :
    (f.portion offset length)[i] = f.get ((f.readFrom offset).toNat + i) :=
  getElem_extract h

theorem get_write_portion (f : OpenFile) (offset length : UInt64) (i : Nat) :
    (ByteStore.empty.write 0 (f.portion offset length)).get i =
      if i < min length.toNat (f.size.toNat - (f.readFrom offset).toNat) then
        f.get ((f.readFrom offset).toNat + i)
      else 0 := by
  rw [ByteStore.get_write_ofBytes, size_portion, Nat.zero_add]
  by_cases hi : i < min length.toNat (f.size.toNat - (f.readFrom offset).toNat)
  · have hin : i < (f.portion offset length).size := by
      rw [size_portion]
      exact hi
    rw [if_pos ⟨Nat.zero_le i, hi⟩, if_pos hi, Nat.sub_zero, ByteStore.get_ofBytes hin,
      getElem_portion]
  · rw [if_neg fun h => hi h.2, if_neg hi]
    rfl

end OpenFile

end KernelCore
