/-! # Filling and copying inside a buffer

Both go through the span byte by byte in ascending order and answer where it starts, next to the
new buffer. A copy reads bytes that it has already written when its spans overlap: a short
distance upwards repeats the bytes between the two starts.
-/

namespace KernelCore.Buffer

def byteAt (b : ByteArray) (i : Nat) : UInt8 := if h : i < b.size then b[i] else 0

/-- Leaves the buffer alone outside its bounds. -/
def put (b : ByteArray) (i : Nat) (v : UInt8) : ByteArray := if h : i < b.size then b.set i v else b

def filled (b : ByteArray) (start : Nat) (v : UInt8) : Nat → ByteArray
  | 0 => b
  | n + 1 => put (filled b start v n) (start + n) v

def copied (b : ByteArray) (dst src : Nat) : Nat → ByteArray
  | 0 => b
  | n + 1 =>
      let b' := copied b dst src n
      let v := byteAt b' (src + n)
      put b' (dst + n) v

def fill (b : ByteArray) (start : Nat) (v : UInt8) (length : Nat) : Nat × ByteArray :=
  (start, filled b start v length)

def copy (b : ByteArray) (dst src length : Nat) : Nat × ByteArray := (dst, copied b dst src length)

@[simp] theorem size_put (b : ByteArray) (i : Nat) (v : UInt8) : (put b i v).size = b.size := by
  unfold put
  split
  · simp only [← ByteArray.size_data, ByteArray.data_set, Array.size_set]
  · rfl

theorem byteAt_put (b : ByteArray) (i j : Nat) (v : UInt8) :
    byteAt (put b i v) j = if i = j ∧ j < b.size then v else byteAt b j := by
  by_cases hj : j < b.size
  · have hp : j < (put b i v).size := by rw [size_put]; exact hj
    simp only [byteAt, hj, hp, dif_pos, and_true]
    unfold put
    split
    · simp only [ByteArray.getElem_eq_getElem_data, ByteArray.data_set, Array.getElem_set]
    · rename_i hi
      have : i ≠ j := fun h => hi (h ▸ hj)
      simp [this]
  · have hp : ¬ j < (put b i v).size := by rw [size_put]; exact hj
    simp only [byteAt, hj, hp, dif_neg, not_false_eq_true, and_false, if_false]

@[simp] theorem size_copied (b : ByteArray) (dst src n : Nat) :
    (copied b dst src n).size = b.size := by
  induction n with
  | zero => rfl
  | succ n ih => simp only [copied, size_put, ih]

end KernelCore.Buffer
