/-! # Stored bytes

A store holds one byte for every offset, of which only a finite part at the front is kept; all
bytes beyond it are zero. The view of a store is `get`: writing, clearing and reading are described
by the bytes that `get` then answers.
-/

namespace KernelCore

structure ByteStore where
  kept : ByteArray

namespace ByteStore

def empty : ByteStore := ⟨.empty⟩

def ofBytes (b : ByteArray) : ByteStore := ⟨b⟩

def get (s : ByteStore) (i : Nat) : UInt8 := if h : i < s.kept.size then s.kept[i] else 0

/-- Appends zero bytes. -/
def pad (b : ByteArray) : Nat → ByteArray
  | 0 => b
  | n + 1 => pad (b.push 0) n

/-- Keeps at least `n` bytes. -/
def reach (s : ByteStore) (n : Nat) : ByteStore := ⟨pad s.kept (n - s.kept.size)⟩

def write (s : ByteStore) (offset : Nat) (data : ByteArray) : ByteStore :=
  if data.size = 0 then s else ⟨data.copySlice 0 (s.reach offset).kept offset data.size⟩

/-- Zeroes `count` bytes from an offset on. -/
def clear (s : ByteStore) (offset count : Nat) : ByteStore :=
  if s.kept.size ≤ offset then s
  else s.write offset (pad .empty (min count (s.kept.size - offset)))

/-- The `count` bytes from an offset on. -/
def read (s : ByteStore) (offset count : Nat) : ByteArray :=
  let b := s.kept.extract offset (offset + count)
  pad b (count - b.size)

@[simp] theorem size_pad (b : ByteArray) (n : Nat) : (pad b n).size = b.size + n := by
  induction n generalizing b with
  | zero => rfl
  | succ n ih => simp only [pad, ih, ByteArray.size_push]; omega

theorem getElem_pad (b : ByteArray) (n i : Nat) (h : i < (pad b n).size) :
    (pad b n)[i] = if h : i < b.size then b[i] else 0 := by
  induction n generalizing b with
  | zero =>
    have h' : i < b.size := by simpa using h
    simp [pad, h']
  | succ n ih =>
    simp only [pad, ih (b.push 0)]
    by_cases hi : i < b.size
    · have hs : i < (b.push 0).size := by rw [ByteArray.size_push]; omega
      have hd : i < b.data.size := hi
      simp only [hi, hs, dif_pos, ByteArray.getElem_eq_getElem_data, ByteArray.data_push,
        Array.getElem_push, hd]
    · by_cases he : i < (b.push 0).size
      · have hd : ¬ i < b.data.size := hi
        simp only [hi, he, dif_pos, dif_neg, not_false_eq_true, ByteArray.getElem_eq_getElem_data,
          ByteArray.data_push, Array.getElem_push, hd]
      · rw [dif_neg he, dif_neg hi]

theorem get_reach (s : ByteStore) (n i : Nat) : (s.reach n).get i = s.get i := by
  unfold get reach
  by_cases h : i < (pad s.kept (n - s.kept.size)).size
  · simp only [h, dif_pos, getElem_pad]
  · have h' : ¬ i < s.kept.size := by rw [size_pad] at h; omega
    simp only [h, h', dif_neg, not_false_eq_true]

theorem le_size_reach (s : ByteStore) (n : Nat) : n ≤ (s.reach n).kept.size := by
  simp only [reach, size_pad]; omega

theorem get_write (s : ByteStore) (offset : Nat) (data : ByteArray) (i : Nat) :
    (s.write offset data).get i =
      if h : offset ≤ i ∧ i - offset < data.size then data[i - offset] else s.get i := by
  unfold write
  by_cases hz : data.size = 0
  · simp [hz]
  · rw [if_neg hz, ← get_reach s offset i]
    have hr := s.le_size_reach offset
    generalize (s.reach offset) = r at hr
    unfold get
    simp only [ByteArray.copySlice_eq_append, Nat.sub_zero, ByteArray.size_data, Nat.min_self,
      Nat.zero_add, ByteArray.extract_zero_size]
    have h₀ : (r.kept.extract 0 offset).size = offset := by
      rw [ByteArray.size_extract]; omega
    have hs : (r.kept.extract 0 offset ++ data ++
        r.kept.extract (offset + data.size) r.kept.size).size =
          offset + data.size + (r.kept.size - (offset + data.size)) := by
      simp only [ByteArray.size_append, h₀, ByteArray.size_extract, Nat.min_self]
    by_cases h₁ : i < offset
    · have hn : ¬ (offset ≤ i ∧ i - offset < data.size) := by omega
      have hk : i < r.kept.size := by omega
      rw [dif_neg hn, dif_pos (hs ▸ by omega), dif_pos hk,
        ByteArray.getElem_append_left (by rw [ByteArray.size_append]; omega),
        ByteArray.getElem_append_left (by omega), ByteArray.getElem_extract]
      simp
    · by_cases h₂ : i - offset < data.size
      · have hp : offset ≤ i ∧ i - offset < data.size := ⟨by omega, h₂⟩
        rw [dif_pos hp, dif_pos (hs ▸ by omega),
          ByteArray.getElem_append_left (by rw [ByteArray.size_append]; omega),
          ByteArray.getElem_append_right (by omega)]
        simp only [h₀]
      · have hn : ¬ (offset ≤ i ∧ i - offset < data.size) := by omega
        rw [dif_neg hn]
        by_cases h₃ : i < r.kept.size
        · rw [dif_pos h₃, dif_pos (hs ▸ by omega),
            ByteArray.getElem_append_right (by rw [ByteArray.size_append]; omega),
            ByteArray.getElem_extract]
          simp only [ByteArray.size_append, h₀]
          congr 1
          omega
        · rw [dif_neg h₃, dif_neg (hs ▸ by omega)]

@[simp] theorem size_read (s : ByteStore) (offset count : Nat) :
    (s.read offset count).size = count := by
  simp only [read, size_pad, ByteArray.size_extract]; omega

theorem getElem_read (s : ByteStore) (offset count i : Nat) (h : i < (s.read offset count).size) :
    (s.read offset count)[i] = s.get (offset + i) := by
  have hi : i < count := by simpa using h
  simp only [read, getElem_pad, ByteArray.size_extract, ByteArray.getElem_extract, get]
  by_cases h : offset + i < s.kept.size
  · rw [dif_pos h, dif_pos (by omega)]
  · rw [dif_neg h, dif_neg (by omega)]

end ByteStore

end KernelCore
