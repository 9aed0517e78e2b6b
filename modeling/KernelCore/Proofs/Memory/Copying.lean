import KernelCore.Memory.Copy

/-! # What a copy leaves behind

A copy goes upwards and reads every byte just before it writes one, so a byte of the target is what the
source byte was by that turn. Where the target starts inside the source, at a distance `d` above its start,
the first `d` bytes of the source come again and again.
-/

namespace KernelCore.Buffer

variable {b : ByteArray} {dst src n i j : Nat}

theorem getElem?_eq_byteAt (h : i < b.size) : b[i]? = some (byteAt b i) := by
  rw [byteAt, dif_pos h, getElem?_pos b i h]

theorem byteAt_copied_of_outside (h : j < dst ∨ dst + n ≤ j) :
    byteAt (copied b dst src n) j = byteAt b j := by
  induction n with
  | zero => rfl
  | succ n ih =>
    rw [copied, byteAt_put, if_neg (by omega)]
    exact ih (by omega)

/-- A byte of the target is what the source byte was when its turn came. -/
theorem byteAt_copied_of_inside (hd : dst + n ≤ b.size) (hi : i < n) :
    byteAt (copied b dst src n) (dst + i) = byteAt (copied b dst src i) (src + i) := by
  induction n with
  | zero => omega
  | succ n ih =>
    rw [copied, byteAt_put, size_copied]
    rcases Nat.lt_succ_iff_lt_or_eq.mp hi with hlt | rfl
    · rw [if_neg (by omega)]
      exact ih (by omega) hlt
    · rw [if_pos (by omega)]

theorem byteAt_copied_of_apart (hd : dst + n ≤ b.size) (h : dst ≤ src ∨ src + n ≤ dst) (hi : i < n) :
    byteAt (copied b dst src n) (dst + i) = byteAt b (src + i) := by
  rw [byteAt_copied_of_inside hd hi]
  exact byteAt_copied_of_outside (by omega)

/-- A target that starts inside the source repeats what lies between the two starts. -/
theorem byteAt_copied_of_overlap (hd : dst + n ≤ b.size) (h : src < dst) (hi : i < n) :
    byteAt (copied b dst src n) (dst + i) = byteAt b (src + i % (dst - src)) := by
  induction i using Nat.strongRecOn generalizing n with
  | ind i ih =>
    rw [byteAt_copied_of_inside hd hi]
    by_cases hfirst : i < dst - src
    · rw [Nat.mod_eq_of_lt hfirst]
      exact byteAt_copied_of_outside (by omega)
    · -- From here on the source byte is one that was written a whole distance earlier.
      have hback : src + i = dst + (i - (dst - src)) := by omega
      rw [hback, ih (i - (dst - src)) (by omega) (by omega) (by omega), ← Nat.mod_eq_sub_mod (by omega)]

/-- A copy fills its target alone: with the source, or with its front over and over. -/
theorem copy_spans (b : ByteArray) (dst src n : Nat) (hd : dst + n ≤ b.size) (hs : src + n ≤ b.size) :
    ∃ out, copy b dst src n = (dst, out) ∧ out.size = b.size ∧
      (∀ j, j < dst ∨ dst + n ≤ j → out[j]? = b[j]?) ∧
      (dst ≤ src ∨ src + n ≤ dst → ∀ i < n, out[dst + i]? = b[src + i]?) ∧
      (src < dst ∧ dst < src + n → ∀ i < n, out[dst + i]? = b[src + i % (dst - src)]?) := by
  have hsize : (copied b dst src n).size = b.size := size_copied b dst src n
  refine ⟨copied b dst src n, rfl, hsize, fun j hj => ?_, fun h i hi => ?_, fun h i hi => ?_⟩
  · by_cases hin : j < b.size
    · rw [getElem?_eq_byteAt (hsize ▸ hin), getElem?_eq_byteAt hin, byteAt_copied_of_outside hj]
    · rw [getElem?_neg _ j (hsize ▸ hin), getElem?_neg b j hin]
  · rw [getElem?_eq_byteAt (by omega), getElem?_eq_byteAt (by omega), byteAt_copied_of_apart hd h hi]
  · have hwithin : i % (dst - src) ≤ i := Nat.mod_le i _
    rw [getElem?_eq_byteAt (by omega), getElem?_eq_byteAt (by omega), byteAt_copied_of_overlap hd h.1 hi]

/-- At distance two the first two bytes of the source come again until the target is full. -/
theorem copy_spans_repeating :
    let b : ByteArray := ⟨#[1, 2, 3, 4, 5, 6, 7, 8]⟩
    2 + 5 ≤ b.size ∧ 0 + 5 ≤ b.size ∧ copy b 2 0 5 = (2, ⟨#[1, 2, 1, 2, 1, 2, 1, 8]⟩) ∧
      ∃ out, copy b 2 0 5 = (2, out) ∧ out[7]? = b[7]? ∧ ∀ i < 5, out[2 + i]? = b[i % 2]? := by
  intro b
  obtain ⟨out, hcopy, -, houtside, -, hrepeat⟩ := copy_spans b 2 0 5 (by decide) (by decide)
  refine ⟨by decide, by decide, by decide, out, hcopy, houtside 7 (by decide), fun i hi => ?_⟩
  simpa using hrepeat (by decide) i hi

end KernelCore.Buffer
