import KernelCore.Proofs.Text.RoundTrip
import KernelCore.Text.Item

/-! # Padded numbers keep the low digits

The digits are filled into a row of zeros from its end, so with any number of places the row has the low
digits and stands for a residue. Sixteen hexadecimal digits have room for every address, which is why no two
addresses are printed alike.
-/

namespace KernelCore

namespace Numeral

variable {b : Radix} {n places : Nat} {out : Array Char} {rest : List Char}

theorem lowDigits_zero (b : Radix) (length : Nat) : b.lowDigits length 0 = List.replicate length 0 := by
  induction length with
  | zero => rfl
  | succ length ih => rw [Radix.lowDigits, Nat.zero_div, Nat.zero_mod, ih, List.replicate_succ']

/-- Over zeros the loop leaves the low digits. -/
theorem toList_fillDigits (h : out.toList = List.replicate places '0' ++ rest) :
    (fillDigits b out places n).toList = (b.lowDigits places n).map digitChar ++ rest := by
  induction places generalizing n out rest with
  | zero => exact h
  | succ places ih =>
    rw [fillDigits]
    split
    case isTrue hn =>
      subst hn
      rw [h, lowDigits_zero, List.map_replicate]
      rfl
    case isFalse hn =>
      have hset : (out.setIfInBounds places (digitChar (n % b.val))).toList =
          List.replicate places '0' ++ digitChar (n % b.val) :: rest := by
        rw [Array.toList_setIfInBounds, h, List.replicate_succ', List.append_assoc,
          List.set_append_right _ _ (by simp)]
        simp
      rw [ih hset, Radix.lowDigits]
      simp

theorem toList_writePadded (b : Radix) (length n : Nat) :
    (writePadded b length n).toList = (b.lowDigits length n).map digitChar ++ [terminator] :=
  toList_fillDigits (by simp)

theorem paddedChars_eq (b : Radix) (length n : Nat) :
    paddedChars b length n = (b.lowDigits length n).map digitChar := by
  have hall : ∀ c ∈ (b.lowDigits length n).map digitChar, decide (c ≠ terminator) = true := by
    simp only [List.mem_map, decide_eq_true_eq]
    rintro _ ⟨d, hd, rfl⟩
    exact (digitChar_ne (Radix.lt_of_mem_lowDigits hd)).2
  rw [paddedChars, toList_writePadded, List.takeWhile_append_of_pos hall]
  simp

example : paddedChars .hexadecimal 3 0x12abc = ['a', 'b', 'c'] := by decide

theorem mem_alphabet_of_mem_paddedChars {length : Nat} {c : Char} (h : c ∈ paddedChars b length n) :
    c ∈ alphabet b := by
  rw [paddedChars_eq] at h
  obtain ⟨d, hd, rfl⟩ := List.mem_map.mp h
  exact digitChar_mem_alphabet (Radix.lt_of_mem_lowDigits hd)

theorem rowValue?_lowDigits (b : Radix) (length n : Nat) :
    rowValue? b ((b.lowDigits length n).map digitChar) = some (n % b.val ^ length) := by
  induction length generalizing n with
  | zero => simp [Radix.lowDigits, rowValue?, Nat.mod_one]
  | succ length ih =>
    rw [Radix.lowDigits, List.map_append, List.map_singleton, rowValue?_concat (Nat.mod_lt n b.pos), ih,
      Option.map_some, Nat.pow_succ', Nat.mod_mul, Nat.mul_comm, Nat.add_comm]

theorem value?_paddedChars_hexadecimal (w : UInt64) :
    value? .hexadecimal (paddedChars .hexadecimal 16 w.toNat) = some (w.toNat : Int) := by
  have hsmall : w.toNat % Radix.hexadecimal.val ^ 16 = w.toNat := Nat.mod_eq_of_lt w.toNat_lt
  rw [paddedChars_eq, value?_map_digitChar (List.ne_nil_of_length_pos (by simp))
    fun _ => Radix.lt_of_mem_lowDigits, rowValue?_lowDigits, hsmall, Option.map_some]

end Numeral

namespace Item

open Numeral

variable {v w : UInt64}

theorem bytes_pointer (w : UInt64) :
    (pointer w).bytes = ("0x" ++ paddedText .hexadecimal 16 w.toNat).toUTF8 := rfl

theorem render_address (w : UInt64) :
    render (address w) = ("virt_addr(0x" ++ paddedText .hexadecimal 16 w.toNat ++ ")").toUTF8 := by
  have hopen : untilNul "virt_addr(" = "virt_addr(" := by decide
  have hclose : untilNul ")" = ")" := by decide
  have hrender : render (address w) = .empty ++ (untilNul "virt_addr(").toUTF8 ++
      ("0x" ++ paddedText .hexadecimal 16 w.toNat).toUTF8 ++ (untilNul ")").toUTF8 := rfl
  rw [hrender, hopen, hclose, ByteArray.empty_append]
  simp only [String.toUTF8_eq_toByteArray, ← String.toByteArray_append, ← String.append_assoc]
  rfl

theorem paddedText_inj :
    paddedText .hexadecimal 16 v.toNat = paddedText .hexadecimal 16 w.toNat ↔ v = w := by
  constructor
  · intro h
    have hv := value?_paddedChars_hexadecimal v
    rw [String.ofList_inj.mp h, value?_paddedChars_hexadecimal w] at hv
    exact UInt64.toNat_inj.mp (Int.ofNat_inj.mp (Option.some.inj hv)).symm
  · rintro rfl
    rfl

theorem bytes_pointer_inj : (pointer v).bytes = (pointer w).bytes ↔ v = w := by
  rw [bytes_pointer, bytes_pointer, String.toUTF8_eq_toByteArray, String.toUTF8_eq_toByteArray,
    String.toByteArray_inj, String.append_right_inj, paddedText_inj]

theorem render_address_inj : render (address v) = render (address w) ↔ v = w := by
  rw [render_address, render_address, String.toUTF8_eq_toByteArray, String.toUTF8_eq_toByteArray,
    String.toByteArray_inj, String.append_left_inj, String.append_right_inj, paddedText_inj]

/-- A padded number reads back as its residue, and no two addresses are printed alike. -/
theorem padded_digits_read_back (b : Radix) :
    (∀ length n : Nat, ∃ ds : List Char, (writePadded b length n).toList = ds ++ [terminator] ∧
        (paddedText b length n).toList = ds ∧ ds.length = length ∧ (∀ c ∈ ds, c ∈ alphabet b) ∧
        rowValue? b ds = some (n % b.val ^ length)) ∧
      (∀ w : UInt64, ∃ ds : List Char, ds.length = 16 ∧ (∀ c ∈ ds, c ∈ alphabet .hexadecimal) ∧
        value? .hexadecimal ds = some (w.toNat : Int) ∧
        (pointer w).bytes = ("0x" ++ String.ofList ds).toUTF8 ∧
        render (address w) = ("virt_addr(0x" ++ String.ofList ds ++ ")").toUTF8) ∧
      ∀ v w : UInt64, ((pointer v).bytes = (pointer w).bytes ↔ v = w) ∧
        (render (address v) = render (address w) ↔ v = w) := by
  refine ⟨fun length n => ?_, fun w => ?_, fun v w => ⟨bytes_pointer_inj, render_address_inj⟩⟩
  · refine ⟨paddedChars b length n, ?_, String.toList_ofList, ?_, fun c => mem_alphabet_of_mem_paddedChars, ?_⟩
    · rw [toList_writePadded, paddedChars_eq]
    · simp [paddedChars_eq]
    · rw [paddedChars_eq, rowValue?_lowDigits]
  · exact ⟨paddedChars .hexadecimal 16 w.toNat, by simp [paddedChars_eq],
      fun c => mem_alphabet_of_mem_paddedChars, value?_paddedChars_hexadecimal w, bytes_pointer w,
      render_address w⟩

end Item

end KernelCore
