import KernelCore.Text.Numeral.Reading
import KernelCore.Word.Integer
import Mathlib.Algebra.Group.Nat.Defs
import Mathlib.Data.List.Nodup

/-! # Written numbers can be read back

The division loop leaves the digits of the absolute value in the buffer, the least significant first.
Exchanging pairs from the ends inwards turns them around behind the sign, so that what is written is the
plain form of the number, which reads back as the number.
-/

namespace KernelCore

namespace Radix

variable {b : Radix} {n k d : Nat}

theorem pos (b : Radix) : 0 < b.val := Nat.lt_of_lt_of_le (by decide) b.two_le

theorem digits_of_lt (h : n < b.val) : b.digits n = [n] := by
  rw [digits, if_pos h]

theorem digits_ne_nil (b : Radix) (n : Nat) : b.digits n ≠ [] := by
  rw [digits]
  split <;> simp

theorem head?_digits_ne_zero (hn : n ≠ 0) : (b.digits n).head? ≠ some 0 := by
  fun_induction digits b n with
  | case1 n hlt => simpa using hn
  | case2 n hge ih =>
    rw [List.head?_append_of_ne_nil _ (digits_ne_nil b _)]
    exact ih (Nat.ne_of_gt (Nat.div_pos (Nat.not_lt.mp hge) b.pos))

theorem length_digits_le (hk : 0 < k) (h : n < b.val ^ k) : (b.digits n).length ≤ k := by
  fun_induction digits b n generalizing k with
  | case1 n hlt => exact hk
  | case2 n hge ih =>
    obtain ⟨k, rfl⟩ := Nat.exists_eq_succ_of_ne_zero (Nat.ne_of_gt hk)
    have hdiv : n / b.val < b.val ^ k := Nat.div_lt_of_lt_mul (by rwa [Nat.pow_succ'] at h)
    have hk' : 0 < k := Nat.pos_of_ne_zero fun hzero => by
      rw [hzero, Nat.pow_zero, Nat.div_lt_iff_lt_mul b.pos] at hdiv
      omega
    rw [List.length_append, List.length_singleton]
    exact Nat.succ_le_succ (ih hk' hdiv)

end Radix

namespace Numeral

variable {b : Radix} {z : Int} {n d start length : Nat} {out : Array Char} {negative : Bool}

/-- A number by its sign and its absolute value. -/
def signed (negative : Bool) (n : Nat) : Int := if negative then -n else n

theorem signed_natAbs (z : Int) : signed (decide (z < 0)) z.natAbs = z := by
  simp only [signed, decide_eq_true_eq]
  split <;> omega

theorem signed_tdiv (b : Radix) (negative : Bool) (n : Nat) :
    (signed negative n).tdiv b.val = signed negative (n / b.val) := by
  cases negative
  case false => exact (Int.ofNat_tdiv n b.val).symm
  case true => exact (Int.neg_tdiv _ _).trans (congrArg Neg.neg (Int.ofNat_tdiv n b.val).symm)

theorem signed_tmod (b : Radix) (negative : Bool) (n : Nat) :
    (signed negative n).tmod b.val = signed negative (n % b.val) := by
  cases negative
  case false => exact (Int.ofNat_tmod n b.val).symm
  case true => exact (Int.neg_tmod _ _).trans (congrArg Neg.neg (Int.ofNat_tmod n b.val).symm)

theorem digit_of_signed (negative : Bool) (d : Nat) :
    (if negative then -signed negative d else signed negative d).toNat = d := by
  cases negative <;> simp [signed]

theorem putDigits_zero (b : Radix) (negative : Bool) (out : Array Char) :
    putDigits b negative 0 out = out := by
  rw [putDigits, if_pos rfl]

theorem putDigits_signed (hn : n ≠ 0) : putDigits b negative (signed negative n) out =
    putDigits b negative (signed negative (n / b.val)) (out.push (digitChar (n % b.val))) := by
  have hz : signed negative n ≠ 0 := by cases negative <;> simpa [signed] using hn
  rw [putDigits, if_neg hz]
  simp only [signed_tmod, signed_tdiv, digit_of_signed]

theorem toList_putDigits (hn : n ≠ 0) : (putDigits b negative (signed negative n) out).toList =
    out.toList ++ ((b.digits n).map digitChar).reverse := by
  fun_induction Radix.digits b n generalizing out with
  | case1 n hlt =>
    rw [putDigits_signed hn, Nat.div_eq_of_lt hlt, Nat.mod_eq_of_lt hlt]
    have hzero : signed negative 0 = 0 := by cases negative <;> rfl
    rw [hzero, putDigits_zero]
    simp
  | case2 n hge ih =>
    have hdiv : n / b.val ≠ 0 := Nat.ne_of_gt (Nat.div_pos (Nat.not_lt.mp hge) b.pos)
    rw [putDigits_signed hn, ih hdiv]
    simp

@[simp] theorem size_swapEnds (out : Array Char) (start length n : Nat) :
    (swapEnds out start length n).size = out.size := by
  induction n with
  | zero => rfl
  | succ n ih => rw [swapEnds, Array.size_swapIfInBounds, ih]

theorem getElem?_swapIfInBounds {i j k : Nat} (hi : i < out.size) (hj : j < out.size) :
    (out.swapIfInBounds i j)[k]? = if j = k then out[i]? else if i = k then out[j]? else out[k]? := by
  rw [Array.swapIfInBounds_def, dif_pos hi, dif_pos hj, Array.getElem?_swap, getElem?_pos out i hi,
    getElem?_pos out j hj]

theorem getElem?_swapEnds (hsize : start + length ≤ out.size) (hn : 2 * n ≤ length) (k : Nat) :
    (swapEnds out start length n)[k]? =
      if start ≤ k ∧ k < start + n ∨ start + length - n ≤ k ∧ k < start + length then
        out[2 * start + length - 1 - k]? else out[k]? := by
  induction n generalizing k with
  | zero =>
    rw [swapEnds, if_neg (by omega)]
  | succ n ih =>
    have ih := ih (by omega)
    -- Neither of the two places that are exchanged has been reached before.
    have hlow : (swapEnds out start length n)[start + n]? = out[start + n]? := by
      rw [ih, if_neg (by omega)]
    have hhigh : (swapEnds out start length n)[start + length - 1 - n]? =
        out[start + length - 1 - n]? := by
      rw [ih, if_neg (by omega)]
    rw [swapEnds, getElem?_swapIfInBounds (by rw [size_swapEnds]; omega) (by rw [size_swapEnds]; omega),
      hlow, hhigh, ih]
    by_cases hupper : start + length - 1 - n = k
    · rw [if_pos hupper, if_pos (by omega)]
      congr 1
      omega
    · rw [if_neg hupper]
      by_cases hlower : start + n = k
      · rw [if_pos hlower, if_pos (by omega)]
        congr 1
        omega
      · rw [if_neg hlower]
        exact if_congr (by omega) rfl rfl

theorem toList_swapEnds {sign cs : List Char} (h : out.toList = sign ++ cs) :
    (swapEnds out sign.length cs.length (cs.length / 2)).toList = sign ++ cs.reverse := by
  have hsize : sign.length + cs.length = out.size := by
    rw [← Array.length_toList, h, List.length_append]
  refine List.ext_getElem? fun k => ?_
  have hback : ∀ k, out[k]? = (sign ++ cs)[k]? := fun k => by rw [← Array.getElem?_toList, h]
  rw [Array.getElem?_toList, getElem?_swapEnds (Nat.le_of_eq hsize) (by omega), hback, hback]
  by_cases hsign : k < sign.length
  · rw [if_neg (by omega), List.getElem?_append_left hsign, List.getElem?_append_left hsign]
  · rw [List.getElem?_append_right (Nat.not_lt.mp hsign), List.getElem?_append_right (Nat.not_lt.mp hsign)]
    by_cases hk : k < sign.length + cs.length
    · rw [List.getElem?_reverse (by omega)]
      by_cases hmoved : k < sign.length + cs.length / 2 ∨ sign.length + cs.length - cs.length / 2 ≤ k
      · rw [if_pos (by omega), List.getElem?_append_right (by omega)]
        congr 1
        omega
      · -- The one in the middle of an odd number stays where it is.
        rw [if_neg (by omega)]
        congr 1
        omega
    · rw [if_neg (by omega), List.getElem?_eq_none (by omega),
        List.getElem?_eq_none (by rw [List.length_reverse]; omega)]

/-- The sign that stands in front of a number. -/
def sign (z : Int) : List Char := if z < 0 then ['-'] else []

theorem chars_eq (b : Radix) (z : Int) : chars b z = sign z ++ (b.digits z.natAbs).map digitChar := by
  unfold chars sign
  split <;> rfl

/-- The buffer has the plain form of the number and its terminator. -/
theorem write_eq (b : Radix) (z : Int) :
    (write b z).1.toList = chars b z ++ [terminator] ∧ (write b z).2 = (b.digits z.natAbs).length := by
  by_cases hz : z = 0
  · subst hz
    rw [write, if_pos rfl, chars_eq, Int.natAbs_zero, Radix.digits_of_lt b.pos]
    exact ⟨rfl, rfl⟩
  · let s : Array Char := if decide (z < 0) then #['-'] else #[]
    let cs := ((b.digits z.natAbs).map digitChar).reverse
    have hs : s.toList = sign z := by
      simp only [s, sign, decide_eq_true_eq]
      split <;> rfl
    have hout : (putDigits b (decide (z < 0)) z s).toList = sign z ++ cs := by
      have h := @toList_putDigits b z.natAbs s (decide (z < 0)) (Int.natAbs_ne_zero.mpr hz)
      rwa [signed_natAbs, hs] at h
    have hstart : s.size = (sign z).length := by rw [← hs, Array.length_toList]
    have hlength : (putDigits b (decide (z < 0)) z s).size - s.size = cs.length := by
      rw [← Array.length_toList, hout, hstart, List.length_append, Nat.add_sub_cancel_left]
    have hturned := toList_swapEnds hout
    rw [← hstart, ← hlength, List.reverse_reverse] at hturned
    rw [write, if_neg hz, chars_eq]
    refine ⟨?_, ?_⟩
    · rw [Array.toList_push, hturned]
    · simp only [s, hlength, cs, List.length_reverse, List.length_map]

theorem lt_length_digitChars (h : d < b.val) : d < digitChars.length := Nat.lt_of_lt_of_le h b.le_max

theorem getElem_alphabet (h : d < b.val) :
    ∃ hd : d < (alphabet b).length, (alphabet b)[d] = digitChar d := by
  have hlt := lt_length_digitChars h
  refine ⟨by rw [alphabet, List.length_take]; omega, ?_⟩
  rw [digitChar, getElem?_pos _ d hlt, Option.getD_some]
  exact List.getElem_take

theorem digitChar_mem_alphabet (h : d < b.val) : digitChar d ∈ alphabet b := by
  obtain ⟨hd, hget⟩ := getElem_alphabet h
  exact hget ▸ List.getElem_mem hd

theorem nodup_alphabet (b : Radix) : (alphabet b).Nodup := by
  have hall : digitChars.Nodup := by decide
  exact hall.sublist (List.take_sublist _ _)

theorem digitValue?_digitChar (h : d < b.val) : digitValue? b (digitChar d) = some d := by
  obtain ⟨hd, hget⟩ := getElem_alphabet h
  refine List.idxOf?_eq_some_iff.mpr ⟨hd, hget, fun j hj hsame => ?_⟩
  rw [← hget] at hsame
  exact Nat.ne_of_lt hj ((nodup_alphabet b).getElem_inj_iff.mp hsame)

theorem digitChar_inj {d' : Nat} (h : d < b.val) (h' : d' < b.val) (heq : digitChar d = digitChar d') :
    d = d' := by
  have hvalue := digitValue?_digitChar h
  rw [heq, digitValue?_digitChar h'] at hvalue
  exact (Option.some.inj hvalue).symm

theorem digitChar_ne (h : d < b.val) : digitChar d ≠ '-' ∧ digitChar d ≠ terminator := by
  have hall : ∀ d < digitChars.length, digitChar d ≠ '-' ∧ digitChar d ≠ terminator := by decide
  exact hall d (lt_length_digitChars h)

theorem rowValue?_concat (hd : d < b.val) (cs : List Char) :
    rowValue? b (cs ++ [digitChar d]) = (rowValue? b cs).map fun n => n * b.val + d := by
  rw [rowValue?, List.foldlM_append]
  change (rowValue? b cs).bind _ = _
  cases rowValue? b cs with
  | none => rfl
  | some n => simp [digitValue?_digitChar hd]

theorem magnitude?_digits (b : Radix) (n : Nat) : magnitude? b ((b.digits n).map digitChar) = some n := by
  rw [magnitude?_of_ne_nil (by simpa using b.digits_ne_nil n)]
  fun_induction Radix.digits b n with
  | case1 n hlt => simp [rowValue?, digitValue?_digitChar hlt]
  | case2 n hge ih =>
    rw [List.map_append, List.map_singleton, rowValue?_concat (Nat.mod_lt n b.pos), ih, Option.map_some,
      Nat.div_add_mod']

theorem value?_of_ne {c : Char} {cs : List Char} (h : c ≠ '-') :
    value? b (c :: cs) = (magnitude? b (c :: cs)).map fun n => (n : Int) := by
  rw [value?]
  rintro _ ⟨⟩
  exact h rfl

theorem value?_map_digitChar {ds : List Nat} (hne : ds ≠ []) (hlt : ∀ d ∈ ds, d < b.val) :
    value? b (ds.map digitChar) = (rowValue? b (ds.map digitChar)).map Nat.cast := by
  obtain ⟨d, ds, rfl⟩ := List.exists_cons_of_ne_nil hne
  rw [← magnitude?_of_ne_nil (by simp), List.map_cons, value?_of_ne (digitChar_ne (hlt d List.mem_cons_self)).1]
  cases magnitude? b (digitChar d :: ds.map digitChar) <;> rfl

theorem value?_chars (b : Radix) (z : Int) : value? b (chars b z) = some z := by
  have hmagnitude := magnitude?_digits b z.natAbs
  rw [chars_eq, sign]
  split
  case isTrue hneg =>
    rw [List.singleton_append, value?, hmagnitude]
    exact congrArg some (by omega : -(z.natAbs : Int) = z)
  case isFalse hpos =>
    have hne := b.digits_ne_nil z.natAbs
    rw [magnitude?_of_ne_nil (by simpa using hne)] at hmagnitude
    rw [List.nil_append, value?_map_digitChar hne fun d => Radix.lt_of_mem_digits, hmagnitude]
    exact congrArg some (by omega : (z.natAbs : Int) = z)

theorem head?_digits_ne (hn : n ≠ 0) : ((b.digits n).map digitChar).head? ≠ some '0' := by
  rw [List.head?_map]
  intro hhead
  obtain ⟨d, hd, hzero⟩ := Option.map_eq_some_iff.mp hhead
  have hlt : d < b.val := Radix.lt_of_mem_digits (List.mem_of_head? hd)
  obtain rfl : d = 0 := digitChar_inj hlt b.pos hzero
  exact Radix.head?_digits_ne_zero hn hd

theorem natAbs_lt_of_holds {t : IntegerType} (h : t.Holds z) : z.natAbs < 1000 ^ t.bytes := by
  have hcount : t.count = 256 ^ t.bytes := by cases t <;> rfl
  have hpos : 0 < t.count := by cases t <;> decide
  have hlt : z.natAbs < t.count := by
    unfold IntegerType.Holds at h
    split at h <;> omega
  exact Nat.lt_of_lt_of_le (hcount ▸ hlt) (Nat.pow_le_pow_left (by decide) _)

theorem size_write (b : Radix) (z : Int) :
    (write b z).1.size = (sign z).length + (b.digits z.natAbs).length + 1 := by
  rw [← Array.length_toList, (write_eq b z).1, chars_eq, List.length_append, List.length_append,
    List.length_map, List.length_singleton]

theorem size_write_decimal_le {t : IntegerType} (h : t.Holds z) :
    (write .decimal z).1.size ≤ 3 * t.bytes + 2 := by
  have hpow : z.natAbs < Radix.decimal.val ^ (3 * t.bytes) := by
    rw [Nat.pow_mul]
    exact natAbs_lt_of_holds h
  have hbytes : 0 < 3 * t.bytes := by cases t <;> decide
  have hdigits := Radix.length_digits_le hbytes hpow
  have hsign : (sign z).length ≤ 1 := by
    unfold sign
    split <;> decide
  rw [size_write]
  omega

theorem toList_text (b : Radix) (z : Int) : (text b z).toList = chars b z := by
  have hall : ∀ c ∈ chars b z, (decide (c ≠ terminator)) = true := by
    intro c hc
    rw [decide_eq_true_eq]
    rcases List.mem_append.mp (chars_eq b z ▸ hc) with hc | hc
    · unfold sign at hc
      split at hc
      · rw [List.mem_singleton.mp hc]
        decide
      · cases hc
    · obtain ⟨d, hd, rfl⟩ := List.mem_map.mp hc
      exact (digitChar_ne (Radix.lt_of_mem_digits hd)).2
  rw [text, String.toList_ofList, (write_eq b z).1, List.takeWhile_append_of_pos hall]
  simp

/-- What is written is a plain number, and reads back as the one it was written for. -/
theorem write_round_trip (b : Radix) {t : IntegerType} (h : t.Holds z) :
    ∃ ds : List Char, (write b z).1.toList = (if z < 0 then ['-'] else []) ++ ds ++ [terminator] ∧
      (text b z).toList = (if z < 0 then ['-'] else []) ++ ds ∧
      (∀ c ∈ ds, c ∈ alphabet b) ∧ (z ≠ 0 → ds.head? ≠ some '0') ∧ (z = 0 → ds = ['0']) ∧
      (write b z).2 = ds.length ∧ magnitude? b ds = some z.natAbs ∧ value? b (text b z).toList = some z ∧
      (write .decimal z).1.size ≤ 3 * t.bytes + 2 := by
  obtain ⟨hbuffer, hlength⟩ := write_eq b z
  have hchars := chars_eq b z
  refine ⟨(b.digits z.natAbs).map digitChar, hchars ▸ hbuffer, (toList_text b z).trans hchars,
    fun c hc => ?_, fun hz => head?_digits_ne (Int.natAbs_ne_zero.mpr hz), fun hz => ?_,
    by rw [hlength, List.length_map], magnitude?_digits b z.natAbs, by rw [toList_text, value?_chars],
    size_write_decimal_le h⟩
  · obtain ⟨d, hd, rfl⟩ := List.mem_map.mp hc
    exact digitChar_mem_alphabet (Radix.lt_of_mem_digits hd)
  · subst hz
    rw [Int.natAbs_zero, Radix.digits_of_lt b.pos]
    rfl

/-- The least value of a type, whose absolute value the type does not hold. -/
theorem write_round_trip_least :
    IntegerType.i8.Holds (-128) ∧ value? .decimal (text .decimal (-128)).toList = some (-128) ∧
      text .decimal (-128) = "-128" ∧ digitCount .decimal (-128) = 3 ∧
      (write .decimal (-128)).1.size = 3 * IntegerType.i8.bytes + 2 := by
  have h : IntegerType.i8.Holds (-128) := ⟨by decide, by decide⟩
  obtain ⟨ds, -, -, -, -, -, -, -, hvalue, -⟩ := write_round_trip .decimal h
  exact ⟨h, hvalue, by decide +kernel, by decide +kernel, by decide +kernel⟩

end Numeral

end KernelCore
