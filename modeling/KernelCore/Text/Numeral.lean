/-! # Numerals

Integers written in a radix from 2 to 36, with lower-case letters for the digits after 9. The
plain form has no leading zero; the padded form has a fixed number of digits and keeps the low
ones.

The plain form is written into a buffer from its least significant digit on, as repeated division
yields the digits, and is then turned around in place behind its sign. The padded form is filled into a
row of zeros from its end.
-/

namespace KernelCore

/-- A radix that the digits 0 to 9 and a to z suffice for. -/
structure Radix where
  val : Nat
  two_le : 2 ≤ val
  le_max : val ≤ 36

namespace Radix

def binary : Radix := ⟨2, by decide, by decide⟩
def decimal : Radix := ⟨10, by decide, by decide⟩
def hexadecimal : Radix := ⟨16, by decide, by decide⟩

def ofNat? (n : Nat) : Option Radix :=
  if h : 2 ≤ n ∧ n ≤ 36 then some ⟨n, h.1, h.2⟩ else none

/-- The digits of `n`, most significant first; zero has the single digit 0. -/
def digits (b : Radix) (n : Nat) : List Nat :=
  if n < b.val then [n] else b.digits (n / b.val) ++ [n % b.val]
termination_by n
decreasing_by
  have := b.two_le
  exact Nat.div_lt_self (by omega) (by omega)

/-- The lowest `length` digits of `n`, most significant first. -/
def lowDigits (b : Radix) : Nat → Nat → List Nat
  | 0, _ => []
  | length + 1, n => b.lowDigits length (n / b.val) ++ [n % b.val]

@[simp] theorem length_lowDigits (b : Radix) (length n : Nat) :
    (b.lowDigits length n).length = length := by
  induction length generalizing n with
  | zero => rfl
  | succ length ih => simp [lowDigits, ih]

theorem lt_of_mem_digits {b : Radix} {n d : Nat} (h : d ∈ b.digits n) : d < b.val := by
  fun_induction digits b n with
  | case1 n hn => simp_all
  | case2 n hn ih =>
    rcases List.mem_append.mp h with h | h
    · exact ih h
    · have := b.two_le
      simp only [List.mem_singleton] at h
      exact h ▸ Nat.mod_lt _ (by omega)

theorem lt_of_mem_lowDigits {b : Radix} {length n d : Nat} (h : d ∈ b.lowDigits length n) :
    d < b.val := by
  induction length generalizing n with
  | zero => simp [lowDigits] at h
  | succ length ih =>
    rcases List.mem_append.mp h with h | h
    · exact ih h
    · have := b.two_le
      simp only [List.mem_singleton] at h
      exact h ▸ Nat.mod_lt _ (by omega)

end Radix

namespace Numeral

def digitChars : List Char := "0123456789abcdefghijklmnopqrstuvwxyz".toList

def digitChar (d : Nat) : Char := digitChars[d]?.getD '0'

/-- A minus sign for negative numbers, then the digits of the absolute value. -/
def chars (b : Radix) (z : Int) : List Char :=
  let magnitude := (b.digits z.natAbs).map digitChar
  if z < 0 then '-' :: magnitude else magnitude

/-- What ends a text in a buffer. -/
def terminator : Char := Char.ofNat 0

/-- Puts the digits of a number behind what is written, the least significant first. Remainders are negated,
the number never is. -/
def putDigits (b : Radix) (negative : Bool) (z : Int) (out : Array Char) : Array Char :=
  if z = 0 then out
  else
    let digit := z.tmod b.val
    putDigits b negative (z.tdiv b.val) (out.push (digitChar (if negative then -digit else digit).toNat))
termination_by z.natAbs
decreasing_by
  have := b.two_le
  rw [Int.natAbs_tdiv]
  exact Nat.div_lt_self (by omega) (by omega)

/-- Exchanges `n` pairs of the `length` characters from `start` on, from the ends inwards. -/
def swapEnds (out : Array Char) (start length : Nat) : Nat → Array Char
  | 0 => out
  | n + 1 => (swapEnds out start length n).swapIfInBounds (start + n) (start + length - 1 - n)

/-- All that is written for a number, and how many digits it has; a sign is no digit. -/
def write (b : Radix) (z : Int) : Array Char × Nat :=
  if z = 0 then (#['0', terminator], 1)
  else
    let negative := decide (z < 0)
    let sign := if negative then #['-'] else #[]
    let out := putDigits b negative z sign
    let length := out.size - sign.size
    ((swapEnds out sign.size length (length / 2)).push terminator, length)

/-- The text that is written, up to its terminator. -/
def text (b : Radix) (z : Int) : String :=
  String.ofList ((write b z).1.toList.takeWhile (· ≠ terminator))

def digitCount (b : Radix) (z : Int) : Nat := (write b z).2

/-- Puts the digits of a number into the first places of a buffer, the least significant last. -/
def fillDigits (b : Radix) (out : Array Char) : Nat → Nat → Array Char
  | 0, _ => out
  | places + 1, n =>
      if n = 0 then out
      else fillDigits b (out.setIfInBounds places (digitChar (n % b.val))) places (n / b.val)

/-- All that is written for the lowest `length` digits of a number. -/
def writePadded (b : Radix) (length n : Nat) : Array Char :=
  fillDigits b ((Array.replicate length '0').push terminator) length n

/-- The padded form, up to its terminator. -/
def paddedChars (b : Radix) (length n : Nat) : List Char :=
  (writePadded b length n).toList.takeWhile (· ≠ terminator)

def paddedText (b : Radix) (length n : Nat) : String := String.ofList (paddedChars b length n)

end Numeral

end KernelCore
