import KernelCore.Text.Numeral

/-! # Reading numerals

The value of a written number: an optional minus sign, and then at least one digit of the radix, the most
significant first. A row of digits may also be empty, and then stands for 0.
-/

namespace KernelCore.Numeral

/-- The characters of the digits of a radix. -/
def alphabet (b : Radix) : List Char := digitChars.take b.val

def digitValue? (b : Radix) (c : Char) : Option Nat := (alphabet b).idxOf? c

def magnitude? (b : Radix) (cs : List Char) : Option Nat :=
  if cs = [] then none else cs.foldlM (fun n c => (digitValue? b c).map (n * b.val + ·)) 0

/-- The value of a row of digits, however short. -/
def rowValue? (b : Radix) (cs : List Char) : Option Nat :=
  cs.foldlM (fun n c => (digitValue? b c).map (n * b.val + ·)) 0

theorem magnitude?_of_ne_nil {b : Radix} {cs : List Char} (h : cs ≠ []) :
    magnitude? b cs = rowValue? b cs := if_neg h

def value? (b : Radix) : List Char → Option Int
  | '-' :: cs => (magnitude? b cs).map fun n => -n
  | cs => (magnitude? b cs).map fun n => n

example : value? .hexadecimal "-7f".toList = some (-127) := by decide

end KernelCore.Numeral
