import KernelCore.Text.Numeral

/-! # Printed items

A message is a list of items: characters, texts, pointers, numbers and truth values. Texts end at
their first NUL and a NUL character prints nothing; a pointer always has 16 hexadecimal digits,
so distinct pointers never print alike.
-/

namespace KernelCore

inductive Item where
  | char (c : UInt8)
  | text (s : String)
  | pointer (w : UInt64)
  | number (z : Int)
  | truth (b : Bool)
  deriving DecidableEq, Repr

namespace Item

def untilNul (s : String) : String := String.ofList (s.toList.takeWhile (·.toNat != 0))

/-- A name that may be missing. -/
def name (s : Option String) : Item := .text (s.getD "(null)")

def address (w : UInt64) : List Item := [.text "virt_addr(", .pointer w, .text ")"]

def bytes : Item → ByteArray
  | char c => if c = 0 then .empty else ⟨#[c]⟩
  | text s => (untilNul s).toUTF8
  | pointer w => ("0x" ++ Numeral.paddedText .hexadecimal 16 w.toNat).toUTF8
  | number z => (Numeral.text .decimal z).toUTF8
  | truth b => (if b then "true" else "false").toUTF8

/-- All that a message writes, in order. -/
def render (items : List Item) : ByteArray := items.foldl (fun out i => out ++ i.bytes) .empty

end Item

end KernelCore
