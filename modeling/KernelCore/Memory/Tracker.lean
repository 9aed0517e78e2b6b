import KernelCore.Word.Align
import KernelCore.Text.Numeral

/-! # Allocation tracking

A record of the allocations that are live, with running totals. Totals wrap around like the words that
they count. Null pointers are never recorded, and only recorded pointers can be given back.
-/

namespace KernelCore

structure Tracker where
  live : List (Address × UInt64)
  allocated : UInt64
  freed : UInt64
  peak : UInt64
  usage : UInt64
  deriving DecidableEq, Repr

namespace Tracker

def empty : Tracker := ⟨[], 0, 0, 0, 0⟩

/-- Forgets all that was recorded. -/
def reset (t : Tracker) : Tracker :=
  { t with live := [], allocated := 0, freed := 0, peak := 0, usage := 0 }

@[simp] theorem reset_eq_empty (t : Tracker) : t.reset = empty := rfl

def tracked (t : Tracker) (p : Address) : Bool := (t.live.lookup p).isSome

def without (t : Tracker) (p : Address) : List (Address × UInt64) := t.live.filter (·.1 ≠ p)

/-- A pointer that is recorded again has its latest size. -/
def record (t : Tracker) (p : Address) (size : UInt64) : Tracker :=
  if p = 0 then t
  else
    let usage := t.usage + size
    { t with
      live := (p, size) :: t.without p
      allocated := t.allocated + size
      usage := usage
      peak := if t.peak < usage then usage else t.peak }

/-- Gives a pointer back, if it is recorded. -/
def release? (t : Tracker) (p : Address) : Option Tracker :=
  if p = 0 then none
  else (t.live.lookup p).map fun size =>
    { t with
      live := t.without p
      freed := t.freed + size
      usage := t.usage - size }

def hasLeaks (t : Tracker) : Bool := !t.live.isEmpty

def count (t : Tracker) : Nat := t.live.length

def decimal (x : UInt64) : String := Numeral.text .decimal x.toNat

/-- One line for each allocation that was never given back. -/
def leakLines (t : Tracker) : List String :=
  t.live.map fun (p, size) =>
    "  0x" ++ Numeral.text .hexadecimal p.toNat ++ " -> " ++ decimal size ++ " bytes"

/-- The report on all that is known, less the lines of the leaks. -/
def reportLines (t : Tracker) : List String :=
  ["", "=== Memory Leak Report ===",
    "Total allocated: " ++ decimal t.allocated ++ " bytes",
    "Total freed: " ++ decimal t.freed ++ " bytes",
    "Peak usage: " ++ decimal t.peak ++ " bytes",
    "Current usage: " ++ decimal t.usage ++ " bytes",
    "Active allocations: " ++ Numeral.text .decimal t.count,
    "",
    if t.hasLeaks then "LEAKED ALLOCATIONS:" else "No memory leaks detected!",
    "========================="]

end Tracker

end KernelCore
