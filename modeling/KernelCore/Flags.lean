/-! # Flag sets

A flag set over some width has a mask of known bits. Raw values from outside are either rejected
when they carry an unknown bit or stripped of it; sets built from raw flags directly keep every
bit.
-/

namespace KernelCore

structure Flags (width : Nat) (known : BitVec width) where
  bits : BitVec width
  deriving DecidableEq

namespace Flags

variable {width : Nat} {known : BitVec width}

def empty : Flags width known := ⟨0⟩

def all : Flags width known := ⟨known⟩

/-- Rejects raw values with an unknown bit. -/
def ofBits? (raw : BitVec width) : Option (Flags width known) :=
  if raw &&& ~~~known = 0 then some ⟨raw⟩ else none

/-- Drops unknown bits. -/
def ofBitsTruncate (raw : BitVec width) : Flags width known := ⟨raw &&& known⟩

def isEmpty (s : Flags width known) : Bool := s.bits = 0

def contains (s t : Flags width known) : Bool := s.bits &&& t.bits = t.bits

def intersects (s t : Flags width known) : Bool := s.bits &&& t.bits ≠ 0

def union (s t : Flags width known) : Flags width known := ⟨s.bits ||| t.bits⟩

def inter (s t : Flags width known) : Flags width known := ⟨s.bits &&& t.bits⟩

def without (s t : Flags width known) : Flags width known := ⟨s.bits &&& ~~~t.bits⟩

instance : Union (Flags width known) := ⟨union⟩

instance : Inter (Flags width known) := ⟨inter⟩

theorem ofBits?_eq_some_iff {raw : BitVec width} {s : Flags width known} :
    ofBits? raw = some s ↔ s.bits = raw ∧ raw &&& ~~~known = 0 := by
  cases s
  simp only [ofBits?, Option.ite_none_right_eq_some, Option.some.injEq, mk.injEq]
  exact ⟨fun h => ⟨h.2.symm, h.1⟩, fun h => ⟨h.2, h.1.symm⟩⟩

theorem and_known_eq_self {raw : BitVec width} (h : raw &&& ~~~known = 0) : raw &&& known = raw := by
  calc raw &&& known = raw &&& known ||| raw &&& ~~~known := by rw [h]; simp
    _ = raw := by rw [← BitVec.and_or_distrib_left]; simp

@[simp] theorem bits_union (s t : Flags width known) : (s ∪ t).bits = s.bits ||| t.bits := rfl

end Flags

end KernelCore
