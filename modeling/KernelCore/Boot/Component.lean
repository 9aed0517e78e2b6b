import KernelCore.Kernel.Action

/-! # Boot components

Boot runs a table of components in order, up to the first sentinel. A phase marker only prints its
name; any other component runs its initializer, and when that fails the boot goes on with one more
failure, or panics if the component is required. The minimal importance decides what is printed and
nothing else.
-/

namespace KernelCore

structure Component (κ : Type) where
  name : Option String
  initializer : Option (Action κ Bool)
  flags : UInt8
  importance : Importance

namespace Component

variable {κ : Type}

/-- Marks the end of a table. -/
def sentinel : Component κ := ⟨none, none, 0, .debug⟩

def isSentinel (c : Component κ) : Bool :=
  c.name.isNone && c.initializer.isNone && c.flags = 0 && c.importance = .debug

def required (c : Component κ) : Bool := c.flags &&& 1 ≠ 0

def phaseMarker (c : Component κ) : Bool := c.flags &&& 4 ≠ 0

/-- Whether the name of a component of some importance is printed. -/
def shows (minimal importance : Importance) : Bool :=
  minimal = .debug || (importance ≠ .debug && decide (minimal ≤ importance))

def showsFailure (minimal importance : Importance) : Bool :=
  minimal = .debug || importance ≠ .debug

theorem shows_of_le {p q i : Importance} (h : p ≤ q) (hs : shows q i = true) :
    shows p i = true := by
  obtain ⟨p⟩ := p
  obtain ⟨q⟩ := q
  have hpq : p ≤ q := h
  simp only [shows, Bool.or_eq_true, Bool.and_eq_true, decide_eq_true_eq] at *
  rcases hs with hs | ⟨hi, hq⟩
  · have hq : q = 0 := congrArg Importance.level hs
    have hz : p = 0 := UInt8.le_antisymm (hq ▸ hpq) (UInt8.zero_le)
    exact Or.inl (by rw [hz]; rfl)
  · exact Or.inr ⟨hi, Importance.le_trans h hq⟩

theorem showsFailure_of_le {p q i : Importance} (h : p ≤ q) (hs : showsFailure q i = true) :
    showsFailure p i = true := by
  obtain ⟨p⟩ := p
  obtain ⟨q⟩ := q
  have hpq : p ≤ q := h
  simp only [showsFailure, Bool.or_eq_true, decide_eq_true_eq] at *
  rcases hs with hs | hi
  · have hq : q = 0 := congrArg Importance.level hs
    have hz : p = 0 := UInt8.le_antisymm (hq ▸ hpq) (UInt8.zero_le)
    exact Or.inl (by rw [hz]; rfl)
  · exact Or.inr hi

/-- Runs one component that is not a phase marker and answers whether it failed. -/
def run (minimal : Importance) (c : Component κ) : Action κ Bool := do
  if shows minimal c.importance then
    Action.print [.text "[Boot] ", .name c.name, .text "\n"]
  match c.initializer with
  | none => Action.fault .noInitializer
  | some act =>
      if ← act then return false
      if c.required then Action.halt (.requiredComponent c.name)
      if showsFailure minimal c.importance then
        Action.print [.text "Failed to initialize ", .name c.name, .text "\n"]
      return true

/-- Runs a table up to its first sentinel and answers how many components failed. -/
def runTable (minimal : Importance) : List (Component κ) → Action κ Nat
  | [] => return 0
  | c :: cs => do
      if c.isSentinel then return 0
      if c.phaseMarker then
        if shows minimal c.importance then
          Action.print [.text "[Phase] ", .name c.name, .text "\n"]
        runTable minimal cs
      else
        let failed ← c.run minimal
        let failures ← runTable minimal cs
        return if failed then failures + 1 else failures

end Component

end KernelCore
