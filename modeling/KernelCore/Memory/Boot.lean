import KernelCore.Memory.Extent.Operation

/-! # Boot memory

The memory that serves allocations while the kernel boots. It starts dormant, is activated once
on a region, and is retired when a general heap takes over; what it handed out may still be given
back after that, but nothing more is handed out.

The page boundary is the highest end of the page zone that may still have blocks handed out: the
boundary is not raised while the page cursor is below it.
-/

namespace KernelCore

inductive Phase where
  | dormant
  | active
  | retired
  deriving DecidableEq, Repr

namespace Phase

def ofCode? (c : UInt8) : Option Phase :=
  match c.toNat with
  | 0 => some dormant
  | 1 => some active
  | 2 => some retired
  | _ => none

def word : Phase → String
  | dormant => "dormant"
  | active => "active"
  | retired => "retired"

end Phase

/-- The size of the pages that boot memory and mappings are made of. -/
def pageBytes : UInt64 := 4096

structure BootMemory where
  extent : Extent pageBytes
  phase : Phase
  pageBoundary : Address
  deriving DecidableEq, Repr

namespace BootMemory

def dormant : BootMemory := ⟨.empty, .dormant, 0⟩

/-- The smallest region worth activating boot memory on. -/
def minRegionSize : UInt64 := 65536

inductive ActivateError where
  | notDormant
  | tooSmall
  deriving DecidableEq, Repr

def activate (b : BootMemory) (r : Range) : Except ActivateError BootMemory :=
  if b.phase ≠ .dormant then .error .notDormant
  else if r.inverted ∨ r.size < minRegionSize then .error .tooSmall
  else .ok ⟨.spanning r.start r.size, .active, r.stop⟩

inductive ExtendError where
  | notActive
  | inverted
  | pagesInUse
  | outsideExtent
  deriving DecidableEq, Repr

/-- Whether some pages below the recorded boundary may be in use. -/
def pagesInUse (b : BootMemory) : Bool := b.extent.pageCursor < b.pageBoundary

/-- Moves the page boundary to the end of a region. The recorded boundary drops only when no pages are
in use. -/
def extend (b : BootMemory) (r : Range) : Except ExtendError BootMemory :=
  if b.phase ≠ .active then .error .notActive
  else if r.inverted then .error .inverted
  else if b.pagesInUse ∧ b.extent.pageCursor < r.stop then .error .pagesInUse
  else match b.extent.movePages? r.start r.size with
    | none => .error .outsideExtent
    | some e => .ok { b with
        extent := e
        pageBoundary := if ¬ b.pagesInUse ∨ b.pageBoundary < r.stop then r.stop else b.pageBoundary }

def retire? (b : BootMemory) : Option BootMemory :=
  if b.phase = .active then some { b with phase := .retired } else none

def owns (b : BootMemory) (a : Address) : Bool := b.phase ≠ .dormant && b.extent.owns a

/-- Address 0 reads as the null pointer, that is, as no pointer at all. -/
def pointer? (a : Address) : Option Address := if a = 0 then none else some a

/-- Hands out bytes, or nothing when there are none left or the memory is not active. -/
def allocate (b : BootMemory) (size align : UInt64) : Except Panic (Option Address × BootMemory) :=
  if b.phase ≠ .active then .ok (none, b)
  else match b.extent.alloc size align with
    | .ok (a, e) => .ok (pointer? a, { b with extent := e })
    | .error .noMemory => .ok (none, b)
    | .error .badAlignment => .error (.byteAlignment align)

/-- Takes back any pointer but the null one. -/
def free (b : BootMemory) (a : Address) : BootMemory :=
  if b.phase = .dormant ∨ a = 0 then b else { b with extent := b.extent.release }

def allocatePages (b : BootMemory) (count : UInt64) : Option (Address × BootMemory) :=
  if b.phase ≠ .active then none
  else match b.extent.allocPages count pageBytes with
    | .ok (a, e) => some (a, { b with extent := e })
    | .error _ => none

def freePages (b : BootMemory) (first : Address) (count : UInt64) : BootMemory :=
  if b.phase = .dormant then b else { b with extent := b.extent.freePages first count }

variable {b b' : BootMemory}

theorem activate_eq_ok_iff {r : Range} :
    b.activate r = .ok b' ↔ b.phase = .dormant ∧ r.start ≤ r.stop ∧ minRegionSize ≤ r.size ∧
      b' = ⟨.spanning r.start r.size, .active, r.stop⟩ := by
  unfold activate
  by_cases hd : b.phase = .dormant
  · by_cases hr : r.inverted = true ∨ r.size < minRegionSize
    · simp only [hd, ne_eq, not_true_eq_false, if_false, hr, if_true, reduceCtorEq, true_and,
        false_iff, not_and]
      intro h h'
      rcases hr with hr | hr
      · exact absurd (by simpa [Range.inverted] using hr) (UInt64.not_lt.mpr h)
      · exact absurd hr (UInt64.not_lt.mpr h')
    · simp only [not_or, Bool.not_eq_true] at hr
      have h₁ : r.start ≤ r.stop := by simpa [Range.inverted, UInt64.not_lt] using hr.1
      have h₂ : minRegionSize ≤ r.size := UInt64.not_lt.mp hr.2
      simp [hd, hr.1, hr.2, h₁, h₂, eq_comm]
  · simp [hd]

theorem pagesInUse_eq_true_iff : b.pagesInUse = true ↔ b.extent.pageCursor < b.pageBoundary := by
  simp [pagesInUse]

theorem extend_eq_ok {r : Range} (h : b.extend r = .ok b') :
    b.phase = .active ∧ r.start ≤ r.stop ∧
      (b.pagesInUse = true → r.stop ≤ b.extent.pageCursor) ∧
      r.stop ≤ b.extent.ceiling ∧ b.extent.byteCursor ≤ r.stop ∧
      b' = { b with
        extent := { b.extent with pageCursor := r.stop }
        pageBoundary := if ¬ b.pagesInUse ∨ b.pageBoundary < r.stop then r.stop else b.pageBoundary } := by
  unfold extend at h
  split at h
  · cases h
  · rename_i hp
    split at h
    · cases h
    · rename_i hi
      have hr : r.start ≤ r.stop := by simpa [Range.inverted] using hi
      split at h
      · cases h
      · rename_i hu
        split at h
        · cases h
        · rename_i e he
          obtain ⟨boundary, hb, hc, hl, rfl⟩ := Extent.movePages?_eq_some_iff.mp he
          obtain rfl : r.stop = boundary := Option.some.inj ((Range.add?_start_size hr).symm.trans hb)
          cases h
          refine ⟨by simpa using hp, hr, ?_, hc, hl, rfl⟩
          exact fun hin => UInt64.not_lt.mp fun hlt => hu ⟨hin, hlt⟩

theorem allocate_eq_ok {size align : UInt64} {p : Option Address}
    (h : b.allocate size align = .ok (p, b')) :
    (p = none ∧ b' = b) ∨ b.phase = .active ∧
      ∃ a e, b.extent.alloc size align = .ok (a, e) ∧ p = pointer? a ∧ b' = { b with extent := e } := by
  unfold allocate at h
  split at h
  · cases h
    exact Or.inl ⟨rfl, rfl⟩
  · rename_i hp
    split at h
    · rename_i a e he
      cases h
      exact Or.inr ⟨by simpa using hp, a, e, he, rfl, rfl⟩
    · cases h
      exact Or.inl ⟨rfl, rfl⟩
    · cases h

theorem allocatePages_eq_some {count : UInt64} {a : Address}
    (h : b.allocatePages count = some (a, b')) :
    b.phase = .active ∧
      ∃ e, b.extent.allocPages count pageBytes = .ok (a, e) ∧ b' = { b with extent := e } := by
  unfold allocatePages at h
  split at h
  · cases h
  · rename_i hp
    split at h
    · rename_i a e he
      cases h
      exact ⟨by simpa using hp, e, he, rfl⟩
    · cases h

theorem pointer?_eq_some_iff {a p : Address} : pointer? a = some p ↔ a ≠ 0 ∧ p = a := by
  unfold pointer?
  split <;> simp_all [eq_comm]

theorem retire?_eq_some_iff :
    b.retire? = some b' ↔ b.phase = .active ∧ b' = { b with phase := .retired } := by
  unfold retire?; split <;> simp_all [eq_comm]

theorem owns_eq_true_iff {a : Address} :
    b.owns a = true ↔ b.phase ≠ .dormant ∧ b.extent.start ≤ a ∧ a < b.extent.ceiling := by
  simp [owns, Extent.owns_eq_true_iff]

end BootMemory

end KernelCore
