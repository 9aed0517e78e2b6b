import KernelCore.Memory.Boot
import KernelCore.Log.Record

/-! # Operations on boot memory

The requests that can be made of boot memory, what each comes to, and the log records that it
leaves. An operation that panics leaves the memory as it was.
-/

namespace KernelCore.BootMemory

inductive Operation where
  | activate (region : Range)
  | extend (region : Range)
  | retire
  | allocate (size align : UInt64)
  | free (pointer : Address)
  | allocatePages (count : UInt64)
  | freePages (first : Address) (count : UInt64)
  deriving DecidableEq, Repr

inductive Outcome where
  | done
  | accepted
  | refused
  | pointer (a : Option Address)
  deriving DecidableEq, Repr

/-- Keeps the memory when there is no new one. -/
def attempt (b : BootMemory) : Option BootMemory → Outcome × BootMemory
  | some b' => (.accepted, b')
  | none => (.refused, b)

def apply (b : BootMemory) : Operation → Except Panic (Outcome × BootMemory)
  | .activate r => .ok (b.attempt (b.activate r).toOption)
  | .extend r => .ok (b.attempt (b.extend r).toOption)
  | .retire => .ok (b.attempt b.retire?)
  | .allocate size align => (b.allocate size align).map fun (a, b') => (.pointer a, b')
  | .free a => .ok (.done, b.free a)
  | .allocatePages count =>
      match b.allocatePages count with
      | some (a, b') => .ok (.pointer (some a), b')
      | none => .ok (.pointer none, b)
  | .freePages first count => .ok (.done, b.freePages first count)

variable {b b' : BootMemory} {o : Outcome}

theorem attempt_cases {x : Option BootMemory} (h : b.attempt x = (o, b')) :
    (o = .accepted ∧ x = some b') ∨ (o = .refused ∧ x = none ∧ b' = b) := by
  cases x with
  | none => cases h; exact Or.inr ⟨rfl, rfl, rfl⟩
  | some => cases h; exact Or.inl ⟨rfl, rfl⟩

theorem apply_activate_cases {r : Range} (h : b.apply (.activate r) = .ok (o, b')) :
    (o = .accepted ∧ b.activate r = .ok b') ∨ (o = .refused ∧ b' = b) := by
  rcases attempt_cases (Except.ok.inj h) with ⟨ho, hb⟩ | ⟨ho, -, hb⟩
  · cases ha : b.activate r <;> simp_all [Except.toOption]
  · exact Or.inr ⟨ho, hb⟩

theorem apply_extend_cases {r : Range} (h : b.apply (.extend r) = .ok (o, b')) :
    (o = .accepted ∧ b.extend r = .ok b') ∨ (o = .refused ∧ b' = b) := by
  rcases attempt_cases (Except.ok.inj h) with ⟨ho, hb⟩ | ⟨ho, -, hb⟩
  · cases ha : b.extend r <;> simp_all [Except.toOption]
  · exact Or.inr ⟨ho, hb⟩

theorem apply_retire_cases (h : b.apply .retire = .ok (o, b')) :
    (o = .accepted ∧ b.phase = .active ∧ b' = { b with phase := .retired }) ∨
      (o = .refused ∧ b' = b) := by
  rcases attempt_cases (Except.ok.inj h) with ⟨ho, hb⟩ | ⟨ho, -, hb⟩
  · exact Or.inl ⟨ho, retire?_eq_some_iff.mp hb⟩
  · exact Or.inr ⟨ho, hb⟩

theorem apply_allocate_cases {size align : UInt64}
    (h : b.apply (.allocate size align) = .ok (o, b')) :
    (o = .pointer none ∧ b' = b) ∨ b.phase = .active ∧
      ∃ a e, b.extent.alloc size align = .ok (a, e) ∧ o = .pointer (pointer? a) ∧
        b' = { b with extent := e } := by
  unfold apply at h
  cases ha : b.allocate size align with
  | error p => simp [ha, Except.map] at h
  | ok x =>
    obtain ⟨p, c⟩ := x
    simp only [ha, Except.map, Except.ok.injEq, Prod.mk.injEq] at h
    obtain ⟨rfl, rfl⟩ := h
    rcases allocate_eq_ok ha with ⟨rfl, hb⟩ | ⟨hp, a, e, he, rfl, hb⟩
    · exact Or.inl ⟨rfl, hb⟩
    · exact Or.inr ⟨hp, a, e, he, rfl, hb⟩

theorem apply_free_cases {a : Address} (h : b.apply (.free a) = .ok (o, b')) :
    o = .done ∧ ((b.phase = .dormant ∨ a = 0) ∧ b' = b ∨
      b.phase ≠ .dormant ∧ a ≠ 0 ∧ b' = { b with extent := b.extent.release }) := by
  simp only [apply, Except.ok.injEq, Prod.mk.injEq] at h
  obtain ⟨rfl, rfl⟩ := h
  refine ⟨rfl, ?_⟩
  unfold free
  split
  · exact Or.inl ⟨‹_›, rfl⟩
  · rename_i hn
    obtain ⟨hp, ha⟩ := not_or.mp hn
    exact Or.inr ⟨hp, ha, rfl⟩

theorem apply_allocatePages_cases {count : UInt64}
    (h : b.apply (.allocatePages count) = .ok (o, b')) :
    (o = .pointer none ∧ b' = b) ∨ b.phase = .active ∧
      ∃ a e, b.extent.allocPages count pageBytes = .ok (a, e) ∧ o = .pointer (some a) ∧
        b' = { b with extent := e } := by
  unfold apply at h
  cases ha : b.allocatePages count with
  | none =>
    simp only [ha, Except.ok.injEq, Prod.mk.injEq] at h
    exact Or.inl ⟨h.1.symm, h.2.symm⟩
  | some x =>
    obtain ⟨a, c⟩ := x
    simp only [ha, Except.ok.injEq, Prod.mk.injEq] at h
    obtain ⟨rfl, rfl⟩ := h
    obtain ⟨hp, e, he, hb⟩ := allocatePages_eq_some ha
    exact Or.inr ⟨hp, a, e, he, rfl, hb⟩

theorem apply_freePages_cases {first : Address} {count : UInt64}
    (h : b.apply (.freePages first count) = .ok (o, b')) :
    o = .done ∧ (b.phase = .dormant ∧ b' = b ∨
      b.phase ≠ .dormant ∧ b' = { b with extent := b.extent.freePages first count }) := by
  simp only [apply, Except.ok.injEq, Prod.mk.injEq] at h
  obtain ⟨rfl, rfl⟩ := h
  refine ⟨rfl, ?_⟩
  unfold freePages
  split
  · exact Or.inl ⟨‹_›, rfl⟩
  · exact Or.inr ⟨‹_›, rfl⟩

def activateRecords (b : BootMemory) (r : Range) : List Record :=
  let bounds := .text "[" :: Item.address r.start ++ .text ", " :: Item.address r.stop
  match b.activate r with
  | .error .notDormant => [⟨some .error,
      [.text "Early memory cannot be activated while ", .text b.phase.word, .text "\n"]⟩]
  | .error .tooSmall => [⟨some .error,
      .text "Early memory region " :: bounds ++ [.text ") is too small\n"]⟩]
  | .ok b' => [⟨some .debug, .text "Early memory active at " :: bounds ++
      [.text "), ", .number b'.extent.totalPages.toNat, .text " pages\n"]⟩]

def extendRecords (b : BootMemory) (r : Range) : List Record :=
  let intent := .text "Early memory extension to " :: Item.address r.stop
  match b.extend r with
  | .error .notActive => [⟨some .error,
      [.text "Early memory cannot be extended while ", .text b.phase.word, .text "\n"]⟩]
  | .error .pagesInUse => [⟨some .important, intent ++
      .text " would release pages still in use below " :: Item.address b.pageBoundary ++
      [.text "\n"]⟩]
  | .error .outsideExtent => [⟨some .important,
      intent ++ [.text " lies outside the managed extent\n"]⟩]
  | .error .inverted | .ok _ => []

def retireRecords (b : BootMemory) : List Record :=
  match b.retire? with
  | none => []
  | some b' => [⟨some .debug,
      [.text "Early memory retired with ", .number b'.extent.live.toNat,
        .text " live allocations and ", .number b'.extent.usedPages.toNat,
        .text " pages in use\n"]⟩]

def records (b : BootMemory) : Operation → List Record
  | .activate r => b.activateRecords r
  | .extend r => b.extendRecords r
  | .retire => b.retireRecords
  | .allocate .. | .free .. | .allocatePages .. | .freePages .. => []

end KernelCore.BootMemory
