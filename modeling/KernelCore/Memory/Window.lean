import KernelCore.Memory.Range
import KernelCore.Memory.Bytes

/-! # Accessible memory

The parts of memory that can be read and written are windows: the window of user memory, and the
arenas that the kernel's allocators hand out. No address lies in two windows, and none of them wraps
around. A span of bytes is accessible when one window holds all of it.
-/

namespace KernelCore

structure Window where
  base : Address
  size : UInt64
  bytes : ByteStore

namespace Window

def zeroed (base : Address) (size : UInt64) : Window := ⟨base, size, .empty⟩

def holds (w : Window) (a : Address) (length : UInt64) : Bool := Span.covers w.base w.size a length

def offset (w : Window) (a : Address) : Nat := (a - w.base).toNat

/-- Changes the bytes of the first window that holds a span. -/
def changeFirst (a : Address) (length : UInt64) (f : Nat → ByteStore → ByteStore) :
    List Window → List Window
  | [] => []
  | w :: ws =>
      if w.holds a length then { w with bytes := f (w.offset a) w.bytes } :: ws
      else w :: changeFirst a length f ws

/-- One window ends before the other one starts. -/
def Apart (w v : Window) : Prop :=
  w.base.toNat + w.size.toNat ≤ v.base.toNat ∨ v.base.toNat + v.size.toNat ≤ w.base.toNat

instance : DecidableRel Apart := fun _ _ => inferInstanceAs (Decidable (_ ∨ _))

/-- Windows that do not wrap around and have no address in common. -/
structure Flat (ws : List Window) : Prop where
  bounded : ∀ w ∈ ws, w.base.toNat + w.size.toNat ≤ UInt64.size
  apart : ws.Pairwise Apart

def span (w : Window) : Address × UInt64 := (w.base, w.size)

theorem Flat.congr {vs ws : List Window} (h : Flat ws) (hs : vs.map span = ws.map span) :
    Flat vs where
  bounded v hv := by
    have hmem : v.span ∈ ws.map span := hs ▸ List.mem_map_of_mem hv
    obtain ⟨w, hw, hspan⟩ := List.mem_map.mp hmem
    have hbound := h.bounded w hw
    simp only [span, Prod.mk.injEq] at hspan
    rwa [hspan.1, hspan.2] at hbound
  apart := by
    have hmap (us : List Window) : us.Pairwise Apart ↔ (us.map span).Pairwise fun s t =>
        s.1.toNat + s.2.toNat ≤ t.1.toNat ∨ t.1.toNat + t.2.toNat ≤ s.1.toNat := by
      rw [List.pairwise_map]
      rfl
    rw [hmap, hs, ← hmap]
    exact h.apart

theorem map_span_changeFirst (a : Address) (length : UInt64) (f : Nat → ByteStore → ByteStore)
    (ws : List Window) : (changeFirst a length f ws).map span = ws.map span := by
  induction ws with
  | nil => rfl
  | cons w ws ih =>
    rw [changeFirst]
    split
    · rfl
    · rw [List.map_cons, List.map_cons, ih]

end Window

structure Memory where
  user : Window
  arenas : List Window
  flat : Window.Flat (user :: arenas)

namespace Memory

open Window

def windows (m : Memory) : List Window := m.user :: m.arenas

def accessible (m : Memory) (a : Address) (length : UInt64) : Bool :=
  m.windows.any (·.holds a length)

def load? (m : Memory) (a : Address) (length : UInt64) : Option ByteArray :=
  (m.windows.find? (·.holds a length)).map fun w => w.bytes.read (w.offset a) length.toNat

/-- Leaves memory alone when no window holds the span. -/
def change (m : Memory) (a : Address) (length : UInt64) (f : Nat → ByteStore → ByteStore) :
    Memory :=
  if m.user.holds a length then
    { m with
      user := { m.user with bytes := f (m.user.offset a) m.user.bytes }
      flat := m.flat.congr rfl }
  else
    { m with
      arenas := changeFirst a length f m.arenas
      flat := m.flat.congr (by rw [List.map_cons, List.map_cons, map_span_changeFirst]) }

def store (m : Memory) (a : Address) (data : ByteArray) : Memory :=
  m.change a data.size.toUInt64 fun offset s => s.write offset data

def clear (m : Memory) (a : Address) (length : UInt64) : Memory :=
  m.change a length fun offset s => s.clear offset length.toNat

/-- The user text at `a` without its final NUL, when it ends inside user memory. -/
def userText? (m : Memory) (a : Address) : Option ByteArray :=
  if m.user.holds a 1 then
    let start := m.user.offset a
    let rest := m.user.bytes.read start (m.user.size.toNat - start)
    (rest.findIdx? (· = 0)).map fun n => rest.extract 0 n
  else none

theorem windows_change (m : Memory) (a : Address) (length : UInt64)
    (f : Nat → ByteStore → ByteStore) :
    (m.change a length f).windows = changeFirst a length f m.windows := by
  unfold change windows
  by_cases h : m.user.holds a length <;> simp [changeFirst, h]

theorem any_changeFirst (a b : Address) (length n : UInt64) (f : Nat → ByteStore → ByteStore)
    (ws : List Window) :
    (changeFirst a length f ws).any (·.holds b n) = ws.any (·.holds b n) := by
  induction ws with
  | nil => rfl
  | cons w ws ih =>
    unfold changeFirst
    split
    · simp [Window.holds]
    · simp [ih]

@[simp] theorem accessible_change (m : Memory) (a b : Address) (length n : UInt64)
    (f : Nat → ByteStore → ByteStore) :
    (m.change a length f).accessible b n = m.accessible b n := by
  simp only [accessible, windows_change, any_changeFirst]

theorem isSome_load? (m : Memory) (a : Address) (n : UInt64) :
    (m.load? a n).isSome = m.accessible a n := by
  rw [Bool.eq_iff_iff]
  simp [load?, accessible, List.find?_isSome]

end Memory

end KernelCore
