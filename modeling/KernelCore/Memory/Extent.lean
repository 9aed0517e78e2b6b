import KernelCore.Memory.Range

/-! # Extents with two cursors

An extent is one contiguous piece of memory that is handed out from both ends. Bytes are taken
from the low end and given back only all together, once none of them is in use; pages are taken
from the high end and given back most recent first.

    start            byteCursor            pageCursor            ceiling
      |---- bytes ------->|        free         |<------ pages ----|

Anything else that is given back is ignored.
-/

namespace KernelCore

structure Extent (pageSize : UInt64) where
  start : Address
  size : UInt64
  byteCursor : Address
  pageCursor : Address
  live : UInt64
  deriving DecidableEq, Repr

inductive AllocError where
  | noMemory
  | badAlignment
  deriving DecidableEq, Repr

namespace Extent

open Word

variable {pageSize : UInt64}

def empty : Extent pageSize := ⟨0, 0, 0, 0, 0⟩

def ceiling (e : Extent pageSize) : Address := e.start + e.size

/-- The extent of which nothing has been handed out. -/
def spanning (start : Address) (size : UInt64) : Extent pageSize :=
  ⟨start, size, start, start + size, 0⟩

/-- Refuses a region that wraps around. -/
def init? (start : Address) (size : UInt64) : Option (Extent pageSize) :=
  (add? start size).map fun _ => spanning start size

/-- Moves the page cursor to the end of a region, between the byte cursor and the ceiling. Its start does not
matter. -/
def movePages? (e : Extent pageSize) (start : Address) (size : UInt64) :
    Option (Extent pageSize) :=
  match add? start size with
  | none => none
  | some boundary =>
      if e.ceiling < boundary ∨ boundary < e.byteCursor then none
      else some { e with pageCursor := boundary }

/-- Hands out bytes at the next multiple of the alignment. -/
def alloc (e : Extent pageSize) (bytes align : UInt64) :
    Except AllocError (Address × Extent pageSize) :=
  if isPowerOfTwo align then
    match alignUp? e.byteCursor align with
    | none => .error .noMemory
    | some first =>
        match add? first bytes with
        | none => .error .noMemory
        | some next =>
            if e.pageCursor < next then .error .noMemory
            else .ok (first, { e with byteCursor := next, live := e.live + 1 })
  else .error .badAlignment

/-- Gives one allocation back, whichever it is; the last one frees all bytes. -/
def release (e : Extent pageSize) : Extent pageSize :=
  let live := if e.live = 0 then 0 else e.live - 1
  { e with live := live, byteCursor := if live = 0 then e.start else e.byteCursor }

/-- Hands out pages below the page cursor, at a multiple of the alignment. -/
def allocPages (e : Extent pageSize) (count align : UInt64) :
    Except AllocError (Address × Extent pageSize) :=
  if isPowerOfTwo align then
    match mul? count pageSize with
    | none => .error .noMemory
    | some required =>
        if e.pageCursor - e.byteCursor < required then .error .noMemory
        else
          let first := alignDown (e.pageCursor - required) align
          if first < e.byteCursor then .error .noMemory
          else .ok (first, { e with pageCursor := first })
  else .error .badAlignment

/-- The end of a block of pages, or the ceiling when the block reaches beyond it. -/
def blockEnd (e : Extent pageSize) (first : Address) (count : UInt64) : Address :=
  match (mul? count pageSize).bind (add? first) with
  | none => e.ceiling
  | some stop => if e.ceiling < stop then e.ceiling else stop

/-- Takes back a block that starts at the page cursor and ignores any other. -/
def freePages (e : Extent pageSize) (first : Address) (count : UInt64) : Extent pageSize :=
  if first = e.pageCursor then { e with pageCursor := e.blockEnd first count } else e

def owns (e : Extent pageSize) (a : Address) : Bool := e.start ≤ a && a < e.ceiling

def totalBytes (e : Extent pageSize) : UInt64 := e.size
def usedBytes (e : Extent pageSize) : UInt64 := e.byteCursor - e.start
def availableBytes (e : Extent pageSize) : UInt64 := e.pageCursor - e.byteCursor
def totalPages (e : Extent pageSize) : UInt64 := e.size / pageSize
def usedPages (e : Extent pageSize) : UInt64 := (e.ceiling - e.pageCursor) / pageSize
def availablePages (e : Extent pageSize) : UInt64 := (e.pageCursor - e.byteCursor) / pageSize

variable {e e' : Extent pageSize}

theorem owns_eq_true_iff {a : Address} : e.owns a = true ↔ e.start ≤ a ∧ a < e.ceiling := by
  simp [owns]

theorem movePages?_eq_some_iff {start : Address} {size : UInt64} :
    e.movePages? start size = some e' ↔
      ∃ boundary, add? start size = some boundary ∧ boundary ≤ e.ceiling ∧
        e.byteCursor ≤ boundary ∧ e' = { e with pageCursor := boundary } := by
  unfold movePages?
  split
  · simp_all
  · rename_i boundary h
    simp only [Option.ite_none_left_eq_some, not_or, UInt64.not_lt, Option.some.injEq]
    constructor
    · rintro ⟨⟨hc, hb⟩, he⟩; exact ⟨boundary, h, hc, hb, he.symm⟩
    · rintro ⟨b, hb, hc, hl, he⟩
      obtain rfl : boundary = b := Option.some.inj (h ▸ hb)
      exact ⟨⟨hc, hl⟩, he.symm⟩

theorem alloc_eq_ok {bytes align : UInt64} {a : Address} (h : e.alloc bytes align = .ok (a, e')) :
    isPowerOfTwo align = true ∧ alignUp? e.byteCursor align = some a ∧
      ∃ next, add? a bytes = some next ∧ next ≤ e.pageCursor ∧
        e' = { e with byteCursor := next, live := e.live + 1 } := by
  unfold alloc at h
  repeat' split at h
  all_goals simp_all

theorem allocPages_eq_ok {count align : UInt64} {a : Address}
    (h : e.allocPages count align = .ok (a, e')) :
    isPowerOfTwo align = true ∧ ∃ required, mul? count pageSize = some required ∧
      required ≤ e.pageCursor - e.byteCursor ∧ a = alignDown (e.pageCursor - required) align ∧
      e.byteCursor ≤ a ∧ e' = { e with pageCursor := a } := by
  unfold allocPages at h
  split at h
  · split at h
    · simp at h
    · split at h
      · simp at h
      · dsimp only at h
        split at h
        · simp at h
        · simp only [Except.ok.injEq, Prod.mk.injEq] at h
          obtain ⟨rfl, rfl⟩ := h
          simp_all
  · simp at h

end Extent

end KernelCore
