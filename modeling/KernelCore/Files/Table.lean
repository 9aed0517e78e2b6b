import KernelCore.Errno

/-! # File tables

The open files of a task in ascending order of their descriptors, each with its contents and a
cursor. Descriptors are never reused. Reading and seeking move only the cursor of their own file;
writing leaves every file alone and collects the bytes in the order in which they come. A table
can be told to cut reads short and to fail reads and seeks after a number of them.
-/

namespace KernelCore

abbrev Descriptor := Int32

structure OpenFile where
  path : ByteArray
  contents : ByteArray
  cursor : UInt64

namespace OpenFile

def size (f : OpenFile) : UInt64 := f.contents.size.toUInt64

/-- How many bytes there are from the cursor on. -/
def remaining (f : OpenFile) : UInt64 := if f.size ≤ f.cursor then 0 else f.size - f.cursor

end OpenFile

/-- Where a seek counts from; any other code counts from the start. -/
inductive Whence where
  | start
  | cursor
  | fileEnd
  deriving DecidableEq, Repr

namespace Whence

def ofCode (c : UInt8) : Whence :=
  match c.toNat with
  | 1 => cursor
  | 2 => fileEnd
  | _ => start

def code : Whence → Nat
  | start => 0
  | cursor => 1
  | fileEnd => 2

def origin (f : OpenFile) : Whence → Int64
  | start => 0
  | cursor => f.cursor.toInt64
  | fileEnd => f.size.toInt64

end Whence

/-- How a table serves reads and seeks. The last two settings have no counterpart in the tables of the
kernel's tests: there a seek fails always or never. -/
structure FilePolicy where
  chunk : Option UInt64
  readsBeforeFailure : Option UInt64
  readError : Option Errno
  seekError : Option Errno
  seeksBeforeFailure : Option UInt64
  lateSeekError : Errno
  deriving DecidableEq, Repr

namespace FilePolicy

def plain : FilePolicy := ⟨none, none, none, none, none, .io⟩

/-- How much of a read is served at most. -/
def cap (p : FilePolicy) (length : UInt64) : UInt64 :=
  match p.chunk with
  | none => length
  | some c => min length c

/-- The error of a read, counting this one. -/
def failedRead? (p : FilePolicy) (reads : UInt64) : Option Errno :=
  match p.readsBeforeFailure with
  | some k => if k < reads then some (p.readError.getD .io) else none
  | none => none

/-- The error of a seek, counting this one. -/
def failedSeek? (p : FilePolicy) (seeks : UInt64) : Option Errno :=
  match p.seeksBeforeFailure with
  | some k => if k < seeks then some p.lateSeekError else p.seekError
  | none => p.seekError

end FilePolicy

structure FileTable where
  files : List (Descriptor × OpenFile)
  next : Descriptor
  written : ByteArray
  policy : FilePolicy
  reads : UInt64
  seeks : UInt64

namespace FileTable

def empty : FileTable := ⟨[], 3, .empty, .plain, 0, 0⟩

/-- Takes up a new policy and starts counting anew. -/
def configure (t : FileTable) (p : FilePolicy) : FileTable :=
  { t with policy := p, reads := 0, seeks := 0 }

def get? (t : FileTable) (fd : Descriptor) : Option OpenFile := t.files.lookup fd

def isOpen (t : FileTable) (fd : Descriptor) : Bool := (t.get? fd).isSome

def setCursor (t : FileTable) (fd : Descriptor) (cursor : UInt64) : FileTable :=
  { t with files := t.files.map fun (d, f) => if d = fd then (d, { f with cursor := cursor }) else (d, f) }

/-- Opens a new file with its cursor at the start. -/
def add (t : FileTable) (path contents : ByteArray) : Descriptor × FileTable :=
  (t.next, { t with files := t.files ++ [(t.next, ⟨path, contents, 0⟩)], next := t.next + 1 })

def close (t : FileTable) (fd : Descriptor) : Except Errno FileTable :=
  if t.isOpen fd then .ok { t with files := t.files.filter fun (d, _) => d ≠ fd }
  else .error .badDescriptor

/-- Reads up to the end of the file or of the policy's chunk. Any read counts, whatever its descriptor. -/
def read (t : FileTable) (fd : Descriptor) (length : UInt64) : Except Errno ByteArray × FileTable :=
  let t := { t with reads := t.reads + 1 }
  match t.get? fd with
  | none => (.error .badDescriptor, t)
  | some f =>
      match t.policy.failedRead? t.reads with
      | some e => (.error e, t)
      | none =>
          let count := min (t.policy.cap length) f.remaining
          (.ok (f.contents.extract f.cursor.toNat (f.cursor.toNat + count.toNat)),
            t.setCursor fd (f.cursor + count))

def append (t : FileTable) (fd : Descriptor) (data : ByteArray) : Except Errno FileTable :=
  if t.isOpen fd then .ok { t with written := t.written ++ data } else .error .badDescriptor

/-- Moves a cursor, unless the target would be negative. -/
def seekTo (t : FileTable) (fd : Descriptor) (offset : Int64) (whence : Whence) :
    Except Errno UInt64 × FileTable :=
  match t.get? fd with
  | none => (.error .badDescriptor, t)
  | some f =>
      let target := whence.origin f + offset
      if target < 0 then (.error .invalid, t)
      else (.ok target.toUInt64, t.setCursor fd target.toUInt64)

/-- A seek that does not count towards the failure of later ones. -/
def seekUncounted (t : FileTable) (fd : Descriptor) (offset : Int64) (whence : Whence) :
    Except Errno UInt64 × FileTable :=
  match t.policy.seekError with
  | some e => (.error e, t)
  | none => t.seekTo fd offset whence

def seek (t : FileTable) (fd : Descriptor) (offset : Int64) (whence : Whence) :
    Except Errno UInt64 × FileTable :=
  let t := { t with seeks := t.seeks + 1 }
  match t.policy.failedSeek? t.seeks with
  | some e => (.error e, t)
  | none => t.seekTo fd offset whence

theorem get?_setCursor (t : FileTable) (fd d : Descriptor) (c : UInt64) :
    (t.setCursor fd c).get? d =
      if d = fd then (t.get? d).map ({ · with cursor := c }) else t.get? d := by
  obtain ⟨files, _⟩ := t
  simp only [get?, setCursor]
  induction files with
  | nil => simp
  | cons x files ih =>
    obtain ⟨e, f⟩ := x
    rw [List.map_cons, List.lookup_cons]
    by_cases hef : e = fd
    · rw [if_pos hef, List.lookup_cons]
      cases hb : d == e with
      | true =>
        have hd : d = fd := (eq_of_beq hb).trans hef
        simp [hd]
      | false =>
        have hd : d ≠ fd := fun h => by simp [h, hef] at hb
        simpa [hd] using ih
    · rw [if_neg hef, List.lookup_cons]
      cases hb : d == e with
      | true =>
        have hd : d ≠ fd := fun h => hef ((eq_of_beq hb).symm.trans h)
        simp [hd]
      | false => exact ih

end FileTable

end KernelCore
