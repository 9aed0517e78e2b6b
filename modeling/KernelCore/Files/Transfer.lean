import KernelCore.Files.Table
import KernelCore.Memory.Window

/-! # Transfers between memory and files

Reads and writes that move bytes between memory and the files of a table. On an open file they fail
when the bytes of memory are not accessible; on a descriptor that is not open memory is not looked at.
-/

namespace KernelCore.FileTable

/-- Eight bytes as a word, the least significant first. -/
def littleEndian (b : ByteArray) (offset : Nat) : UInt64 :=
  (List.range 8).foldr (fun i acc => acc * 256 + (b[offset + i]?.getD 0).toUInt64) 0

/-- The base and length pairs of a vector of buffers. -/
def bufferVectors (b : ByteArray) (count : Nat) : List (Address × UInt64) :=
  (List.range count).map fun i => (littleEndian b (16 * i), littleEndian b (16 * i + 8))

/-- The bytes of all buffers in turn, unless one of them is not accessible. -/
def gather? (m : Memory) : List (Address × UInt64) → Option ByteArray
  | [] => some .empty
  | (base, length) :: rest => do
      let b ← m.load? base length
      let bs ← gather? m rest
      return b ++ bs

/-- The bytes that a vector of buffers in memory stands for. -/
def vectorBytes? (m : Memory) (vectors : Address) (count : UInt64) : Option ByteArray := do
  let b ← m.load? vectors (16 * count)
  gather? m (bufferVectors b count.toNat)

/-- Opens a new empty file under the path that user memory holds. -/
def openAt (t : FileTable) (m : Memory) (path : Address) : Except Errno Descriptor × FileTable :=
  match m.userText? path with
  | none => (.error .fault, t)
  | some text =>
      let (fd, t) := t.add text .empty
      (.ok fd, t)

def readInto (t : FileTable) (m : Memory) (fd : Descriptor) (buffer : Address) (length : UInt64) :
    Except Errno UInt64 × FileTable × Memory :=
  if t.isOpen fd && !m.accessible buffer length then (.error .fault, t, m)
  else
    match t.read fd length with
    | (.error e, t) => (.error e, t, m)
    | (.ok data, t) => (.ok data.size.toUInt64, t, m.store buffer data)

/-- Appends bytes that are missing when they are not accessible. -/
def appendFrom (t : FileTable) (fd : Descriptor) (data? : Option ByteArray) :
    Except Errno UInt64 × FileTable :=
  if t.isOpen fd then
    match data? with
    | none => (.error .fault, t)
    | some data =>
        match t.append fd data with
        | .ok t => (.ok data.size.toUInt64, t)
        | .error e => (.error e, t)
  else (.error .badDescriptor, t)

end KernelCore.FileTable
