import KernelCore.Space.Error
import KernelCore.Space.Placement

/-! # Address spaces

The mappings of one task, in the order in which they were made. Mapping never touches what is
already there, and writing changes the bytes of one region only. A space can be told to refuse
requests, as one that has run out of memory or page tables would.
-/

namespace KernelCore

/-- What a space refuses: every mapping, every write, or every search for a free area. -/
structure SpacePolicy where
  mapError : Option SpaceError
  writeError : Option SpaceError
  refuse : Bool
  deriving DecidableEq, Repr

namespace SpacePolicy

def plain : SpacePolicy := ⟨none, none, false⟩

end SpacePolicy

structure AddressSpace where
  base : Address
  size : UInt64
  regions : List Region
  policy : SpacePolicy

namespace AddressSpace

open Word

def empty (base : Address) (size : UInt64) : AddressSpace := ⟨base, size, [], .plain⟩

def limit (s : AddressSpace) : Range := .ofStartSize s.base s.size

def findFreeArea (s : AddressSpace) (hint : Address) (length : UInt64) (limit : Range) :
    Option Address :=
  if s.policy.refuse ∨ length = 0 then none else Placement.find? s.regions hint length limit

/-- Adds a region of zero bytes. -/
def mapAlloc (s : AddressSpace) (a : Address) (length : UInt64) (permissions : Permissions)
    (populate : Bool) : Except SpaceError AddressSpace :=
  match s.policy.mapError with
  | some e => .error e
  | none =>
      if ¬ isAligned a pageBytes ∨ length = 0 ∨ ¬ isAligned length pageBytes then
        .error .invalidInput
      else if ¬ Span.covers s.base s.size a length then .error .invalidInput
      else if s.regions.any (·.meets a length) then .error .alreadyExists
      else .ok { s with regions := s.regions ++ [⟨a, length, permissions, populate, .empty⟩] }

/-- Writes to the first region that holds the whole span. -/
def writeFirst (a : Address) (data : ByteArray) : List Region → Option (List Region)
  | [] => none
  | r :: rs =>
      if r.holds a data.size.toUInt64 then some (r.write a data :: rs)
      else (writeFirst a data rs).map (r :: ·)

def write (s : AddressSpace) (a : Address) (data : ByteArray) : Except SpaceError AddressSpace :=
  match s.policy.writeError with
  | some e => .error e
  | none =>
      match writeFirst a data s.regions with
      | some rs => .ok { s with regions := rs }
      | none => .error .badAddress

def regionAt? (s : AddressSpace) (a : Address) : Option Region := s.regions.find? (·.contains a)

inductive ReadError where
  | notMapped
  | pastEnd
  deriving DecidableEq, Repr

def ReadError.message : ReadError → String
  | .notMapped => "address is not mapped"
  | .pastEnd => "read past the end of a mapping"

/-- The mapped bytes from an address on, all of one region. -/
def read (s : AddressSpace) (a : Address) (length : UInt64) : Except ReadError ByteArray :=
  match s.regionAt? a with
  | none => .error .notMapped
  | some r =>
      if r.length - (a - r.start) < length then .error .pastEnd
      else .ok (r.contents.read (r.offset a) length.toNat)

theorem mapAlloc_eq_ok {s s' : AddressSpace} {a : Address} {length : UInt64}
    {permissions : Permissions} {populate : Bool}
    (h : s.mapAlloc a length permissions populate = .ok s') :
    isAligned a pageBytes = true ∧ length ≠ 0 ∧ isAligned length pageBytes = true ∧
      Span.covers s.base s.size a length = true ∧ (∀ r ∈ s.regions, r.meets a length = false) ∧
      s' = { s with regions := s.regions ++ [⟨a, length, permissions, populate, .empty⟩] } := by
  unfold mapAlloc at h
  repeat' split at h
  all_goals cases h
  simp_all

end AddressSpace

end KernelCore
