import KernelCore.Space.Region

/-! # First-fit placement

A free area is searched upwards from a page boundary: as long as the area ends inside the limit, it
is either free or some region meets it, and then the search goes on at the end of the first such
region. The search stops when that does not take it any further.
-/

namespace KernelCore.Placement

open Word

def searchFrom (regions : List Region) (length : UInt64) (stop c : Address) : Option Address :=
  if c + length ≤ stop then
    match regions.find? (·.meets c length) with
    | none => some c
    | some r =>
        if c < alignUp r.stop pageBytes then
          searchFrom regions length stop (alignUp r.stop pageBytes)
        else none
  else none
termination_by UInt64.size - c.toNat
decreasing_by
  rename_i h
  have := UInt64.lt_iff_toNat_lt.mp h
  have : (alignUp r.stop pageBytes).toNat < UInt64.size := UInt64.toNat_lt _
  omega

/-- The first free area inside the limit from `a` on. -/
def firstFit (regions : List Region) (length : UInt64) (limit : Range) (a : Address) :
    Option Address :=
  searchFrom regions length limit.stop (alignUp (max a limit.start) pageBytes)

/-- The first free area from the hint on, when the hint lies inside the limit and there is one, or else of
all. -/
def find? (regions : List Region) (hint : Address) (length : UInt64) (limit : Range) :
    Option Address :=
  if limit.contains hint then
    (firstFit regions length limit hint).or (firstFit regions length limit limit.start)
  else firstFit regions length limit limit.start

end KernelCore.Placement
