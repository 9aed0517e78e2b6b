import KernelCore.Proofs.Word.Rounding
import KernelCore.Space.AddressSpace

/-! # The layout of an address space

The regions of a space are made of whole pages inside it and do not meet. Mapping keeps this, and a
write at the start of the newest region changes no other one.
-/

namespace KernelCore

open Word

namespace Region

variable {x y : Region} {base : Address} {size : UInt64}

/-- Whole pages inside a space, open to user code. -/
structure Fits (x : Region) (base : Address) (size : UInt64) : Prop where
  aligned : x.start.toNat % 4096 = 0
  nonempty : 0 < x.length.toNat
  whole : x.length.toNat % 4096 = 0
  base_le : base.toNat ≤ x.start.toNat
  stop_le : x.start.toNat + x.length.toNat ≤ base.toNat + size.toNat
  user : x.permissions.contains Permissions.user = true

/-- One region ends before the other one starts. -/
def Apart (x y : Region) : Prop :=
  x.start.toNat + x.length.toNat ≤ y.start.toNat ∨ y.start.toNat + y.length.toNat ≤ x.start.toNat

theorem apart_of_meets {a : Address} {length : UInt64}
    (hx : x.start.toNat + x.length.toNat < 2 ^ 64)
    (ha : a.toNat + length.toNat < 2 ^ 64) (h : x.meets a length = false) (hy : y.start = a)
    (hlength : y.length = length) : x.Apart y := by
  subst hy hlength
  simp only [meets, stop, Bool.and_eq_false_iff, decide_eq_false_iff_not, UInt64.lt_iff_toNat_lt,
    UInt64.toNat_add, Nat.mod_eq_of_lt hx, Nat.mod_eq_of_lt ha] at h
  rw [Apart]
  omega

theorem Apart.not_holds {length : UInt64} (h : x.Apart y) (hy : 0 < y.length.toNat)
    (hlength : 0 < length.toNat) : x.holds y.start length = false := by
  rw [Bool.eq_false_iff]
  intro hholds
  have := Span.covers_eq_true_iff.mp hholds
  rcases h with h | h <;> omega

theorem write_of_size_eq_zero {a : Address} {data : ByteArray} (h : data.size = 0) :
    x.write a data = x := by
  rw [write, ByteStore.write, if_pos h]

end Region

namespace AddressSpace

variable {s s' : AddressSpace} {a : Address} {length : UInt64} {permissions : Permissions}
  {populate : Bool}

/-- The regions fit into a space that does not wrap around, and keep apart. -/
structure LaidOut (s : AddressSpace) : Prop where
  bounded : s.base.toNat + s.size.toNat < 2 ^ 64
  fits : ∀ x ∈ s.regions, x.Fits s.base s.size
  apart : s.regions.Pairwise Region.Apart

theorem laidOut_of_nil (hb : s.base.toNat + s.size.toNat < 2 ^ 64) (h : s.regions = []) :
    s.LaidOut :=
  ⟨hb, by rw [h]; nofun, by rw [h]; exact List.Pairwise.nil⟩

def add (s : AddressSpace) (x : Region) : AddressSpace := { s with regions := s.regions ++ [x] }

theorem LaidOut.congr (h : s.LaidOut) (he : s' = { s with policy := s'.policy }) : s'.LaidOut := by
  rw [he]
  exact ⟨h.bounded, h.fits, h.apart⟩

theorem LaidOut.mapAlloc (h : s.LaidOut) (hu : permissions.contains Permissions.user = true)
    (hm : s.mapAlloc a length permissions populate = .ok s') : s'.LaidOut := by
  obtain ⟨ha, hz, hl, hc, hmeets, rfl⟩ := mapAlloc_eq_ok hm
  have hpage : isPowerOfTwo pageBytes = true := by decide
  obtain ⟨hbase, hstop⟩ := Span.covers_eq_true_iff.mp hc
  have hbound := h.bounded
  have hfits : Region.Fits ⟨a, length, permissions, populate, .empty⟩ s.base s.size := {
    aligned := (isAligned_iff_toNat hpage).mp ha
    nonempty := Nat.pos_of_ne_zero fun h0 => hz (UInt64.toNat_inj.mp h0)
    whole := (isAligned_iff_toNat hpage).mp hl
    base_le := hbase
    stop_le := hstop
    user := hu }
  refine ⟨hbound, fun x hx => ?_, ?_⟩
  · rcases List.mem_append.mp hx with hx | hx
    · exact h.fits x hx
    · rw [List.mem_singleton.mp hx]
      exact hfits
  · refine List.pairwise_append.mpr ⟨h.apart, List.pairwise_singleton _ _, fun x hx y hy => ?_⟩
    rw [List.mem_singleton.mp hy]
    have := (h.fits x hx).stop_le
    exact Region.apart_of_meets (by omega) (by omega) (hmeets x hx) rfl rfl

theorem LaidOut.refill {x : Region} {xs : List Region} (h : s.LaidOut) (hs : s.regions = xs ++ [x])
    (c : ByteStore) : LaidOut { s with regions := xs ++ [{ x with contents := c }] } := by
  have hfits := h.fits
  have hapart := h.apart
  rw [hs] at hfits hapart
  obtain ⟨hxs, -, hx⟩ := List.pairwise_append.mp hapart
  refine ⟨h.bounded, fun y hy => ?_,
    List.pairwise_append.mpr ⟨hxs, List.pairwise_singleton _ _, ?_⟩⟩
  · rcases List.mem_append.mp hy with hy | hy
    · exact hfits y (List.mem_append_left _ hy)
    · rw [List.mem_singleton.mp hy]
      obtain ⟨h₁, h₂, h₃, h₄, h₅, h₆⟩ :=
        hfits x (List.mem_append_right _ (List.mem_singleton_self x))
      exact ⟨h₁, h₂, h₃, h₄, h₅, h₆⟩
  · intro y hy z hz
    rw [List.mem_singleton.mp hz]
    exact hx y hy x (List.mem_singleton_self x)

theorem writeFirst_append_of_not_holds {data : ByteArray} {xs ys : List Region}
    (h : ∀ x ∈ xs, x.holds a data.size.toUInt64 = false) :
    writeFirst a data (xs ++ ys) = (writeFirst a data ys).map (xs ++ ·) := by
  induction xs with
  | nil => simp
  | cons x xs ih =>
    rw [List.cons_append, writeFirst, h x List.mem_cons_self, if_neg (by decide),
      ih fun y hy => h y (List.mem_cons_of_mem x hy), Option.map_map]
    rfl

theorem writeFirst_of_size_eq_zero {data : ByteArray} (hdata : data.size = 0) {xs ys : List Region}
    (h : writeFirst a data xs = some ys) : ys = xs := by
  induction xs generalizing ys with
  | nil => cases h
  | cons x xs ih =>
    rw [writeFirst] at h
    split at h
    · cases h
      rw [Region.write_of_size_eq_zero hdata]
    · obtain ⟨zs, hzs, rfl⟩ := Option.map_eq_some_iff.mp h
      rw [ih hzs]

theorem write_eq_ok {data : ByteArray} (h : s.write a data = .ok s') :
    ∃ xs, writeFirst a data s.regions = some xs ∧ s' = { s with regions := xs } := by
  unfold write at h
  split at h
  · cases h
  · split at h
    · cases h
      exact ⟨_, ‹_›, rfl⟩
    · cases h

/-- A write at the start of the newest region goes there. -/
theorem LaidOut.write_newest {data : ByteArray} {x : Region} {xs : List Region} (h : s.LaidOut)
    (hs : s.regions = xs ++ [x]) (hdata : data.size < 2 ^ 64) (hw : s.write x.start data = .ok s') :
    s' = { s with regions := xs ++ [x.write x.start data] } := by
  obtain ⟨ys, hys, rfl⟩ := write_eq_ok hw
  by_cases hzero : data.size = 0
  · rw [writeFirst_of_size_eq_zero hzero hys, Region.write_of_size_eq_zero hzero, hs]
  have hapart := h.apart
  have hx := (h.fits x (by rw [hs]; simp)).nonempty
  have hpos : 0 < data.size.toUInt64.toNat := by
    rw [Nat.toUInt64_eq, UInt64.toNat_ofNat_of_lt' hdata]
    omega
  rw [hs] at hys hapart
  rw [writeFirst_append_of_not_holds fun y hy =>
    ((List.pairwise_append.mp hapart).2.2 y hy x (by simp)).not_holds hx hpos] at hys
  obtain ⟨zs, hzs, rfl⟩ := Option.map_eq_some_iff.mp hys
  rw [writeFirst] at hzs
  split at hzs
  · cases hzs
    rfl
  · cases hzs

end AddressSpace

end KernelCore
