import KernelCore.Proofs.Space.Layout
import Mathlib.Order.Bounds.Basic

/-! # First-fit placement is complete

The search for a free area jumps over regions in the order in which they were made. No jump passes a fit:
the region in the way lies in the way of every area up to its end. So the search finds the least fit, or
there is none.
-/

namespace KernelCore.AddressSpace

open Word Placement

variable {s : AddressSpace} {x : Region} {length : UInt64} {a c hint : Address}

/-- An area of whole pages inside a space that meets no region. -/
structure Fit (s : AddressSpace) (length c : Nat) : Prop where
  aligned : c % 4096 = 0
  base_le : s.base.toNat ≤ c
  stop_le : c + length ≤ s.base.toNat + s.size.toNat
  clear : ∀ x ∈ s.regions, c + length ≤ x.start.toNat ∨ x.start.toNat + x.length.toNat ≤ c

def fitsFrom (s : AddressSpace) (length a : Nat) : Set Nat := {c | s.Fit length c ∧ a ≤ c}

def Inside (s : AddressSpace) (a : Nat) : Prop :=
  s.base.toNat ≤ a ∧ a < s.base.toNat + s.size.toNat

/-- Whether a hint counts: it lies inside the space, and there is a fit from it on. -/
def Hinted (s : AddressSpace) (length hint : Nat) : Prop :=
  s.Inside hint ∧ (s.fitsFrom length hint).Nonempty

/-- A search finds the least element of a set, or nothing if the set is empty. -/
def Finds (A : Set Nat) : Option Address → Prop
  | some a => IsLeast A a.toNat
  | none => A = ∅

/-- Laid out, and so far from the last address that no search runs over it. -/
structure Roomy (s : AddressSpace) : Prop extends LaidOut s where
  room : s.base.toNat + 2 * s.size.toNat + 8192 ≤ 2 ^ 64

theorem LaidOut.toNat_stop (h : s.LaidOut) (hx : x ∈ s.regions) :
    x.stop.toNat = x.start.toNat + x.length.toNat := by
  have hbound := h.bounded
  have hstop := (h.fits x hx).stop_le
  exact toNat_add_of_lt (by omega)

theorem LaidOut.toNat_limit_stop (h : s.LaidOut) :
    s.limit.stop.toNat = s.base.toNat + s.size.toNat :=
  toNat_add_of_lt h.bounded

theorem LaidOut.contains_limit_iff (h : s.LaidOut) :
    s.limit.contains a = true ↔ s.Inside a.toNat := by
  rw [Range.contains_eq_true_iff, UInt64.le_iff_toNat_le, UInt64.lt_iff_toNat_lt, h.toNat_limit_stop]
  rfl

theorem LaidOut.meets_iff (h : s.LaidOut) (hx : x ∈ s.regions)
    (hc : c.toNat + length.toNat < 2 ^ 64) :
    x.meets c length = true ↔
      c.toNat < x.start.toNat + x.length.toNat ∧ x.start.toNat < c.toNat + length.toNat := by
  rw [Region.meets, Bool.and_eq_true, decide_eq_true_eq, decide_eq_true_eq, UInt64.lt_iff_toNat_lt,
    UInt64.lt_iff_toNat_lt, h.toNat_stop hx, toNat_add_of_lt hc]

theorem Roomy.alignUp_stop (h : s.Roomy) (hx : x ∈ s.regions) : alignUp x.stop pageBytes = x.stop := by
  have hroom := h.room
  have hbytes : pageBytes.toNat = 4096 := rfl
  have hstop := h.toNat_stop hx
  obtain ⟨haligned, -, hwhole, -, hle, -⟩ := h.fits x hx
  rw [← UInt64.toNat_inj, toNat_alignUp (by decide) (by omega), hbytes]
  omega

/-- No fit from a candidate on starts before the end of a region that meets the candidate. -/
theorem fitsFrom_of_meets (h : s.LaidOut) (hx : x ∈ s.regions)
    (hc : c.toNat + length.toNat < 2 ^ 64) (hmeets : x.meets c length = true) :
    s.fitsFrom length.toNat c.toNat = s.fitsFrom length.toNat x.stop.toNat := by
  obtain ⟨hbefore, hafter⟩ := (h.meets_iff hx hc).mp hmeets
  have hstop := h.toNat_stop hx
  ext d
  constructor
  · rintro ⟨hfit, hd⟩
    refine ⟨hfit, ?_⟩
    rcases hfit.clear x hx with hd' | hd' <;> omega
  · rintro ⟨hfit, hd⟩
    exact ⟨hfit, by omega⟩

theorem Roomy.finds_searchFrom (h : s.Roomy) (hlength : length.toNat ≤ s.size.toNat)
    (haligned : c.toNat % 4096 = 0) (hbase : s.base.toNat ≤ c.toNat)
    (hc : c.toNat ≤ s.base.toNat + s.size.toNat + 4096) :
    Finds (s.fitsFrom length.toNat c.toNat) (searchFrom s.regions length s.limit.stop c) := by
  have hroom := h.room
  have hlimit := h.toNat_limit_stop
  fun_induction searchFrom s.regions length s.limit.stop c with
  | case1 c hin hclear =>
    rw [UInt64.le_iff_toNat_le, toNat_add_of_lt (by omega), hlimit] at hin
    refine ⟨⟨⟨haligned, hbase, hin, fun x hx => ?_⟩, Nat.le_refl _⟩, fun d hd => hd.2⟩
    have hmeets : ¬ x.meets c length = true := List.find?_eq_none.mp hclear x hx
    rw [h.meets_iff hx (by omega)] at hmeets
    omega
  | case2 c hin x hx hlt ih =>
    have hmem := List.mem_of_find?_eq_some hx
    have hmeets : x.meets c length = true := by simpa using List.find?_some hx
    obtain ⟨hstart, -, hwhole, -, hstop, -⟩ := h.fits x hmem
    have hend := h.toNat_stop hmem
    rw [h.alignUp_stop hmem] at hlt ih ⊢
    rw [UInt64.lt_iff_toNat_lt] at hlt
    rw [fitsFrom_of_meets h.toLaidOut hmem (by omega) hmeets]
    exact ih (by omega) (by omega) (by omega)
  | case3 c hin x hx hlt =>
    -- A region in the way ends behind the candidate.
    have hmem := List.mem_of_find?_eq_some hx
    have hmeets : x.meets c length = true := by simpa using List.find?_some hx
    obtain ⟨hbefore, -⟩ := (h.meets_iff hmem (by omega)).mp hmeets
    refine absurd ?_ hlt
    rwa [h.alignUp_stop hmem, UInt64.lt_iff_toNat_lt, h.toNat_stop hmem]
  | case4 c hin =>
    rw [UInt64.le_iff_toNat_le, toNat_add_of_lt (by omega), hlimit] at hin
    ext d
    simp only [Set.mem_empty_iff_false, iff_false]
    rintro ⟨hfit, hd⟩
    have := hfit.stop_le
    omega

theorem fitsFrom_alignUp (ha : a.toNat + 4096 ≤ 2 ^ 64) (n : Nat) :
    s.fitsFrom n (alignUp a pageBytes).toNat = s.fitsFrom n a.toNat := by
  have hbytes : pageBytes.toNat = 4096 := rfl
  have hround := toNat_alignUp (x := a) (a := pageBytes) (by decide) ha
  rw [hbytes] at hround
  ext d
  constructor
  · rintro ⟨hfit, hd⟩
    exact ⟨hfit, by omega⟩
  · rintro ⟨hfit, hd⟩
    have := hfit.aligned
    exact ⟨hfit, by omega⟩

theorem Roomy.finds_firstFit (h : s.Roomy) (hlength : length.toNat ≤ s.size.toNat)
    (hbase : s.base.toNat ≤ a.toNat) (ha : a.toNat ≤ s.base.toNat + s.size.toNat) :
    Finds (s.fitsFrom length.toNat a.toNat) (firstFit s.regions length s.limit a) := by
  have hroom := h.room
  have hbytes : pageBytes.toNat = 4096 := rfl
  have hround := toNat_alignUp (x := a) (a := pageBytes) (by decide) (by omega)
  rw [hbytes] at hround
  have hmax : max a s.limit.start = a := by
    change (if a ≤ s.base then s.base else a) = a
    split
    · exact UInt64.le_antisymm (UInt64.le_iff_toNat_le.mpr hbase) ‹_›
    · rfl
  rw [firstFit, hmax, ← fitsFrom_alignUp (by omega)]
  exact h.finds_searchFrom hlength (by omega) (by omega) (by omega)

theorem fitsFrom_base (n : Nat) : s.fitsFrom n s.base.toNat = {c | s.Fit n c} := by
  ext c
  exact ⟨fun hc => hc.1, fun hc => ⟨hc, hc.base_le⟩⟩

theorem Finds.eq_some {A : Set Nat} {o : Option Address} (h : Finds A o) (hA : A.Nonempty) :
    ∃ a, o = some a ∧ IsLeast A a.toNat := by
  cases o with
  | none => exact absurd h hA.ne_empty
  | some a => exact ⟨a, rfl, h⟩

/-- With a hint that counts, the search finds the least fit from the hint on. -/
theorem Roomy.finds_find_of_hinted (h : s.Roomy) (hlength : length.toNat ≤ s.size.toNat)
    (hhint : s.Hinted length.toNat hint.toNat) :
    Finds (s.fitsFrom length.toNat hint.toNat) (find? s.regions hint length s.limit) := by
  obtain ⟨hinside, hfits⟩ := hhint
  have hfirst := h.finds_firstFit hlength hinside.1 (Nat.le_of_lt hinside.2)
  obtain ⟨a, ha, hleast⟩ := hfirst.eq_some hfits
  rw [find?, if_pos (h.contains_limit_iff.mpr hinside), ha]
  exact hleast

theorem Roomy.finds_find_of_not_hinted (h : s.Roomy) (hlength : length.toNat ≤ s.size.toNat)
    (hhint : ¬ s.Hinted length.toNat hint.toNat) :
    Finds {c | s.Fit length.toNat c} (find? s.regions hint length s.limit) := by
  have hall : Finds {c | s.Fit length.toNat c} (firstFit s.regions length s.limit s.limit.start) := by
    rw [← fitsFrom_base]
    exact h.finds_firstFit hlength (Nat.le_refl _) (Nat.le_add_right _ _)
  rw [find?]
  by_cases hlimit : s.limit.contains hint = true
  · have hinside := h.contains_limit_iff.mp hlimit
    have hfirst := h.finds_firstFit hlength hinside.1 (Nat.le_of_lt hinside.2)
    rw [if_pos hlimit]
    cases hfound : firstFit s.regions length s.limit hint with
    | none => exact hall
    | some a =>
      rw [hfound] at hfirst
      exact absurd ⟨hinside, _, hfirst.1⟩ hhint
  · rw [if_neg hlimit]
    exact hall

variable {permissions : Permissions} {populate : Bool}

theorem LaidOut.mapAlloc_of_fit (h : s.LaidOut) (hp : s.policy.mapError = none)
    (hfit : s.Fit length.toNat a.toNat) (hpos : 0 < length.toNat)
    (hwhole : length.toNat % 4096 = 0) :
    s.mapAlloc a length permissions populate =
      .ok (s.add ⟨a, length, permissions, populate, .empty⟩) := by
  have hpage : isPowerOfTwo pageBytes = true := by decide
  have hbound := h.bounded
  have hstop := hfit.stop_le
  have ha : isAligned a pageBytes = true := (isAligned_iff_toNat hpage).mpr hfit.aligned
  have hl : isAligned length pageBytes = true := (isAligned_iff_toNat hpage).mpr hwhole
  have hz : length ≠ 0 := ne_zero_of_toNat_pos hpos
  have hc : Span.covers s.base s.size a length = true :=
    Span.covers_eq_true_iff.mpr ⟨hfit.base_le, hstop⟩
  have hmeets : s.regions.any (·.meets a length) = false := by
    rw [List.any_eq_false]
    intro x hx hmeets
    have := (h.meets_iff hx (by omega)).mp hmeets
    rcases hfit.clear x hx with hclear | hclear <;> omega
  simp [AddressSpace.mapAlloc, hp, ha, hl, hz, hc, hmeets, add]

/-- What a mapping comes to that may go anywhere, and what it leaves. -/
def mapAnywhere (s : AddressSpace) (hint : Address) (length : UInt64) (permissions : Permissions) :
    Except Errno Address × AddressSpace :=
  match s.findFreeArea hint length s.limit with
  | none => (.error .noMemory, s)
  | some a =>
      match s.mapAlloc a length permissions true with
      | .ok s' => (.ok a, s')
      | .error e => (.error e.toErrno, s)

theorem findFreeArea_eq_find (hfind : s.policy.refuse = false) (hpos : 0 < length.toNat) :
    s.findFreeArea hint length s.limit = find? s.regions hint length s.limit := by
  simp [findFreeArea, hfind, ne_zero_of_toNat_pos hpos]

/-- A mapping goes to the least of the fits that the search looks at. -/
theorem Roomy.mapAnywhere_of_finds {A : Set Nat} (h : s.Roomy) (hmap : s.policy.mapError = none)
    (hfind : s.policy.refuse = false) (hpos : 0 < length.toNat) (hwhole : length.toNat % 4096 = 0)
    (hA : Finds A (find? s.regions hint length s.limit))
    (hfits : ∀ c ∈ A, s.Fit length.toNat c) (hsome : A.Nonempty) :
    ∃ a, IsLeast A a.toNat ∧ s.mapAnywhere hint length permissions =
      (.ok a, s.add ⟨a, length, permissions, true, .empty⟩) := by
  obtain ⟨a, ha, hleast⟩ := hA.eq_some hsome
  refine ⟨a, hleast, ?_⟩
  rw [mapAnywhere, findFreeArea_eq_find hfind hpos, ha]
  dsimp only
  rw [h.mapAlloc_of_fit hmap (hfits _ hleast.1) hpos hwhole]

theorem Roomy.mapAnywhere_of_no_fit (h : s.Roomy) (hfind : s.policy.refuse = false)
    (hpos : 0 < length.toNat) (hlength : length.toNat ≤ s.size.toNat)
    (hnone : ∀ c, ¬ s.Fit length.toNat c) :
    s.mapAnywhere hint length permissions = (.error .noMemory, s) := by
  have hhint : ¬ s.Hinted length.toNat hint.toNat := fun ⟨_, c, hc, _⟩ => hnone c hc
  have hfound := h.finds_find_of_not_hinted hlength hhint
  rw [mapAnywhere, findFreeArea_eq_find hfind hpos]
  cases hplace : find? s.regions hint length s.limit with
  | none => rfl
  | some a =>
    rw [hplace] at hfound
    exact absurd hfound.1 (hnone _)

end KernelCore.AddressSpace
