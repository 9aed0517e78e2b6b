import KernelCore.Memory.Boot.Operation
import KernelCore.Proofs.Extent.Zone

/-! # What the callers of boot memory hold

Callers hold the pointers and the blocks of pages that they were given and have not given back.
They give back only what they hold, each thing once, in any order. A session pairs a boot memory
with these holdings and goes on from one operation to the next.
-/

namespace KernelCore

/-- Consecutive bytes, counted in exact integers. -/
structure Block where
  start : Nat
  length : Nat
  deriving DecidableEq, Repr

namespace Block

def stop (x : Block) : Nat := x.start + x.length

def Covers (x : Block) (n : Nat) : Prop := x.start ≤ n ∧ n < x.stop

/-- Whether two blocks share a byte; an empty block shares none. -/
def Meets (x y : Block) : Prop := ∃ n, x.Covers n ∧ y.Covers n

def ofBytes (x : Address × UInt64) : Block := ⟨x.1.toNat, x.2.toNat⟩

def ofPages (x : Address × UInt64) : Block := ⟨x.1.toNat, x.2.toNat * pageBytes.toNat⟩

variable {x y : Block}

theorem Meets.symm (h : x.Meets y) : y.Meets x := by
  obtain ⟨n, hx, hy⟩ := h
  exact ⟨n, hy, hx⟩

theorem meets_iff :
    x.Meets y ↔ 0 < x.length ∧ 0 < y.length ∧ x.start < y.stop ∧ y.start < x.stop := by
  unfold Meets Covers stop
  constructor
  · rintro ⟨n, hx, hy⟩
    omega
  · rintro ⟨hx, hy, hxy, hyx⟩
    exact ⟨max x.start y.start, by omega, by omega⟩

theorem not_meets_of_stop_le (h : x.stop ≤ y.start) : ¬ x.Meets y := by
  rw [meets_iff]
  unfold stop at *
  omega

end Block

/-- What callers hold: pointers with their sizes, and blocks of pages with their counts, of one region. -/
structure Holdings where
  region : Option Range
  bytes : List (Address × UInt64)
  pages : List (Address × UInt64)
  deriving DecidableEq, Repr

namespace Holdings

open BootMemory

def none : Holdings := ⟨.none, [], []⟩

/-- All that is held, in exact integers. -/
def blocks (h : Holdings) : List Block := h.bytes.map Block.ofBytes ++ h.pages.map Block.ofPages

/-- What callers hold after an operation of theirs came to an outcome. The null pointer may be given
back at any time. -/
inductive Exchange (h : Holdings) : Operation → Outcome → Holdings → Prop
  | activated (r : Range) : Exchange h (.activate r) .accepted { h with region := some r }
  | notActivated (r : Range) : Exchange h (.activate r) .refused h
  | extended (r : Range) (o : Outcome) : Exchange h (.extend r) o h
  | retired (o : Outcome) : Exchange h .retire o h
  | allocated (size align : UInt64) (a : Address) :
      Exchange h (.allocate size align) (.pointer (some a)) { h with bytes := (a, size) :: h.bytes }
  | notAllocated (size align : UInt64) : Exchange h (.allocate size align) (.pointer .none) h
  | freed (a : Address) (size : UInt64) (held : (a, size) ∈ h.bytes) :
      Exchange h (.free a) .done { h with bytes := h.bytes.erase (a, size) }
  | freedNull : Exchange h (.free 0) .done h
  | allocatedPages (count : UInt64) (a : Address) :
      Exchange h (.allocatePages count) (.pointer (some a)) { h with pages := (a, count) :: h.pages }
  | notAllocatedPages (count : UInt64) : Exchange h (.allocatePages count) (.pointer .none) h
  | freedPages (a : Address) (count : UInt64) (held : (a, count) ∈ h.pages) :
      Exchange h (.freePages a count) .done { h with pages := h.pages.erase (a, count) }

/-- One way to go on: of several allocations at one pointer the latest is given back first. -/
def after? (h : Holdings) : Operation → Outcome → Option Holdings
  | .activate r, .accepted => some { h with region := some r }
  | .activate _, .refused | .extend _, _ | .retire, _ => some h
  | .allocate size _, .pointer (some a) => some { h with bytes := (a, size) :: h.bytes }
  | .allocate .., .pointer .none | .allocatePages _, .pointer .none => some h
  | .free a, .done =>
      match h.bytes.find? (·.1 = a) with
      | some x => some { h with bytes := h.bytes.erase x }
      | .none => if a = 0 then some h else .none
  | .allocatePages count, .pointer (some a) => some { h with pages := (a, count) :: h.pages }
  | .freePages a count, .done =>
      if (a, count) ∈ h.pages then some { h with pages := h.pages.erase (a, count) } else .none
  | _, _ => .none

theorem exchange_of_after? {h h' : Holdings} {op : Operation} {o : Outcome}
    (ha : h.after? op o = some h') : h.Exchange op o h' := by
  unfold after? at ha
  split at ha
  · cases ha; exact .activated _
  · cases ha; exact .notActivated _
  · cases ha; exact .extended _ _
  · cases ha; exact .retired _
  · cases ha; exact .allocated _ _ _
  · cases ha; exact .notAllocated _ _
  · cases ha; exact .notAllocatedPages _
  · split at ha
    · rename_i x hx
      cases ha
      obtain rfl := of_decide_eq_true (p := x.1 = _) (List.find?_some hx :)
      exact .freed x.1 x.2 (List.mem_of_find?_eq_some hx)
    · split at ha
      · rename_i h0
        cases ha
        exact h0 ▸ .freedNull
      · cases ha
  · cases ha; exact .allocatedPages _ _
  · split at ha
    · cases ha; exact .freedPages _ _ ‹_›
    · cases ha
  · cases ha

end Holdings

/-- A boot memory and what its callers hold. -/
structure Session where
  memory : BootMemory
  held : Holdings
  deriving DecidableEq, Repr

/-- Only an alignment that is not a power of two makes an allocation panic. -/
theorem BootMemory.exists_allocate (b : BootMemory) (size : UInt64) {align : UInt64}
    (h : align.toNat.isPowerOfTwo) : ∃ p b', b.allocate size align = .ok (p, b') := by
  unfold allocate
  split
  · exact ⟨none, b, rfl⟩
  · cases ha : b.extent.alloc size align with
    | ok x => exact ⟨_, _, rfl⟩
    | error e =>
      cases e with
      | noMemory => exact ⟨none, b, rfl⟩
      | badAlignment => exact absurd h (Extent.alloc_eq_badAlignment_iff.mp ha)

namespace Session

open BootMemory

def dormant : Session := ⟨.dormant, .none⟩

/-- One operation that does not panic, by callers that give back only what they hold. -/
def Step (s : Session) (op : Operation) (s' : Session) : Prop :=
  ∃ o, s.memory.apply op = .ok (o, s'.memory) ∧ s.held.Exchange op o s'.held

/-- The sessions that a run of operations leads to from dormant memory. -/
inductive Reached : List Operation → Session → Prop
  | dormant : Reached [] dormant
  | step {ops : List Operation} {op : Operation} {s s' : Session} :
      Reached ops s → s.Step op s' → Reached (ops ++ [op]) s'

def next? (s : Session) (op : Operation) : Option Session :=
  match s.memory.apply op with
  | .ok (o, b) => (s.held.after? op o).map (Session.mk b)
  | .error _ => none

def run? (s : Session) (ops : List Operation) : Option Session := ops.foldlM next? s

theorem step_of_next? {s s' : Session} {op : Operation} (h : s.next? op = some s') :
    s.Step op s' := by
  unfold next? at h
  split at h
  · rename_i o b ha
    obtain ⟨held, hx, rfl⟩ := Option.map_eq_some_iff.mp h
    exact ⟨o, ha, Holdings.exchange_of_after? hx⟩
  · cases h

theorem Reached.run? {before ops : List Operation} {s s' : Session} (h : Reached before s)
    (hr : s.run? ops = some s') : Reached (before ++ ops) s' := by
  induction ops generalizing before s with
  | nil =>
    cases hr
    rwa [List.append_nil]
  | cons op ops ih =>
    obtain ⟨t, ht, hr⟩ := Option.bind_eq_some_iff.mp hr
    have := ih (h.step (step_of_next? ht)) hr
    rwa [List.append_assoc] at this

/-- How many times bytes were asked for. -/
def requests (ops : List Operation) : Nat :=
  ops.countP fun
    | .allocate .. => true
    | _ => false

@[simp] theorem requests_nil : requests [] = 0 := rfl

theorem requests_append (ops : List Operation) (op : Operation) :
    requests (ops ++ [op]) = requests ops + requests [op] := by
  simp [requests]

end Session

theorem BootMemory.zoned_activate {b b' : BootMemory} {r : Range} (h : b.activate r = .ok b') :
    b'.extent.Zoned := by
  obtain ⟨-, hr, -, rfl⟩ := activate_eq_ok_iff.mp h
  have hsize := Word.add?_eq_some_iff.mp (Range.add?_start_size hr)
  exact Extent.zoned_spanning (hsize ▸ r.stop.toNat_lt)

theorem BootMemory.zoned_extend {b b' : BootMemory} {r : Range} (hz : b.extent.Zoned)
    (h : b.extend r = .ok b') : b'.extent.Zoned := by
  obtain ⟨-, -, -, hc, hb, rfl⟩ := extend_eq_ok h
  exact ⟨hz.start_le, UInt64.le_iff_toNat_le.mp hb,
    hz.toNat_ceiling ▸ UInt64.le_iff_toNat_le.mp hc, hz.fits⟩

theorem BootMemory.zoned_apply {b b' : BootMemory} {op : Operation} {o : Outcome}
    (hz : b.extent.Zoned) (h : b.apply op = .ok (o, b')) : b'.extent.Zoned := by
  cases op with
  | activate r =>
    rcases apply_activate_cases h with ⟨-, ha⟩ | ⟨-, rfl⟩
    · exact zoned_activate ha
    · exact hz
  | extend r =>
    rcases apply_extend_cases h with ⟨-, he⟩ | ⟨-, rfl⟩
    · exact zoned_extend hz he
    · exact hz
  | retire =>
    rcases apply_retire_cases h with ⟨-, -, rfl⟩ | ⟨-, rfl⟩
    · exact hz
    · exact hz
  | allocate size align =>
    rcases apply_allocate_cases h with ⟨-, rfl⟩ | ⟨-, a, e, ha, -, rfl⟩
    · exact hz
    · exact hz.alloc ha
  | free a =>
    obtain ⟨-, ⟨-, rfl⟩ | ⟨-, -, rfl⟩⟩ := apply_free_cases h
    · exact hz
    · exact hz.release
  | allocatePages count =>
    rcases apply_allocatePages_cases h with ⟨-, rfl⟩ | ⟨-, a, e, ha, -, rfl⟩
    · exact hz
    · exact hz.allocPages ha
  | freePages first count =>
    obtain ⟨-, ⟨-, rfl⟩ | ⟨-, rfl⟩⟩ := apply_freePages_cases h
    · exact hz
    · exact hz.freePages first count

/-- Held pointers are not null, lie apart below the byte cursor, and are all counted. -/
structure BytesHeld (e : Extent pageBytes) (bytes : List (Address × UInt64)) : Prop where
  nonnull : ∀ x ∈ bytes, x.1 ≠ 0
  within : ∀ x ∈ bytes, e.start.toNat ≤ x.1.toNat ∧ x.1.toNat + x.2.toNat ≤ e.byteCursor.toNat
  apart : bytes.Pairwise fun x y => ¬ (Block.ofBytes x).Meets (Block.ofBytes y)
  counted : bytes.length ≤ e.live.toNat

namespace BytesHeld

variable {e e' : Extent pageBytes} {bytes : List (Address × UInt64)} {a : Address}

theorem nil (e : Extent pageBytes) : BytesHeld e [] :=
  ⟨fun _ h => absurd h List.not_mem_nil, fun _ h => absurd h List.not_mem_nil, .nil, Nat.zero_le _⟩

theorem congr (h : BytesHeld e bytes) (hs : e'.start = e.start) (hb : e'.byteCursor = e.byteCursor)
    (hl : e'.live = e.live) : BytesHeld e' bytes :=
  ⟨h.nonnull, hs ▸ hb ▸ h.within, h.apart, hl ▸ h.counted⟩

theorem alloc {bytes' align : UInt64} (hz : e.Zoned) (h : BytesHeld e bytes)
    (hl : e.live.toNat + 1 < 2 ^ 64) (ha : e.alloc bytes' align = .ok (a, e')) :
    BytesHeld e' bytes ∧ (a ≠ 0 → BytesHeld e' ((a, bytes') :: bytes)) := by
  obtain ⟨next, hba, hn, -, rfl⟩ := Extent.alloc_bounds ha
  have hlive := Extent.toNat_live_add_one hl
  have hstart := hz.start_le
  have hcounted := h.counted
  have hold : ∀ x ∈ bytes, e.start.toNat ≤ x.1.toNat ∧ x.1.toNat + x.2.toNat ≤ next.toNat := by
    intro x hx
    have := h.within x hx
    omega
  constructor
  · refine ⟨h.nonnull, hold, h.apart, ?_⟩
    dsimp only
    omega
  · intro hne
    refine ⟨?_, ?_, ?_, ?_⟩
    · intro x hx
      rcases List.mem_cons.mp hx with rfl | hx
      · exact hne
      · exact h.nonnull x hx
    · intro x hx
      rcases List.mem_cons.mp hx with rfl | hx
      · exact ⟨by dsimp only; omega, by dsimp only; omega⟩
      · exact hold x hx
    · refine List.pairwise_cons.mpr ⟨?_, h.apart⟩
      intro x hx hm
      have := h.within x hx
      exact Block.not_meets_of_stop_le (by simp only [Block.stop, Block.ofBytes]; omega) hm.symm
    · rw [List.length_cons]
      dsimp only
      omega

/-- Giving one pointer back resets the byte cursor only when none is held any more. -/
theorem release {x : Address × UInt64} (h : BytesHeld e bytes) (hx : x ∈ bytes) :
    BytesHeld e.release (bytes.erase x) := by
  have hlen := List.length_erase_of_mem hx
  have hlive := Extent.toNat_live_release (e := e)
  have hcounted : (bytes.erase x).length ≤ e.release.live.toNat := by
    have := h.counted
    omega
  refine ⟨?_, ?_, h.apart.sublist List.erase_sublist, hcounted⟩
  · intro y hy
    exact h.nonnull y (List.mem_of_mem_erase hy)
  · intro y hy
    have hne : e.release.live ≠ 0 := by
      intro h0
      have := List.length_pos_of_mem hy
      rw [h0, UInt64.toNat_zero] at hcounted
      omega
    rw [Extent.release_byteCursor, if_neg hne]
    exact h.within y (List.mem_of_mem_erase hy)

end BytesHeld

theorem BootMemory.pagesInUse_iff_toNat {b : BootMemory} :
    b.pagesInUse = true ↔ b.extent.pageCursor.toNat < b.pageBoundary.toNat := by
  rw [pagesInUse_eq_true_iff, UInt64.lt_iff_toNat_lt]

/-- Held pages lie apart inside the extent, blocks of at least one page between cursor and boundary. -/
structure PagesHeld (b : BootMemory) (pages : List (Address × UInt64)) : Prop where
  cursor_le : b.extent.pageCursor.toNat ≤ b.pageBoundary.toNat
  boundary_le : b.pageBoundary.toNat ≤ b.extent.start.toNat + b.extent.size.toNat
  inside : ∀ x ∈ pages, b.extent.start.toNat ≤ (Block.ofPages x).start ∧
    (Block.ofPages x).stop ≤ b.extent.start.toNat + b.extent.size.toNat
  between : ∀ x ∈ pages, 0 < (Block.ofPages x).length →
    b.extent.pageCursor.toNat ≤ (Block.ofPages x).start ∧
      (Block.ofPages x).stop ≤ b.pageBoundary.toNat
  apart : pages.Pairwise fun x y => ¬ (Block.ofPages x).Meets (Block.ofPages y)

namespace PagesHeld

variable {b b' : BootMemory} {pages : List (Address × UInt64)} {a : Address}

theorem congr (h : PagesHeld b pages) (hs : b'.extent.start = b.extent.start)
    (hn : b'.extent.size = b.extent.size) (hc : b'.extent.pageCursor = b.extent.pageCursor)
    (hb : b'.pageBoundary = b.pageBoundary) : PagesHeld b' pages :=
  ⟨hc ▸ hb ▸ h.cursor_le, hs ▸ hn ▸ hb ▸ h.boundary_le, hs ▸ hn ▸ h.inside,
    hc ▸ hb ▸ h.between, h.apart⟩

theorem perm {pages' : List (Address × UInt64)} (h : PagesHeld b pages) (hp : pages.Perm pages') :
    PagesHeld b pages' :=
  ⟨h.cursor_le, h.boundary_le, fun x hx => h.inside x (hp.mem_iff.mpr hx),
    fun x hx => h.between x (hp.mem_iff.mpr hx),
    (hp.pairwise_iff fun hxy hyx => hxy hyx.symm).mp h.apart⟩

theorem activate {r : Range} (h : b.activate r = .ok b') : PagesHeld b' [] := by
  obtain ⟨-, hr, -, rfl⟩ := BootMemory.activate_eq_ok_iff.mp h
  have hsize := Word.add?_eq_some_iff.mp (Range.add?_start_size hr)
  have hstop := Word.toNat_add_of_lt (hsize ▸ r.stop.toNat_lt)
  exact ⟨Nat.le_of_eq (hstop.trans hsize), Nat.le_of_eq hsize.symm,
    fun _ h => absurd h List.not_mem_nil, fun _ h => absurd h List.not_mem_nil, .nil⟩

theorem pagesInUse (h : PagesHeld b pages) {x : Address × UInt64} (hx : x ∈ pages)
    (hl : 0 < (Block.ofPages x).length) : b.pagesInUse = true := by
  have := h.between x hx hl
  rw [BootMemory.pagesInUse_iff_toNat]
  unfold Block.stop at this
  omega

theorem toNat_blockEnd {count : UInt64} (hz : b.extent.Zoned) (h : PagesHeld b pages)
    (hx : (a, count) ∈ pages) :
    (b.extent.blockEnd a count).toNat = (Block.ofPages (a, count)).stop := by
  rw [hz.toNat_blockEnd]
  exact Nat.min_eq_left (h.inside _ hx).2

theorem extend_cases {r : Range} (h : PagesHeld b pages) (he : b.extend r = .ok b') :
    b.pagesInUse = true ∧ r.stop ≤ b.extent.pageCursor ∧
        b' = { b with extent := { b.extent with pageCursor := r.stop } } ∨
      b.pagesInUse = false ∧
        b' = { b with extent := { b.extent with pageCursor := r.stop }, pageBoundary := r.stop } := by
  obtain ⟨-, -, hu, -, -, rfl⟩ := BootMemory.extend_eq_ok he
  by_cases hin : b.pagesInUse = true
  · have hstop := UInt64.le_iff_toNat_le.mp (hu hin)
    have hle := h.cursor_le
    have hno : ¬ b.pageBoundary < r.stop := by
      rw [UInt64.lt_iff_toNat_lt]
      omega
    rw [if_neg (by simp [hin, hno])]
    exact Or.inl ⟨hin, hu hin, rfl⟩
  · rw [if_pos (Or.inl hin)]
    exact Or.inr ⟨by simpa using hin, rfl⟩

/-- The boundary moves only when no block of at least one page is held. -/
theorem extend {r : Range} (hz : b.extent.Zoned) (h : PagesHeld b pages)
    (he : b.extend r = .ok b') : PagesHeld b' pages := by
  obtain ⟨-, -, -, hc, -, -⟩ := BootMemory.extend_eq_ok he
  have hceil := UInt64.le_iff_toNat_le.mp hc
  rw [hz.toNat_ceiling] at hceil
  rcases h.extend_cases he with ⟨-, hr, rfl⟩ | ⟨hin, rfl⟩
  · have hstop := UInt64.le_iff_toNat_le.mp hr
    refine ⟨Nat.le_trans hstop h.cursor_le, h.boundary_le, h.inside, ?_, h.apart⟩
    intro x hx hl
    have hx := h.between x hx hl
    exact ⟨Nat.le_trans hstop hx.1, hx.2⟩
  · have hnone : ¬ b.pagesInUse = true := by simp [hin]
    exact ⟨Nat.le_refl _, hceil, h.inside, fun x hx hl => absurd (h.pagesInUse hx hl) hnone, h.apart⟩

/-- A new block lies below all that is held. -/
theorem allocPages {count : UInt64} {e : Extent pageBytes} (hz : b.extent.Zoned)
    (h : PagesHeld b pages) (ha : b.extent.allocPages count pageBytes = .ok (a, e)) :
    PagesHeld { b with extent := e } ((a, count) :: pages) := by
  obtain ⟨hba, hend, rfl⟩ := hz.allocPages_bounds ha
  have hs := hz.start_le
  have hle := h.cursor_le
  have hbl := h.boundary_le
  have hnew : (Block.ofPages (a, count)).stop ≤ b.extent.pageCursor.toNat := hend
  have hstop : (Block.ofPages (a, count)).start ≤ (Block.ofPages (a, count)).stop :=
    Nat.le_add_right _ _
  have hstart : (Block.ofPages (a, count)).start = a.toNat := rfl
  refine ⟨by dsimp only; omega, hbl, ?_, ?_, List.pairwise_cons.mpr ⟨?_, h.apart⟩⟩
  · intro x hx
    rcases List.mem_cons.mp hx with rfl | hx
    · exact ⟨by dsimp only; omega, by dsimp only; omega⟩
    · exact h.inside x hx
  · intro x hx hl
    rcases List.mem_cons.mp hx with rfl | hx
    · exact ⟨by dsimp only; omega, by dsimp only; omega⟩
    · have := h.between x hx hl
      exact ⟨by dsimp only; omega, this.2⟩
  · intro x hx hm
    have := h.between x hx (Block.meets_iff.mp hm).2.1
    exact Block.not_meets_of_stop_le (by omega) hm

theorem freePages {count : UInt64} (hz : b.extent.Zoned) (h : PagesHeld b pages)
    (hx : (a, count) ∈ pages) :
    PagesHeld { b with extent := b.extent.freePages a count } (pages.erase (a, count)) := by
  have hsub := fun y (hy : y ∈ pages.erase (a, count)) => List.mem_of_mem_erase hy
  have hapart := h.apart.sublist (List.erase_sublist (a := (a, count)))
  unfold Extent.freePages
  split
  · rename_i hcur
    have hend := h.toNat_blockEnd hz hx
    have hcurNat : (Block.ofPages (a, count)).start = b.extent.pageCursor.toNat :=
      congrArg UInt64.toNat hcur
    -- The freed block meets none of the others, so those above the cursor start at its end.
    have hothers : ∀ y ∈ pages.erase (a, count),
        ¬ (Block.ofPages (a, count)).Meets (Block.ofPages y) :=
      (List.pairwise_cons.mp (h.perm (List.perm_cons_erase hx)).apart).1
    refine ⟨?_, h.boundary_le, fun y hy => h.inside y (hsub y hy), ?_, hapart⟩
    · dsimp only
      by_cases hl : 0 < (Block.ofPages (a, count)).length
      · have := h.between _ hx hl
        omega
      · have := h.cursor_le
        unfold Block.stop at hend
        omega
    · intro y hy hl
      have hy' := h.between y (hsub y hy) hl
      have hno := hothers y hy
      rw [Block.meets_iff] at hno
      refine ⟨?_, hy'.2⟩
      dsimp only
      unfold Block.stop at hno hend
      omega
  · exact ⟨h.cursor_le, h.boundary_le, fun y hy => h.inside y (hsub y hy),
      fun y hy => h.between y (hsub y hy), hapart⟩

end PagesHeld

end KernelCore
