import KernelCore.Proofs.Boot.Holdings

/-! # What the recorded boundary tells

The page cursor is below the recorded boundary while blocks of pages are in use. A ledger follows every
block to its caller and back. A block that is given back in its turn starts at the page cursor, which
rises over it; given back out of turn it is ignored, and stays in use for ever.
-/

namespace KernelCore

open BootMemory

theorem Extent.Zoned.allocPages_stop {pageSize count : UInt64} {e e' : Extent pageSize} {a : Address}
    (hz : e.Zoned) (hc : e.pageCursor.toNat % pageSize.toNat = 0)
    (h : e.allocPages count pageSize = .ok (a, e')) :
    a.toNat + count.toNat * pageSize.toNat = e.pageCursor.toNat := by
  obtain ⟨-, hend, -⟩ := hz.allocPages_bounds h
  obtain ⟨hp, required, hm, -, ha, -, -⟩ := Extent.allocPages_eq_ok h
  have hrequired := Word.mul?_eq_some_iff.mp hm
  have hle : required ≤ e.pageCursor := UInt64.le_iff_toNat_le.mpr (by omega)
  have hrest : (e.pageCursor.toNat - required.toNat) % pageSize.toNat = 0 := by
    rw [← hrequired, Nat.mul_comm, Nat.sub_mul_mod (by rw [Nat.mul_comm]; omega), hc]
  rw [ha, Word.toNat_alignDown hp, UInt64.toNat_sub_of_le _ _ hle, hrest]
  omega

theorem Block.length_ofPages_pos_iff {x : Address × UInt64} :
    0 < (Block.ofPages x).length ↔ x.2 ≠ 0 := by
  have hbytes : 0 < pageBytes.toNat := by decide
  have hzero : x.2.toNat = 0 ↔ x.2 = 0 := by rw [← UInt64.toNat_inj, UInt64.toNat_zero]
  rw [Block.ofPages, Nat.mul_pos_iff_of_pos_right hbytes, Nat.pos_iff_ne_zero, Ne, hzero]

/-- While pages are in use below an aligned boundary, some block ends there. -/
def Topped (b : BootMemory) (pages : List (Address × UInt64)) : Prop :=
  b.pageBoundary.toNat % pageBytes.toNat = 0 → b.pagesInUse = true →
    ∃ x ∈ pages, 0 < (Block.ofPages x).length ∧ (Block.ofPages x).stop = b.pageBoundary.toNat

namespace Topped

variable {b b' : BootMemory} {pages pages' : List (Address × UInt64)} {a : Address} {count : UInt64}

theorem perm (h : Topped b pages) (hp : pages.Perm pages') : Topped b pages' := by
  intro haligned hin
  obtain ⟨x, hx, htop⟩ := h haligned hin
  exact ⟨x, hp.mem_iff.mp hx, htop⟩

theorem extend {r : Range} (hp : PagesHeld b pages) (h : Topped b pages) (he : b.extend r = .ok b') :
    Topped b' pages := by
  intro haligned hin
  rcases hp.extend_cases he with ⟨hused, -, rfl⟩ | ⟨-, rfl⟩
  · exact h haligned hused
  · exact absurd (pagesInUse_iff_toNat.mp hin) (Nat.lt_irrefl _)

/-- The first block below the boundary ends at it. -/
theorem allocPages {e : Extent pageBytes} (hz : b.extent.Zoned) (hp : PagesHeld b pages)
    (h : Topped b pages) (ha : b.extent.allocPages count pageBytes = .ok (a, e)) :
    Topped { b with extent := e } ((a, count) :: pages) := by
  intro haligned hin
  dsimp only at haligned ⊢
  by_cases hused : b.pagesInUse = true
  · obtain ⟨x, hx, htop⟩ := h haligned hused
    exact ⟨x, List.mem_cons_of_mem _ hx, htop⟩
  · have hcursor : b.extent.pageCursor.toNat = b.pageBoundary.toNat := by
      have hle := hp.cursor_le
      rw [pagesInUse_iff_toNat] at hused
      omega
    have hstop : (Block.ofPages (a, count)).stop = b.pageBoundary.toNat :=
      (hz.allocPages_stop (hcursor ▸ haligned) ha).trans hcursor
    obtain ⟨-, -, rfl⟩ := hz.allocPages_bounds ha
    rw [pagesInUse_iff_toNat] at hin
    have hstart : (Block.ofPages (a, count)).start = a.toNat := rfl
    refine ⟨(a, count), List.mem_cons_self, ?_, hstop⟩
    dsimp only at hin
    unfold Block.stop at hstop
    omega

/-- When the block at the boundary is taken back, the cursor has come up to the boundary. -/
theorem freePages (hz : b.extent.Zoned) (hp : PagesHeld b pages) (h : Topped b pages)
    (hx : (a, count) ∈ pages) (hturn : a = b.extent.pageCursor) :
    Topped { b with extent := b.extent.freePages a count } (pages.erase (a, count)) := by
  have hend : (b.extent.freePages a count).pageCursor.toNat = (Block.ofPages (a, count)).stop := by
    rw [Extent.freePages, if_pos hturn]
    exact hp.toNat_blockEnd hz hx
  intro haligned hin
  rw [pagesInUse_iff_toNat] at hin
  dsimp only at haligned hin ⊢
  have hcursor : b.extent.pageCursor.toNat ≤ (Block.ofPages (a, count)).stop :=
    hturn ▸ Nat.le_add_right _ _
  have hused : b.pagesInUse = true := pagesInUse_iff_toNat.mpr (by omega)
  obtain ⟨y, hy, hlength, hstop⟩ := h haligned hused
  have hne : y ≠ (a, count) := by
    rintro rfl
    omega
  exact ⟨y, (List.mem_erase_of_ne hne).mpr hy, hlength, hstop⟩

end Topped

theorem BootMemory.extend_eq_pagesInUse_iff {b : BootMemory} {q : Range} :
    b.extend q = .error .pagesInUse ↔ b.phase = .active ∧ q.start ≤ q.stop ∧
      b.pagesInUse = true ∧ b.extent.pageCursor < q.stop := by
  unfold extend
  by_cases hp : b.phase = .active
  · by_cases hq : q.inverted = true
    · have hlt : ¬ q.start ≤ q.stop := by simpa [Range.inverted] using hq
      simp [hp, hq, hlt]
    · have hle : q.start ≤ q.stop := by simpa [Range.inverted] using hq
      by_cases hu : b.pagesInUse = true ∧ b.extent.pageCursor < q.stop
      · simp [hp, hq, hle, hu]
      · rw [if_neg (fun h => h hp), if_neg hq, if_neg hu]
        cases b.extent.movePages? q.start q.size <;> simp [hp, hle, hu]
  · simp [hp]

/-- A boot memory and the blocks of pages that it handed out: those that callers have, and those that
they gave back out of turn. -/
structure Ledger where
  memory : BootMemory
  out : List (Address × UInt64)
  stranded : List (Address × UInt64)
  deriving DecidableEq, Repr

namespace Ledger

def fresh (b : BootMemory) : Ledger := ⟨b, [], []⟩

/-- The blocks that the memory has not taken back. -/
def unreclaimed (s : Ledger) : List (Address × UInt64) := s.out ++ s.stranded

/-- The ledger after an operation of callers that give back only pages that they have. A panic changes
nothing. -/
def next? (s : Ledger) (op : Operation) : Option Ledger :=
  match op, s.memory.apply op with
  | _, .error _ => some s
  | .allocatePages count, .ok (.pointer (some a), b) =>
      some { s with memory := b, out := (a, count) :: s.out }
  | .freePages a count, .ok (_, b) =>
      if s.out.contains (a, count) then
        some ⟨b, s.out.erase (a, count),
          if a = s.memory.extent.pageCursor then s.stranded else (a, count) :: s.stranded⟩
      else none
  | _, .ok (_, b) => some { s with memory := b }

def run? (s : Ledger) (ops : List Operation) : Option Ledger := ops.foldlM next? s

variable {s s' : Ledger} {op : Operation} {ops : List Operation}

structure Balanced (s : Ledger) : Prop where
  zoned : s.memory.extent.Zoned
  awake : s.memory.phase ≠ .dormant
  pages : PagesHeld s.memory s.unreclaimed
  topped : Topped s.memory s.unreclaimed

theorem balanced_fresh {r : Range} {b : BootMemory} (h : dormant.activate r = .ok b) :
    (fresh b).Balanced := by
  have hphase : b.phase ≠ .dormant := by
    rw [(activate_eq_ok_iff.mp h).2.2.2]
    exact nofun
  refine ⟨zoned_activate h, hphase, .activate h, fun _ hin => ?_⟩
  obtain ⟨-, hr, -, rfl⟩ := activate_eq_ok_iff.mp h
  have hsize := Word.add?_eq_some_iff.mp (Range.add?_start_size hr)
  have hstop := Word.toNat_add_of_lt (hsize ▸ r.stop.toNat_lt)
  exact absurd (pagesInUse_iff_toNat.mp hin) (Nat.not_lt.mpr (Nat.le_of_eq (hstop.trans hsize).symm))

theorem Balanced.congr {b : BootMemory} (h : s.Balanced) (hz : b.extent.Zoned)
    (hp : b.phase ≠ .dormant) (hs : b.extent.start = s.memory.extent.start)
    (hn : b.extent.size = s.memory.extent.size)
    (hc : b.extent.pageCursor = s.memory.extent.pageCursor)
    (hb : b.pageBoundary = s.memory.pageBoundary) : Balanced { s with memory := b } := by
  refine ⟨hz, hp, h.pages.congr hs hn hc hb, ?_⟩
  have htopped := h.topped
  unfold Topped pagesInUse at htopped ⊢
  dsimp only
  rw [hc, hb]
  exact htopped

theorem Balanced.allocatePages {count : UInt64} {a : Address} {e : Extent pageBytes}
    (h : s.Balanced) (ha : s.memory.extent.allocPages count pageBytes = .ok (a, e)) :
    Balanced { s with memory := { s.memory with extent := e }, out := (a, count) :: s.out } :=
  ⟨h.zoned.allocPages ha, h.awake, h.pages.allocPages h.zoned ha,
    h.topped.allocPages h.zoned h.pages ha⟩

/-- A block given back in its turn is taken back, and the others stay. -/
theorem Balanced.freePages {a : Address} {count : UInt64} (h : s.Balanced)
    (hx : (a, count) ∈ s.out) (hturn : a = s.memory.extent.pageCursor) :
    Balanced ⟨{ s.memory with extent := s.memory.extent.freePages a count },
      s.out.erase (a, count), s.stranded⟩ := by
  have hmem : (a, count) ∈ s.unreclaimed := List.mem_append_left _ hx
  have herase : s.unreclaimed.erase (a, count) = s.out.erase (a, count) ++ s.stranded :=
    List.erase_append_left _ hx
  have hpages := h.pages.freePages h.zoned hmem
  have htopped := h.topped.freePages h.zoned h.pages hmem hturn
  rw [herase] at hpages htopped
  exact ⟨h.zoned.freePages a count, h.awake, hpages, htopped⟩

/-- A block given back out of turn is stranded, and the memory stays as it is. -/
theorem Balanced.strand {x : Address × UInt64} (h : s.Balanced) (hx : x ∈ s.out) :
    Balanced ⟨s.memory, s.out.erase x, x :: s.stranded⟩ := by
  have hperm : s.unreclaimed.Perm (s.out.erase x ++ x :: s.stranded) :=
    ((List.perm_cons_erase hx).append_right _).trans List.perm_middle.symm
  exact ⟨h.zoned, h.awake, h.pages.perm hperm, h.topped.perm hperm⟩

theorem Balanced.extend {r : Range} {b : BootMemory} (h : s.Balanced)
    (he : s.memory.extend r = .ok b) : Balanced { s with memory := b } := by
  have hphase : b.phase = s.memory.phase := by
    obtain ⟨-, -, -, -, -, rfl⟩ := extend_eq_ok he
    rfl
  exact ⟨zoned_extend h.zoned he, hphase ▸ h.awake, h.pages.extend h.zoned he,
    h.topped.extend h.pages he⟩

theorem Balanced.apply {o : Outcome} {b : BootMemory} (h : s.Balanced)
    (ha : s.memory.apply op = .ok (o, b))
    (hgiven : ∀ count a, op = .allocatePages count → o ≠ .pointer (some a))
    (hfree : ∀ a count, op ≠ .freePages a count) : Balanced { s with memory := b } := by
  have hz := zoned_apply h.zoned ha
  cases op with
  | activate r =>
    rcases apply_activate_cases ha with ⟨-, ha⟩ | ⟨-, rfl⟩
    · exact absurd (activate_eq_ok_iff.mp ha).1 h.awake
    · exact h
  | extend r =>
    rcases apply_extend_cases ha with ⟨-, he⟩ | ⟨-, rfl⟩
    · exact h.extend he
    · exact h
  | retire =>
    rcases apply_retire_cases ha with ⟨-, -, rfl⟩ | ⟨-, rfl⟩
    · exact h.congr hz nofun rfl rfl rfl rfl
    · exact h
  | allocate size align =>
    rcases apply_allocate_cases ha with ⟨-, rfl⟩ | ⟨-, a, e, he, -, rfl⟩
    · exact h
    · obtain ⟨next, -, -, -, rfl⟩ := Extent.alloc_bounds he
      exact h.congr hz h.awake rfl rfl rfl rfl
  | free a =>
    obtain ⟨-, ⟨-, rfl⟩ | ⟨-, -, rfl⟩⟩ := apply_free_cases ha
    · exact h
    · exact h.congr hz h.awake rfl rfl rfl rfl
  | allocatePages count =>
    rcases apply_allocatePages_cases ha with ⟨-, rfl⟩ | ⟨-, a, e, -, ho, -⟩
    · exact h
    · exact absurd ho (hgiven count a rfl)
  | freePages a count => exact absurd rfl (hfree a count)

/-- Every operation of callers that give back only blocks that they have keeps the invariant. -/
theorem Balanced.step (h : s.Balanced) (hs : s.next? op = some s') : s'.Balanced := by
  unfold next? at hs
  split at hs
  · cases hs
    exact h
  · rename_i count a b ha
    cases hs
    rcases apply_allocatePages_cases ha with ⟨ho, -⟩ | ⟨-, c, e, he, ho, rfl⟩
    · cases ho
    · cases ho
      exact h.allocatePages he
  · rename_i a count o b ha
    split at hs
    · rename_i hcontains
      have hx : (a, count) ∈ s.out := List.contains_iff_mem.mp hcontains
      cases hs
      obtain ⟨-, ⟨hd, -⟩ | ⟨-, rfl⟩⟩ := apply_freePages_cases ha
      · exact absurd hd h.awake
      · by_cases hturn : a = s.memory.extent.pageCursor
        · rw [if_pos hturn]
          exact h.freePages hx hturn
        · rw [if_neg hturn, Extent.freePages, if_neg hturn]
          exact h.strand hx
    · cases hs
  · rename_i o b hgiven hfree ha
    cases hs
    exact h.apply ha hgiven hfree

theorem Balanced.run (h : s.Balanced) (hs : s.run? ops = some s') : s'.Balanced := by
  induction ops generalizing s with
  | nil =>
    cases hs
    exact h
  | cons op ops ih =>
    obtain ⟨t, ht, hs⟩ := Option.bind_eq_some_iff.mp hs
    exact ih (h.step ht) hs

theorem Balanced.pagesInUse (h : s.Balanced) {x : Address × UInt64} (hx : x ∈ s.unreclaimed)
    (hcount : x.2 ≠ 0) : s.memory.pagesInUse = true :=
  h.pages.pagesInUse hx (Block.length_ofPages_pos_iff.mpr hcount)

theorem Balanced.pagesInUse_iff (h : s.Balanced)
    (haligned : s.memory.pageBoundary.toNat % pageBytes.toNat = 0) :
    s.memory.pagesInUse = true ↔ ∃ x ∈ s.unreclaimed, x.2 ≠ 0 := by
  constructor
  · intro hin
    obtain ⟨x, hx, hlength, -⟩ := h.topped haligned hin
    exact ⟨x, hx, Block.length_ofPages_pos_iff.mp hlength⟩
  · rintro ⟨x, hx, hcount⟩
    exact h.pagesInUse hx hcount

/-- The page cursor is below the boundary while some block is out or was stranded. -/
theorem in_use_iff_unreclaimed {r : Range} {b : BootMemory} (hb : dormant.activate r = .ok b)
    (hs : (fresh b).run? ops = some s) :
    ((∃ x ∈ s.out ++ s.stranded, x.2 ≠ 0) → s.memory.extent.pageCursor < s.memory.pageBoundary) ∧
      (s.memory.pageBoundary.toNat % pageBytes.toNat = 0 →
        (s.memory.extent.pageCursor < s.memory.pageBoundary ↔
          ∃ x ∈ s.out ++ s.stranded, x.2 ≠ 0) ∧
        ∀ q : Range, s.memory.phase = .active → q.start ≤ q.stop →
          s.memory.extent.pageCursor < q.stop →
          (s.memory.extend q = .error .pagesInUse ↔ ∃ x ∈ s.out ++ s.stranded, x.2 ≠ 0)) := by
  have h : s.Balanced := (balanced_fresh hb).run hs
  refine ⟨?_, fun haligned => ⟨?_, fun q hp hq hraise => ?_⟩⟩
  · rintro ⟨x, hx, hcount⟩
    exact pagesInUse_eq_true_iff.mp (h.pagesInUse hx hcount)
  · exact pagesInUse_eq_true_iff.symm.trans (h.pagesInUse_iff haligned)
  · rw [extend_eq_pagesInUse_iff, h.pagesInUse_iff haligned]
    exact ⟨fun hall => hall.2.2.1, fun hused => ⟨hp, hq, hused, hraise⟩⟩

/-- A boundary lowered under a block, blocks given back in and out of turn, one still out. -/
theorem in_use_iff_unreclaimed_lowered :
    let r : Range := ⟨0x100000, 0x120000⟩
    let ops : List Operation := [.allocatePages 2, .allocate 100 64, .extend ⟨0x100000, 0x11d800⟩,
      .allocatePages 1, .free 0x100000, .freePages 0x11e000 2, .allocatePages 3,
      .freePages 0x119000 3, .free 16]
    let b : BootMemory := ⟨.spanning 0x100000 0x20000, .active, 0x120000⟩
    let s : Ledger := ⟨⟨⟨0x100000, 0x20000, 0x100000, 0x11c000, 0⟩, .active, 0x120000⟩,
      [(0x11c000, 1)], [(0x11e000, 2)]⟩
    dormant.activate r = .ok b ∧ (fresh b).run? ops = some s ∧
      s.memory.pageBoundary.toNat % pageBytes.toNat = 0 ∧
      s.memory.extent.pageCursor < s.memory.pageBoundary ∧
      s.memory.extend r = .error .pagesInUse := by
  intro r ops b s
  have hb : dormant.activate r = .ok b :=
    activate_eq_ok_iff.mpr ⟨rfl, by decide, by decide, by decide +kernel⟩
  have hs : (fresh b).run? ops = some s := by decide +kernel
  have haligned : s.memory.pageBoundary.toNat % pageBytes.toNat = 0 := by decide
  have hused : ∃ x ∈ s.out ++ s.stranded, x.2 ≠ 0 := by decide
  obtain ⟨hlt, hexact⟩ := in_use_iff_unreclaimed hb hs
  exact ⟨hb, hs, haligned, hlt hused,
    ((hexact haligned).2 r rfl (by decide) (by decide)).mpr hused⟩

/-- No block is out any more, and the cursor stays below the boundary. -/
theorem in_use_with_none_out :
    let b : BootMemory := ⟨.spanning 0x100000 0x10000, .active, 0x110000⟩
    let s : Ledger := ⟨⟨⟨0x100000, 0x10000, 0x100000, 0x10f000, 0⟩, .active, 0x110000⟩, [],
      [(0x10f000, 1)]⟩
    let c : BootMemory := ⟨.spanning 0x100000 0x10800, .active, 0x110800⟩
    let t : Ledger := ⟨⟨⟨0x100000, 0x10800, 0x100000, 0x110000, 0⟩, .active, 0x110800⟩, [], []⟩
    dormant.activate ⟨0x100000, 0x110000⟩ = .ok b ∧
      (fresh b).run? [.allocatePages 1, .allocatePages 1, .freePages 0x10f000 1,
        .freePages 0x10e000 1] = some s ∧
      s.out = [] ∧ s.memory.extent.pageCursor < s.memory.pageBoundary ∧
      dormant.activate ⟨0x100000, 0x110800⟩ = .ok c ∧
      (fresh c).run? [.allocatePages 1, .freePages 0x10f000 1] = some t ∧
      t.out = [] ∧ t.memory.extent.pageCursor < t.memory.pageBoundary := by
  intro b s c t
  have hb : dormant.activate ⟨0x100000, 0x110000⟩ = .ok b :=
    activate_eq_ok_iff.mpr ⟨rfl, by decide, by decide, rfl⟩
  have hc : dormant.activate ⟨0x100000, 0x110800⟩ = .ok c :=
    activate_eq_ok_iff.mpr ⟨rfl, by decide, by decide, rfl⟩
  exact ⟨hb, by decide +kernel, rfl, by decide, hc, by decide +kernel, rfl, by decide⟩

end Ledger

end KernelCore
