import KernelCore.Proofs.Boot.Holdings

/-! # Boot memory hands nothing out twice

Whatever the order of operations, the bytes and the pages that callers hold lie apart from one another
inside the activated region. The invariant of a session ties the holdings to the two cursors, to the
count of live allocations and to the recorded boundary.
-/

namespace KernelCore.Session

open BootMemory

/-- Nothing is held before a region was activated, and the extent is that region afterwards. -/
def Anchored (s : Session) : Prop :=
  match s.held.region with
  | none => s.memory.phase = .dormant ∧ s.held.bytes = [] ∧ s.held.pages = []
  | some r => s.memory.phase ≠ .dormant ∧ s.memory.extent.start = r.start ∧
      s.memory.extent.start.toNat + s.memory.extent.size.toNat = r.stop.toNat

/-- The invariant of a session in which bytes were asked for `n` times. -/
structure Sound (s : Session) (n : Nat) : Prop where
  zoned : s.memory.extent.Zoned
  anchored : s.Anchored
  bytes : BytesHeld s.memory.extent s.held.bytes
  pages : PagesHeld s.memory s.held.pages
  live_le : s.memory.extent.live.toNat ≤ n

variable {s s' : Session} {op : Operation} {n : Nat}

theorem sound_dormant : dormant.Sound 0 where
  zoned := Extent.zoned_empty
  anchored := ⟨rfl, rfl, rfl⟩
  bytes := .nil _
  pages := ⟨Nat.le_refl _, Nat.le_refl _, fun _ h => absurd h List.not_mem_nil,
    fun _ h => absurd h List.not_mem_nil, .nil⟩
  live_le := Nat.le_refl _

theorem Anchored.region_of_phase (h : s.Anchored) (hp : s.memory.phase ≠ .dormant) :
    ∃ r, s.held.region = some r ∧ s.memory.extent.start = r.start ∧
      s.memory.extent.start.toNat + s.memory.extent.size.toNat = r.stop.toNat := by
  unfold Anchored at h
  split at h
  · exact absurd h.1 hp
  · rename_i r hr
    exact ⟨r, hr, h.2⟩

theorem Anchored.nothing_held (h : s.Anchored) (hp : s.memory.phase = .dormant) :
    s.held.bytes = [] ∧ s.held.pages = [] := by
  unfold Anchored at h
  split at h
  · exact h.2
  · exact absurd hp h.1

theorem Anchored.keep (h : s.Anchored) (hp : s.memory.phase ≠ .dormant)
    (hp' : s'.memory.phase ≠ .dormant) (hr : s'.held.region = s.held.region)
    (hs : s'.memory.extent.start = s.memory.extent.start)
    (hn : s'.memory.extent.size = s.memory.extent.size) : s'.Anchored := by
  obtain ⟨r, hreg, hstart, hstop⟩ := h.region_of_phase hp
  unfold Anchored
  rw [hr, hreg]
  exact ⟨hp', hs ▸ hstart, by rw [hs, hn]; exact hstop⟩

theorem Sound.mono {m : Nat} (h : s.Sound n) (hm : n ≤ m) : s.Sound m :=
  ⟨h.zoned, h.anchored, h.bytes, h.pages, Nat.le_trans h.live_le hm⟩

theorem Sound.activate {r : Range} {b : BootMemory} (h : s.Sound n)
    (ha : s.memory.activate r = .ok b) : (⟨b, { s.held with region := some r }⟩ : Session).Sound n := by
  have hz := zoned_activate ha
  have hnone := PagesHeld.activate ha
  obtain ⟨hd, hr, -, rfl⟩ := activate_eq_ok_iff.mp ha
  obtain ⟨hbytes, hpages⟩ := h.anchored.nothing_held hd
  have hsize := Word.add?_eq_some_iff.mp (Range.add?_start_size hr)
  refine ⟨hz, ⟨nofun, rfl, hsize⟩, ?_, ?_, Nat.zero_le _⟩
  · rw [hbytes]
    exact .nil _
  · rw [hpages]
    exact hnone

theorem Sound.extend {r : Range} {b : BootMemory} (h : s.Sound n)
    (he : s.memory.extend r = .ok b) : (⟨b, s.held⟩ : Session).Sound n := by
  have hz := zoned_extend h.zoned he
  have hpages := h.pages.extend h.zoned he
  obtain ⟨hp, -, -, -, -, rfl⟩ := extend_eq_ok he
  have hp' : s.memory.phase ≠ .dormant := by simp [hp]
  exact ⟨hz, h.anchored.keep hp' hp' rfl rfl rfl, h.bytes.congr rfl rfl rfl, hpages, h.live_le⟩

theorem Sound.retire (h : s.Sound n) (hp : s.memory.phase = .active) :
    (⟨{ s.memory with phase := .retired }, s.held⟩ : Session).Sound n :=
  ⟨h.zoned, h.anchored.keep (by simp [hp]) nofun rfl rfl rfl, h.bytes, h.pages.congr rfl rfl rfl rfl,
    h.live_le⟩

theorem Sound.allocate {size align : UInt64} {a : Address} {e : Extent pageBytes} (h : s.Sound n)
    (hn : n + 1 < 2 ^ 64) (hp : s.memory.phase = .active)
    (ha : s.memory.extent.alloc size align = .ok (a, e)) :
    (⟨{ s.memory with extent := e }, s.held⟩ : Session).Sound (n + 1) ∧
      (a ≠ 0 → (⟨{ s.memory with extent := e }, { s.held with bytes := (a, size) :: s.held.bytes }⟩ :
        Session).Sound (n + 1)) := by
  have hle := h.live_le
  have hlive : s.memory.extent.live.toNat + 1 < 2 ^ 64 := by omega
  have hz := h.zoned.alloc ha
  obtain ⟨hold, hnew⟩ := h.bytes.alloc h.zoned hlive ha
  obtain ⟨next, -, -, -, rfl⟩ := Extent.alloc_bounds ha
  have hp' : s.memory.phase ≠ .dormant := by simp [hp]
  have hcount : (s.memory.extent.live + 1).toNat ≤ n + 1 := by
    rw [Extent.toNat_live_add_one hlive]
    omega
  exact ⟨⟨hz, h.anchored.keep hp' hp' rfl rfl rfl, hold, h.pages.congr rfl rfl rfl rfl, hcount⟩,
    fun hne => ⟨hz, h.anchored.keep hp' hp' rfl rfl rfl, hnew hne, h.pages.congr rfl rfl rfl rfl,
      hcount⟩⟩

theorem Sound.free {x : Address × UInt64} (h : s.Sound n) (hx : x ∈ s.held.bytes)
    (hp : s.memory.phase ≠ .dormant) :
    (⟨{ s.memory with extent := s.memory.extent.release },
      { s.held with bytes := s.held.bytes.erase x }⟩ : Session).Sound n := by
  have hlive := Extent.toNat_live_release (e := s.memory.extent)
  have hle := h.live_le
  exact ⟨h.zoned.release, h.anchored.keep hp hp rfl rfl rfl, h.bytes.release hx,
    h.pages.congr rfl rfl rfl rfl, by dsimp only; omega⟩

theorem Sound.allocatePages {count : UInt64} {a : Address} {e : Extent pageBytes} (h : s.Sound n)
    (hp : s.memory.phase = .active) (ha : s.memory.extent.allocPages count pageBytes = .ok (a, e)) :
    (⟨{ s.memory with extent := e }, { s.held with pages := (a, count) :: s.held.pages }⟩ :
      Session).Sound n := by
  have hz := h.zoned.allocPages ha
  have hpages := h.pages.allocPages h.zoned ha
  obtain ⟨-, -, rfl⟩ := h.zoned.allocPages_bounds ha
  have hp' : s.memory.phase ≠ .dormant := by simp [hp]
  exact ⟨hz, h.anchored.keep hp' hp' rfl rfl rfl, h.bytes.congr rfl rfl rfl, hpages, h.live_le⟩

theorem Sound.freePages {a : Address} {count : UInt64} (h : s.Sound n)
    (hx : (a, count) ∈ s.held.pages) (hp : s.memory.phase ≠ .dormant) :
    (⟨{ s.memory with extent := s.memory.extent.freePages a count },
      { s.held with pages := s.held.pages.erase (a, count) }⟩ : Session).Sound n := by
  have hz := h.zoned.freePages a count
  have hpages := h.pages.freePages h.zoned hx
  obtain ⟨c, he⟩ := Extent.exists_freePages_eq s.memory.extent a count
  rw [he] at hz hpages ⊢
  exact ⟨hz, h.anchored.keep hp hp rfl rfl rfl, h.bytes.congr rfl rfl rfl, hpages, h.live_le⟩

/-- Every step of callers that give back only what they hold keeps the invariant. -/
theorem Sound.step (h : s.Sound n) (hn : n + requests [op] < 2 ^ 64) (hs : s.Step op s') :
    s'.Sound (n + requests [op]) := by
  obtain ⟨b', held'⟩ := s'
  obtain ⟨o, ha, hx⟩ := hs
  dsimp only at ha hx
  cases hx with
  | activated r =>
    rcases apply_activate_cases ha with ⟨-, ha⟩ | ⟨ho, -⟩
    · exact h.activate ha
    · cases ho
  | notActivated r =>
    rcases apply_activate_cases ha with ⟨ho, -⟩ | ⟨-, rfl⟩
    · cases ho
    · exact h
  | extended r o =>
    rcases apply_extend_cases ha with ⟨-, he⟩ | ⟨-, rfl⟩
    · exact h.extend he
    · exact h
  | retired o =>
    rcases apply_retire_cases ha with ⟨-, hp, rfl⟩ | ⟨-, rfl⟩
    · exact h.retire hp
    · exact h
  | allocated size align a =>
    rcases apply_allocate_cases ha with ⟨ho, -⟩ | ⟨hp, c, e, he, ho, rfl⟩
    · cases ho
    · obtain ⟨hne, rfl⟩ := pointer?_eq_some_iff.mp (Outcome.pointer.inj ho).symm
      exact (h.allocate hn hp he).2 hne
  | notAllocated size align =>
    rcases apply_allocate_cases ha with ⟨-, rfl⟩ | ⟨hp, c, e, he, -, rfl⟩
    · exact h.mono (Nat.le_add_right _ _)
    · exact (h.allocate hn hp he).1
  | freed a size held =>
    obtain ⟨-, ⟨hd | h0, -⟩ | ⟨hp, -, rfl⟩⟩ := apply_free_cases ha
    · rw [(h.anchored.nothing_held hd).1] at held
      exact absurd held List.not_mem_nil
    · exact absurd h0 (h.bytes.nonnull _ held)
    · exact h.free held hp
  | freedNull =>
    obtain ⟨-, ⟨-, rfl⟩ | ⟨-, hne, -⟩⟩ := apply_free_cases ha
    · exact h
    · exact absurd rfl hne
  | allocatedPages count a =>
    rcases apply_allocatePages_cases ha with ⟨ho, -⟩ | ⟨hp, c, e, he, ho, rfl⟩
    · cases ho
    · cases ho
      exact h.allocatePages hp he
  | notAllocatedPages count =>
    rcases apply_allocatePages_cases ha with ⟨-, rfl⟩ | ⟨-, c, e, -, ho, -⟩
    · exact h
    · cases ho
  | freedPages a count held =>
    obtain ⟨-, ⟨hd, -⟩ | ⟨hp, rfl⟩⟩ := apply_freePages_cases ha
    · rw [(h.anchored.nothing_held hd).2] at held
      exact absurd held List.not_mem_nil
    · exact h.freePages held hp

theorem Reached.sound {ops : List Operation} (h : Reached ops s) (hn : requests ops < 2 ^ 64) :
    s.Sound (requests ops) := by
  induction h with
  | dormant => exact sound_dormant
  | @step ops op s s' _ hs ih =>
    rw [requests_append] at hn ⊢
    exact (ih (Nat.lt_of_le_of_lt (Nat.le_add_right _ _) hn)).step hn hs

/-- Bytes lie below the byte cursor and pages above the page cursor. -/
theorem Sound.bytes_not_meets_pages (h : s.Sound n) {x y : Address × UInt64}
    (hx : x ∈ s.held.bytes) (hy : y ∈ s.held.pages) :
    ¬ (Block.ofBytes x).Meets (Block.ofPages y) := by
  intro hm
  have hb := (h.bytes.within x hx).2
  have hp := (h.pages.between y hy (Block.meets_iff.mp hm).2.1).1
  have hle := h.zoned.byte_le
  have hstop : (Block.ofBytes x).stop = x.1.toNat + x.2.toNat := rfl
  exact Block.not_meets_of_stop_le (by omega) hm

theorem Sound.apart (h : s.Sound n) : s.held.blocks.Pairwise fun x y => ¬ x.Meets y := by
  refine List.pairwise_append.mpr ⟨List.pairwise_map.mpr h.bytes.apart,
    List.pairwise_map.mpr h.pages.apart, fun x hx y hy => ?_⟩
  obtain ⟨x', hx', rfl⟩ := List.mem_map.mp hx
  obtain ⟨y', hy', rfl⟩ := List.mem_map.mp hy
  exact h.bytes_not_meets_pages hx' hy'

theorem Sound.inside (h : s.Sound n) {x : Block} (hx : x ∈ s.held.blocks) :
    s.memory.extent.start.toNat ≤ x.start ∧
      x.stop ≤ s.memory.extent.start.toNat + s.memory.extent.size.toNat := by
  have hbp := h.zoned.byte_le
  have hpc := h.zoned.page_le
  rcases List.mem_append.mp hx with hx | hx
  · obtain ⟨x', hx', rfl⟩ := List.mem_map.mp hx
    obtain ⟨hstart, hstop⟩ := h.bytes.within x' hx'
    exact ⟨hstart, Nat.le_trans hstop (Nat.le_trans hbp hpc)⟩
  · obtain ⟨x', hx', rfl⟩ := List.mem_map.mp hx
    exact h.pages.inside x' hx'

theorem Sound.within_region (h : s.Sound n) {x : Block} (hx : x ∈ s.held.blocks) :
    ∃ r, s.held.region = some r ∧ r.start.toNat ≤ x.start ∧ x.stop ≤ r.stop.toNat := by
  have hp : s.memory.phase ≠ .dormant := by
    intro hd
    obtain ⟨hb, hp⟩ := h.anchored.nothing_held hd
    simp [Holdings.blocks, hb, hp] at hx
  obtain ⟨r, hr, hstart, hstop⟩ := h.anchored.region_of_phase hp
  have := h.inside hx
  exact ⟨r, hr, hstart ▸ this.1, hstop ▸ this.2⟩

/-- Whatever callers hold after a run lies apart and inside the region that was activated. -/
theorem blocks_disjoint {ops : List Operation} (h : Reached ops s) (hn : requests ops < 2 ^ 64) :
    (s.held.blocks.Pairwise fun x y => ¬ x.Meets y) ∧
      ∀ x ∈ s.held.blocks,
        ∃ r, s.held.region = some r ∧ r.start.toNat ≤ x.start ∧ x.stop ≤ r.stop.toNat :=
  ⟨(h.sound hn).apart, fun _ hx => (h.sound hn).within_region hx⟩

/-- A boundary lowered below held pages, and blocks taken back in the order they were handed out. -/
theorem blocks_disjoint_lowered :
    let ops : List Operation := [.activate ⟨0x1000, 0x21000⟩, .allocatePages 1, .allocatePages 2,
      .extend ⟨0x1000, 0x1d800⟩, .allocate 100 64, .allocate 0 1, .freePages 0x20000 1,
      .allocatePages 1, .free 0x1000, .allocate 8 8]
    let s : Session := ⟨⟨⟨0x1000, 0x20000, 0x1070, 0x1c000, 2⟩, .active, 0x21000⟩,
      ⟨some ⟨0x1000, 0x21000⟩, [(0x1068, 8), (0x1064, 0)], [(0x1c000, 1), (0x1e000, 2)]⟩⟩
    Reached ops s ∧ requests ops < 2 ^ 64 ∧ (s.held.blocks.Pairwise fun x y => ¬ x.Meets y) ∧
      ∀ x ∈ s.held.blocks,
        ∃ r, s.held.region = some r ∧ r.start.toNat ≤ x.start ∧ x.stop ≤ r.stop.toNat := by
  intro ops s
  have h : Reached ops s := Reached.dormant.run? (by decide)
  exact ⟨h, by decide, blocks_disjoint h (by decide)⟩

end KernelCore.Session
