import KernelCore.Proofs.Boot.Boundary
import KernelCore.Proofs.Extent.Fitting
import Mathlib.Algebra.BigOperators.Ring.List
import Mathlib.Data.List.Nodup
import Mathlib.Data.List.Perm.Subperm
import Mathlib.Data.Nat.ModEq

/-! # What the page counters tell

The counters divide the room beside and below the page cursor by the page size and drop the rest. While the
cursor stays at multiples of the page size nothing of use is dropped: pages are handed out exactly when the
counter of available pages says so, and both counters move by as many pages as were asked for.
-/

namespace KernelCore

namespace Extent

open Word

variable {pageSize count : UInt64} {e e' : Extent pageSize} {a : Address}

theorem Zoned.toNat_usedPages (hz : e.Zoned) : e.usedPages.toNat =
    (e.start.toNat + e.size.toNat - e.pageCursor.toNat) / pageSize.toNat := by
  have hle : e.pageCursor ≤ e.ceiling := UInt64.le_iff_toNat_le.mpr (hz.toNat_ceiling ▸ hz.page_le)
  rw [usedPages, UInt64.toNat_div, UInt64.toNat_sub_of_le _ _ hle, hz.toNat_ceiling]

theorem Zoned.toNat_availablePages (hz : e.Zoned) : e.availablePages.toNat =
    (e.pageCursor.toNat - e.byteCursor.toNat) / pageSize.toNat := by
  have hle : e.byteCursor ≤ e.pageCursor := UInt64.le_iff_toNat_le.mpr hz.byte_le
  rw [availablePages, UInt64.toNat_div, UInt64.toNat_sub_of_le _ _ hle]

theorem Zoned.used_add_available_le (hz : e.Zoned) :
    e.usedPages.toNat + e.availablePages.toNat ≤ e.totalPages.toNat := by
  have hstart := hz.start_le
  have hbyte := hz.byte_le
  have hpage := hz.page_le
  rw [hz.toNat_usedPages, hz.toNat_availablePages, totalPages, UInt64.toNat_div]
  calc
    _ ≤ (e.start.toNat + e.size.toNat - e.pageCursor.toNat +
          (e.pageCursor.toNat - e.byteCursor.toNat)) / pageSize.toNat := Nat.div_add_div_le_add_div
    _ ≤ e.size.toNat / pageSize.toNat := Nat.div_le_div_right (by omega)

/-- Below an aligned cursor every available page can be had. -/
theorem Zoned.exists_allocPages_iff (hz : e.Zoned) (hp : isPowerOfTwo pageSize = true)
    (hc : e.pageCursor.toNat % pageSize.toNat = 0) :
    (∃ a e', e.allocPages count pageSize = .ok (a, e')) ↔ count ≤ e.availablePages := by
  rw [UInt64.le_iff_toNat_le, hz.toNat_availablePages,
    Nat.le_div_iff_mul_le (toNat_pos_of_isPowerOfTwo hp)]
  constructor
  · rintro ⟨a, e', h⟩
    obtain ⟨hlow, hstop, -⟩ := hz.allocPages_bounds h
    omega
  · intro hroom
    have hbyte := hz.byte_le
    have hdvd : pageSize.toNat ∣ e.pageCursor.toNat - count.toNat * pageSize.toNat :=
      Nat.dvd_sub (Nat.dvd_of_mod_eq_zero hc) (Nat.dvd_mul_left _ _)
    exact hz.exists_allocPages hp ⟨hdvd, by omega, by omega⟩

theorem Zoned.counters_of_allocPages (hz : e.Zoned) (hc : e.pageCursor.toNat % pageSize.toNat = 0)
    (h : e.allocPages count pageSize = .ok (a, e')) :
    e'.usedPages.toNat = e.usedPages.toNat + count.toNat ∧
      e'.availablePages.toNat + count.toNat = e.availablePages.toNat := by
  have hpos := toNat_pos_of_isPowerOfTwo (allocPages_eq_ok h).1
  have hz' := hz.allocPages h
  have hstop := hz.allocPages_stop hc h
  have hpage := hz.page_le
  obtain ⟨hlow, -, rfl⟩ := hz.allocPages_bounds h
  have hused : e.start.toNat + e.size.toNat - a.toNat =
      e.start.toNat + e.size.toNat - e.pageCursor.toNat + count.toNat * pageSize.toNat := by omega
  have havailable : e.pageCursor.toNat - e.byteCursor.toNat =
      a.toNat - e.byteCursor.toNat + count.toNat * pageSize.toNat := by omega
  rw [hz'.toNat_usedPages, hz.toNat_usedPages, hz'.toNat_availablePages, hz.toNat_availablePages]
  dsimp only
  rw [hused, havailable, Nat.add_mul_div_right _ _ hpos, Nat.add_mul_div_right _ _ hpos]
  exact ⟨rfl, rfl⟩

end Extent

/-- Blocks that lie apart between two addresses have no more bytes than there are between these. -/
theorem Block.sum_length_le {l : List Block} {low high : Nat}
    (hapart : l.Pairwise fun x y => ¬ x.Meets y)
    (hbetween : ∀ x ∈ l, 0 < x.length → low ≤ x.start ∧ x.stop ≤ high) :
    (l.map Block.length).sum ≤ high - low := by
  have hcovers (x : Block) (n : Nat) : n ∈ List.range' x.start x.length ↔ x.Covers n :=
    List.mem_range'_1
  -- Listed block by block no byte comes twice, and each lies between the two addresses.
  have hnodup : (l.flatMap fun x => List.range' x.start x.length).Nodup := by
    refine List.nodup_flatMap.mpr ⟨fun x _ => List.nodup_range', hapart.imp fun {x y} hxy n hx hy => ?_⟩
    exact hxy ⟨n, (hcovers x n).mp hx, (hcovers y n).mp hy⟩
  have hsub : (l.flatMap fun x => List.range' x.start x.length) ⊆ List.range' low (high - low) := by
    intro n hn
    obtain ⟨x, hx, hn⟩ := List.mem_flatMap.mp hn
    obtain ⟨hlow, hhigh⟩ := (hcovers x n).mp hn
    have := hbetween x hx (by unfold Block.stop at hhigh; omega)
    exact List.mem_range'_1.mpr (by omega)
  calc
    (l.map Block.length).sum = (l.flatMap fun x => List.range' x.start x.length).length := by
      simp [List.length_flatMap]
    _ ≤ (List.range' low (high - low)).length := (hnodup.subperm hsub).length_le
    _ = high - low := List.length_range'

/-- How many pages some blocks have. -/
def pageCount (pages : List (Address × UInt64)) : Nat := (pages.map fun x => x.2.toNat).sum

theorem pageCount_append (pages pages' : List (Address × UInt64)) :
    pageCount (pages ++ pages') = pageCount pages + pageCount pages' := by
  simp [pageCount]

theorem PagesHeld.pageCount_le {b : BootMemory} {pages : List (Address × UInt64)}
    (h : PagesHeld b pages) (hz : b.extent.Zoned) :
    pageCount pages ≤ b.extent.usedPages.toNat := by
  have hbytes : ((pages.map Block.ofPages).map Block.length).sum ≤
      b.pageBoundary.toNat - b.extent.pageCursor.toNat := by
    refine Block.sum_length_le (List.pairwise_map.mpr h.apart) fun x hx => ?_
    obtain ⟨y, hy, rfl⟩ := List.mem_map.mp hx
    exact h.between y hy
  have hcount : ((pages.map Block.ofPages).map Block.length).sum =
      pageCount pages * pageBytes.toNat := by
    rw [List.map_map, pageCount, ← List.sum_map_mul_right]
    rfl
  have hboundary := h.boundary_le
  rw [hz.toNat_usedPages, Nat.le_div_iff_mul_le (by decide)]
  omega

/-- The page cursor and the end of the extent are multiples of the page size. -/
structure BootMemory.PageAligned (b : BootMemory) : Prop where
  cursor : b.extent.pageCursor.toNat % pageBytes.toNat = 0
  ceiling : (b.extent.start.toNat + b.extent.size.toNat) % pageBytes.toNat = 0

namespace BootMemory

variable {b b' : BootMemory} {op : Operation} {o : Outcome}

theorem pageAligned_activate {r : Range} (hr : r.stop.toNat % pageBytes.toNat = 0)
    (h : b.activate r = .ok b') : b'.PageAligned := by
  obtain ⟨-, hle, -, rfl⟩ := activate_eq_ok_iff.mp h
  have hsize := Word.add?_eq_some_iff.mp (Range.add?_start_size hle)
  have hstop := Word.toNat_add_of_lt (hsize ▸ r.stop.toNat_lt)
  exact ⟨(congrArg (· % pageBytes.toNat) (hstop.trans hsize)).trans hr,
    (congrArg (· % pageBytes.toNat) hsize).trans hr⟩

theorem PageAligned.allocPages {count : UInt64} {a : Address} {e : Extent pageBytes}
    (h : b.PageAligned) (hz : b.extent.Zoned)
    (ha : b.extent.allocPages count pageBytes = .ok (a, e)) :
    PageAligned { b with extent := e } := by
  have hdvd := (hz.isGreatest_of_allocPages ha).1.1
  obtain ⟨-, -, rfl⟩ := hz.allocPages_bounds ha
  exact ⟨Nat.mod_eq_zero_of_dvd hdvd, h.ceiling⟩

theorem PageAligned.freePages (h : b.PageAligned) (hz : b.extent.Zoned) (first : Address)
    (count : UInt64) : PageAligned { b with extent := b.extent.freePages first count } := by
  unfold Extent.freePages
  split
  · rename_i hfirst
    refine ⟨?_, h.ceiling⟩
    dsimp only
    rw [hz.toNat_blockEnd, hfirst]
    rcases Nat.le_total (b.extent.pageCursor.toNat + count.toNat * pageBytes.toNat)
      (b.extent.start.toNat + b.extent.size.toNat) with hle | hle
    · rw [Nat.min_eq_left hle, Nat.add_mul_mod_self_right, h.cursor]
    · rw [Nat.min_eq_right hle, h.ceiling]
  · exact h

theorem PageAligned.apply (h : b.PageAligned) (hz : b.extent.Zoned) (hawake : b.phase ≠ .dormant)
    (hop : ∀ q : Range, op = .extend q → q.stop.toNat % pageBytes.toNat = 0)
    (ha : b.apply op = .ok (o, b')) : b'.PageAligned := by
  cases op with
  | activate r =>
    rcases apply_activate_cases ha with ⟨-, ha⟩ | ⟨-, rfl⟩
    · exact absurd (activate_eq_ok_iff.mp ha).1 hawake
    · exact h
  | extend r =>
    rcases apply_extend_cases ha with ⟨-, he⟩ | ⟨-, rfl⟩
    · obtain ⟨-, -, -, -, -, rfl⟩ := extend_eq_ok he
      exact ⟨hop r rfl, h.ceiling⟩
    · exact h
  | retire =>
    rcases apply_retire_cases ha with ⟨-, -, rfl⟩ | ⟨-, rfl⟩
    · exact ⟨h.cursor, h.ceiling⟩
    · exact h
  | allocate size align =>
    rcases apply_allocate_cases ha with ⟨-, rfl⟩ | ⟨-, a, e, he, -, rfl⟩
    · exact h
    · obtain ⟨next, -, -, -, rfl⟩ := Extent.alloc_bounds he
      exact ⟨h.cursor, h.ceiling⟩
  | free a =>
    obtain ⟨-, ⟨-, rfl⟩ | ⟨-, -, rfl⟩⟩ := apply_free_cases ha
    · exact h
    · exact ⟨h.cursor, h.ceiling⟩
  | allocatePages count =>
    rcases apply_allocatePages_cases ha with ⟨-, rfl⟩ | ⟨-, a, e, he, -, rfl⟩
    · exact h
    · exact h.allocPages hz he
  | freePages first count =>
    obtain ⟨-, ⟨-, rfl⟩ | ⟨-, rfl⟩⟩ := apply_freePages_cases ha
    · exact h
    · exact h.freePages hz first count

theorem exists_allocatePages_iff {count : UInt64} (hactive : b.phase = .active) :
    (∃ a c, b.allocatePages count = some (a, c)) ↔
      ∃ a e, b.extent.allocPages count pageBytes = .ok (a, e) := by
  constructor
  · rintro ⟨a, c, h⟩
    obtain ⟨-, e, he, -⟩ := allocatePages_eq_some h
    exact ⟨a, e, he⟩
  · rintro ⟨a, e, he⟩
    exact ⟨a, { b with extent := e }, by simp [allocatePages, hactive, he]⟩

end BootMemory

namespace Ledger

open BootMemory

variable {s s' : Ledger} {op : Operation} {ops : List Operation}

theorem memory_of_next? (hs : s.next? op = some s') :
    s'.memory = s.memory ∨ ∃ o, s.memory.apply op = .ok (o, s'.memory) := by
  unfold next? at hs
  split at hs
  · cases hs
    exact Or.inl rfl
  · cases hs
    exact Or.inr ⟨_, ‹_›⟩
  · split at hs
    · cases hs
      exact Or.inr ⟨_, ‹_›⟩
    · cases hs
  · cases hs
    exact Or.inr ⟨_, ‹_›⟩

theorem pageAligned_run (h : s.Balanced) (haligned : s.memory.PageAligned)
    (hops : ∀ q : Range, .extend q ∈ ops → q.stop.toNat % pageBytes.toNat = 0)
    (hs : s.run? ops = some s') : s'.memory.PageAligned := by
  induction ops generalizing s with
  | nil =>
    cases hs
    exact haligned
  | cons op ops ih =>
    obtain ⟨t, ht, hs⟩ := Option.bind_eq_some_iff.mp hs
    have halignedNext : t.memory.PageAligned := by
      rcases memory_of_next? ht with hm | ⟨o, ha⟩
      · exact hm ▸ haligned
      · exact haligned.apply h.zoned h.awake (fun q hq => hops q (hq ▸ List.mem_cons_self)) ha
    exact ih (h.step ht) halignedNext (fun q hq => hops q (List.mem_cons_of_mem op hq)) hs

/-- Pages are handed out exactly when enough are available, and both counters move by as many. -/
theorem page_counters_exact {r : Range} {b : BootMemory} (hb : dormant.activate r = .ok b)
    (hr : r.stop.toNat % pageBytes.toNat = 0)
    (hops : ∀ q : Range, .extend q ∈ ops → q.stop.toNat % pageBytes.toNat = 0)
    (hs : (fresh b).run? ops = some s) (hactive : s.memory.phase = .active) :
    let e := s.memory.extent
    (∀ n : UInt64, ((∃ a c, s.memory.allocatePages n = some (a, c)) ↔ n ≤ e.availablePages) ∧
        ∀ a c, s.memory.allocatePages n = some (a, c) →
          c.extent.usedPages.toNat = e.usedPages.toNat + n.toNat ∧
            c.extent.availablePages.toNat + n.toNat = e.availablePages.toNat) ∧
      pageCount s.out + pageCount s.stranded ≤ e.usedPages.toNat ∧
      e.usedPages.toNat + e.availablePages.toNat ≤ e.totalPages.toNat := by
  intro e
  have hbalanced : s.Balanced := (balanced_fresh hb).run hs
  have hcursor : e.pageCursor.toNat % pageBytes.toNat = 0 :=
    (pageAligned_run (balanced_fresh hb) (pageAligned_activate hr hb) hops hs).cursor
  refine ⟨fun n => ⟨?_, fun a c h => ?_⟩, ?_, hbalanced.zoned.used_add_available_le⟩
  · rw [exists_allocatePages_iff hactive, hbalanced.zoned.exists_allocPages_iff (by decide) hcursor]
  · obtain ⟨-, e', he, rfl⟩ := allocatePages_eq_some h
    exact hbalanced.zoned.counters_of_allocPages hcursor he
  · rw [← pageCount_append]
    exact hbalanced.pages.pageCount_le hbalanced.zoned

/-- Bytes that end inside a page, a lowered boundary, one block out and one stranded. -/
theorem page_counters_exact_lowered :
    let r : Range := ⟨0x100100, 0x120000⟩
    let ops : List Operation := [.allocatePages 2, .allocate 100 64, .extend ⟨0x100000, 0x11d000⟩,
      .allocatePages 1, .freePages 0x11e000 2, .allocatePages 3, .freePages 0x119000 3]
    let b : BootMemory := ⟨.spanning 0x100100 0x1ff00, .active, 0x120000⟩
    let s : Ledger := ⟨⟨⟨0x100100, 0x1ff00, 0x100164, 0x11c000, 1⟩, .active, 0x120000⟩,
      [(0x11c000, 1)], [(0x11e000, 2)]⟩
    dormant.activate r = .ok b ∧ r.stop.toNat % pageBytes.toNat = 0 ∧
      (∀ q : Range, .extend q ∈ ops → q.stop.toNat % pageBytes.toNat = 0) ∧
      (fresh b).run? ops = some s ∧ s.memory.phase = .active ∧
      s.memory.extent.availablePages = 27 ∧
      (∃ a c, s.memory.allocatePages 27 = some (a, c)) ∧
      ¬ (∃ a c, s.memory.allocatePages 28 = some (a, c)) ∧
      3 ≤ s.memory.extent.usedPages.toNat := by
  intro r ops b s
  have hb : dormant.activate r = .ok b :=
    activate_eq_ok_iff.mpr ⟨rfl, by decide, by decide, by decide +kernel⟩
  have hr : r.stop.toNat % pageBytes.toNat = 0 := by decide
  have hops : ∀ q : Range, .extend q ∈ ops → q.stop.toNat % pageBytes.toNat = 0 := by
    intro q hq
    obtain rfl : q = ⟨0x100000, 0x11d000⟩ := by simpa [ops] using hq
    decide
  have hs : (fresh b).run? ops = some s := by decide +kernel
  have havailable : s.memory.extent.availablePages = 27 := by decide +kernel
  obtain ⟨hexact, hused, -⟩ := page_counters_exact hb hr hops hs rfl
  refine ⟨hb, hr, hops, hs, rfl, havailable, (hexact 27).1.mpr ?_, mt (hexact 28).1.mp ?_, hused⟩
  · exact havailable ▸ UInt64.le_refl _
  · rw [show s.memory.extent.availablePages = 27 from havailable]
    decide

end Ledger

end KernelCore
