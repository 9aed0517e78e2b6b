import KernelCore.Proofs.Boot.Boundary
import KernelCore.Proofs.Boot.Lifecycle

/-! # Pages given back in turn

Callers that give every block of pages back before any block that they were handed earlier lose nothing.
Below an aligned cursor the blocks that are out lie one on top of the other, without gaps, and each block
that is given back is the lowest one.
-/

namespace KernelCore

open BootMemory

/-- Blocks of pages that lie one on top of the other from one address up to another, the lowest first. -/
inductive Piled : Nat → List (Address × UInt64) → Nat → Prop
  | nil (low : Nat) : Piled low [] low
  | cons {x : Address × UInt64} {xs : List (Address × UInt64)} {top : Nat}
      (above : Piled (Block.ofPages x).stop xs top) : Piled (Block.ofPages x).start (x :: xs) top

theorem BootMemory.exists_extend_iff {b : BootMemory} {r : Range} :
    (∃ c, b.extend r = .ok c) ↔ b.phase = .active ∧ r.start ≤ r.stop ∧
      (b.pagesInUse = true → r.stop ≤ b.extent.pageCursor) ∧ r.stop ≤ b.extent.ceiling ∧
      b.extent.byteCursor ≤ r.stop := by
  constructor
  · rintro ⟨c, hc⟩
    obtain ⟨hp, hr, hu, hceiling, hbyte, -⟩ := extend_eq_ok hc
    exact ⟨hp, hr, hu, hceiling, hbyte⟩
  · rintro ⟨hp, hr, hu, hceiling, hbyte⟩
    have hupright : r.inverted = false := by simpa [Range.inverted] using hr
    have hfree : ¬ (b.pagesInUse = true ∧ b.extent.pageCursor < r.stop) :=
      fun h => UInt64.not_lt.mpr (hu h.1) h.2
    have hmoved : b.extent.movePages? r.start r.size =
        some { b.extent with pageCursor := r.stop } :=
      Extent.movePages?_eq_some_iff.mpr ⟨r.stop, Range.add?_start_size hr, hceiling, hbyte, rfl⟩
    rw [extend, if_neg (not_not_intro hp), hupright, if_neg Bool.false_ne_true, if_neg hfree, hmoved]
    exact ⟨_, rfl⟩

namespace Piled

variable {low top : Nat} {x : Address × UInt64} {xs : List (Address × UInt64)}

theorem eq_of_nil (h : Piled low [] top) : low = top := by
  cases h
  rfl

theorem lowest (h : Piled low (x :: xs) top) :
    low = (Block.ofPages x).start ∧ Piled (Block.ofPages x).stop xs top := by
  cases h with
  | cons above => exact ⟨rfl, above⟩

theorem le (h : Piled low xs top) : low ≤ top := by
  induction h with
  | nil => exact Nat.le_refl _
  | cons _ ih => exact Nat.le_trans (Nat.le_add_right _ _) ih

theorem mod_eq (h : Piled low xs top) : low % pageBytes.toNat = top % pageBytes.toNat := by
  induction h with
  | nil => rfl
  | @cons x xs top _ ih =>
    rw [← ih]
    exact (Nat.add_mul_mod_self_right _ _ _).symm

end Piled

/-- A boot memory and the blocks of pages that it handed out since some moment, the latest first. -/
structure PageStack where
  memory : BootMemory
  blocks : List (Address × UInt64)
  deriving DecidableEq, Repr

namespace PageStack

def fresh (b : BootMemory) : PageStack := ⟨b, []⟩

/-- The stack after an operation that gives back no pages but the latest block. A panic changes nothing. -/
def next? (s : PageStack) (op : Operation) : Option PageStack :=
  match op, s.memory.apply op with
  | .allocatePages count, .ok (.pointer (some a), b) => some ⟨b, (a, count) :: s.blocks⟩
  | .freePages a count, .ok (_, b) =>
      if s.blocks.head? = some (a, count) then some ⟨b, s.blocks.tail⟩ else none
  | .allocate .., .ok (_, b) => some { s with memory := b }
  | .allocate .., .error _ => some s
  | .free _, .ok (_, b) => some { s with memory := b }
  | _, _ => none

def run? (s : PageStack) (ops : List Operation) : Option PageStack := ops.foldlM next? s

variable {b : BootMemory} {s t : PageStack} {op : Operation} {ops before after : List Operation}
  {a : Address} {count : UInt64} {rest : List (Address × UInt64)}

/-- The blocks that are out fill the room between the page cursor and the place where it was. -/
structure Rests (b : BootMemory) (s : PageStack) : Prop where
  zoned : s.memory.extent.Zoned
  phase_eq : s.memory.phase = b.phase
  boundary_eq : s.memory.pageBoundary = b.pageBoundary
  start_eq : s.memory.extent.start = b.extent.start
  size_eq : s.memory.extent.size = b.extent.size
  piled : Piled s.memory.extent.pageCursor.toNat s.blocks b.extent.pageCursor.toNat

theorem rests_fresh (hz : b.extent.Zoned) : Rests b (fresh b) :=
  ⟨hz, rfl, rfl, rfl, rfl, .nil _⟩

theorem Rests.congr {c : BootMemory} (h : Rests b s) (hz : c.extent.Zoned)
    (hp : c.phase = s.memory.phase) (hb : c.pageBoundary = s.memory.pageBoundary)
    (hs : c.extent.start = s.memory.extent.start) (hn : c.extent.size = s.memory.extent.size)
    (hc : c.extent.pageCursor = s.memory.extent.pageCursor) : Rests b { s with memory := c } :=
  ⟨hz, hp.trans h.phase_eq, hb.trans h.boundary_eq, hs.trans h.start_eq, hn.trans h.size_eq,
    hc ▸ h.piled⟩

theorem Rests.allocatePages {e : Extent pageBytes} (h : Rests b s)
    (haligned : b.extent.pageCursor.toNat % pageBytes.toNat = 0)
    (ha : s.memory.extent.allocPages count pageBytes = .ok (a, e)) :
    Rests b ⟨{ s.memory with extent := e }, (a, count) :: s.blocks⟩ := by
  have hz := h.zoned.allocPages ha
  have hstop : (Block.ofPages (a, count)).stop = s.memory.extent.pageCursor.toNat :=
    h.zoned.allocPages_stop (h.piled.mod_eq.trans haligned) ha
  have hpiled : Piled (Block.ofPages (a, count)).start ((a, count) :: s.blocks)
      b.extent.pageCursor.toNat := .cons (hstop ▸ h.piled)
  obtain ⟨-, -, rfl⟩ := h.zoned.allocPages_bounds ha
  exact ⟨hz, h.phase_eq, h.boundary_eq, h.start_eq, h.size_eq, hpiled⟩

theorem Rests.latest (h : Rests b s) (hz : b.extent.Zoned) (hblocks : s.blocks = (a, count) :: rest) :
    a = s.memory.extent.pageCursor ∧
      (s.memory.extent.freePages a count).pageCursor.toNat = (Block.ofPages (a, count)).stop ∧
      Piled (Block.ofPages (a, count)).stop rest b.extent.pageCursor.toNat := by
  have hpiled := h.piled
  rw [hblocks] at hpiled
  obtain ⟨hlow, habove⟩ := hpiled.lowest
  have hcursor : a = s.memory.extent.pageCursor := UInt64.toNat_inj.mp hlow.symm
  refine ⟨hcursor, ?_, habove⟩
  rw [Extent.freePages, if_pos hcursor, h.zoned.toNat_blockEnd, h.start_eq, h.size_eq]
  exact Nat.min_eq_left (Nat.le_trans habove.le hz.page_le)

theorem Rests.freePages (h : Rests b s) (hz : b.extent.Zoned)
    (hblocks : s.blocks = (a, count) :: rest) :
    Rests b ⟨{ s.memory with extent := s.memory.extent.freePages a count }, rest⟩ := by
  have hz' := h.zoned.freePages a count
  obtain ⟨-, hcursor, hrest⟩ := h.latest hz hblocks
  obtain ⟨c, he⟩ := Extent.exists_freePages_eq s.memory.extent a count
  rw [he] at hz' hcursor ⊢
  exact ⟨hz', h.phase_eq, h.boundary_eq, h.start_eq, h.size_eq, hcursor ▸ hrest⟩

theorem Rests.step (h : Rests b s) (hz : b.extent.Zoned) (hactive : b.phase = .active)
    (haligned : b.extent.pageCursor.toNat % pageBytes.toNat = 0) (hs : s.next? op = some t) :
    Rests b t := by
  have hawake : s.memory.phase ≠ .dormant := by
    rw [h.phase_eq, hactive]
    exact nofun
  unfold next? at hs
  -- Handed out, given back, bytes asked for with and without a panic, bytes given back, anything else.
  split at hs
  · rename_i count a c hc
    cases hs
    rcases apply_allocatePages_cases hc with ⟨ho, -⟩ | ⟨-, a', e, he, ho, rfl⟩
    · cases ho
    · cases ho
      exact h.allocatePages haligned he
  · rename_i a count o c hc
    split at hs
    · rename_i hhead
      cases hs
      obtain ⟨rest, hrest⟩ := List.head?_eq_some_iff.mp hhead
      obtain ⟨-, ⟨hd, -⟩ | ⟨-, rfl⟩⟩ := apply_freePages_cases hc
      · exact absurd hd hawake
      · rw [hrest, List.tail_cons]
        exact h.freePages hz hrest
    · cases hs
  · rename_i size align o c hc
    cases hs
    have hzoned := zoned_apply h.zoned hc
    rcases apply_allocate_cases hc with ⟨-, rfl⟩ | ⟨-, a, e, he, -, rfl⟩
    · exact h
    · obtain ⟨next, -, -, -, rfl⟩ := Extent.alloc_bounds he
      exact h.congr hzoned rfl rfl rfl rfl rfl
  · cases hs
    exact h
  · rename_i a o c hc
    cases hs
    have hzoned := zoned_apply h.zoned hc
    obtain ⟨-, ⟨-, rfl⟩ | ⟨-, -, rfl⟩⟩ := apply_free_cases hc
    · exact h
    · exact h.congr hzoned rfl rfl rfl rfl rfl
  · cases hs

theorem Rests.run (h : Rests b s) (hz : b.extent.Zoned) (hactive : b.phase = .active)
    (haligned : b.extent.pageCursor.toNat % pageBytes.toNat = 0) (hs : s.run? ops = some t) :
    Rests b t := by
  induction ops generalizing s with
  | nil =>
    cases hs
    exact h
  | cons op ops ih =>
    obtain ⟨u, hu, hs⟩ := Option.bind_eq_some_iff.mp hs
    exact ih (h.step hz hactive haligned hu) hs

theorem blocks_of_next? (hs : s.next? (.freePages a count) = some t) :
    ∃ rest, s.blocks = (a, count) :: rest := by
  simp only [next?, apply, Option.ite_none_right_eq_some] at hs
  exact List.head?_eq_some_iff.mp hs.1

/-- Just before a block is given back it is the latest one. -/
theorem exists_blocks_of_run? (hs : s.run? (before ++ .freePages a count :: after) = some t) :
    ∃ u rest, s.run? before = some u ∧ u.blocks = (a, count) :: rest := by
  rw [run?, List.foldlM_append] at hs
  obtain ⟨u, hu, hs⟩ := Option.bind_eq_some_iff.mp hs
  rw [List.foldlM_cons] at hs
  obtain ⟨v, hv, -⟩ := Option.bind_eq_some_iff.mp hs
  obtain ⟨rest, hrest⟩ := blocks_of_next? hv
  exact ⟨u, rest, hu, hrest⟩

/-- Pages given back in turn are all taken back, and the cursor is where it was. -/
theorem nested_pages_reclaimed {history : List Operation} (hb : dormant.run history = b)
    (hactive : b.phase = .active) (haligned : b.extent.pageCursor.toNat % pageBytes.toNat = 0)
    (hs : (fresh b).run? ops = some s) (hblocks : s.blocks = []) :
    (∀ before a count after, ops = before ++ .freePages a count :: after →
        ∃ t, (fresh b).run? before = some t ∧ t.memory.extent.pageCursor = a ∧
          (t.memory.freePages a count).extent.pageCursor.toNat =
            a.toNat + count.toNat * pageBytes.toNat) ∧
      s.memory.extent.pageCursor = b.extent.pageCursor ∧
      (b.extent.pageCursor = b.pageBoundary → ∀ r : Range, r.start ≤ r.stop →
        s.memory.extent.byteCursor ≤ r.stop → r.stop ≤ s.memory.extent.ceiling →
        ∃ c, s.memory.extend r = .ok c) := by
  have hz : b.extent.Zoned := hb ▸ zoned_run Extent.zoned_empty history
  have hrests {ops : List Operation} {t : PageStack} (ht : (fresh b).run? ops = some t) : Rests b t :=
    (rests_fresh hz).run hz hactive haligned ht
  have hcursor : s.memory.extent.pageCursor = b.extent.pageCursor := by
    have hpiled := (hrests hs).piled
    rw [hblocks] at hpiled
    exact UInt64.toNat_inj.mp hpiled.eq_of_nil
  refine ⟨?_, hcursor, fun hboundary r hr hbyte hceiling => ?_⟩
  · rintro before a count after rfl
    obtain ⟨t, rest, ht, hrest⟩ := exists_blocks_of_run? hs
    obtain ⟨hlow, hstop, -⟩ := (hrests ht).latest hz hrest
    have hawake : t.memory.phase ≠ .dormant := by simp [(hrests ht).phase_eq, hactive]
    refine ⟨t, ht, hlow.symm, ?_⟩
    rw [BootMemory.freePages, if_neg hawake]
    exact hstop
  · have hunused : ¬ s.memory.pagesInUse = true := by
      rw [pagesInUse_eq_true_iff, hcursor, (hrests hs).boundary_eq, hboundary]
      exact UInt64.lt_irrefl _
    exact exists_extend_iff.mpr ⟨(hrests hs).phase_eq.trans hactive, hr, fun h => absurd h hunused,
      hceiling, hbyte⟩

/-- Blocks inside blocks, one of no pages among them, with bytes in between. -/
theorem nested_pages_reclaimed_twice_deep :
    let b : BootMemory := ⟨⟨0x100100, 0x1ff00, 0x100164, 0x120000, 1⟩, .active, 0x120000⟩
    let ops : List Operation := [.allocatePages 2, .allocate 24 8, .allocatePages 0, .allocatePages 3,
      .free 0x100168, .freePages 0x11b000 3, .freePages 0x11e000 0, .allocate 8 3, .free 16,
      .allocatePages 1, .freePages 0x11d000 1, .allocate 5 1, .freePages 0x11e000 2]
    let s : PageStack := ⟨⟨⟨0x100100, 0x1ff00, 0x100105, 0x120000, 1⟩, .active, 0x120000⟩, []⟩
    dormant.run [.activate ⟨0x100100, 0x120000⟩, .allocate 100 64, .allocatePages 1,
        .freePages 0x11f000 1] = b ∧
      b.phase = .active ∧ b.extent.pageCursor.toNat % pageBytes.toNat = 0 ∧
      (fresh b).run? ops = some s ∧ s.blocks = [] ∧
      s.memory.extent.pageCursor = b.extent.pageCursor ∧
      ∃ c, s.memory.extend ⟨0x118000, 0x118800⟩ = .ok c := by
  intro b ops s
  have hb : dormant.run [.activate ⟨0x100100, 0x120000⟩, .allocate 100 64, .allocatePages 1,
      .freePages 0x11f000 1] = b := by decide +kernel
  have haligned : b.extent.pageCursor.toNat % pageBytes.toNat = 0 := by decide
  have hs : (fresh b).run? ops = some s := by decide +kernel
  obtain ⟨-, hcursor, hextend⟩ := nested_pages_reclaimed hb rfl haligned hs rfl
  exact ⟨hb, rfl, haligned, hs, rfl, hcursor,
    hextend rfl ⟨0x118000, 0x118800⟩ (by decide) (by decide) (by decide)⟩

end PageStack

end KernelCore
