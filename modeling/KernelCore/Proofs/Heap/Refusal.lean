import KernelCore.Kernel.World
import KernelCore.Proofs.Boot.Disjoint
import KernelCore.Proofs.Boot.Lifecycle
import KernelCore.Proofs.Extent.Reset
import KernelCore.Proofs.Heap.Routing

/-! # What no pointer means

A request for bytes that is answered with no pointer left the memory as it was, away from address 0, so
that callers who give back all pointers that they got have the byte zone start over. Memory that was
activated at address 0 hands out its first bytes there, and that address reads as no pointer.
-/

namespace KernelCore

namespace BootMemory

variable {b c : BootMemory} {size align : UInt64}

/-- Where no pointer is answered nothing has happened, or bytes were placed at address 0. -/
theorem allocate_none_cases (hz : b.phase = .active → b.extent.Zoned)
    (h : b.allocate size align = .ok (none, c)) :
    c = b ∨ b.phase = .active ∧ b.extent.start = 0 ∧ b.extent.byteCursor = 0 ∧
      c = { b with extent := { b.extent with byteCursor := size, live := b.extent.live + 1 } } := by
  rcases allocate_eq_ok h with ⟨-, hsame⟩ | ⟨hp, a, e, he, hnone, rfl⟩
  · exact Or.inl hsame
  · obtain ⟨next, hlow, hnext, -, rfl⟩ := Extent.alloc_bounds he
    obtain rfl : a = 0 := by simpa [pointer?] using hnone.symm
    have hstart := (hz hp).start_le
    rw [UInt64.toNat_zero] at hlow hnext
    have hcursor : b.extent.byteCursor = 0 :=
      UInt64.toNat_inj.mp (by rw [UInt64.toNat_zero]; omega)
    have hzero : b.extent.start = 0 := UInt64.toNat_inj.mp (by rw [UInt64.toNat_zero]; omega)
    obtain rfl : size = next := UInt64.toNat_inj.mp (by omega)
    exact Or.inr ⟨hp, hzero, hcursor, rfl⟩

theorem eq_of_allocate_none (hb : b.phase = .active → b.extent.start ≠ 0 ∧ b.extent.Zoned)
    (h : b.allocate size align = .ok (none, c)) : c = b := by
  rcases allocate_none_cases (fun hp => (hb hp).2) h with hsame | ⟨hp, hzero, -, -⟩
  · exact hsame
  · exact absurd hzero (hb hp).1

theorem allocate_of_apply {o : Option Address}
    (h : b.apply (.allocate size align) = .ok (.pointer o, c)) :
    b.allocate size align = .ok (o, c) := by
  unfold apply at h
  cases ha : b.allocate size align with
  | error p => simp [ha, Except.map] at h
  | ok x => simpa [ha, Except.map, Prod.ext_iff] using h

end BootMemory

namespace Session

open BootMemory

variable {s s' : Session} {op : Operation} {ops : List Operation} {n : Nat}

/-- No pointer is live but those that callers hold, and the byte cursor is at the start when there is
none. -/
structure Tallied (s : Session) : Prop where
  live_eq : s.memory.extent.live.toNat = s.held.bytes.length
  rewound : s.memory.extent.live = 0 → s.memory.extent.byteCursor = s.memory.extent.start

/-- The region of a session, once there is one, lies away from address 0. -/
def OffZero (s : Session) : Prop := ∀ r, s.held.region = some r → r.start ≠ 0

theorem tallied_dormant : dormant.Tallied := ⟨rfl, fun _ => rfl⟩

theorem Tallied.congr (h : s.Tallied) (hs : s'.memory.extent.start = s.memory.extent.start)
    (hc : s'.memory.extent.byteCursor = s.memory.extent.byteCursor)
    (hl : s'.memory.extent.live = s.memory.extent.live) (hb : s'.held.bytes = s.held.bytes) :
    s'.Tallied :=
  ⟨by rw [hl, hb, h.live_eq], fun h0 => by rw [hc, hs, h.rewound (hl ▸ h0)]⟩

theorem region_of_step (h : s.Sound n) (hs : s.Step op s') {r : Range}
    (hr : s.held.region = some r) : s'.held.region = some r := by
  obtain ⟨b', held'⟩ := s'
  obtain ⟨o, ha, hx⟩ := hs
  cases hx with
  | activated q =>
    have hanchored := h.anchored
    rw [Anchored, hr] at hanchored
    rcases apply_activate_cases ha with ⟨-, ha⟩ | ⟨ho, -⟩
    · exact absurd (activate_eq_ok_iff.mp ha).1 hanchored.1
    · cases ho
  | _ => exact hr

/-- Callers that are given a pointer hold it, and those that are given none have changed nothing. -/
theorem Tallied.step (ht : s.Tallied) (h : s.Sound n) (h0 : s.OffZero)
    (hn : n + requests [op] < 2 ^ 64) (hs : s.Step op s') : s'.Tallied := by
  obtain ⟨b', held'⟩ := s'
  obtain ⟨o, ha, hx⟩ := hs
  dsimp only at ha hx
  have hle := h.live_le
  have hlive := ht.live_eq
  cases hx with
  | activated r =>
    rcases apply_activate_cases ha with ⟨-, ha⟩ | ⟨ho, -⟩
    · obtain ⟨hd, -, -, rfl⟩ := activate_eq_ok_iff.mp ha
      have hnone := (h.anchored.nothing_held hd).1
      exact ⟨by dsimp only; rw [hnone]; rfl, fun _ => rfl⟩
    · cases ho
  | notActivated r =>
    rcases apply_activate_cases ha with ⟨ho, -⟩ | ⟨-, rfl⟩
    · cases ho
    · exact ht
  | extended r o =>
    rcases apply_extend_cases ha with ⟨-, he⟩ | ⟨-, rfl⟩
    · obtain ⟨-, -, -, -, -, rfl⟩ := extend_eq_ok he
      exact ht.congr rfl rfl rfl rfl
    · exact ht
  | retired o =>
    rcases apply_retire_cases ha with ⟨-, -, rfl⟩ | ⟨-, rfl⟩
    · exact ht.congr rfl rfl rfl rfl
    · exact ht
  | allocated size align a =>
    rcases apply_allocate_cases ha with ⟨ho, -⟩ | ⟨-, c, e, he, -, rfl⟩
    · cases ho
    · obtain ⟨next, -, -, -, rfl⟩ := Extent.alloc_bounds he
      have hroom : s.memory.extent.live.toNat + 1 < 2 ^ 64 := by
        have : requests [.allocate size align] = 1 := rfl
        omega
      refine ⟨?_, fun hzero => absurd hzero (Extent.live_add_one_ne_zero hroom)⟩
      dsimp only
      rw [Extent.toNat_live_add_one hroom, List.length_cons, hlive]
  | notAllocated size align =>
    have hactive : s.memory.phase = .active → s.memory.extent.start ≠ 0 ∧ s.memory.extent.Zoned := by
      intro hp
      obtain ⟨r, hr, hstart, -⟩ := h.anchored.region_of_phase (by simp [hp])
      exact ⟨hstart ▸ h0 r hr, h.zoned⟩
    obtain rfl := eq_of_allocate_none hactive (allocate_of_apply ha)
    exact ht
  | freed a size held =>
    obtain ⟨-, ⟨hd | hzero, -⟩ | ⟨-, -, rfl⟩⟩ := apply_free_cases ha
    · rw [(h.anchored.nothing_held hd).1] at held
      exact absurd held List.not_mem_nil
    · exact absurd hzero (h.bytes.nonnull _ held)
    · refine ⟨?_, Extent.byteCursor_release_of_live⟩
      dsimp only
      rw [Extent.toNat_live_release, List.length_erase_of_mem held, hlive]
  | freedNull =>
    obtain ⟨-, ⟨-, rfl⟩ | ⟨-, hne, -⟩⟩ := apply_free_cases ha
    · exact ht
    · exact absurd rfl hne
  | allocatedPages count a =>
    rcases apply_allocatePages_cases ha with ⟨ho, -⟩ | ⟨-, c, e, he, -, rfl⟩
    · cases ho
    · obtain ⟨-, -, rfl⟩ := h.zoned.allocPages_bounds he
      exact ht.congr rfl rfl rfl rfl
  | notAllocatedPages count =>
    rcases apply_allocatePages_cases ha with ⟨-, rfl⟩ | ⟨-, c, e, -, ho, -⟩
    · exact ht
    · cases ho
  | freedPages a count held =>
    obtain ⟨-, ⟨-, rfl⟩ | ⟨-, rfl⟩⟩ := apply_freePages_cases ha
    · exact ht.congr rfl rfl rfl rfl
    · obtain ⟨c, he⟩ := Extent.exists_freePages_eq s.memory.extent a count
      rw [he]
      exact ht.congr rfl rfl rfl rfl

theorem Reached.tallied (h : Reached ops s) (hn : requests ops < 2 ^ 64) (h0 : s.OffZero) :
    s.Tallied := by
  induction h with
  | dormant => exact tallied_dormant
  | @step ops op s s' hr hs ih =>
    rw [requests_append] at hn
    have hops : requests ops < 2 ^ 64 := by omega
    have hsound := hr.sound hops
    have hs0 : s.OffZero := fun r hreg => h0 r (region_of_step hsound hs hreg)
    exact (ih hops hs0).step hsound hs0 hn hs

end Session

namespace Kernel

open BootMemory

variable {β : Type} [HeapBackend β] {m : Machine (Kernel β)} {id : MemoryId} {size align : UInt64}

/-- Away from address 0, a request that is answered with no pointer changes nothing. -/
theorem unchanged_of_null {r : Range} {b : BootMemory} {since : List Operation}
    (hb : dormant.activate r = .ok b) (hm : m.state.getMemory id = b.run since)
    (ha : m.state.attached = some id) (hi : m.state.installed = none) (size : UInt64)
    (halign : align.toNat.isPowerOfTwo) :
    ∃ p c, (m.state.getMemory id).allocate size align = .ok (p, c) ∧
      allocate size align m = .ok p (onState m (m.state.setMemory id c)) ∧
      (p = none → r.start ≠ 0 → c = m.state.getMemory id) ∧
      (p = none → c ≠ m.state.getMemory id → r.start = 0 ∧
        (m.state.getMemory id).extent.byteCursor = 0 ∧ c.extent.byteCursor = size ∧
        c.extent.live = (m.state.getMemory id).extent.live + 1) ∧
      (r.start ≠ 0 → ∀ ops held, Session.Reached ops ⟨c, held⟩ → Session.requests ops < 2 ^ 64 →
        c.extent.live.toNat = held.bytes.length ∧
          (held.bytes = [] → c.extent.byteCursor = c.extent.start)) := by
  obtain ⟨p, c, hc⟩ := (m.state.getMemory id).exists_allocate size halign
  have hzoned : (m.state.getMemory id).extent.Zoned := hm ▸ zoned_run (zoned_activate hb) since
  have hawake : b.phase ≠ .dormant ∧ b.extent.start = r.start := by
    rw [(activate_eq_ok_iff.mp hb).2.2.2]
    exact ⟨nofun, rfl⟩
  have hages := Ages.run b since
  have hstart : (m.state.getMemory id).extent.start = r.start := by
    rw [hm, hages.start_eq hawake.1, hawake.2]
  refine ⟨p, c, hc, allocate_of_attached hi ha hc, ?_, ?_, ?_⟩
  · rintro rfl hne
    exact eq_of_allocate_none (fun _ => ⟨hstart ▸ hne, hzoned⟩) hc
  · rintro rfl hchanged
    rcases allocate_none_cases (fun _ => hzoned) hc with hsame | ⟨-, hzero, hcursor, rfl⟩
    · exact absurd hsame hchanged
    · exact ⟨hstart ▸ hzero, hcursor, rfl, rfl⟩
  · intro hne ops held hreached hrequests
    have hop : (m.state.getMemory id).apply (.allocate size align) = .ok (.pointer p, c) := by
      rw [BootMemory.apply, hc]
      rfl
    have hlater : b.Ages c := (hm ▸ hages).trans (Ages.apply hop)
    have hanchored := (hreached.sound hrequests).anchored
    have htallied : Session.Tallied ⟨c, held⟩ := by
      refine hreached.tallied hrequests fun q hq => ?_
      obtain ⟨q', hq', hqstart, -⟩ := hanchored.region_of_phase (hlater.awake hawake.1)
      obtain rfl := Option.some.inj (hq.symm.trans hq')
      rw [← hqstart, hlater.start_eq hawake.1, hawake.2]
      exact hne
    refine ⟨htallied.live_eq, fun hnone => htallied.rewound (UInt64.toNat_inj.mp ?_)⟩
    rw [htallied.live_eq, hnone]
    rfl

/-- One pointer is out, and more is asked for than there is. -/
theorem unchanged_of_null_exhausted :
    let r : Range := ⟨0x100000000000, 0x100000010000⟩
    let m := ((World.initial .important 42 (.empty 0x40000000 0x100000)).run
      [.memory 0 (.activate r), .attach 0, .allocate 24 8]).2.machine
    r.start ≠ 0 ∧
      allocate 0x10000 8 m = .ok none (onState m (m.state.setMemory 0 (m.state.getMemory 0))) ∧
      (m.state.getMemory 0).extent.live.toNat = [(r.start, (24 : UInt64))].length := by
  intro r m
  have hactive : dormant.activate r = .ok ⟨.spanning r.start r.size, .active, r.stop⟩ :=
    activate_eq_ok_iff.mpr ⟨rfl, by decide, by decide, rfl⟩
  have hm : m.state.getMemory 0 =
      BootMemory.run ⟨.spanning r.start r.size, .active, r.stop⟩ [.allocate 24 8] := by
    decide +kernel
  have ha : m.state.attached = some 0 := by decide +kernel
  have hi : m.state.installed = none := by decide +kernel
  have halign : (8 : UInt64).toNat.isPowerOfTwo := by decide
  have hanswer : Action.answers (allocate 0x10000 8) m none = true := by decide +kernel
  have hreached : Session.Reached [.activate r, .allocate 24 8]
      ⟨m.state.getMemory 0, ⟨some r, [(r.start, 24)], []⟩⟩ :=
    Session.Reached.dormant.run? (by decide +kernel)
  have hnone (p : Option Address) (t : Machine (Kernel ArenaHeap))
      (h : allocate 0x10000 8 m = .ok p t) : p = none := by
    rw [Action.run_of_answers hanswer] at h
    cases h
    rfl
  obtain ⟨p, c, -, hallocate, hsame, -, htallied⟩ :=
    unchanged_of_null hactive hm ha hi 0x10000 halign
  obtain rfl := hnone p _ hallocate
  rw [hsame rfl (by decide)] at hallocate htallied
  exact ⟨by decide, hallocate, (htallied (by decide) _ _ hreached (by decide)).1⟩

/-- A memory at address 0 answers its first request with no pointer, and takes the bytes. -/
theorem null_at_address_zero :
    let r : Range := ⟨0, 0x10000⟩
    let m := ((World.initial .important 42 (.empty 0x40000000 0x100000)).run
      [.memory 0 (.activate r), .attach 0]).2.machine
    let t := (allocate 16 8).after m
    m.state.installed = none ∧ dormant.activate r = .ok (m.state.getMemory 0) ∧
      allocate 16 8 m = .ok none t ∧ (m.state.getMemory 0).extent.live = 0 ∧
      (t.state.getMemory 0).extent.live = 1 ∧ (t.state.getMemory 0).extent.byteCursor = 16 ∧
      free 0 t = .ok () t := by
  intro r m t
  have hanswer : Action.answers (allocate 16 8) m none = true := by decide +kernel
  have hactive : dormant.activate r = .ok (m.state.getMemory 0) :=
    activate_eq_ok_iff.mpr ⟨rfl, by decide, by decide, by decide +kernel⟩
  exact ⟨by decide +kernel, hactive, Action.run_of_answers hanswer, by decide +kernel,
    by decide +kernel, by decide +kernel, free_zero t⟩

end Kernel

end KernelCore
