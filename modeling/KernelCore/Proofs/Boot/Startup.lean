import KernelCore.Boot.Table
import KernelCore.Proofs.Boot.Course
import KernelCore.Proofs.Heap.Routing

/-! # What the kernel's boot comes to

Boot gets its memory on the first region, or it panics. Once it has the memory, the only thing that can
still fail is the move of the page boundary to the end of the second region.
-/

namespace KernelCore

open KernelCore.Action

variable {β : Type} {id : MemoryId} {k : Kernel β} {m : Machine (Kernel β)} {first second : Range}

namespace BootMemory

variable {b b' : BootMemory}

/-- A memory on a region of which nothing below a boundary was handed out. -/
def onRegion (r : Range) (boundary : Address) : BootMemory :=
  ⟨⟨r.start, r.size, r.start, boundary, 0⟩, .active, boundary⟩

theorem ceiling_onRegion (r : Range) (boundary : Address) :
    (onRegion r boundary).extent.ceiling = r.stop := by
  simp [onRegion, Extent.ceiling, Range.size, UInt64.add_comm r.start]

theorem activate_eq_onRegion (h : b.activate first = .ok b') : b' = onRegion first first.stop := by
  obtain ⟨-, -, -, rfl⟩ := activate_eq_ok_iff.mp h
  have hceiling : first.start + first.size = first.stop := ceiling_onRegion first 0
  rw [Extent.spanning, hceiling, onRegion]

theorem init?_onRegion (h : first.start ≤ first.stop) :
    Extent.init? first.start first.size = some (onRegion first first.stop).extent := by
  have hceiling : first.start + first.size = first.stop := ceiling_onRegion first 0
  rw [Extent.init?, Range.add?_start_size h, Option.map_some, Extent.spanning, hceiling, onRegion]

end BootMemory

namespace Kernel

theorem attach_of_vacant (h : m.state.installed = none) :
    attach id m = .ok () (onState m { m.state with attached := some id }) := by
  rw [attach, bind_apply, current_apply]
  simp only [h, Option.isSome_none, Bool.false_eq_true, if_false]
  rw [← h]
  rfl

theorem attach_of_installed (h : m.state.installed ≠ none) :
    attach id m = .error (.panicked .attachedAfterHandOff)
      (m.push [.printed (panicRecord .attachedAfterHandOff)]) := by
  rw [attach, bind_apply, current_apply]
  simp only [Option.isSome_iff_ne_none.mpr h, if_true]
  rw [bind_apply, halt_apply]

end Kernel

namespace Boot

open BootMemory

variable {regions rest : List Range}

/-- What keeps boot from getting its memory. -/
def Obstructed (id : MemoryId) (regions : List Range) (k : Kernel β) : Prop :=
  regions = [] ∨ (k.getMemory id).phase ≠ .dormant ∨
    (∃ first, regions.head? = some first ∧ (first.stop < first.start ∨ first.size < 65536)) ∨
    k.installed ≠ none

/-- A region that is inverted or does not end inside the first. -/
def Strays (first second : Range) : Prop :=
  second.stop < second.start ∨ second.stop < first.start ∨ first.stop < second.stop

instance (first second : Range) : Decidable (Strays first second) :=
  inferInstanceAs (Decidable (_ ∨ _))

/-- The page boundary that boot leaves. -/
def boundary (first : Range) : List Range → Address
  | [] => first.stop
  | second :: _ => if Strays first second then first.stop else second.stop

/-- The kernel whose heap requests are served by a memory on a region. -/
def served (id : MemoryId) (r : Range) (boundary : Address) (k : Kernel β) : Kernel β :=
  { k.setMemory id (onRegion r boundary) with attached := some id }

theorem not_obstructed_cons_iff :
    ¬ Obstructed id (first :: rest) k ↔ (k.getMemory id).phase = .dormant ∧
      (first.start ≤ first.stop ∧ minRegionSize ≤ first.size) ∧ k.installed = none := by
  simp [Obstructed, minRegionSize]

theorem exists_cons_of_not_obstructed (h : ¬ Obstructed id regions k) :
    ∃ first rest, regions = first :: rest := by
  cases regions with
  | nil => exact absurd (Or.inl rfl) h
  | cons first rest => exact ⟨first, rest, rfl⟩

theorem startMemory_of_activate {b : BootMemory} (rest : List Range)
    (h : (m.state.getMemory id).activate first = .ok b) :
    ∃ u : Machine (Kernel β), u.state = m.state.setMemory id b ∧
      startMemory id (first :: rest) m =
        (do Kernel.attach id; return true : Action (Kernel β) Bool) u := by
  rw [startMemory]
  simp only [maxRegions, List.take_succ_cons]
  rw [bind_apply, Kernel.onMemory_apply, BootMemory.apply, h]
  exact ⟨_, rfl, rfl⟩

theorem startMemory_of_obstructed (h : Obstructed id regions m.state) :
    (∃ t, startMemory id regions m = .ok false t) ∨
      ∃ t, startMemory id regions m = .error (.panicked .attachedAfterHandOff) t := by
  cases regions with
  | nil => exact .inl ⟨_, rfl⟩
  | cons first rest =>
    cases ha : (m.state.getMemory id).activate first with
    | error e =>
      left
      rw [startMemory]
      simp only [maxRegions, List.take_succ_cons]
      rw [bind_apply, Kernel.onMemory_apply, BootMemory.apply, ha]
      exact ⟨_, rfl⟩
    | ok b =>
      right
      obtain ⟨hdormant, hupright, hlarge, -⟩ := activate_eq_ok_iff.mp ha
      obtain ⟨u, hu, hrun⟩ := startMemory_of_activate rest ha
      have hinstalled : u.state.installed ≠ none := by
        intro hvacant
        rw [hu] at hvacant
        exact not_obstructed_cons_iff.mpr ⟨hdormant, ⟨hupright, hlarge⟩, hvacant⟩ h
      rw [hrun, bind_apply, Kernel.attach_of_installed hinstalled]
      exact ⟨_, rfl⟩

theorem startMemory_of_not_obstructed (h : ¬ Obstructed id (first :: rest) m.state) :
    ∃ t, startMemory id (first :: rest) m = .ok true t ∧
      t.state = served id first first.stop m.state := by
  obtain ⟨hdormant, hfits, hvacant⟩ := not_obstructed_cons_iff.mp h
  have ha : (m.state.getMemory id).activate first = .ok (onRegion first first.stop) := by
    have hok := activate_eq_ok_iff.mpr ⟨hdormant, hfits.1, hfits.2, rfl⟩
    rwa [activate_eq_onRegion hok] at hok
  obtain ⟨u, hu, hrun⟩ := startMemory_of_activate rest ha
  have hvacant' : u.state.installed = none := by
    rw [hu]
    exact hvacant
  rw [hrun, bind_apply, Kernel.attach_of_vacant hvacant']
  refine ⟨_, rfl, ?_⟩
  rw [Kernel.state_onState, hu, served]

@[simp] theorem setMemory_served (r : Range) (p q : Address) (k : Kernel β) :
    (served id r p k).setMemory id (onRegion r q) = served id r q k := by
  simp [served, Kernel.setMemory]

@[simp] theorem getMemory_served (r : Range) (p : Address) (k : Kernel β) :
    (served id r p k).getMemory id = onRegion r p := by
  simp [served, Kernel.getMemory, Kernel.setMemory]

theorem extend_onRegion (h : ¬ Strays first second) :
    (onRegion first first.stop).extend second = .ok (onRegion first second.stop) := by
  simp only [Strays, not_or, UInt64.not_lt] at h
  obtain ⟨hupright, hbytes, hpages⟩ := h
  have hmove : (onRegion first first.stop).extent.movePages? second.start second.size =
      some (onRegion first second.stop).extent := by
    rw [Extent.movePages?_eq_some_iff]
    refine ⟨second.stop, Range.add?_start_size hupright, ?_, hbytes, rfl⟩
    rwa [ceiling_onRegion]
  unfold extend
  rw [hmove]
  simp [onRegion, pagesInUse, Range.inverted, hupright]

theorem extend_onRegion_of_strays (h : Strays first second) :
    ∃ e, (onRegion first first.stop).extend second = .error e := by
  cases he : (onRegion first first.stop).extend second with
  | error e => exact ⟨e, rfl⟩
  | ok b =>
    obtain ⟨-, hupright, -, hpages, hbytes, -⟩ := extend_eq_ok he
    rw [ceiling_onRegion] at hpages
    have hbytes : first.start ≤ second.stop := hbytes
    rcases h with h | h | h
    · exact absurd hupright (UInt64.not_le.mpr h)
    · exact absurd hbytes (UInt64.not_le.mpr h)
    · exact absurd hpages (UInt64.not_le.mpr h)

/-- Whether the move of the page boundary fails. -/
def ExtensionFails (first : Range) (rest : List Range) : Prop :=
  ∃ second, rest.head? = some second ∧ Strays first second

theorem extendMemory_apply (h : m.state = served id first first.stop k) :
    ∃ moved t, extendMemory id (first :: rest) m = .ok moved t ∧
      (moved = false ↔ ExtensionFails first rest) ∧
      t.state = served id first (boundary first rest) k := by
  cases rest with
  | nil => exact ⟨true, m, rfl, by simp [ExtensionFails], h⟩
  | cons second rest =>
    rw [extendMemory]
    simp only [maxRegions, List.take_succ_cons]
    rw [bind_apply, Kernel.onMemory_apply, h, getMemory_served, BootMemory.apply]
    by_cases hstrays : Strays first second
    · obtain ⟨e, he⟩ := extend_onRegion_of_strays hstrays
      rw [he]
      refine ⟨false, _, rfl, by simpa [ExtensionFails] using hstrays, ?_⟩
      rw [boundary, if_pos hstrays]
      exact setMemory_served ..
    · rw [extend_onRegion hstrays]
      refine ⟨true, _, rfl, by simpa [ExtensionFails] using hstrays, ?_⟩
      rw [boundary, if_neg hstrays]
      exact setMemory_served ..

def phase : Component (Kernel β) := ⟨some "Early memory", none, 4, .critical⟩

def starter (id : MemoryId) (regions : List Range) : Component (Kernel β) :=
  ⟨some "Early allocator", some (startMemory id regions), 1, .critical⟩

def extender (id : MemoryId) (regions : List Range) : Component (Kernel β) :=
  ⟨some "Early allocator extension", some (extendMemory id regions), 0, .important⟩

@[simp] theorem phaseMarker_phase : (phase : Component (Kernel β)).phaseMarker = true :=
  decide_eq_true (by decide : (4 : UInt8) &&& 4 ≠ 0)

@[simp] theorem phaseMarker_starter : (starter (β := β) id regions).phaseMarker = false :=
  decide_eq_false (by decide : ¬ (1 : UInt8) &&& 4 ≠ 0)

@[simp] theorem phaseMarker_extender : (extender (β := β) id regions).phaseMarker = false :=
  decide_eq_false (by decide : ¬ (0 : UInt8) &&& 4 ≠ 0)

@[simp] theorem required_starter : (starter (β := β) id regions).required = true :=
  decide_eq_true (by decide : (1 : UInt8) &&& 1 ≠ 0)

@[simp] theorem required_extender : (extender (β := β) id regions).required = false :=
  decide_eq_false (by decide : ¬ (0 : UInt8) &&& 1 ≠ 0)

theorem table_eq : (table id regions : List (Component (Kernel β))) =
    [phase, starter id regions, extender id regions, .sentinel] := rfl

theorem run_starter_of_obstructed (minimal : Importance) (h : Obstructed id regions m.state) :
    ∃ p t, (starter id regions).run minimal m = .error (.panicked p) t := by
  rw [Component.run_apply phaseMarker_starter rfl]
  rcases startMemory_of_obstructed (m := m.push _) h with ⟨t, hrun⟩ | ⟨t, hrun⟩
  · rw [hrun]
    simp only [required_starter, if_true]
    exact ⟨_, _, halt_apply _ _⟩
  · rw [hrun]
    exact ⟨_, _, rfl⟩

theorem run_starter (minimal : Importance) (h : ¬ Obstructed id (first :: rest) m.state) :
    ∃ t, (starter id (first :: rest)).run minimal m = .ok false t ∧
      t.state = served id first first.stop m.state := by
  rw [Component.run_apply phaseMarker_starter rfl]
  obtain ⟨t, hrun, ht⟩ := startMemory_of_not_obstructed (m := m.push _) h
  rw [hrun]
  exact ⟨t, rfl, ht⟩

theorem run_extender (minimal : Importance) (rest : List Range)
    (h : m.state = served id first first.stop k) :
    ∃ failed t, (extender id (first :: rest)).run minimal m = .ok failed t ∧
      (failed = true ↔ ExtensionFails first rest) ∧
      t.state = served id first (boundary first rest) k := by
  rw [Component.run_apply phaseMarker_extender rfl]
  obtain ⟨moved, t, hrun, hmoved, ht⟩ := extendMemory_apply (m := m.push _) h
  rw [hrun]
  cases moved with
  | true => exact ⟨false, t, rfl, by simpa using hmoved, ht⟩
  | false =>
    simp only [required_extender, Bool.false_eq_true, if_false]
    exact ⟨true, _, rfl, by simpa using hmoved, ht⟩

/-- The lines of the phase and of the components do not matter for what boot comes to. -/
theorem runTable_table (minimal : Importance) (id : MemoryId) (regions : List Range)
    (m : Machine (Kernel β)) :
    ∃ u : Machine (Kernel β), u.state = m.state ∧
      Component.runTable minimal (table id regions) m = (do
        let failed ← (starter id regions).run minimal
        let failures ← Component.runTable minimal [extender id regions, .sentinel]
        return if failed then failures + 1 else failures : Action (Kernel β) Nat) u := by
  rw [table_eq, Component.runTable_of_marker rfl phaseMarker_phase,
    Component.runTable_of_called rfl phaseMarker_starter]
  exact ⟨m.push _, rfl, rfl⟩

theorem runTable_of_obstructed (minimal : Importance) (h : Obstructed id regions m.state) :
    ∃ p t, Component.runTable minimal (table id regions) m = .error (.panicked p) t := by
  obtain ⟨u, hu, hrun⟩ := runTable_table minimal id regions m
  rw [← hu] at h
  obtain ⟨p, t, hpanic⟩ := run_starter_of_obstructed minimal h
  rw [hrun, bind_apply, hpanic]
  exact ⟨p, t, rfl⟩

theorem runTable_of_not_obstructed (minimal : Importance)
    (h : ¬ Obstructed id (first :: rest) m.state) :
    ∃ n t, Component.runTable minimal (table id (first :: rest)) m = .ok n t ∧
      (n = 0 ∨ n = 1) ∧ (n = 1 ↔ ExtensionFails first rest) ∧
      t.state = served id first (boundary first rest) m.state := by
  obtain ⟨u, hu, hrun⟩ := runTable_table minimal id (first :: rest) m
  rw [← hu] at h ⊢
  obtain ⟨v, hstart, hv⟩ := run_starter minimal h
  obtain ⟨failed, t, hextend, hfailed, ht⟩ := run_extender minimal rest hv
  rw [hrun, bind_apply, hstart]
  dsimp only
  rw [bind_apply, Component.runTable_of_called rfl phaseMarker_extender, bind_apply, hextend]
  cases failed with
  | true => exact ⟨1, t, rfl, .inr rfl, by simpa using hfailed, ht⟩
  | false => exact ⟨0, t, rfl, .inl rfl, by simpa using hfailed, ht⟩

/-- Boot panics exactly when it is obstructed; otherwise the memory serves the heap. -/
theorem boot_outcome [HeapBackend β] (id : MemoryId) (regions : List Range) (minimal : Importance)
    (m : Machine (Kernel β)) :
    ((∃ p t, Component.runTable minimal (table id regions) m = .error (.panicked p) t) ↔
        Obstructed id regions m.state) ∧
      (¬ Obstructed id regions m.state → ∃ first rest n t, regions = first :: rest ∧
        Component.runTable minimal (table id regions) m = .ok n t ∧
        (n = 0 ∨ n = 1) ∧ (n = 1 ↔ ExtensionFails first rest) ∧
        t.state = served id first (boundary first rest) m.state ∧
        Extent.init? first.start first.size = some (onRegion first first.stop).extent ∧
        ∀ size align p b, (t.state.getMemory id).allocate size align = .ok (p, b) →
          Kernel.allocate size align t = .ok p (Kernel.onState t (t.state.setMemory id b))) := by
  constructor
  · constructor
    · rintro ⟨p, t, hpanic⟩
      by_contra h
      obtain ⟨first, rest, rfl⟩ := exists_cons_of_not_obstructed h
      obtain ⟨n, u, hrun, -⟩ := runTable_of_not_obstructed minimal h
      cases hpanic.symm.trans hrun
    · exact runTable_of_obstructed minimal
  · intro h
    obtain ⟨first, rest, rfl⟩ := exists_cons_of_not_obstructed h
    obtain ⟨n, t, hrun, hn, hfails, ht⟩ := runTable_of_not_obstructed minimal h
    obtain ⟨-, hfits, hvacant⟩ := not_obstructed_cons_iff.mp h
    refine ⟨first, rest, n, t, rfl, hrun, hn, hfails, ht, init?_onRegion hfits.1, ?_⟩
    intro size align p b hb
    refine Kernel.allocate_of_attached ?_ ?_ hb
    · rw [ht]
      exact hvacant
    · rw [ht]
      rfl

end Boot

end KernelCore
