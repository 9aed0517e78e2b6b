import KernelCore.Kernel.World
import KernelCore.Proofs.Syscall.Traversal

/-! # What a failed mapping leaves behind

The mmap system call changes what is mapped in two places only: where it makes the mapping and where
it copies the contents of a file into it. Nothing takes a mapping back, so a mapping that was made
and could not be filled stays.
-/

namespace KernelCore

def Call.mapped : Call → Bool
  | .mapAlloc _ _ _ _ (.ok _) => true
  | _ => false

theorem Call.mapped_eq_false {c : Call} (h : c.quiet = true) : c.mapped = false := by
  cases c <;> simp_all [quiet, mapped]

namespace Kernel

open KernelCore.Action

variable {β α : Type} {id : MemoryId} {h : HeapId} {fd : Descriptor} {a buffer start source : Address}
  {size align length total offset : UInt64} {m t : Machine (Kernel β)} {e : Errno}

/-- What is mapped, and the calls that mapped it. -/
def mappings (m : Machine (Kernel β)) : AddressSpace × List Call :=
  (m.state.space, m.calls.filter Call.mapped)

/-- Adds a region of zero bytes, and the call that made it. -/
def withRegion (x : AddressSpace × List Call) (start : Address) (length : UInt64)
    (permissions : Permissions) : AddressSpace × List Call :=
  ({ x.1 with regions := x.1.regions ++ [⟨start, length, permissions, true, .empty⟩] },
    x.2 ++ [.mapAlloc start length permissions true (.ok ())])

theorem mappings_push {es : List Event}
    (h : (es.filterMap Event.call?).filter Call.mapped = []) : mappings (m.push es) = mappings m :=
  view_push h

theorem lockless_mappings : Lockless (mappings : Machine (Kernel β) → _) :=
  lockless_view fun _ _ => rfl

theorem mappings_of_holdingLock {x : Action (Kernel β) α} {a : α} (h : holdingLock x m = .ok a t) :
    ∃ u v, mappings u = mappings m ∧ x u = .ok a v ∧ mappings t = mappings v := by
  obtain ⟨u, v, hu, hx, rfl⟩ := holdingLock_eq_ok h
  exact ⟨u, v, lockless_mappings.acquireLock.of_ok hu, hx, lockless_mappings.unlocked v⟩

theorem keeps_readContents :
    Keeps mappings (readContents fd offset buffer length : Handler (Kernel β) UInt64).run :=
  (compositional_takes.readContents (fun _ _ => (keeps_request (fun _ => rfl) fun _ => rfl).takes)
    fun _ _ => (keeps_request (fun _ => rfl) fun _ => rfl).takes).keeps

theorem mappings_of_writeRegion {x : SpaceError}
    (h : writeRegion start source length m = .ok (.error x) t) : mappings t = mappings m := by
  rw [writeRegion, ask_apply] at h
  cases hw : m.state.space.write start ((m.state.memory.load? source length).getD .empty) with
  | ok s =>
    rw [hw] at h
    cases h
  | error y =>
    rw [hw] at h
    cases h
    exact mappings_push rfl

/-- A mapping is made as it was asked for, or nothing changes. -/
theorem mapRegion_cases {permissions : Permissions} {r : Except SpaceError Unit}
    (h : mapRegion start length permissions m = .ok r t) :
    (∃ x, r = .error x ∧ mappings t = mappings m) ∨
      r = .ok () ∧ mappings t = withRegion (mappings m) start length permissions := by
  rw [mapRegion, ask_apply] at h
  cases hs : m.state.space.mapAlloc start length permissions true with
  | ok s =>
    rw [hs] at h
    cases h
    obtain ⟨-, -, -, -, -, rfl⟩ := AddressSpace.mapAlloc_eq_ok hs
    refine Or.inr ⟨rfl, ?_⟩
    rw [mappings, Machine.calls_push, List.filter_append]
    rfl
  | error x =>
    rw [hs] at h
    cases h
    exact Or.inl ⟨x, rfl, mappings_push rfl⟩

theorem place_fixed {r : MapRequest} {flags : MapFlags}
    (h : (place r flags length).run m = .ok (.ok start) t)
    (hf : flags.contains MapFlags.fixed = true) : start = r.addr := by
  unfold place at h
  rw [if_pos hf] at h
  split at h
  · cases h
    rfl
  · cases h

variable [HeapBackend β]

theorem quiet_mappings : Quiet (Takes (mappings : Machine (Kernel β) → _) Eq) :=
  (blind_view (fun _ _ h => h.space_eq) fun _ => Call.mapped_eq_false).quiet

theorem mappings_of_copyContents
    (h : (copyContents start length fd offset buffer).run m = .ok (.error e) t) :
    mappings t = mappings m := by
  rcases Handler.bind_eq_error h with h | ⟨count, m₁, hread, h⟩
  · exact keeps_readContents.of_ok h
  obtain ⟨_, m₂, hsay, h⟩ := Handler.bind_lift_eq_error h
  obtain ⟨r, m₃, hwrite, h⟩ := Handler.bind_lift_eq_error h
  cases r with
  | ok u => cases h
  | error x =>
    obtain ⟨_, m₄, hsay', h⟩ := Handler.bind_lift_eq_error h
    cases h
    calc mappings t = mappings m₃ := (quiet_mappings.say _ _).keeps.of_ok hsay'
      _ = mappings m₂ := mappings_of_writeRegion hwrite
      _ = mappings m₁ := (quiet_mappings.say _ _).keeps.of_ok hsay
      _ = mappings m := keeps_readContents.of_ok hread

theorem mappings_of_populate (h : (populate start length fd offset).run m = .ok (.error e) t) :
    mappings t = mappings m := by
  obtain ⟨p, m₁, halloc, h⟩ := Handler.bind_lift_eq_error h
  have h₁ := quiet_mappings.allocate.keeps.of_ok halloc
  cases p with
  | none =>
    cases h
    exact h₁
  | some buffer =>
    obtain ⟨_, m₂, hclear, h⟩ := Handler.bind_lift_eq_error h
    obtain ⟨outcome, m₃, hcopy, h⟩ := Handler.bind_lift_eq_error h
    obtain ⟨_, m₄, hfree, h⟩ := Handler.bind_lift_eq_error h
    cases h
    calc mappings t = mappings m₃ := quiet_mappings.free.keeps.of_ok hfree
      _ = mappings m₂ := mappings_of_copyContents hcopy
      _ = mappings m₁ := (quiet_mappings.clearBytes _ _).keeps.of_ok hclear
      _ = mappings m := h₁

theorem mappings_of_mapAt {r : MapRequest} {permissions : Permissions} {anonymous : Bool}
    (h : (mapAt r permissions anonymous length start).run m = .ok (.error e) t) :
    mappings t = mappings m ∨
      anonymous = false ∧ mappings t = withRegion (mappings m) start length permissions := by
  obtain ⟨o, m₁, hmap, h⟩ := Handler.bind_lift_eq_error h
  rcases mapRegion_cases hmap with ⟨x, rfl, hx⟩ | ⟨rfl, hx⟩
  · obtain ⟨_, m₂, hsay, h⟩ := Handler.bind_lift_eq_error h
    cases h
    exact Or.inl (((quiet_mappings.say _ _).keeps.of_ok hsay).trans hx)
  · cases anonymous with
    | true => cases h
    | false =>
      rcases Handler.bind_eq_error h with h | ⟨u, m₂, hp, h⟩
      · exact Or.inr ⟨rfl, (mappings_of_populate h).trans hx⟩
      · cases h

theorem mappings_of_mapPlaced {r : MapRequest} {prot : Protection} {flags : MapFlags}
    (h : (mapPlaced r prot flags length).run m = .ok (.error e) t) :
    mappings t = mappings m ∨ flags.contains MapFlags.anonymous = false ∧
      ∃ start, (flags.contains MapFlags.fixed = true → start = r.addr) ∧
        mappings t = withRegion (mappings m) start length prot.toPermissions := by
  rcases Handler.bind_eq_error h with h | ⟨start, m₁, hplace, h⟩
  · exact Or.inl (quiet_mappings.place.keeps.of_ok h)
  have h₁ := quiet_mappings.place.keeps.of_ok hplace
  have hfixed := place_fixed hplace
  cases ha : flags.contains MapFlags.anonymous with
  | true =>
    rw [ha] at h
    rcases mappings_of_mapAt h with h | ⟨hn, -⟩
    · exact Or.inl (h.trans h₁)
    · cases hn
  | false =>
    rw [ha] at h
    rcases Handler.bind_eq_error h with h | ⟨_, m₂, hopen, h⟩
    · exact Or.inl ((quiet_mappings.needOpenFile.keeps.of_ok h).trans h₁)
    have h₂ := (quiet_mappings.needOpenFile.keeps.of_ok hopen).trans h₁
    rcases mappings_of_mapAt h with h | ⟨-, h⟩
    · exact Or.inl (h.trans h₂)
    · exact Or.inr ⟨rfl, start, hfixed, h₂ ▸ h⟩

/-- A mapping was made as it was asked for, and could not be filled from its file. -/
def Unfilled (r : MapRequest) (m t : Machine (Kernel β)) : Prop :=
  ∃ (prot : Protection) (flags : MapFlags) (start : Address) (length : UInt64),
    Flags.ofBits? r.prot.toBitVec = some prot ∧ Flags.ofBits? r.flags.toBitVec = some flags ∧
    flags.contains MapFlags.anonymous = false ∧
    (flags.contains MapFlags.fixed = true → start = r.addr) ∧
    Word.alignUp? r.length pageBytes = some length ∧
    mappings t = withRegion (mappings m) start length prot.toPermissions

/-- A failed mapping changes nothing, unless it was made and could not be filled. -/
theorem mappings_of_failed {r : MapRequest} (h : (mapMemory r).run m = .ok (.error e) t) :
    mappings t = mappings m ∨ Unfilled r m t := by
  unfold mapMemory at h
  split at h
  · rename_i prot flags hprot hflags
    obtain ⟨_, m₁, hsay, h⟩ := Handler.bind_lift_eq_error h
    have h₁ := (quiet_mappings.say _ _).keeps.of_ok hsay
    split at h
    · cases h
      exact Or.inl h₁
    · rename_i length hlength
      by_cases hz : length = 0
      · rw [if_pos hz] at h
        cases h
        exact Or.inl h₁
      · rw [if_neg hz] at h
        obtain ⟨_, m₂, htask, h⟩ := Handler.bind_lift_eq_error h
        obtain ⟨u, v, hu, h, hv⟩ := mappings_of_holdingLock h
        have hu : mappings u = mappings m := hu.trans ((keeps_needTask.of_ok htask).trans h₁)
        rcases mappings_of_mapPlaced h with h | ⟨ha, start, hf, h⟩
        · exact Or.inl (hv.trans (h.trans hu))
        · exact Or.inr ⟨prot, flags, start, length, hprot, hflags, ha, hf, hlength,
            hv.trans (hu ▸ h)⟩
  · obtain ⟨_, m₁, hsay, h⟩ := Handler.bind_lift_eq_error h
    cases h
    exact Or.inl ((quiet_mappings.say _ _).keeps.of_ok hsay)

/-- A file that cannot be sought in, mapped from its second page on. -/
theorem mappings_of_failed_seek :
    let m : Machine (Kernel ArenaHeap) :=
      ((World.initial .important 42 (.empty 0x40000000 0x100000)).run
        [.install 0, .addFile ⟨#[47, 97]⟩ ⟨#[104, 105]⟩,
          .configureFiles { FilePolicy.plain with seekError := some ⟨29⟩ }]).2.machine
    let r : MapRequest := ⟨0x40000000, 4096, 1, 0x12, 3, 4096⟩
    ∃ t, (mapMemory r).run m = .ok (.error ⟨29⟩) t ∧ (mappings t = mappings m ∨ Unfilled r m t) := by
  intro m r
  have h : (mapMemory r).refuses m ⟨29⟩ = true := by decide +kernel
  obtain ⟨t, ht⟩ := Handler.run_of_refuses h
  exact ⟨t, ht, mappings_of_failed ht⟩

/-- The heap has no room for a buffer: the call fails, and its region stays. -/
theorem failed_mapping_stays :
    let m : Machine (Kernel ArenaHeap) :=
      ((World.initial .important 42 (.empty 0x40000000 0x100000)).run
        [.install 0, .failHeap 0 1, .addFile ⟨#[47, 97]⟩ ⟨#[104, 105]⟩]).2.machine
    let r : MapRequest := ⟨0x40000000, 4096, 1, 0x12, 3, 0⟩
    ∃ t, (mapMemory r).run m = .ok (.error .noMemory) t ∧
      t.state.space.regions ≠ m.state.space.regions := by
  intro m r
  have h : (mapMemory r).refuses m .noMemory = true := by decide +kernel
  obtain ⟨t, ht⟩ := Handler.run_of_refuses h
  have hlength : ((mapMemory r).run.after m).state.space.regions.length ≠
      m.state.space.regions.length := by decide +kernel
  rw [after_of_ok ht] at hlength
  exact ⟨t, ht, fun he => hlength (congrArg List.length he)⟩

end Kernel

end KernelCore
