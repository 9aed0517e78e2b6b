import KernelCore.Proofs.Space.FirstFit
import KernelCore.Proofs.Syscall.Geometry
import KernelCore.Proofs.Syscall.Locking

/-! # Where mappings are placed

An anonymous mapping without a fixed address goes to the least fit from the hint on, or else to the least
fit of all. It fails only when there is no fit.
-/

namespace KernelCore.Kernel

open KernelCore.Action AddressSpace

variable {β : Type} {m t : Machine (Kernel β)} {r : MapRequest} {prot : Protection} {flags : MapFlags}
  {length : UInt64} {s : AddressSpace}

theorem holdingLock_of_free {α : Type} {x : Action (Kernel β) α} {a : α}
    (h : m.state.lock.held = false)
    (hx : ∀ u, spaceOf u = spaceOf m → ∃ v, x u = .ok a v ∧ spaceOf v = s) :
    ∃ t, holdingLock x m = .ok a t ∧ spaceOf t = s := by
  rw [holdingLock, acquireLock_of_free h]
  dsimp only
  obtain ⟨v, hv, hs⟩ := hx ((onState m { m.state with lock := ⟨⟨true⟩⟩ }).push [.locking]) rfl
  rw [hv]
  exact ⟨unlocked v, rfl, hs⟩

theorem place_apply (r : MapRequest) (length : UInt64) (m : Machine (Kernel β))
    (h : flags.contains MapFlags.fixed = false) : ∃ t, (place r flags length).run m =
      .ok (match (spaceOf m).findFreeArea r.addr length (spaceOf m).limit with
        | some start => .ok start
        | none => .error .noMemory) t ∧
    spaceOf t = spaceOf m := by
  unfold place
  rw [h, if_neg Bool.false_ne_true, Handler.bind_lift_apply, current_apply]
  dsimp only
  rw [Handler.bind_lift_apply, findArea, ask_apply]
  dsimp only [spaceOf]
  cases m.state.space.findFreeArea r.addr length m.state.space.limit <;> exact ⟨_, rfl, rfl⟩

variable [HeapBackend β]

theorem mapAt_anonymous (r : MapRequest) (permissions : Permissions) (length : UInt64)
    (start : Address) (m : Machine (Kernel β)) : ∃ t, (mapAt r permissions true length start).run m =
      .ok (match (spaceOf m).mapAlloc start length permissions true with
        | .ok _ => .ok start
        | .error e => .error e.toErrno) t ∧
    spaceOf t = (match (spaceOf m).mapAlloc start length permissions true with
        | .ok s => s
        | .error _ => spaceOf m) := by
  unfold mapAt
  rw [Handler.bind_lift_apply, mapRegion_apply]
  dsimp only [spaceOf]
  cases m.state.space.mapAlloc start length permissions true with
  | ok s => exact ⟨_, rfl, rfl⟩
  | error e =>
    dsimp only
    rw [Handler.bind_lift_apply, say_apply]
    exact ⟨_, rfl, rfl⟩

theorem mapPlaced_anonymous (r : MapRequest) (prot : Protection) (length : UInt64)
    (m : Machine (Kernel β)) (hfixed : flags.contains MapFlags.fixed = false)
    (hanon : flags.contains MapFlags.anonymous = true) :
    let out := (spaceOf m).mapAnywhere r.addr length prot.toPermissions
    ∃ t, (mapPlaced r prot flags length).run m = .ok out.1 t ∧ spaceOf t = out.2 := by
  obtain ⟨u, hplace, hu⟩ := place_apply r length m hfixed
  unfold mapPlaced mapAnywhere
  rw [Handler.bind_apply, hplace]
  cases (spaceOf m).findFreeArea r.addr length (spaceOf m).limit with
  | none => exact ⟨u, rfl, hu⟩
  | some start =>
    obtain ⟨t, hmap, ht⟩ := mapAt_anonymous r prot.toPermissions length start u
    rw [hu] at hmap ht
    dsimp only
    rw [hanon]
    refine ⟨t, hmap.trans ?_, ht.trans ?_⟩
    all_goals cases (spaceOf m).mapAlloc start length prot.toPermissions true <;> rfl

theorem mapMemory_apply (hprot : Flags.ofBits? r.prot.toBitVec = some prot)
    (hflags : Flags.ofBits? r.flags.toBitVec = some flags)
    (hlength : Word.alignUp? r.length pageBytes = some length) (hz : length ≠ 0)
    (htask : m.state.task.present = true) :
    (mapMemory r).run m =
      holdingLock (mapPlaced r prot flags length).run
        (m.push [.printed ⟨some .debug, requestItems r⟩]) := by
  unfold mapMemory
  rw [hprot, hflags]
  dsimp only
  rw [Handler.bind_lift_apply, say_apply, hlength]
  dsimp only
  rw [if_neg hz, Handler.bind_lift_apply, needTask_apply, Machine.state_push, if_pos htask]
  rfl

/-- A mapping that succeeds at an address, and adds the region that was asked for there. -/
def MappedAt (r : MapRequest) (m : Machine (Kernel β)) (a : Address) : Prop :=
  ∃ t x, (mapMemory r).run m = .ok (.ok a) t ∧ Asked r x ∧ x.start = a ∧
    spaceOf t = (spaceOf m).add x

/-- A mapping that fails for want of memory, and leaves the address space as it is. -/
def OutOfMemory (r : MapRequest) (m : Machine (Kernel β)) : Prop :=
  ∃ t, (mapMemory r).run m = .ok (.error .noMemory) t ∧ spaceOf t = spaceOf m

section Request

variable (hlock : m.state.lock.held = false) (htask : m.state.task.present = true)
  (hprot : Flags.ofBits? r.prot.toBitVec = some prot)
  (hflags : Flags.ofBits? r.flags.toBitVec = some flags)
  (hfixed : flags.contains MapFlags.fixed = false)
  (hanon : flags.contains MapFlags.anonymous = true)
  (hlength : Word.alignUp? r.length pageBytes = some length) (hpos : 0 < length.toNat)

include hlock htask hprot hflags hfixed hanon hlength hpos

/-- What a mapping comes to that may go anywhere is what the address space makes of it. -/
theorem mapMemory_anonymous :
    let out := (spaceOf m).mapAnywhere r.addr length prot.toPermissions
    ∃ t, (mapMemory r).run m = .ok out.1 t ∧ spaceOf t = out.2 := by
  intro out
  rw [mapMemory_apply hprot hflags hlength (Word.ne_zero_of_toNat_pos hpos) htask]
  refine holdingLock_of_free hlock fun u hu => ?_
  have hplaced := mapPlaced_anonymous r prot length u hfixed hanon
  rwa [hu] at hplaced

theorem mappedAt_of_mapAnywhere {a : Address}
    (hout : (spaceOf m).mapAnywhere r.addr length prot.toPermissions =
      (.ok a, (spaceOf m).add ⟨a, length, prot.toPermissions, true, .empty⟩)) :
    MappedAt r m a := by
  obtain ⟨t, hrun, ht⟩ :=
    mapMemory_anonymous hlock htask hprot hflags hfixed hanon hlength hpos
  rw [hout] at hrun ht
  exact ⟨t, _, hrun, ⟨toNat_length hlength, toPermissions_eq hprot, rfl⟩, rfl, ht⟩

theorem outOfMemory_of_mapAnywhere
    (hout : (spaceOf m).mapAnywhere r.addr length prot.toPermissions =
      (.error .noMemory, spaceOf m)) : OutOfMemory r m := by
  obtain ⟨t, hrun, ht⟩ :=
    mapMemory_anonymous hlock htask hprot hflags hfixed hanon hlength hpos
  rw [hout] at hrun ht
  exact ⟨t, hrun, ht⟩

theorem mapped_of_finds {A : Set Nat} (hs : (spaceOf m).Roomy)
    (hfind : (spaceOf m).policy.refuse = false) (hmap : (spaceOf m).policy.mapError = none)
    (hA : Finds A (Placement.find? (spaceOf m).regions r.addr length (spaceOf m).limit))
    (hfits : ∀ c ∈ A, (spaceOf m).Fit length.toNat c) (hsome : A.Nonempty) :
    ∃ a, IsLeast A a.toNat ∧ MappedAt r m a := by
  have hwhole : length.toNat % 4096 = 0 := by
    rw [toNat_length hlength]
    exact Nat.mul_mod_left _ _
  obtain ⟨a, hleast, hout⟩ := hs.mapAnywhere_of_finds hmap hfind hpos hwhole hA hfits hsome
  exact ⟨a, hleast,
    mappedAt_of_mapAnywhere hlock htask hprot hflags hfixed hanon hlength hpos hout⟩

end Request

theorem roomy_of_run
    (hroom : (spaceOf m).base.toNat + 2 * (spaceOf m).size.toNat + 8192 ≤ 2 ^ 64)
    (hempty : (spaceOf m).regions = []) (h : Run m t) : (spaceOf t).Roomy := by
  obtain ⟨hlaid, hbase, hsize⟩ := laidOut_of_run (laidOut_of_nil (by omega) hempty) h
  refine ⟨hlaid, ?_⟩
  rw [hbase, hsize]
  exact hroom

/-- A mapping that may go anywhere takes the least fit the hint allows. -/
theorem mapping_takes_first_fit
    (hroom : (spaceOf m).base.toNat + 2 * (spaceOf m).size.toNat + 8192 ≤ 2 ^ 64)
    (hempty : (spaceOf m).regions = []) (hlock : m.state.lock.held = false) (h : Run m t)
    (htask : t.state.task.present = true) (hfind : (spaceOf t).policy.refuse = false)
    (hmap : (spaceOf t).policy.mapError = none)
    (hprot : Flags.ofBits? r.prot.toBitVec = some prot)
    (hflags : Flags.ofBits? r.flags.toBitVec = some flags)
    (hfixed : flags.contains MapFlags.fixed = false)
    (hanon : flags.contains MapFlags.anonymous = true)
    (hpos : 0 < (r.length.toNat + 4095) / 4096 * 4096)
    (hsize : (r.length.toNat + 4095) / 4096 * 4096 ≤ (spaceOf t).size.toNat) :
    let s := spaceOf t
    let n := (r.length.toNat + 4095) / 4096 * 4096
    (s.Hinted n r.addr.toNat →
      ∃ a, IsLeast (s.fitsFrom n r.addr.toNat) a.toNat ∧ MappedAt r t a) ∧
    (¬ s.Hinted n r.addr.toNat → (∃ c, s.Fit n c) →
      ∃ a, IsLeast {c | s.Fit n c} a.toNat ∧ MappedAt r t a) ∧
    ((∀ c, ¬ s.Fit n c) → OutOfMemory r t) := by
  have hs : (spaceOf t).Roomy := roomy_of_run hroom hempty h
  have hroom := hs.room
  have hbytes : pageBytes.toNat = 4096 := rfl
  obtain ⟨length, hlength⟩ : ∃ length, Word.alignUp? r.length pageBytes = some length :=
    Word.exists_alignUp? (by decide) (by omega)
  rw [← toNat_length hlength] at hpos hsize ⊢
  intro s n
  have hfree := free_of_run hlock h
  have hplaced {A : Set Nat} :=
    mapped_of_finds (A := A) hfree htask hprot hflags hfixed hanon hlength hpos hs hfind hmap
  refine ⟨fun hhint => ?_, fun hhint hsome => ?_, fun hnone => ?_⟩
  · exact hplaced (hs.finds_find_of_hinted hsize hhint) (fun _ hc => hc.1) hhint.2
  · exact hplaced (hs.finds_find_of_not_hinted hsize hhint) (fun _ hc => hc) hsome
  · exact outOfMemory_of_mapAnywhere hfree htask hprot hflags hfixed hanon hlength hpos
      (hs.mapAnywhere_of_no_fit hfind hpos hsize hnone)

/-- The first page is taken, and two pages with the base as the hint go behind it. -/
theorem mapping_takes_first_fit_second :
    let m : Machine (Kernel ArenaHeap) :=
      (World.initial .important 42 (.empty 0x40000000 0x100000)).machine
    let fr : Frame := ⟨222, #v[0x40000000, 0x1000, 3, 0x32, 0xffffffff, 0]⟩
    let t := (handleSyscall fr).after m
    let r : MapRequest := ⟨0x40000000, 0x1800, 3, 0x22, -1, 0⟩
    (spaceOf t).Fit 0x2000 0x40001000 ∧
      ∃ a, IsLeast ((spaceOf t).fitsFrom 0x2000 0x40000000) a.toNat ∧ MappedAt r t a := by
  intro m fr t r
  have hempty : (spaceOf m).regions = [] :=
    List.isEmpty_iff.mp (show (spaceOf m).regions.isEmpty = true by decide +kernel)
  have hfit : (spaceOf t).Fit 0x2000 0x40001000 :=
    { aligned := by decide
      base_le := by decide +kernel
      stop_le := by decide +kernel
      clear := by decide +kernel }
  have hprot : Flags.ofBits? r.prot.toBitVec = some (⟨3⟩ : Protection) := by decide
  have hflags : Flags.ofBits? r.flags.toBitVec = some (⟨0x22⟩ : MapFlags) := by decide
  have h := mapping_takes_first_fit (by decide +kernel) hempty (by decide +kernel) (.call fr .start)
    (show t.state.task.present = true by decide +kernel) (by decide +kernel) (by decide +kernel) hprot
    hflags (by decide) (by decide) (by decide) (by decide +kernel)
  have hbytes : (r.length.toNat + 4095) / 4096 * 4096 = 0x2000 := by decide
  have hhint : r.addr.toNat = 0x40000000 := by decide
  rw [hbytes, hhint] at h
  have hinside : (spaceOf t).Inside 0x40000000 := ⟨by decide +kernel, by decide +kernel⟩
  exact ⟨hfit, h.1 ⟨hinside, _, hfit, by decide⟩⟩

end KernelCore.Kernel
