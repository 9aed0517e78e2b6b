import KernelCore.Kernel.World
import KernelCore.Proofs.Space.Layout
import KernelCore.Proofs.Syscall.Runs
import KernelCore.Proofs.Syscall.Success

/-! # What system calls do to an address space

A system call leaves the regions of the address space as they are and adds at most one, as it was
asked for. So the regions keep their layout over all runs, whatever the collaborators do.
-/

namespace KernelCore.Kernel

open KernelCore.Action

variable {β : Type} {m t u : Machine (Kernel β)} {r : MapRequest} {fd : Descriptor}
  {a start source buffer : Address} {length count offset : UInt64}

def spaceOf (m : Machine (Kernel β)) : AddressSpace := m.state.space

theorem grounded_spaceOf : Grounded (spaceOf : Machine (Kernel β) → AddressSpace) :=
  grounded_state fun _ _ hspace _ => hspace

theorem blind_spaceOf : Blind (spaceOf : Machine (Kernel β) → AddressSpace) :=
  blind_state fun _ _ h => h.space_eq

theorem lockless_spaceOf : Lockless (spaceOf : Machine (Kernel β) → AddressSpace) :=
  lockless_state fun _ _ => rfl

/-- Only the contents of the newest region may change, if that region starts at `a`. -/
def Refills (a : Address) (s s' : AddressSpace) : Prop :=
  s.LaidOut → ∀ xs x, s.regions = xs ++ [x] → x.start = a →
    ∃ c, s' = { s with regions := xs ++ [{ x with contents := c }] }

instance : IsPreorder AddressSpace (Refills a) where
  refl s _ xs x hs _ := ⟨x.contents, by rw [← hs]⟩
  trans s s' s'' h k hl xs x hs ha := by
    obtain ⟨c, rfl⟩ := h hl xs x hs ha
    obtain ⟨d, rfl⟩ := k (hl.refill hs c) xs _ rfl ha
    exact ⟨d, rfl⟩

theorem size_getD_load? (b : Memory) : ((b.load? a length).getD .empty).size < 2 ^ 64 := by
  unfold Memory.load?
  cases b.windows.find? (·.holds a length) with
  | none => exact Nat.two_pow_pos 64
  | some w =>
    rw [Option.map_some, Option.getD_some, ByteStore.size_read]
    exact length.toNat_lt

theorem refills_writeRegion :
    Takes spaceOf (Refills start) (writeRegion start source count : Action (Kernel β) _) := by
  intro m
  rw [writeRegion, after_of_ok (ask_apply _ _ m)]
  intro hl xs x hs ha
  cases hw : m.state.space.write start ((m.state.memory.load? source count).getD .empty) with
  | error e => exact ⟨x.contents, by rw [← hs]; rfl⟩
  | ok s =>
    subst ha
    exact ⟨_, hl.write_newest hs (size_getD_load? _) hw⟩

theorem keeps_readContents_spaceOf :
    Keeps spaceOf (readContents fd offset buffer length : Handler (Kernel β) UInt64).run :=
  (compositional_takes.readContents
    (fun _ _ => (grounded_spaceOf.request (fun _ => rfl) fun _ => rfl).takes)
    fun _ _ => (grounded_spaceOf.request (fun _ => rfl) fun _ => rfl).takes).keeps

variable [HeapBackend β]

theorem refills_populate :
    Takes spaceOf (Refills start) (populate start length fd offset : Handler (Kernel β) Unit).run :=
  blind_spaceOf.quiet.populate (fun _ => keeps_readContents_spaceOf.takes)
    fun _ _ => refills_writeRegion

/-- A region as a request asks for it, populated and in whole pages. -/
structure Asked (r : MapRequest) (x : Region) : Prop where
  length_eq : x.length.toNat = (r.length.toNat + 4095) / 4096 * 4096
  permissions_eq : x.permissions.bits = Permissions.user.bits ||| r.prot.toBitVec.setWidth 8
  populated : x.populated = true

/-- At most one region is added, as it was asked for. -/
def Adds (r : MapRequest) (s s' : AddressSpace) : Prop :=
  s.LaidOut → s' = s ∨ ∃ x, Asked r x ∧ s' = s.add x ∧ s'.LaidOut

instance : Std.Refl (Adds r) := ⟨fun _ _ => Or.inl rfl⟩

theorem toPermissions_eq {prot : Protection} {raw : BitVec 32} (h : Flags.ofBits? raw = some prot) :
    prot.toPermissions.bits = Permissions.user.bits ||| raw.setWidth 8 := by
  obtain ⟨rfl, hknown⟩ := Flags.ofBits?_eq_some_iff.mp h
  have hlt : prot.bits.toNat < 8 := by
    rw [← Flags.and_known_eq_self hknown, BitVec.toNat_and]
    exact Nat.lt_succ_of_le Nat.and_le_right
  have hsmall : ∀ n : Fin 8, Protection.toPermissions ⟨BitVec.ofNat 32 n⟩ =
      ⟨Permissions.user.bits ||| (BitVec.ofNat 32 n).setWidth 8⟩ := by decide
  have hprot := hsmall ⟨prot.bits.toNat, hlt⟩
  rw [BitVec.ofNat_toNat, BitVec.setWidth_eq] at hprot
  exact congrArg Flags.bits hprot

theorem contains_user_toPermissions (prot : Protection) :
    prot.toPermissions.contains Permissions.user = true := by
  simp only [Protection.toPermissions, Flags.contains, Flags.bits_union, decide_eq_true_eq]
  ext i
  simp only [BitVec.getElem_and, BitVec.getElem_or]
  cases Permissions.user.bits[i] <;> simp

theorem toNat_length (h : Word.alignUp? r.length pageBytes = some length) :
    length.toNat = (r.length.toNat + 4095) / 4096 * 4096 := by
  have hpage : Word.isPowerOfTwo pageBytes = true := by decide
  have hbytes : pageBytes.toNat = 4096 := rfl
  rw [Word.toNat_alignUp? hpage h, hbytes]
  omega

theorem length_pos (h : Word.alignUp? r.length pageBytes = some length) (hz : length ≠ 0) :
    0 < r.length := by
  rw [UInt64.lt_iff_toNat_lt, UInt64.toNat_zero, Nat.pos_iff_ne_zero]
  intro hzero
  have hround := toNat_length h
  rw [hzero] at hround
  exact hz (UInt64.toNat_inj.mp hround)

theorem asked_of_refills {s s' s'' : AddressSpace} {prot : Protection} (hl : s.LaidOut)
    (hprot : Flags.ofBits? r.prot.toBitVec = some prot)
    (hlength : Word.alignUp? r.length pageBytes = some length)
    (hm : s.mapAlloc start length prot.toPermissions true = .ok s') (hr : Refills start s' s'') :
    ∃ x, Asked r x ∧ x.start = start ∧ s'' = s.add x ∧ s''.LaidOut := by
  have hl' := hl.mapAlloc (contains_user_toPermissions prot) hm
  obtain ⟨-, -, -, -, -, rfl⟩ := AddressSpace.mapAlloc_eq_ok hm
  obtain ⟨c, rfl⟩ := hr hl' _ _ rfl rfl
  exact ⟨⟨start, length, prot.toPermissions, true, c⟩,
    ⟨toNat_length hlength, toPermissions_eq hprot, rfl⟩, rfl, rfl, hl'.refill rfl c⟩

theorem refills_fill {anonymous : Bool} :
    Takes spaceOf (Refills start) (do
      unless anonymous do populate start r.length r.fd r.offset
      return start : Handler (Kernel β) Address).run := by
  cases anonymous with
  | true => exact Handler.takes_pure start
  | false => exact Handler.takes_bind refills_populate fun _ => Handler.takes_pure start

theorem adds_mapAt {prot : Protection} {anonymous : Bool}
    (hprot : Flags.ofBits? r.prot.toBitVec = some prot)
    (hlength : Word.alignUp? r.length pageBytes = some length) :
    Takes spaceOf (Adds r)
      (mapAt r prot.toPermissions anonymous length start : Handler (Kernel β) Address).run := by
  intro m hl
  unfold mapAt
  rw [Handler.after_bind_lift, mapRegion_apply]
  cases hm : m.state.space.mapAlloc start length prot.toPermissions true with
  | error e => exact Or.inl rfl
  | ok s =>
    dsimp only
    generalize hu : (onState m { m.state with space := s }).push _ = u
    obtain rfl : spaceOf u = s := by
      rw [← hu]
      rfl
    obtain ⟨x, hx, -, hadd⟩ := asked_of_refills hl hprot hlength hm (refills_fill u)
    exact Or.inr ⟨x, hx, hadd⟩

theorem asked_of_mapAt {prot : Protection} {anonymous : Bool} (hl : (spaceOf m).LaidOut)
    (hprot : Flags.ofBits? r.prot.toBitVec = some prot)
    (hlength : Word.alignUp? r.length pageBytes = some length)
    (h : (mapAt r prot.toPermissions anonymous length start).run m = .ok (.ok a) t) :
    ∃ x, Asked r x ∧ x.start = a ∧ spaceOf t = (spaceOf m).add x ∧ (spaceOf t).LaidOut := by
  obtain ⟨rfl, s, u, hm, hu, hanonymous, hfile⟩ := mapAt_eq_ok h
  obtain rfl : spaceOf u = s := congrArg (fun k => k.space) hu
  refine asked_of_refills hl hprot hlength hm ?_
  cases anonymous with
  | true =>
    rw [hanonymous rfl]
    exact Std.Refl.refl _
  | false => exact refills_populate.of_ok (hfile rfl)

theorem adds_mapMemory : Takes spaceOf (Adds r) (mapMemory r : Handler (Kernel β) Address).run :=
  takes_mapMemory blind_spaceOf lockless_spaceOf fun _ _ _ _ => adds_mapAt

theorem space_of_mapped (hl : (spaceOf m).LaidOut) (h : (mapMemory r).run m = .ok (.ok a) t) :
    ∃ x, Asked r x ∧ x.start = a ∧ spaceOf t = (spaceOf m).add x := by
  obtain ⟨prot, flags, length, start, l, u, v, hprot, -, hlength, -, -, hu, hmap, rfl⟩ :=
    mapMemory_eq_ok h
  have hspace : spaceOf u = spaceOf m := congrArg (fun k => k.space) hu
  obtain ⟨x, hx, hstart, hv, -⟩ := asked_of_mapAt (hspace ▸ hl) hprot hlength hmap
  exact ⟨x, hx, hstart, hspace ▸ hv⟩

theorem space_of_handleSyscall (hl : (spaceOf m).LaidOut) (fr : Frame) :
    spaceOf ((handleSyscall fr).after m) = spaceOf m ∨
      fr.number = mapNumber ∧ ∃ x, Asked fr.mapRequest x ∧
        spaceOf ((handleSyscall fr).after m) = (spaceOf m).add x ∧
        (spaceOf ((handleSyscall fr).after m)).LaidOut := by
  by_cases hn : fr.number = mapNumber
  · exact (grounded_spaceOf.handleSyscall (fun _ => adds_mapMemory) m hl).imp id fun h => ⟨hn, h⟩
  · have s : Serves (β := β) (Takes spaceOf Eq) := grounded_spaceOf.serves
    exact Or.inl ((s.handleSyscall_of_ne hn).keeps m)

/-- The layout of an address space and its bounds survive every run. -/
theorem laidOut_of_run (hl : (spaceOf m).LaidOut) (h : Run m t) :
    (spaceOf t).LaidOut ∧ (spaceOf t).base = (spaceOf m).base ∧
      (spaceOf t).size = (spaceOf m).size := by
  induction h with
  | start => exact ⟨hl, rfl, rfl⟩
  | call fr _ ih =>
    obtain ⟨ht, hbase, hsize⟩ := ih
    rcases space_of_handleSyscall ht fr with hsame | ⟨-, x, -, hadd, hl'⟩
    · rw [hsame]
      exact ⟨ht, hbase, hsize⟩
    · refine ⟨hl', ?_, ?_⟩
      · rw [hadd]
        exact hbase
      · rw [hadd]
        exact hsize
  | between k es _ _ hspace ih =>
    obtain ⟨ht, hbase, hsize⟩ := ih
    refine ⟨ht.congr hspace, ?_, ?_⟩
    · exact (congrArg AddressSpace.base hspace).trans hbase
    · exact (congrArg AddressSpace.size hspace).trans hsize

/-- A mapping adds one region to the layout, and nothing else changes the regions. -/
theorem mapping_geometry (hbound : (spaceOf m).base.toNat + (spaceOf m).size.toNat < 2 ^ 64)
    (hempty : (spaceOf m).regions = []) (h : Run m t) :
    (spaceOf t).LaidOut ∧ (spaceOf t).base = (spaceOf m).base ∧
      (spaceOf t).size = (spaceOf m).size ∧
      (∀ fr : Frame, let u := (handleSyscall fr).after t
        spaceOf u = spaceOf t ∨ fr.number = mapNumber ∧
          ∃ x, Asked fr.mapRequest x ∧ spaceOf u = (spaceOf t).add x) ∧
      ∀ r a u, (mapMemory r).run t = .ok (.ok a) u →
        ∃ x, Asked r x ∧ x.start = a ∧ spaceOf u = (spaceOf t).add x := by
  obtain ⟨hl, hbase, hsize⟩ := laidOut_of_run (AddressSpace.laidOut_of_nil hbound hempty) h
  refine ⟨hl, hbase, hsize, fun fr => ?_, fun r a u hmap => space_of_mapped hl hmap⟩
  exact (space_of_handleSyscall hl fr).imp id fun ⟨hn, x, hx, hadd, _⟩ => ⟨hn, x, hx, hadd⟩

/-- A file is mapped, and then its second byte once more in the page after it. -/
theorem mapping_geometry_second :
    let m : Machine (Kernel ArenaHeap) :=
      ((World.initial .important 42 (.empty 0x40000000 0x100000)).run
        [.install 0, .addFile ⟨#[47, 97]⟩ ⟨#[104, 105]⟩]).2.machine
    let fr : Frame := ⟨222, #v[0x40000000, 2, 3, 0x12, 3, 0]⟩
    let t := (handleSyscall fr).after m
    let r : MapRequest := ⟨0x40001000, 1, 1, 0x12, 3, 1⟩
    (spaceOf t).LaidOut ∧ ∃ u, (mapMemory r).run t = .ok (.ok 0x40001000) u ∧
      ∃ x, Asked r x ∧ x.start = 0x40001000 ∧ spaceOf u = (spaceOf t).add x := by
  intro m fr t r
  have hbound : (spaceOf m).base.toNat + (spaceOf m).size.toNat < 2 ^ 64 := by decide +kernel
  have hempty : (spaceOf m).regions = [] :=
    List.isEmpty_iff.mp (show (spaceOf m).regions.isEmpty = true by decide +kernel)
  have hr : (mapMemory r).answers t 0x40001000 = true := by decide +kernel
  obtain ⟨u, hu⟩ := Handler.run_of_answers hr
  have h := mapping_geometry hbound hempty (.call fr .start)
  exact ⟨h.1, u, hu, h.2.2.2.2 r _ u hu⟩

end KernelCore.Kernel
