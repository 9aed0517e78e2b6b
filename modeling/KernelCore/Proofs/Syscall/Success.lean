import KernelCore.Proofs.Syscall.Traversal

/-! # Mappings that succeed

A mapping that returned an address found a place for its pages, and its file open unless it is
anonymous. It was made at that place and then filled.
-/

namespace KernelCore.Kernel

open KernelCore.Action

variable {β : Type} {m t : Machine (Kernel β)} {r : MapRequest} {fd : Descriptor}
  {a start : Address} {length : UInt64} {permissions : Permissions}

/-- Where an address space has a place for a mapping of some length. -/
def MapRequest.placed? (r : MapRequest) (flags : MapFlags) (length : UInt64) (s : AddressSpace) :
    Option Address :=
  if flags.contains MapFlags.fixed then some r.addr else s.findFreeArea r.addr length s.limit

theorem place_eq_ok {flags : MapFlags} (h : (place r flags length).run m = .ok (.ok start) t) :
    t.state = m.state ∧ r.placed? flags length m.state.space = some start := by
  unfold place at h
  by_cases hfixed : flags.contains MapFlags.fixed = true
  · rw [if_pos hfixed] at h
    split at h
    · cases h
      exact ⟨rfl, if_pos hfixed⟩
    · cases h
  · rw [if_neg hfixed] at h
    obtain ⟨k, u, hk, h⟩ := Handler.bind_lift_eq_ok h
    cases hk
    obtain ⟨o, v, hfind, h⟩ := Handler.bind_lift_eq_ok h
    rw [findArea, ask_apply] at hfind
    cases hfind
    rw [MapRequest.placed?, if_neg hfixed]
    dsimp only at h
    split at h
    · cases h
      exact ⟨rfl, ‹_›⟩
    · cases h

theorem needOpenFile_eq_ok (h : (needOpenFile fd).run m = .ok (.ok ()) t) :
    t.state = m.state ∧ m.state.files.isOpen fd = true := by
  unfold needOpenFile at h
  split at h
  · obtain ⟨_, _, h, -⟩ := Handler.bind_eq_ok h
    cases h
  · obtain ⟨isOpen, u, hopen, h⟩ := Handler.bind_lift_eq_ok h
    rw [isOpenFile, ask_apply] at hopen
    cases hopen
    dsimp only at h
    split at h
    · cases h
      exact ⟨rfl, ‹_›⟩
    · cases h

theorem mapRegion_apply (m : Machine (Kernel β)) :
    mapRegion start length permissions m =
      match m.state.space.mapAlloc start length permissions true with
      | .ok s => .ok (.ok ()) ((onState m { m.state with space := s }).push
          [.called (.mapAlloc start length permissions true (.ok ())) m.state.lock.held])
      | .error e => .ok (.error e)
          (m.push
            [.called (.mapAlloc start length permissions true (.error e)) m.state.lock.held]) := by
  rw [mapRegion, ask_apply]
  cases m.state.space.mapAlloc start length permissions true <;> rfl

variable [HeapBackend β]

/-- A mapping that succeeds was made, and filled unless it is anonymous. -/
theorem mapAt_eq_ok {anonymous : Bool}
    (h : (mapAt r permissions anonymous length start).run m = .ok (.ok a) t) :
    a = start ∧ ∃ s u, m.state.space.mapAlloc start length permissions true = .ok s ∧
      u.state = { m.state with space := s } ∧ (anonymous = true → t = u) ∧
      (anonymous = false → (populate start r.length r.fd r.offset).run u = .ok (.ok ()) t) := by
  obtain ⟨o, u, hmap, h⟩ := Handler.bind_lift_eq_ok h
  rw [mapRegion_apply] at hmap
  cases hm : m.state.space.mapAlloc start length permissions true with
  | error e =>
    rw [hm] at hmap
    cases hmap
    obtain ⟨_, _, _, h⟩ := Handler.bind_lift_eq_ok h
    cases h
  | ok s =>
    rw [hm] at hmap
    cases hmap
    cases anonymous with
    | true =>
      cases h
      exact ⟨rfl, s, _, rfl, rfl, fun _ => rfl, nofun⟩
    | false =>
      obtain ⟨_, v, hpopulate, h⟩ := Handler.bind_eq_ok h
      cases h
      exact ⟨rfl, s, _, rfl, rfl, nofun, fun _ => hpopulate⟩

theorem mapPlaced_eq_ok {prot : Protection} {flags : MapFlags}
    (h : (mapPlaced r prot flags length).run m = .ok (.ok a) t) :
    ∃ start u, u.state = m.state ∧ r.placed? flags length m.state.space = some start ∧
      (flags.contains MapFlags.anonymous = false → m.state.files.isOpen r.fd = true) ∧
      (mapAt r prot.toPermissions (flags.contains MapFlags.anonymous) length start).run u =
        .ok (.ok a) t := by
  obtain ⟨start, u, hplace, h⟩ := Handler.bind_eq_ok h
  obtain ⟨hu, hplaced⟩ := place_eq_ok hplace
  cases hanon : flags.contains MapFlags.anonymous with
  | true =>
    rw [hanon] at h
    exact ⟨start, u, hu, hplaced, nofun, h⟩
  | false =>
    rw [hanon] at h
    obtain ⟨_, v, hneed, h⟩ := Handler.bind_eq_ok h
    obtain ⟨hv, hopen⟩ := needOpenFile_eq_ok hneed
    exact ⟨start, v, hv.trans hu, hplaced, fun _ => hu ▸ hopen, h⟩

theorem mapMemory_eq_ok (h : (mapMemory r).run m = .ok (.ok a) t) :
    ∃ (prot : Protection) (flags : MapFlags) (length : UInt64) (start : Address) (l : Spinlock)
      (u v : Machine (Kernel β)),
      Flags.ofBits? r.prot.toBitVec = some prot ∧ Flags.ofBits? r.flags.toBitVec = some flags ∧
      Word.alignUp? r.length pageBytes = some length ∧
      r.placed? flags length m.state.space = some start ∧
      (flags.contains MapFlags.anonymous = false → m.state.files.isOpen r.fd = true) ∧
      u.state = { m.state with lock := l } ∧
      (mapAt r prot.toPermissions (flags.contains MapFlags.anonymous) length start).run u =
        .ok (.ok a) v ∧
      t = unlocked v := by
  obtain ⟨record, ⟨e, hr⟩ | ⟨hr, -⟩ | ⟨prot, flags, length, hprot, hflags, hlength, -, hr⟩⟩ :=
    mapMemory_cases r m
  · rw [hr] at h
    cases h
  · rw [hr] at h
    cases h
  · rw [hr] at h
    obtain ⟨u, v, hu, hx, rfl⟩ := holdingLock_eq_ok h
    obtain ⟨start, w, hw, hplaced, hopen, hmap⟩ := mapPlaced_eq_ok hx
    unfold acquireLock at hu
    dsimp only at hu
    split at hu
    · cases hu
    · cases hu
      exact ⟨prot, flags, length, start, _, w, v, hprot, hflags, hlength, hplaced, hopen, hw, hmap,
        rfl⟩

end KernelCore.Kernel
