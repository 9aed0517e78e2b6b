import KernelCore.Proofs.Syscall.Chunks
import KernelCore.Proofs.Syscall.Geometry

/-! # The contents of a file mapping

What a buffer holds of a file goes from there to the new region. So the region holds the bytes of
the file from the offset on, or from the cursor on, as far as the file and the request go, and zero
after them.
-/

namespace KernelCore

namespace Kernel

open KernelCore.Action FileTable

variable {β : Type} {m t u : Machine (Kernel β)} {r : MapRequest} {fd : Descriptor} {f : OpenFile}
  {a start buffer : Address} {length count offset : UInt64}

theorem space_of_copyContents {xs : List Region} {x : Region}
    (hchunk : m.state.files.policy.chunk ≠ some 0) (hf : m.state.files.get? fd = some f)
    (hlength : 0 < length) (hl : (spaceOf m).LaidOut) (hs : (spaceOf m).regions = xs ++ [x])
    (h : (copyContents x.start length fd offset buffer).run m = .ok (.ok ()) t) :
    spaceOf t =
      { spaceOf m with regions := xs ++ [x.write x.start (f.portion offset length)] } := by
  obtain ⟨count, u, hread, h⟩ := Handler.bind_eq_ok h
  obtain ⟨_, v, hsay, h⟩ := Handler.bind_lift_eq_ok h
  obtain ⟨o, w, hwrite, h⟩ := Handler.bind_lift_eq_ok h
  obtain ⟨-, hload⟩ := readContents_eq_ok hchunk hf hlength hread
  have hspace : spaceOf u = spaceOf m := keeps_readContents_spaceOf.of_ok hread
  rw [say_apply] at hsay
  cases hsay
  rw [writeRegion, ask_apply, Machine.state_push, hload] at hwrite
  cases hw : u.state.space.write x.start (f.portion offset length) with
  | error e =>
    rw [hw] at hwrite
    cases hwrite
    obtain ⟨_, _, _, h⟩ := Handler.bind_lift_eq_ok h
    cases h
  | ok s =>
    rw [hw] at hwrite
    cases hwrite
    cases h
    rw [← hspace] at hl hs ⊢
    refine hl.write_newest hs ?_ hw
    have := length.toNat_lt
    rw [OpenFile.size_portion]
    omega

/-- The address space and the files, which finding a buffer and clearing it leaves alone. -/
def mappedFiles (m : Machine (Kernel β)) : AddressSpace × FileTable :=
  (m.state.space, m.state.files)

theorem blind_mappedFiles : Blind (mappedFiles : Machine (Kernel β) → _) where
  push _ _ _ := rfl
  state _ _ h := Prod.ext h.space_eq h.files_eq

variable [HeapBackend β]

theorem space_of_populate {xs : List Region} {x : Region}
    (hchunk : m.state.files.policy.chunk ≠ some 0) (hf : m.state.files.get? fd = some f)
    (hlength : 0 < length) (hl : (spaceOf m).LaidOut) (hs : (spaceOf m).regions = xs ++ [x])
    (h : (populate x.start length fd offset).run m = .ok (.ok ()) t) :
    spaceOf t =
      { spaceOf m with regions := xs ++ [x.write x.start (f.portion offset length)] } := by
  have q : Quiet (Takes (mappedFiles : Machine (Kernel β) → _) Eq) := blind_mappedFiles.quiet
  have qs : Quiet (Takes (spaceOf : Machine (Kernel β) → _) Eq) := blind_spaceOf.quiet
  obtain ⟨p, u, halloc, h⟩ := Handler.bind_lift_eq_ok h
  obtain ⟨huspace, hufiles⟩ := Prod.mk.inj (q.allocate.of_ok halloc)
  cases p with
  | none => cases h
  | some buffer =>
    obtain ⟨_, v, hclear, h⟩ := Handler.bind_lift_eq_ok h
    obtain ⟨hvspace, hvfiles⟩ := Prod.mk.inj ((q.clearBytes _ _).of_ok hclear)
    obtain ⟨outcome, w, hcopy, h⟩ := Handler.bind_lift_eq_ok h
    obtain ⟨_, z, hfree, h⟩ := Handler.bind_lift_eq_ok h
    cases h
    have hspace : spaceOf m = spaceOf v := huspace.trans hvspace
    have hfiles : m.state.files = v.state.files := hufiles.trans hvfiles
    rw [hfiles] at hchunk hf
    rw [hspace] at hl hs ⊢
    exact (qs.free.of_ok hfree).symm.trans (space_of_copyContents hchunk hf hlength hl hs hcopy)

/-- A request that does not ask for anonymous memory. -/
def MapRequest.FileBacked (r : MapRequest) : Prop :=
  (⟨r.flags.toBitVec⟩ : MapFlags).contains MapFlags.anonymous = false

instance (r : MapRequest) : Decidable r.FileBacked := inferInstanceAs (Decidable (_ = false))

/-- The region that shows a file as a request asks for it, at the place that a space has for it. -/
def MapRequest.image? (r : MapRequest) (s : AddressSpace) (f : OpenFile) : Option Region := do
  let prot : Protection ← Flags.ofBits? r.prot.toBitVec
  let flags : MapFlags ← Flags.ofBits? r.flags.toBitVec
  let length ← Word.alignUp? r.length pageBytes
  let start ← r.placed? flags length s
  return ⟨start, length, prot.toPermissions, true,
    ByteStore.empty.write 0 (f.portion r.offset r.length)⟩

theorem MapRequest.image?_eq_some {s : AddressSpace} {x : Region} (h : r.image? s f = some x) :
    x.length.toNat = (r.length.toNat + 4095) / 4096 * 4096 ∧
      x.contents = ByteStore.empty.write 0 (f.portion r.offset r.length) := by
  simp only [image?, Option.bind_eq_bind, Option.bind_eq_some_iff, Option.pure_def,
    Option.some.injEq] at h
  obtain ⟨prot, -, flags, -, length, hlength, start, -, rfl⟩ := h
  refine ⟨toNat_length hlength, ?_⟩
  dsimp only

theorem write_start (x : Region) (data : ByteArray) :
    x.write x.start data = { x with contents := x.contents.write 0 data } := by
  rw [Region.write, Region.offset, UInt64.sub_self]
  rfl

/-- A file mapping that succeeds adds the image of its file. -/
theorem space_of_mapped_file (hl : (spaceOf m).LaidOut)
    (hchunk : m.state.files.policy.chunk ≠ some 0) (hr : r.FileBacked)
    (h : (mapMemory r).run m = .ok (.ok a) t) :
    ∃ f x, m.state.files.get? r.fd = some f ∧ r.image? (spaceOf m) f = some x ∧ x.start = a ∧
      spaceOf t = (spaceOf m).add x := by
  obtain ⟨prot, flags, length, start, l, u, v, hprot, hflags, hlength, hplaced, hopen, hu, hmap,
    rfl⟩ := mapMemory_eq_ok h
  have hfile : flags.contains MapFlags.anonymous = false := by
    obtain ⟨hbits, -⟩ := Flags.ofBits?_eq_some_iff.mp hflags
    rw [MapRequest.FileBacked, ← hbits] at hr
    exact hr
  obtain ⟨f, hf⟩ := Option.isSome_iff_exists.mp (hopen hfile)
  rw [hfile] at hmap
  obtain ⟨rfl, s, w, hs, hw, -, hpopulate⟩ := mapAt_eq_ok hmap
  rw [hu] at hs hw
  obtain rfl : spaceOf w = s := congrArg (fun k => k.space) hw
  have hwfiles : w.state.files = m.state.files := congrArg (fun k => k.files) hw
  have hlw := hl.mapAlloc (contains_user_toPermissions prot) hs
  obtain ⟨-, hnonempty, -, -, -, hspace⟩ := AddressSpace.mapAlloc_eq_ok hs
  have hregions : (spaceOf w).regions =
      (spaceOf m).regions ++ [⟨a, length, prot.toPermissions, true, .empty⟩] :=
    congrArg AddressSpace.regions hspace
  have hfilled := space_of_populate (hwfiles ▸ hchunk) (hwfiles ▸ hf)
    (length_pos hlength hnonempty) hlw hregions (hpopulate rfl)
  refine ⟨f, ⟨a, length, prot.toPermissions, true,
    ByteStore.empty.write 0 (f.portion r.offset r.length)⟩, hf, ?_, rfl, ?_⟩
  · simp only [MapRequest.image?, hprot, hflags, hlength, hplaced, spaceOf, Option.bind_eq_bind,
      Option.bind_some, Option.pure_def]
  · change spaceOf v = _
    rw [hfilled, write_start, hspace]
    rfl

/-- A file mapping holds the bytes of the file and zero after them, in any chunks. -/
theorem contents_of_mapped_file {s : Machine (Kernel β)}
    (hbound : (spaceOf s).base.toNat + (spaceOf s).size.toNat < 2 ^ 64)
    (hempty : (spaceOf s).regions = []) (hrun : Run s m)
    (hchunk : m.state.files.policy.chunk ≠ some 0) (hr : r.FileBacked)
    (h : (mapMemory r).run m = .ok (.ok a) t) :
    (∃ f x, m.state.files.get? r.fd = some f ∧ spaceOf t = (spaceOf m).add x ∧ x.start = a ∧
      x.length.toNat = (r.length.toNat + 4095) / 4096 * 4096 ∧
      ∀ i, x.contents.get i =
        if i < min r.length.toNat (f.size.toNat - (f.readFrom r.offset).toNat) then
          f.get ((f.readFrom r.offset).toNat + i)
        else 0) ∧
    ∀ c, c ≠ some 0 →
      (∀ b u, (mapMemory r).run (withChunk c m) = .ok (.ok b) u → b = a ∧ spaceOf u = spaceOf t) ∧
      (m.state.files.policy.readsBeforeFailure = none →
        ∃ u, (mapMemory r).run (withChunk c m) = .ok (.ok a) u) := by
  obtain ⟨hl, -⟩ := laidOut_of_run (AddressSpace.laidOut_of_nil hbound hempty) hrun
  obtain ⟨f, x, hf, himage, hstart, hspace⟩ := space_of_mapped_file hl hchunk hr h
  obtain ⟨hlength, hcontents⟩ := MapRequest.image?_eq_some himage
  refine ⟨⟨f, x, hf, hspace, hstart, hlength, fun i => ?_⟩, fun c hc => ⟨fun b u hu => ?_, ?_⟩⟩
  · rw [hcontents, OpenFile.get_write_portion]
  · have hl' : (spaceOf (withChunk c m)).LaidOut := hl
    obtain ⟨g, y, hg, hother, hb, hu⟩ := space_of_mapped_file hl' hc hr hu
    obtain rfl : f = g := Option.some.inj (hf.symm.trans hg)
    obtain rfl : x = y := Option.some.inj (himage.symm.trans hother)
    exact ⟨hb.symm.trans hstart, hu.trans hspace.symm⟩
  · exact fun hreads => mapMemory_withChunk hc hchunk hreads hf h

/-- Two bytes of a file of five, in short reads or in one. -/
theorem contents_of_mapped_file_short_reads :
    let m : Machine (Kernel ArenaHeap) :=
      ((World.initial .important 42 (.empty 0x40000000 0x100000)).run
        [.install 0, .addFile ⟨#[47, 97]⟩ ⟨#[104, 101, 114, 111, 110]⟩,
          .configureFiles { FilePolicy.plain with chunk := some 2 }]).2.machine
    let r : MapRequest := ⟨0x40000000, 2, 1, 0x12, 3, 3⟩
    ∃ t u f x, (mapMemory r).run m = .ok (.ok 0x40000000) t ∧ m.state.files.get? 3 = some f ∧
      spaceOf t = (spaceOf m).add x ∧
      (∀ i, x.contents.get i = if i < min 2 (f.size.toNat - 3) then f.get (3 + i) else 0) ∧
      (mapMemory r).run (withChunk none m) = .ok (.ok 0x40000000) u ∧ spaceOf u = spaceOf t := by
  intro m r
  have hbound : (spaceOf m).base.toNat + (spaceOf m).size.toNat < 2 ^ 64 := by decide +kernel
  have hempty : (spaceOf m).regions = [] :=
    List.isEmpty_iff.mp (show (spaceOf m).regions.isEmpty = true by decide +kernel)
  have hchunk : m.state.files.policy.chunk ≠ some 0 := by decide +kernel
  have hreads : m.state.files.policy.readsBeforeFailure = none := by decide +kernel
  have hr : r.FileBacked := by decide +kernel
  have hrun : (mapMemory r).answers m 0x40000000 = true := by decide +kernel
  obtain ⟨t, ht⟩ := Handler.run_of_answers hrun
  obtain ⟨⟨f, x, hf, hspace, -, -, hcontents⟩, hchunks⟩ :=
    contents_of_mapped_file hbound hempty .start hchunk hr ht
  obtain ⟨hsame, hserved⟩ := hchunks none (by decide)
  obtain ⟨u, hu⟩ := hserved hreads
  exact ⟨t, u, f, x, ht, hf, hspace, hcontents, hu, (hsame _ u hu).2⟩

end Kernel

end KernelCore
