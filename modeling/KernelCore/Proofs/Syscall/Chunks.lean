import KernelCore.Proofs.Kernel.Following
import KernelCore.Proofs.Syscall.Geometry
import KernelCore.Proofs.Syscall.Transfer

/-! # Mappings read in other chunks

Where no read is refused, a mapping that succeeds succeeds as well when the file table serves other
chunks: up to the reads the two runs differ in the chunk only, and after them the same part of the
file is in the buffer.
-/

namespace KernelCore

namespace FileTable

variable {t u : FileTable} {fd : Descriptor} {f : OpenFile} {m : Memory} {buffer : Address}
  {c : Option UInt64} {length got : UInt64} {offset : Int64}

/-- The same files, served in other chunks. -/
def withChunk (c : Option UInt64) (t : FileTable) : FileTable :=
  { t with policy := { t.policy with chunk := c } }

theorem seek_withChunk (c : Option UInt64) (t : FileTable) (fd : Descriptor) (offset : Int64)
    (whence : Whence) :
    (t.withChunk c).seek fd offset whence =
      ((t.seek fd offset whence).1, (t.seek fd offset whence).2.withChunk c) := by
  have hfailed (n : UInt64) : (t.withChunk c).policy.failedSeek? n = t.policy.failedSeek? n := rfl
  have hget : { t.withChunk c with seeks := t.seeks + 1 }.get? fd =
      { t with seeks := t.seeks + 1 }.get? fd := rfl
  have hseeks : (t.withChunk c).seeks = t.seeks := rfl
  unfold seek seekTo
  dsimp only
  rw [hseeks, hfailed, hget]
  cases t.policy.failedSeek? (t.seeks + 1) with
  | some e => rfl
  | none =>
    dsimp only
    cases { t with seeks := t.seeks + 1 }.get? fd with
    | none => rfl
    | some f =>
      dsimp only
      split <;> rfl

theorem seek_start_congr {g : OpenFile} (hseeks : u.seeks = t.seeks)
    (hpolicy : u.policy = { t.policy with chunk := c }) (hu : u.get? fd = some g)
    {v : UInt64} (h : (t.seek fd offset .start).1 = .ok v) :
    (u.seek fd offset .start).1 = .ok v := by
  have hfailed (n : UInt64) : u.policy.failedSeek? n = t.policy.failedSeek? n := by
    rw [hpolicy]
    rfl
  have hget : { u with seeks := t.seeks + 1 }.get? fd = some g := hu
  unfold seek seekTo at h ⊢
  dsimp only at h ⊢
  rw [hseeks, hfailed, hget]
  cases hs : t.policy.failedSeek? (t.seeks + 1) with
  | some e =>
    rw [hs] at h
    cases h
  | none =>
    rw [hs] at h
    dsimp only at h ⊢
    split at h
    · cases h
    · rename_i f _
      by_cases hneg : Whence.start.origin f + offset < 0
      · rw [if_pos hneg] at h
        cases h
      · rw [if_neg hneg] at h
        rw [if_neg (show ¬ Whence.start.origin g + offset < 0 from hneg)]
        exact h

theorem readInto_serves (hf : t.get? fd = some f) (haccess : m.accessible buffer length = true)
    (hreads : t.policy.readsBeforeFailure = none) :
    ∃ got, (t.readInto m fd buffer length).1 = .ok got := by
  have hget : { t with reads := t.reads + 1 }.get? fd = some f := hf
  unfold readInto read
  rw [haccess, Bool.not_true, Bool.and_false, if_neg Bool.false_ne_true]
  dsimp only
  rw [hget, FilePolicy.failedRead?, hreads]
  exact ⟨_, rfl⟩

theorem seeks_readInto (t : FileTable) (m : Memory) (fd : Descriptor) (buffer : Address)
    (length : UInt64) : (t.readInto m fd buffer length).2.1.seeks = t.seeks := by
  unfold readInto read
  split
  · rfl
  · dsimp only
    cases { t with reads := t.reads + 1 }.get? fd with
    | none => rfl
    | some f =>
      dsimp only
      cases t.policy.failedRead? (t.reads + 1) <;> rfl

end FileTable

namespace Kernel

open KernelCore.Action FileTable

variable {β : Type} {m n t : Machine (Kernel β)} {fd : Descriptor} {f : OpenFile}
  {files : FileTable} {c : Option UInt64} {a start buffer : Address}
  {length total offset count : UInt64}

/-- Reading on to accessible memory never fails, unless reads are to be refused. -/
theorem readOn_serves (hf : m.state.files.get? fd = some f)
    (hbuffer : m.state.memory.accessible buffer length = true)
    (hreads : m.state.files.policy.readsBeforeFailure = none) :
    ∃ n t, readOn fd buffer length total m = .ok (n, none) t := by
  induction total using readOn.induct length generalizing m f with
  | case1 total hlt ih =>
    rw [readOn_of_lt hlt]
    have hbound : buffer.toNat + length.toNat ≤ 2 ^ 64 := Memory.accessible_bounded hbuffer
    have hlt := UInt64.lt_iff_toNat_lt.mp hlt
    have hsub := UInt64.toNat_sub_of_le _ _ (UInt64.le_iff_toNat_le.mpr (Nat.le_of_lt hlt))
    have hstart : (buffer + total).toNat = buffer.toNat + total.toNat := by
      rw [UInt64.toNat_add, Nat.mod_eq_of_lt (by omega)]
    have haccess : m.state.memory.accessible (buffer + total) (length - total) = true :=
      Memory.accessible_sub hbuffer (by omega) (by omega)
    obtain ⟨got, hgot⟩ := readInto_serves hf haccess hreads
    obtain ⟨-, -, htook⟩ := took_readFile hf hgot
    obtain ⟨cursor, hfiles, -⟩ := htook.cursor
    rw [hgot]
    dsimp only
    split
    · exact ⟨_, _, rfl⟩
    · split
      · exact ⟨_, _, rfl⟩
      · exact ih got ‹_› ‹_› hfiles ((htook.accessible_eq _ _).trans hbuffer)
          (htook.policy_eq ▸ hreads)
  | case2 total hge => exact ⟨_, _, readOn_of_ge hge m⟩

/-- What reading a file leaves alone. -/
def besidesFiles (m : Machine (Kernel β)) :
    (Vector BootMemory 3 × Vector β 2 × Option MemoryId × Option HeapId) × AddressSpace :=
  ((m.state.memories, m.state.heaps, m.state.attached, m.state.installed), m.state.space)

theorem keeps_besidesFiles :
    Keeps besidesFiles (readContents fd offset buffer length : Handler (Kernel β) UInt64).run :=
  (compositional_takes.readContents (fun _ _ _ => rfl) fun _ _ _ => rfl).keeps

theorem sameHeaps_of_besidesFiles (h : besidesFiles m = besidesFiles n) :
    SameHeaps m.state n.state ∧ m.state.space = n.state.space := by
  simp only [besidesFiles, Prod.mk.injEq] at h
  obtain ⟨⟨hmemories, hheaps, hattached, hinstalled⟩, hspace⟩ := h
  exact ⟨⟨hmemories, hheaps, hattached, hinstalled⟩, hspace⟩

theorem seeks_of_readOn {x : UInt64 × Option Errno}
    (h : readOn fd buffer length total m = .ok x t) :
    t.state.files.seeks = m.state.files.seeks := by
  have hkeeps : Keeps (fun m : Machine (Kernel β) => m.state.files.seeks)
      (readOn fd buffer length total) :=
    (compositional_takes.readOn fun _ _ m => (seeks_readInto _ _ _ _ _).symm).keeps
  exact hkeeps.of_ok h

/-- The second kernel serves the files of the first one in other chunks. -/
def Rechunked (c : Option UInt64) (k l : Kernel β) : Prop := l = k.setFiles (k.files.withChunk c)

theorem repeats_seekFile (offset : Int64) (whence : Whence) :
    Repeats (Rechunked c) (Rechunked c) (seekFile fd offset whence : Handler (Kernel β) UInt64)
      (seekFile fd offset whence) := by
  refine repeats_request fun k l h => ?_
  obtain rfl : l = k.setFiles (k.files.withChunk c) := h
  have hseek : (k.setFiles (k.files.withChunk c)).files.seek fd offset whence = _ :=
    seek_withChunk c k.files fd offset whence
  rw [hseek]
  exact ⟨rfl, rfl⟩

theorem repeats_moveCursor :
    Repeats (Rechunked c) (Rechunked c)
      (moveCursor fd offset : Handler (Kernel β) (Option UInt64)) (moveCursor fd offset) := by
  unfold moveCursor
  split
  · exact repeats_pure none
  · exact (repeats_seekFile _ _).bind fun cursor =>
      (repeats_seekFile _ _).bind fun _ => repeats_pure (some cursor)

theorem readOn_again (hc : c ≠ some 0) (hchunk : m.state.files.policy.chunk ≠ some 0)
    (hreads : m.state.files.policy.readsBeforeFailure = none)
    (hf : m.state.files.get? fd = some f) (hlength : 0 < length)
    (hn : Rechunked c m.state n.state) (h : readOn fd buffer length 0 m = .ok (count, none) t) :
    ∃ k u, readOn fd buffer length 0 n = .ok (k, none) u ∧
      u.state.files.seeks = t.state.files.seeks ∧
      u.state.files.policy = { t.state.files.policy with chunk := c } ∧
      ∃ g, u.state.files.get? fd = some g := by
  have hfiles : n.state.files = m.state.files.withChunk c := congrArg (·.files) hn
  have hmemory : n.state.memory = m.state.memory := congrArg (·.memory) hn
  have hget : n.state.files.get? fd = some f := by
    rw [hfiles]
    exact hf
  have hpolicy : n.state.files.policy = { m.state.files.policy with chunk := c } := by
    rw [hfiles]
    rfl
  have hbuffer := accessible_of_readOn hf hlength h
  have hbuffer' : n.state.memory.accessible buffer length = true := hmemory ▸ hbuffer
  obtain ⟨k, u, hu⟩ : ∃ k u, readOn fd buffer length 0 n = .ok (k, none) u :=
    readOn_serves hget hbuffer' (by rw [hpolicy]; exact hreads)
  obtain ⟨_, -, -, htook⟩ := took_readOn hbuffer hchunk hf (Nat.zero_le _) h
  obtain ⟨_, -, -, htook'⟩ :=
    took_readOn hbuffer' (by rw [hpolicy]; exact hc) hget (Nat.zero_le _) hu
  obtain ⟨cursor, hcursor, -⟩ := htook'.cursor
  refine ⟨k, u, hu, ?_, ?_, _, hcursor⟩
  · rw [seeks_of_readOn hu, seeks_of_readOn h, hfiles]
    rfl
  · rw [htook'.policy_eq, htook.policy_eq, hpolicy]

theorem restoreCursor_again {g : OpenFile} {saved : Option UInt64}
    (hseeks : n.state.files.seeks = m.state.files.seeks)
    (hpolicy : n.state.files.policy = { m.state.files.policy with chunk := c })
    (hg : n.state.files.get? fd = some g) (h : restoreCursor fd saved m = .ok none t) :
    ∃ u, restoreCursor fd saved n = .ok none u := by
  cases saved with
  | none => exact ⟨n, rfl⟩
  | some cursor =>
    rw [restoreCursor, bind_apply, seekFile_apply] at h ⊢
    cases hr : (m.state.files.seek fd cursor.toInt64 .start).1 with
    | error e =>
      rw [hr] at h
      cases h
    | ok v =>
      rw [seek_start_congr hseeks hpolicy hg hr]
      exact ⟨_, rfl⟩

/-- Reading a file that succeeds also succeeds in other chunks. -/
theorem readContents_again (hc : c ≠ some 0) (hchunk : m.state.files.policy.chunk ≠ some 0)
    (hreads : m.state.files.policy.readsBeforeFailure = none)
    (hf : m.state.files.get? fd = some f) (hlength : 0 < length)
    (hn : Rechunked c m.state n.state)
    (h : (readContents fd offset buffer length).run m = .ok (.ok count) t) :
    ∃ k u, (readContents fd offset buffer length).run n = .ok (.ok k) u := by
  obtain ⟨saved, v, hmove, h⟩ := Handler.bind_eq_ok h
  obtain ⟨⟨total, readError⟩, w, hread, h⟩ := Handler.bind_lift_eq_ok h
  obtain ⟨restoreError, z, hrestore, h⟩ := Handler.bind_lift_eq_ok h
  split at h
  · cases h
  · rename_i hnone
    obtain ⟨rfl, rfl⟩ := Option.or_eq_none_iff.mp hnone
    have hget := moveCursor_eq_ok hf hmove
    obtain ⟨-, hpolicy⟩ := Prod.mk.inj ((compositional_takes.moveCursor takes_seekFile).of_ok hmove)
    obtain ⟨v', hmove', hv⟩ := repeats_moveCursor m n saved v hn hmove
    obtain ⟨k, w', hread', hseeks, hpolicy', g, hg⟩ :=
      readOn_again hc (hpolicy ▸ hchunk) (hpolicy ▸ hreads) hget hlength hv hread
    obtain ⟨z', hrestore'⟩ := restoreCursor_again hseeks hpolicy' hg hrestore
    refine ⟨k, z', ?_⟩
    rw [readContents, Handler.bind_apply, hmove']
    dsimp only
    rw [Handler.bind_lift_apply, hread']
    dsimp only
    rw [Handler.bind_lift_apply, hrestore']
    rfl

theorem readContents_same (hc : c ≠ some 0) (hchunk : m.state.files.policy.chunk ≠ some 0)
    (hreads : m.state.files.policy.readsBeforeFailure = none)
    (hf : m.state.files.get? fd = some f) (hlength : 0 < length)
    (hn : Rechunked c m.state n.state)
    (h : (readContents fd offset buffer length).run m = .ok (.ok count) t) :
    ∃ u, (readContents fd offset buffer length).run n = .ok (.ok count) u ∧
      SameHeaps t.state u.state ∧ t.state.space = u.state.space ∧
      (u.state.memory.load? buffer count).getD .empty =
        (t.state.memory.load? buffer count).getD .empty := by
  obtain ⟨k, u, hu⟩ := readContents_again hc hchunk hreads hf hlength hn h
  have hfiles : n.state.files = m.state.files.withChunk c := congrArg (·.files) hn
  have hchunk' : n.state.files.policy.chunk ≠ some 0 := by
    rw [hfiles]
    exact hc
  obtain ⟨hcount, hload⟩ := readContents_eq_ok hchunk hf hlength h
  obtain ⟨hk, hload'⟩ := readContents_eq_ok hchunk' (by rw [hfiles]; exact hf) hlength hu
  obtain rfl : k = count := UInt64.toNat_inj.mp (hk.trans hcount.symm)
  have hbesides : besidesFiles m = besidesFiles n := by
    rw [besidesFiles, besidesFiles, show n.state = _ from hn]
    rfl
  obtain ⟨hheaps, hspace⟩ := sameHeaps_of_besidesFiles <|
    (keeps_besidesFiles.of_ok h).trans (hbesides.trans (keeps_besidesFiles.of_ok hu).symm)
  exact ⟨u, hu, hheaps, hspace, hload'.trans hload.symm⟩

/-- The second kernel is the first one with its files served in other chunks, while these are the
files that a mapping found. -/
structure Staged (c : Option UInt64) (files : FileTable) (k l : Kernel β) : Prop where
  files_eq : k.files = files
  rechunked : Rechunked c k l

theorem Staged.space_eq {k l : Kernel β} (h : Staged c files k l) : l.space = k.space :=
  congrArg (·.space) h.rechunked

theorem Staged.lock_eq {k l : Kernel β} (h : Staged c files k l) : k.lock = l.lock :=
  (congrArg (·.lock) h.rechunked).symm

theorem Staged.setLock {k l : Kernel β} (h : Staged c files k l) (b : Spinlock) :
    Staged c files { k with lock := b } { l with lock := b } := by
  obtain ⟨hfiles, rfl⟩ := h
  exact ⟨hfiles, rfl⟩

theorem heapwise_staged : Heapwise (Staged (β := β) c files) where
  same := by
    rintro k _ ⟨-, rfl⟩
    exact ⟨rfl, rfl, rfl, rfl⟩
  setMemory := by
    rintro k _ id b ⟨hfiles, rfl⟩
    exact ⟨hfiles, rfl⟩
  setHeap := by
    rintro k _ h x ⟨hfiles, rfl⟩
    exact ⟨hfiles, rfl⟩

theorem repeats_place [HeapBackend β] {r : MapRequest} {flags : MapFlags} :
    Repeats (Staged c files) (Staged c files)
      (place r flags length : Handler (Kernel β) Address) (place r flags length) := by
  unfold place
  split
  · split
    · exact repeats_pure r.addr
    · exact repeats_of_throw
  · refine repeats_bind_current fun k l hkl => ?_
    rw [hkl.space_eq]
    refine repeats_bind_lift (T := Staged c files) (follows_ask ?_) fun o => ?_
    · exact fun k l h => ⟨by rw [h.space_eq], h⟩
    · cases o with
      | none => exact repeats_of_throw
      | some start => exact repeats_pure start

theorem repeats_needOpenFile :
    Repeats (Staged c files) (Staged c files)
      (needOpenFile fd : Handler (Kernel β) Unit) (needOpenFile fd) := by
  have hopen : Repeats (Staged c files) (Staged c files)
      (do unless ← ExceptT.lift (isOpenFile fd) do throw .badDescriptor : Handler (Kernel β) Unit)
      (do unless ← ExceptT.lift (isOpenFile fd) do throw .badDescriptor) := by
    refine repeats_bind_lift (T := Staged c files) (follows_ask ?_) fun o => ?_
    · rintro k _ ⟨hfiles, rfl⟩
      exact ⟨rfl, hfiles, rfl⟩
    · cases o with
      | false => exact repeats_of_throw
      | true => exact repeats_pure ()
  unfold needOpenFile
  split
  · exact repeats_of_throw_bind
  · exact hopen

theorem follows_needTask :
    Follows (Staged c files) (Staged c files) (needTask : Action (Kernel β) Unit) needTask := by
  refine follows_current fun k l h => ?_
  have htask : l.task = k.task := congrArg (·.task) h.rechunked
  rw [htask]
  split
  · exact follows_pure ()
  · exact follows_of_fault

theorem follows_mapRegion {permissions : Permissions} :
    Follows (Staged c files) (Staged c files)
      (mapRegion start length permissions : Action (Kernel β) _)
      (mapRegion start length permissions) := by
  refine follows_ask fun k l h => ?_
  rw [h.space_eq]
  cases k.space.mapAlloc start length permissions true with
  | error e => exact ⟨rfl, h⟩
  | ok s =>
    obtain rfl : l = k.setFiles (k.files.withChunk c) := h.rechunked
    exact ⟨rfl, h.files_eq, rfl⟩

section Filling

variable (hc : c ≠ some 0) (hchunk : files.policy.chunk ≠ some 0)
  (hreads : files.policy.readsBeforeFailure = none)

include hc hchunk hreads

theorem repeats_copyContents (hf : files.get? fd = some f) (hlength : 0 < length) :
    Repeats (Staged c files) SameHeaps
      (copyContents start length fd offset buffer : Handler (Kernel β) Unit)
      (copyContents start length fd offset buffer) := by
  rintro m n ⟨⟩ t ⟨rfl, hn⟩ h
  obtain ⟨count, u, hread, h⟩ := Handler.bind_eq_ok h
  obtain ⟨u', hread', hheaps, hspace, hload⟩ :=
    readContents_same hc hchunk hreads hf hlength hn hread
  rw [Handler.bind_lift_apply, say_apply] at h
  dsimp only at h
  rw [Handler.bind_lift_apply, writeRegion, ask_apply, Machine.state_push, ← hload, hspace] at h
  rw [copyContents, Handler.bind_apply, hread']
  dsimp only
  rw [Handler.bind_lift_apply, say_apply]
  dsimp only
  rw [Handler.bind_lift_apply, writeRegion, ask_apply, Machine.state_push]
  cases hw : u'.state.space.write start ((u'.state.memory.load? buffer count).getD .empty) with
  | error e =>
    rw [hw] at h
    obtain ⟨_, _, _, h⟩ := Handler.bind_lift_eq_ok h
    cases h
  | ok s =>
    rw [hw] at h
    cases h
    exact ⟨_, rfl, hheaps.1, hheaps.2, hheaps.3, hheaps.4⟩

variable [HeapBackend β]

theorem repeats_populate (hf : files.get? fd = some f) (hlength : 0 < length) :
    Repeats (Staged c files) SameHeaps
      (populate start length fd offset : Handler (Kernel β) Unit)
      (populate start length fd offset) := by
  refine repeats_bind_lift (heapwise_staged.allocate length 1) fun p => ?_
  cases p with
  | none => exact repeats_of_throw
  | some buffer =>
    refine repeats_bind_lift (T := Staged c files) (follows_update ?_) fun _ => ?_
    · rintro k _ ⟨hfiles, rfl⟩
      exact ⟨hfiles, rfl⟩
    -- The outcome of the copy is kept while the buffer is given back.
    · intro m n a t hmn h
      obtain ⟨outcome, u, hcopy, h⟩ := Handler.bind_lift_eq_ok h
      obtain ⟨_, v, hfree, h⟩ := Handler.bind_lift_eq_ok h
      cases h
      obtain ⟨u', hcopy', hheaps⟩ :=
        repeats_copyContents hc hchunk hreads hf hlength m n a u hmn hcopy
      obtain ⟨v', hfree', hheaps'⟩ := heapwise_sameHeaps.free buffer u u' () t hheaps hfree
      refine ⟨v', ?_, hheaps'⟩
      rw [Handler.bind_lift_apply, hcopy']
      dsimp only
      rw [Handler.bind_lift_apply, hfree']
      rfl

theorem repeats_mapAt {r : MapRequest} (hf : files.get? r.fd = some f) (hlength : 0 < r.length)
    (permissions : Permissions) (anonymous : Bool) :
    Repeats (Staged c files) SameHeaps
      (mapAt r permissions anonymous length start : Handler (Kernel β) Address)
      (mapAt r permissions anonymous length start) := by
  refine repeats_bind_lift follows_mapRegion fun o => ?_
  cases o with
  | error e => exact repeats_bind_lift (follows_note _) fun _ => repeats_of_throw
  | ok u =>
    cases anonymous with
    | true => exact (repeats_pure start).mono heapwise_staged.same
    | false => exact (repeats_populate hc hchunk hreads hf hlength).bind fun _ => repeats_pure start

theorem repeats_mapPlaced {r : MapRequest} (hf : files.get? r.fd = some f) (hlength : 0 < r.length)
    (prot : Protection) (flags : MapFlags) :
    Repeats (Staged c files) SameHeaps
      (mapPlaced r prot flags length : Handler (Kernel β) Address)
      (mapPlaced r prot flags length) := by
  have hmap (start : Address) (anonymous : Bool) : Repeats (Staged c files) SameHeaps
      (mapAt r prot.toPermissions anonymous length start : Handler (Kernel β) Address)
      (mapAt r prot.toPermissions anonymous length start) :=
    repeats_mapAt hc hchunk hreads hf hlength prot.toPermissions anonymous
  refine repeats_place.bind fun start => ?_
  dsimp only
  split
  · exact hmap start _
  · exact repeats_needOpenFile.bind fun _ => hmap start _

theorem repeats_mapMemory {r : MapRequest} (hf : files.get? r.fd = some f) :
    Repeats (Staged c files) (fun _ _ => True) (mapMemory r : Handler (Kernel β) Address)
      (mapMemory r) := by
  unfold mapMemory
  split
  · rename_i prot flags _ _
    refine repeats_bind_lift (follows_note _) fun _ => ?_
    split
    · exact repeats_of_throw
    · rename_i length hlength
      by_cases hz : length = 0
      · rw [if_pos hz]
        exact repeats_of_throw_bind
      · rw [if_neg hz]
        exact repeats_bind_lift follows_needTask fun _ =>
          repeats_holdingLock (fun _ _ h => h.lock_eq) (fun _ _ b h => h.setLock b) <|
            repeats_mapPlaced hc hchunk hreads hf (length_pos hlength hz) prot flags
  · exact repeats_bind_lift (follows_note _) fun _ => repeats_of_throw

end Filling

/-- The machine whose files are served in other chunks. -/
def withChunk (c : Option UInt64) (m : Machine (Kernel β)) : Machine (Kernel β) :=
  onState m (m.state.setFiles (m.state.files.withChunk c))

/-- Where no read is refused, a mapping that succeeds has the same answer in other chunks. -/
theorem mapMemory_withChunk [HeapBackend β] {r : MapRequest} (hc : c ≠ some 0)
    (hchunk : m.state.files.policy.chunk ≠ some 0)
    (hreads : m.state.files.policy.readsBeforeFailure = none)
    (hf : m.state.files.get? r.fd = some f) (h : (mapMemory r).run m = .ok (.ok a) t) :
    ∃ u, (mapMemory r).run (withChunk c m) = .ok (.ok a) u := by
  obtain ⟨u, hu, -⟩ :=
    repeats_mapMemory hc hchunk hreads hf m (withChunk c m) a t ⟨rfl, rfl⟩ h
  exact ⟨u, hu⟩

end Kernel

end KernelCore
