import KernelCore.Kernel.World
import KernelCore.Proofs.Files.Cursor
import KernelCore.Proofs.Syscall.Reading

/-! # Cursors across a mapping

A mapping that is asked to start at an offset saves the cursor of its file, moves it, reads, and
puts it back. If the seek that puts it back is refused the cursor stays where the reads took it. A
mapping from the cursor on moves the cursor by the bytes that it read.
-/

namespace KernelCore

namespace Call

/-- The calls that may move a cursor for a mapping. -/
def usesFile : Call → Bool
  | .fileRead .. | .fileSeek .. => true
  | _ => false

def bytesRead : Call → Nat
  | .fileRead _ _ _ r => FileTable.readCount r
  | _ => 0

def seekResult? : Call → Option (Except Errno UInt64)
  | .fileSeek _ _ _ r => some r
  | _ => none

/-- The error of a read or a seek that was refused. -/
def refusal? : Call → Option Errno
  | .fileRead _ _ _ (.error e) | .fileSeek _ _ _ (.error e) => some e
  | _ => none

theorem usesFile_eq_false {c : Call} (h : c.quiet = true) : c.usesFile = false := by
  cases c <;> simp_all [quiet, usesFile]

/-- How many bytes the reads among some calls answered. -/
def totalRead : List Call → Nat
  | [] => 0
  | c :: cs => c.bytesRead + totalRead cs

/-- What the seeks among some calls came to. -/
def seekResults (cs : List Call) : List (Except Errno UInt64) := cs.filterMap seekResult?

@[simp] theorem totalRead_append (cs ds : List Call) :
    totalRead (cs ++ ds) = totalRead cs + totalRead ds := by
  induction cs with
  | nil => rw [List.nil_append, totalRead, Nat.zero_add]
  | cons c cs ih => rw [List.cons_append, totalRead, totalRead, ih, Nat.add_assoc]

@[simp] theorem seekResults_append (cs ds : List Call) :
    seekResults (cs ++ ds) = seekResults cs ++ seekResults ds :=
  List.filterMap_append

/-- The cursor was saved and moved, and the seek to put it back was refused. -/
def PutBackRefused (cs : List Call) : Prop :=
  ∃ saved moved e, seekResults cs = [.ok saved, .ok moved, .error e]

theorem not_putBackRefused_of_length_le {cs : List Call} (h : (seekResults cs).length ≤ 2) :
    ¬ PutBackRefused cs := by
  rintro ⟨saved, moved, e, hcs⟩
  rw [hcs] at h
  exact absurd h (Nat.not_succ_le_self 2)

end Call

namespace Kernel

open KernelCore.Action Call FileTable

variable {β : Type} {m : Machine (Kernel β)} {fd : Descriptor} {buffer start : Address}
  {length total offset : UInt64}

/-- The files, and the reads and seeks that were made. -/
def fileView (m : Machine (Kernel β)) : FileTable × List Call := view (·.files) usesFile m

theorem blind_fileView : Blind (fileView : Machine (Kernel β) → _) :=
  blind_view (fun _ _ h => h.files_eq) fun _ => usesFile_eq_false

theorem lockless_fileView : Lockless (fileView : Machine (Kernel β) → _) :=
  lockless_view fun _ _ => rfl

theorem fileView_push {k : Kernel β} {c : Call} {locked : Bool} (hc : c.usesFile = true) :
    fileView ((onState m k).push [.called c locked]) = (k.files, (fileView m).2 ++ [c]) := by
  rw [fileView, view, Machine.calls_push, List.filter_append]
  simp [Event.call?, hc, fileView, view]

/-- One file is read, and no seek is made. -/
def Reads (fd : Descriptor) (x y : FileTable × List Call) : Prop :=
  ∃ cs, y.2 = x.2 ++ cs ∧ seekResults cs = [] ∧ Advanced fd (totalRead cs) x.1 y.1

instance : IsPreorder (FileTable × List Call) (Reads fd) where
  refl x := ⟨[], by simp, rfl, advanced_zero fun _ => rfl⟩
  trans x y z := by
    rintro ⟨cs, hy, hcs, hxy⟩ ⟨ds, hz, hds, hyz⟩
    refine ⟨cs ++ ds, ?_, ?_, ?_⟩
    · rw [hz, hy, List.append_assoc]
    · rw [seekResults_append, hcs, hds]
      rfl
    · rw [totalRead_append]
      exact hxy.trans hyz

theorem reads_readFile :
    Takes fileView (Reads fd) (readFile fd buffer length : Handler (Kernel β) UInt64).run := by
  intro m
  rw [readFile, request, ExceptT.run_mk, after_of_ok (ask_apply _ _ m), fileView_push rfl]
  exact ⟨_, rfl, rfl, advanced_readInto m.state.files m.state.memory fd buffer length⟩

theorem reads_readOn :
    Takes fileView (Reads fd)
      (readOn fd buffer length total : Action (Kernel β) (UInt64 × Option Errno)) :=
  compositional_takes.readOn fun _ _ => reads_readFile

theorem calls_seekFile (fd : Descriptor) (offset : Int64) (whence : Whence)
    (m : Machine (Kernel β)) :
    (fileView ((seekFile fd offset whence).run.after m)).2 =
      (fileView m).2 ++ [.fileSeek fd offset whence (m.state.files.seek fd offset whence).1] := by
  rw [fileView, view, calls_of_seekFile, List.filter_append]
  rfl

/-- From one machine to the other the cursor was saved and moved to an offset, and reads took it on. -/
structure Moved (fd : Descriptor) (offset : UInt64) (f : OpenFile) (m t : Machine (Kernel β))
    (cs : List Call) : Prop where
  calls_eq : (fileView t).2 = (fileView m).2 ++ cs
  opened : m.state.files.get? fd = some f
  seeks : ∃ saved moved, seekResults cs = [.ok saved, .ok moved]
  advanced : Advanced fd (totalRead cs) (m.state.files.setCursor fd offset) t.state.files

theorem moveCursor_calls (fd : Descriptor) (h : offset ≠ 0) (m : Machine (Kernel β)) :
    ∃ r t cs, (moveCursor fd offset).run m = .ok r t ∧ t.calls = m.calls ++ cs ∧
      ((∃ e, r = .error e ∧ (cs = [.fileSeek fd 0 .cursor (.error e)] ∨
          ∃ saved, cs = [.fileSeek fd 0 .cursor (.ok saved), .fileSeek fd offset.toInt64 .start (.error e)]) ∧
          ∀ d, t.state.files.get? d = m.state.files.get? d) ∨
        ∃ f, r = .ok (some f.cursor) ∧ m.state.files.get? fd = some f ∧
          cs = [.fileSeek fd 0 .cursor (.ok f.cursor), .fileSeek fd offset.toInt64 .start (.ok offset)] ∧
          ∀ d, t.state.files.get? d = (m.state.files.setCursor fd offset).get? d) := by
  unfold moveCursor
  rw [if_neg h, Handler.bind_apply, seekFile_apply]
  have hfirst := calls_of_seekFile fd 0 .cursor m
  obtain ⟨hsame, hcases⟩ := m.state.files.seek_cursor_cases fd
  rw [← files_seekFile] at hsame
  generalize (seekFile fd 0 .cursor).run.after m = u at hfirst hsame ⊢
  rcases hcases with ⟨e, he⟩ | ⟨f, hf, hr⟩
  · rw [he] at hfirst ⊢
    exact ⟨_, u, _, rfl, hfirst, Or.inl ⟨e, rfl, Or.inl rfl, hsame⟩⟩
  · rw [hr] at hfirst ⊢
    dsimp only
    rw [Handler.bind_apply, seekFile_apply]
    have hsecond := calls_of_seekFile fd offset.toInt64 .start u
    rw [hfirst, List.append_assoc] at hsecond
    rcases u.state.files.seek_start_cases fd offset with ⟨e, he, hsame'⟩ | ⟨hok, hmoved⟩
    · rw [he] at hsecond ⊢
      exact ⟨_, _, _, rfl, hsecond,
        Or.inl ⟨e, rfl, Or.inr ⟨f.cursor, rfl⟩, fun d => (hsame' d).trans (hsame d)⟩⟩
    · rw [hok] at hsecond ⊢
      refine ⟨_, _, _, rfl, hsecond, Or.inr ⟨f, rfl, hf, rfl, fun d => ?_⟩⟩
      rw [files_seekFile, hmoved d, get?_setCursor, get?_setCursor, hsame d]

theorem moveCursor_cases (fd : Descriptor) (h : offset ≠ 0) (m : Machine (Kernel β)) :
    ∃ r t cs, (moveCursor fd offset).run m = .ok r t ∧
      ((∃ e, r = .error e ∧ (fileView t).2 = (fileView m).2 ++ cs ∧ (seekResults cs).length ≤ 2 ∧
          ∀ d, t.state.files.get? d = m.state.files.get? d) ∨
        ∃ f, r = .ok (some f.cursor) ∧ totalRead cs = 0 ∧ Moved fd offset f m t cs) := by
  obtain ⟨r, t, cs, hrun, hcalls, hcases⟩ := moveCursor_calls fd h m
  have hview : (fileView t).2 = (fileView m).2 ++ cs.filter usesFile := by
    rw [fileView, view, hcalls, List.filter_append]
    rfl
  refine ⟨r, t, cs.filter usesFile, hrun, hcases.imp ?_ ?_⟩
  · rintro ⟨e, rfl, hrefused, hsame⟩
    refine ⟨e, rfl, hview, ?_, hsame⟩
    rcases hrefused with rfl | ⟨saved, rfl⟩
    · exact Nat.le_succ 1
    · exact Nat.le_refl 2
  · rintro ⟨f, rfl, hf, rfl, hmoved⟩
    exact ⟨f, rfl, rfl, hview, hf, ⟨_, _, rfl⟩, advanced_zero hmoved⟩

theorem Moved.read {f : OpenFile} {t u : Machine (Kernel β)} {cs : List Call}
    (h : Moved fd offset f m t cs) (hr : Reads fd (fileView t) (fileView u)) :
    ∃ ds, Moved fd offset f m u ds := by
  obtain ⟨ds, hcalls, hseeks, hadvanced⟩ := hr
  obtain ⟨saved, moved, hresults⟩ := h.seeks
  refine ⟨cs ++ ds, ?_, h.opened, ⟨saved, moved, ?_⟩, ?_⟩
  · rw [hcalls, h.calls_eq, List.append_assoc]
  · rw [seekResults_append, hresults, hseeks]
    rfl
  · rw [totalRead_append]
    exact h.advanced.trans hadvanced

theorem restoreCursor_apply (fd : Descriptor) (cursor : UInt64) (m : Machine (Kernel β)) :
    restoreCursor fd (some cursor) m =
      .ok (refusal? (.fileSeek fd cursor.toInt64 .start (m.state.files.seek fd cursor.toInt64 .start).1))
        ((seekFile fd cursor.toInt64 .start).run.after m) := by
  rw [restoreCursor, bind_apply, seekFile_apply]
  dsimp only
  cases (m.state.files.seek fd cursor.toInt64 .start).1 <;> rfl

/-- A saved cursor is put back, unless the seek is refused. -/
theorem restoreCursor_cases (fd : Descriptor) (c : UInt64) (m : Machine (Kernel β)) :
    let t := (restoreCursor fd (some c)).after m
    ∃ r, (fileView t).2 = (fileView m).2 ++ [.fileSeek fd c.toInt64 .start r] ∧
      ((∃ e, r = .error e ∧ ∀ d, t.state.files.get? d = m.state.files.get? d) ∨
        r = .ok c ∧ ∀ d, t.state.files.get? d = (m.state.files.setCursor fd c).get? d) := by
  have hafter : (restoreCursor fd (some c)).after m = (seekFile fd c.toInt64 .start).run.after m :=
    after_of_ok (restoreCursor_apply fd c m)
  rw [hafter]
  exact ⟨_, calls_seekFile fd c.toInt64 .start m, m.state.files.seek_start_cases fd c⟩

/-- Where the cursors may be after a file was read from an offset, or from its cursor on. -/
def Restores (fd : Descriptor) (offset : UInt64) (x y : FileTable × List Call) : Prop :=
  ∃ cs, y.2 = x.2 ++ cs ∧ (offset = 0 → Advanced fd (totalRead cs) x.1 y.1) ∧
    (offset ≠ 0 → ¬ PutBackRefused cs → ∀ d, y.1.get? d = x.1.get? d) ∧
    (offset ≠ 0 → PutBackRefused cs →
      Advanced fd (totalRead cs) (x.1.setCursor fd offset) y.1)

instance : Std.Refl (Restores fd offset) where
  refl x := ⟨[], by simp, fun _ => advanced_zero fun _ => rfl, fun _ _ _ => rfl,
    fun _ h => absurd h (not_putBackRefused_of_length_le (Nat.zero_le 2))⟩

/-- A cursor that was moved is put back, or stays where the reads took it. -/
theorem Moved.putBack {f : OpenFile} {u : Machine (Kernel β)} {cs : List Call}
    (h : Moved fd offset f m u cs) (hz : offset ≠ 0) :
    Restores fd offset (fileView m) (fileView ((restoreCursor fd (some f.cursor)).after u)) := by
  obtain ⟨r, hcalls, hback⟩ := restoreCursor_cases fd f.cursor u
  generalize (restoreCursor fd (some f.cursor)).after u = v at *
  obtain ⟨saved, moved, hresults⟩ := h.seeks
  have hseeks : seekResults (cs ++ [.fileSeek fd f.cursor.toInt64 .start r]) =
      [.ok saved, .ok moved, r] := by
    rw [seekResults_append, hresults]
    rfl
  have hread : totalRead (cs ++ [.fileSeek fd f.cursor.toInt64 .start r]) = totalRead cs :=
    totalRead_append cs _
  refine ⟨cs ++ [.fileSeek fd f.cursor.toInt64 .start r], ?_, fun h0 => absurd h0 hz, ?_, ?_⟩
  · rw [hcalls, h.calls_eq, List.append_assoc]
  · rintro - hserved d
    rcases hback with ⟨e, rfl, -⟩ | ⟨-, hput⟩
    · exact absurd ⟨saved, moved, e, hseeks⟩ hserved
    · exact (hput d).trans (h.advanced.putBack h.opened d)
  -- With the third seek served there is no way for it to have been refused.
  · rintro - ⟨_, _, e, he⟩
    rcases hback with ⟨-, -, hsame⟩ | ⟨rfl, -⟩
    · rw [hread]
      exact h.advanced.trans (advanced_zero hsame)
    · rw [hseeks] at he
      cases he

theorem restores_readContents :
    Takes fileView (Restores fd offset)
      (readContents fd offset buffer length : Handler (Kernel β) UInt64).run := by
  intro m
  have hreads (t : Machine (Kernel β)) :
      Reads fd (fileView t) (fileView ((readOn fd buffer length 0).after t)) := reads_readOn t
  rw [after_readContents]
  by_cases hz : offset = 0
  · subst hz
    obtain ⟨cs, hcalls, -, hadvanced⟩ := hreads m
    exact ⟨cs, hcalls, fun _ => hadvanced, fun h => absurd rfl h, fun h => absurd rfl h⟩
  · obtain ⟨r, t, cs, hmove, hcases⟩ := moveCursor_cases fd hz m
    rw [hmove]
    rcases hcases with ⟨e, rfl, hcalls, hlength, hsame⟩ | ⟨f, rfl, -, hmoved⟩
    · exact ⟨cs, hcalls, fun h => absurd h hz, fun _ _ => hsame,
        fun _ h => absurd h (not_putBackRefused_of_length_le hlength)⟩
    · obtain ⟨ds, hread⟩ := hmoved.read (hreads t)
      exact hread.putBack hz

theorem keeps_writeRegion {source : Address} :
    Keeps fileView (writeRegion start source length : Action (Kernel β) _) := by
  refine keeps_ask (fun k => ?_) fun _ => rfl
  cases k.space.write start ((k.memory.load? source length).getD .empty) <;> rfl

theorem keeps_mapRegion {permissions : Permissions} :
    Keeps fileView (mapRegion start length permissions : Action (Kernel β) _) := by
  refine keeps_ask (fun k => ?_) fun _ => rfl
  cases k.space.mapAlloc start length permissions true <;> rfl

variable [HeapBackend β]

theorem quiet_fileView : Quiet (Takes (fileView : Machine (Kernel β) → _) Eq) :=
  blind_fileView.quiet

theorem restores_copyContents :
    Takes fileView (Restores fd offset)
      (copyContents start length fd offset buffer : Handler (Kernel β) Unit).run := by
  refine Handler.takes_bind_keeps restores_readContents fun count =>
    Handler.keeps_bind (Handler.keeps_lift (quiet_fileView.say _ _).keeps) fun _ =>
      Handler.keeps_bind (Handler.keeps_lift keeps_writeRegion) fun r => ?_
  cases r with
  | ok u => exact Handler.keeps_pure _
  | error e =>
    exact Handler.keeps_bind (Handler.keeps_lift (quiet_fileView.say _ _).keeps) fun _ =>
      Handler.keeps_throw _

theorem restores_populate :
    Takes fileView (Restores fd offset)
      (populate start length fd offset : Handler (Kernel β) Unit).run := by
  refine Handler.takes_keeps_bind (Handler.keeps_lift quiet_fileView.allocate.keeps) fun p => ?_
  cases p with
  | none => exact Handler.takes_throw _
  | some buffer =>
    refine Handler.takes_keeps_bind (Handler.keeps_lift (quiet_fileView.clearBytes _ _).keeps)
      fun _ => Handler.takes_bind_keeps (Handler.takes_lift restores_copyContents) fun outcome =>
        Handler.keeps_bind (Handler.keeps_lift quiet_fileView.free.keeps) fun _ => ?_
    exact keeps_pure outcome

theorem restores_mapAt {r : MapRequest} {permissions : Permissions} {anonymous : Bool} :
    Takes fileView (Restores r.fd r.offset)
      (mapAt r permissions anonymous length start : Handler (Kernel β) Address).run := by
  refine Handler.takes_keeps_bind (Handler.keeps_lift keeps_mapRegion) fun o => ?_
  cases o with
  | error e =>
    exact Handler.takes_keeps_bind (Handler.keeps_lift (quiet_fileView.say _ _).keeps) fun _ =>
      Handler.takes_throw _
  | ok u =>
    cases anonymous with
    | true => exact Handler.takes_pure start
    | false => exact Handler.takes_bind_keeps restores_populate fun _ => Handler.keeps_pure start

/-- A mapping leaves cursors alone, unless it reads from one or a seek back is refused. -/
theorem cursors_of_mapping (r : MapRequest) (m : Machine (Kernel β)) :
    let t := (mapMemory r).run.after m
    ∃ cs, (fileView t).2 = (fileView m).2 ++ cs ∧
      (r.offset = 0 → Advanced r.fd (totalRead cs) m.state.files t.state.files) ∧
      (r.offset ≠ 0 → ¬ PutBackRefused cs →
        ∀ d, t.state.files.get? d = m.state.files.get? d) ∧
      (r.offset ≠ 0 → PutBackRefused cs →
        Advanced r.fd (totalRead cs) (m.state.files.setCursor r.fd r.offset) t.state.files) :=
  takes_mapMemory blind_fileView lockless_fileView (fun _ _ _ _ _ _ => restores_mapAt) m

/-- A file mapped from its second page on, while its table serves two seeks only. -/
theorem cursor_stays_moved :
    let m : Machine (Kernel ArenaHeap) :=
      ((World.initial .important 42 (.empty 0x40000000 0x100000)).run
        [.install 0, .addFile ⟨#[47, 97]⟩ ⟨#[104, 101, 114, 111, 110]⟩,
          .configureFiles { FilePolicy.plain with seeksBeforeFailure := some 2 }]).2.machine
    let t := (mapMemory ⟨0x40000000, 4096, 1, 0x12, 3, 4096⟩).run.after m
    (m.state.files.get? 3).map OpenFile.cursor = some 0 ∧
      (t.state.files.get? 3).map OpenFile.cursor = some 4096 := by
  decide +kernel

end Kernel

end KernelCore
