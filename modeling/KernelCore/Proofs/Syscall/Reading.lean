import KernelCore.Proofs.Syscall.Traversal

/-! # Reading a file, step by step

What one turn of the read loop does, and what reading a file leaves behind: reads and seeks always
return, so a cursor that was moved is always sought back to.
-/

namespace KernelCore.Kernel

open KernelCore.Action

variable {β : Type} {fd : Descriptor} {buffer : Address} {length total offset : UInt64}

theorem readFile_apply (fd : Descriptor) (buffer : Address) (length : UInt64)
    (m : Machine (Kernel β)) :
    (readFile fd buffer length).run m =
      .ok (m.state.files.readInto m.state.memory fd buffer length).1
        ((readFile fd buffer length).run.after m) := by
  rw [readFile, request, ExceptT.run_mk, after_of_ok (ask_apply _ _ m), ask_apply]

theorem calls_readFile (fd : Descriptor) (buffer : Address) (length : UInt64) (m : Machine (Kernel β)) :
    ((readFile fd buffer length).run.after m).calls =
      m.calls ++ [.fileRead fd buffer length (m.state.files.readInto m.state.memory fd buffer length).1] := by
  rw [readFile, request, ExceptT.run_mk, after_of_ok (ask_apply _ _ m)]
  simp [Event.call?]

theorem readOn_of_lt (h : total < length) (m : Machine (Kernel β)) :
    readOn fd buffer length total m =
      let t := (readFile fd (buffer + total) (length - total)).run.after m
      match (m.state.files.readInto m.state.memory fd (buffer + total) (length - total)).1 with
      | .error e => .ok (total, some e) t
      | .ok got =>
          if got = 0 then .ok (total, none) t
          else if length - total ≤ got then .ok (total + got, none) t
          else readOn fd buffer length (total + got) t := by
  rw [readOn, if_pos h, bind_apply, readFile_apply]
  dsimp only
  generalize (m.state.files.readInto m.state.memory fd (buffer + total) (length - total)).1 = r
  cases r with
  | error e => rfl
  | ok got =>
    dsimp only
    split
    · rfl
    · split <;> rfl

theorem readOn_of_ge (h : ¬ total < length) (m : Machine (Kernel β)) :
    readOn fd buffer length total m = .ok (total, none) m := by
  rw [readOn, if_neg h]
  rfl

theorem readOn_returns (fd : Descriptor) (buffer : Address) (length total : UInt64)
    (m : Machine (Kernel β)) :
    ∃ x t, readOn fd buffer length total m = .ok x t := by
  have c : Compositional (κ := Kernel β) (Returns fun _ => ()) := compositional_returns
  have hread (buffer : Address) (length : UInt64) :
      Returns (fun _ => ()) (readFile fd buffer length : Handler (Kernel β) UInt64).run :=
    fun m => ⟨_, _, readFile_apply fd buffer length m, rfl⟩
  have hreads : Returns (fun _ => ()) (readOn fd buffer length total : Action (Kernel β) _) :=
    c.readOn hread
  obtain ⟨x, t, hx, -⟩ := hreads m
  exact ⟨x, t, hx⟩

theorem seekFile_apply (fd : Descriptor) (offset : Int64) (whence : Whence)
    (m : Machine (Kernel β)) :
    (seekFile fd offset whence).run m =
      .ok (m.state.files.seek fd offset whence).1 ((seekFile fd offset whence).run.after m) := by
  rw [seekFile, request, ExceptT.run_mk, after_of_ok (ask_apply _ _ m), ask_apply]
  rfl

theorem files_seekFile (fd : Descriptor) (offset : Int64) (whence : Whence)
    (m : Machine (Kernel β)) :
    ((seekFile fd offset whence).run.after m).state.files =
      (m.state.files.seek fd offset whence).2 := rfl

theorem calls_of_seekFile (fd : Descriptor) (offset : Int64) (whence : Whence) (m : Machine (Kernel β)) :
    ((seekFile fd offset whence).run.after m).calls =
      m.calls ++ [.fileSeek fd offset whence (m.state.files.seek fd offset whence).1] := by
  rw [seekFile, request, ExceptT.run_mk, after_of_ok (ask_apply _ _ m)]
  simp [Event.call?]

theorem after_readContents (m : Machine (Kernel β)) :
    (readContents fd offset buffer length).run.after m =
      match (moveCursor fd offset).run m with
      | .ok (.ok saved) t => (restoreCursor fd saved).after ((readOn fd buffer length 0).after t)
      | .ok (.error _) t => t
      | .error _ t => t := by
  unfold readContents
  rw [after, Handler.bind_apply]
  cases (moveCursor fd offset).run m with
  | error e t => rfl
  | ok r t =>
    cases r with
    | error e => rfl
    | ok saved =>
      obtain ⟨x, u, hx⟩ := readOn_returns fd buffer length 0 t
      dsimp only
      rw [Handler.bind_lift_apply, hx, after_of_ok hx]
      dsimp only
      rw [Handler.bind_lift_apply, after]
      cases restoreCursor fd saved u with
      | error e v => rfl
      | ok o v =>
        dsimp only
        cases x.2.or o <;> rfl

end KernelCore.Kernel
