import KernelCore.Proofs.Kernel.Forgetful

/-! # The threshold of the log

Two machines in the same state go on alike, whatever their thresholds are, and the one with the higher
threshold writes a part of what the other one writes, in the same order. Every primitive action keeps to
that, and so does whatever is put together from them.
-/

namespace KernelCore

open KernelCore.Action

variable {κ α : Type}

namespace Machine

/-- Two machines that are alike up to their logs, the second of which shows no more than the first. -/
structure Muted (m n : Machine κ) : Prop where
  state_eq : n.state = m.state
  trace_eq : n.trace = m.trace
  threshold_le : m.console.threshold ≤ n.console.threshold

/-- Two muted machines went on alike, from `m` to `t` and from `n` to `u`. -/
structure Abreast (m n t u : Machine κ) : Prop where
  state_eq : u.state = t.state
  trace_eq : u.trace = t.trace
  left : t.console = m.console
  right : u.console = n.console
  written : ∃ shown hidden : List Item, hidden.Sublist shown ∧
    t.serial = m.serial ++ shown.toArray ∧ u.serial = n.serial ++ hidden.toArray

variable {m n t u v w : Machine κ}

theorem Muted.abreast (h : m.Muted n) : Abreast m n m n :=
  ⟨h.state_eq, h.trace_eq, rfl, rfl, [], [], .slnil, by simp, by simp⟩

theorem Abreast.muted (h : m.Muted n) (k : Abreast m n t u) : t.Muted u :=
  ⟨k.state_eq, k.trace_eq, by rw [k.left, k.right]; exact h.threshold_le⟩

theorem Abreast.trans (h : Abreast m n t u) (k : Abreast t u v w) : Abreast m n v w := by
  obtain ⟨a, b, hab, ha, hb⟩ := h.written
  obtain ⟨c, d, hcd, hc, hd⟩ := k.written
  refine ⟨k.state_eq, k.trace_eq, k.left.trans h.left, k.right.trans h.right, a ++ c, b ++ d,
    hab.append hcd, ?_, ?_⟩
  · simp [hc, ha, Array.append_assoc]
  · simp [hd, hb, Array.append_assoc]

/-- Muted machines that change their states alike and leave the same events go on alike. -/
theorem Muted.push (h : m.Muted n) (k : κ) (es : List Event) :
    Abreast m n ({ m with state := k }.push es) ({ n with state := k }.push es) where
  state_eq := rfl
  trace_eq := congrArg (· ++ es.toArray) h.trace_eq
  left := rfl
  right := rfl
  written := ⟨_, _, Record.shown_sublist h.threshold_le _, rfl, rfl⟩

theorem Muted.push_events (h : m.Muted n) (es : List Event) : Abreast m n (m.push es) (n.push es) := by
  have hn : { n with state := m.state } = n := by rw [← h.state_eq]
  have hpush := h.push m.state es
  rwa [hn] at hpush

end Machine

namespace Action

open Machine

variable {m n : Machine κ}

/-- Two runs that end alike: both return the same, or both end in the same fault. -/
inductive EndAbreast (m n : Machine κ) :
    EStateM.Result Fault (Machine κ) α → EStateM.Result Fault (Machine κ) α → Prop where
  | ok {a : α} {t u : Machine κ} : Abreast m n t u → EndAbreast m n (.ok a t) (.ok a u)
  | error {e : Fault} {t u : Machine κ} :
      Abreast m n t u → EndAbreast m n (.error e t) (.error e u)

/-- On muted machines an action goes on alike. -/
def Hides (x : Action κ α) : Prop := ∀ m n, m.Muted n → EndAbreast m n (x m) (x n)

theorem EndAbreast.trans {t u : Machine κ} {r s : EStateM.Result Fault (Machine κ) α}
    (h : Abreast m n t u) (k : EndAbreast t u r s) : EndAbreast m n r s := by
  cases k with
  | ok k => exact .ok (h.trans k)
  | error k => exact .error (h.trans k)

theorem compositional_hides : Compositional (κ := κ) Hides where
  pure _ _ _ h := .ok h.abreast
  current m n h := by
    rw [current_apply, current_apply, h.state_eq]
    exact .ok h.abreast
  bind {_ _ x g} hx hg m n h := by
    have hend := hx m n h
    rw [bind_apply, bind_apply]
    generalize x m = r, x n = s at hend
    cases hend with
    | ok k => exact (hg _ _ _ (k.muted h)).trans k
    | error k => exact .error k

end Action

namespace Kernel

variable {β : Type} {m n : Machine (Kernel β)}

theorem acquireLock_abreast (h : m.Muted n) : EndAbreast m n (acquireLock m) (acquireLock n) := by
  cases hm : m.state.lock.held with
  | true =>
    have hn : n.state.lock.held = true := by rw [h.state_eq, hm]
    rw [acquireLock_of_held hm, acquireLock_of_held hn]
    exact .error (h.push_events _)
  | false =>
    have hn : n.state.lock.held = false := by rw [h.state_eq, hm]
    rw [acquireLock_of_free hm, acquireLock_of_free hn, h.state_eq]
    exact .ok (h.push _ _)

theorem unlocked_abreast (h : m.Muted n) : m.Abreast n (unlocked m) (unlocked n) := by
  rw [unlocked_eq, unlocked_eq, h.state_eq]
  exact h.push _ _

theorem hides_holdingLock {x : Action (Kernel β) α} (hx : Hides x) : Hides (holdingLock x) := by
  intro m n h
  have hlock := acquireLock_abreast h
  unfold holdingLock
  generalize acquireLock m = r, acquireLock n = s at hlock
  cases hlock with
  | error k => exact .error k
  | @ok _ t u k =>
    have hmuted := k.muted h
    have hend := hx t u hmuted
    dsimp only
    generalize x t = r, x u = s at hend
    cases hend with
    | ok l => exact .ok (k.trans (l.trans (unlocked_abreast (l.muted hmuted))))
    | error l => exact .error (k.trans (l.trans (unlocked_abreast (l.muted hmuted))))

/-- All that actions are put together from goes on alike. -/
theorem elementary_hides : Elementary (β := β) Hides where
  toCompositional := compositional_hides
  fault _ _ _ h := .error h.abreast
  note e m n h := by
    rw [note_apply, note_apply]
    exact .ok (h.push_events _)
  update F m n h := by
    have hpush := h.push (F m.state) []
    rw [Machine.push_nil, Machine.push_nil] at hpush
    rw [update_apply, update_apply, h.state_eq]
    exact .ok hpush
  ask F c m n h := by
    rw [ask_apply, ask_apply, h.state_eq]
    exact .ok (h.push _ _)
  holdingLock hx := hides_holdingLock hx

end Kernel

namespace Command

variable {β : Type}

/-- A command that does not set the threshold, and whose own components have no regard for it. -/
structure Indifferent (c : Command β) : Prop where
  setsThreshold_eq : c.setsThreshold = false
  hides : ∀ d ∈ c.components, ∀ act, d.initializer = some act → Hides act

theorem indifferent_bootTable [HeapBackend β] (id : MemoryId) (regions : List Range)
    (entries : List Boot.Entry) (minimal : Importance) :
    (bootTable id regions entries minimal : Command β).Indifferent :=
  ⟨rfl, fun _ hd _ h => Kernel.elementary_hides.tableOf hd h⟩

end Command

namespace Report

variable {β : Type} {m n t u : Machine (Kernel β)}

theorem serial_eq_of_written {items : List Item} (h : t.serial = m.serial ++ items.toArray)
    (r : Except Fault Answer) : t.serial = m.serial ++ (between m t r).written.toArray := by
  simp [between, h]

theorem between_abreast (h : m.Muted n) (k : m.Abreast n t u) (r : Except Fault Answer) :
    (between n u r).calls = (between m t r).calls ∧
      (between n u r).written.Sublist (between m t r).written := by
  obtain ⟨shown, hidden, hsub, ht, hu⟩ := k.written
  refine ⟨?_, ?_⟩
  · simp [calls, between, k.trace_eq, h.trace_eq]
  · simpa [between, ht, hu] using hsub

end Report

namespace World

variable {β : Type} [HeapBackend β] {v w : World β} {c : Command β} {cs : List (Command β)}

/-- What a run writes to the serial log. -/
def written (w : World β) (cs : List (Command β)) : List Item := (w.run cs).1.flatMap Report.written

theorem run_cons (w : World β) (c : Command β) (cs : List (Command β)) :
    w.run (c :: cs) =
      ((w.step c).1 :: ((w.step c).2.run cs).1, ((w.step c).2.run cs).2) := rfl

theorem written_cons (w : World β) (c : Command β) (cs : List (Command β)) :
    w.written (c :: cs) = (w.step c).1.written ++ (w.step c).2.written cs := rfl

/-- Two worlds whose logs show more and less report alike what one command came to. -/
theorem step_abreast (h : v.machine.Muted w.machine) (hc : c.Indifferent) :
    ∃ t u r, v.machine.Abreast w.machine t u ∧ v.step c = (.between v.machine t r, ⟨t⟩) ∧
      w.step c = (.between w.machine u r, ⟨u⟩) := by
  have hend := Kernel.elementary_hides.execute hc.setsThreshold_eq hc.hides v.machine w.machine h
  unfold step
  generalize Kernel.execute c v.machine = r, Kernel.execute c w.machine = s at hend
  cases hend with
  | ok k => exact ⟨_, _, _, k, rfl, rfl⟩
  | error k => exact ⟨_, _, _, k, rfl, rfl⟩

/-- The threshold changes what the serial log shows, and nothing else. -/
theorem threshold_only_hides (h : v.machine.Muted w.machine) (hcs : ∀ c ∈ cs, c.Indifferent) :
    (w.run cs).1.map Report.result = (v.run cs).1.map Report.result ∧
      (w.run cs).1.map Report.calls = (v.run cs).1.map Report.calls ∧
      (w.run cs).2.machine.state = (v.run cs).2.machine.state ∧
      (v.run cs).2.machine.console = v.machine.console ∧
      (w.run cs).2.machine.console = w.machine.console ∧
      (v.run cs).2.machine.serial = v.machine.serial ++ (v.written cs).toArray ∧
      (w.run cs).2.machine.serial = w.machine.serial ++ (w.written cs).toArray ∧
      (w.written cs).Sublist (v.written cs) := by
  induction cs generalizing v w with
  | nil =>
    refine ⟨rfl, rfl, h.state_eq, rfl, rfl, ?_, ?_, .slnil⟩
    · simp [run, written]
    · simp [run, written]
  | cons c cs ih =>
    obtain ⟨t, u, r, k, hv, hw⟩ := step_abreast h (hcs c List.mem_cons_self)
    obtain ⟨hcalls, hwritten⟩ := Report.between_abreast h k r
    obtain ⟨_, _, -, ht, hu⟩ := k.written
    obtain ⟨hresults, hcalled, hstate, hleft, hright, hvserial, hwserial, hsub⟩ :=
      ih (v := ⟨t⟩) (w := ⟨u⟩) (k.muted h) fun d hd => hcs d (List.mem_cons_of_mem c hd)
    rw [run_cons, run_cons, written_cons, written_cons, hv, hw]
    refine ⟨congrArg (r :: ·) hresults, ?_, hstate, hleft.trans k.left, hright.trans k.right, ?_, ?_,
      hwritten.append hsub⟩
    · rw [List.map_cons, List.map_cons, hcalls, hcalled]
    · rw [hvserial, Report.serial_eq_of_written ht r]
      simp
    · rw [hwserial, Report.serial_eq_of_written hu r]
      simp

/-- A boot, trial components, a mapping, one that fails, an unknown call and a panic. -/
theorem threshold_only_hides_boot :
    let space := AddressSpace.empty 0x40000000 0x100000
    let v := World.initial .debug 42 space
    let w := World.initial .error 42 space
    let cs : List (Command ArenaHeap) := [
      .bootTable 0 [⟨0x100000000000, 0x100000010000⟩]
        [⟨.startsMemory, some "Memory", 1, .critical⟩, ⟨.fails, some "Trial", 0, .debug⟩] .important,
      .syscall ⟨222, #v[0x40000000, 2, 1, 0x32, 0, 0]⟩,
      .syscall ⟨222, #v[0x40000000, 2, 1, 0x12, 3, 0]⟩, .syscall ⟨7, #v[0, 0, 0, 0, 0, 0]⟩,
      .boot 1 [⟨0x100000000000, 0x100000010000⟩] .important, .free 16, .install 0]
    (w.run cs).1.map Report.result = (v.run cs).1.map Report.result ∧
      (w.run cs).1.map Report.calls = (v.run cs).1.map Report.calls ∧
      (w.run cs).2.machine.state = (v.run cs).2.machine.state ∧
      (w.written cs).Sublist (v.written cs) ∧ (w.written cs).length = 17 ∧
      (v.written cs).length = 98 := by
  intro space v w cs
  have h : v.machine.Muted w.machine := ⟨rfl, rfl, by decide⟩
  have hcs : ∀ c ∈ cs, c.Indifferent := by
    have hnone {c : Command ArenaHeap} (hset : c.setsThreshold = false) (hown : c.components = []) :
        c.Indifferent := ⟨hset, by rw [hown]; nofun⟩
    simp only [cs, List.forall_mem_cons]
    exact ⟨Command.indifferent_bootTable _ _ _ _, hnone rfl rfl, hnone rfl rfl, hnone rfl rfl,
      hnone rfl rfl, hnone rfl rfl, hnone rfl rfl, nofun⟩
  obtain ⟨hresults, hcalls, hstate, -, -, -, -, hwritten⟩ := threshold_only_hides h hcs
  exact ⟨hresults, hcalls, hstate, hwritten, by decide +kernel, by decide +kernel⟩

end World

end KernelCore
