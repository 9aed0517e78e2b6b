import KernelCore.Kernel.State
import KernelCore.Syscall.Reply
import Mathlib.Order.Defs.Unbundled

/-! # What actions leave behind

An action is a function on machines, so running it is rewriting: every primitive has an equation for
the machine that it leaves. What an action keeps is stated for any view of the machine, however the
action ends, and sequences keep what their parts keep.
-/

namespace KernelCore

variable {κ α γ δ : Type}

namespace Machine

/-- Leaves events in the trace, and of the messages among them what the log shows. -/
def push (m : Machine κ) (es : List Event) : Machine κ :=
  { m with
    serial := m.serial ++ (Record.shown m.console.threshold (es.filterMap Event.record?)).toArray
    trace := m.trace ++ es.toArray }

/-- What the kernel asked of its collaborators so far. -/
def calls (m : Machine κ) : List Call := m.trace.toList.filterMap Event.call?

@[simp] theorem push_nil (m : Machine κ) : m.push [] = m := by
  simp [push]

@[simp] theorem push_push (m : Machine κ) (es fs : List Event) :
    (m.push es).push fs = m.push (es ++ fs) := by
  simp [push]

@[simp] theorem state_push (m : Machine κ) (es : List Event) : (m.push es).state = m.state := rfl

theorem push_of_record?_eq_none {e : Event} (h : e.record? = none) (m : Machine κ) :
    m.push [e] = { m with trace := m.trace.push e } := by
  rw [push, List.filterMap_cons_none h]
  simp

@[simp] theorem calls_push (m : Machine κ) (es : List Event) :
    (m.push es).calls = m.calls ++ es.filterMap Event.call? := by
  simp [push, calls]

@[simp] theorem calls_push_printed (m : Machine κ) (r : Record) :
    (m.push [.printed r]).calls = m.calls := by
  simp [List.filterMap_cons, Event.call?]

/-- The events that are left between two machines. -/
def Left (m : Machine κ) (es : List Event) (t : Machine κ) : Prop := t.trace = m.trace ++ es.toArray

theorem left_nil {m t : Machine κ} (h : t.trace = m.trace) : m.Left [] t := by
  simp [Left, h]

theorem left_push (m : Machine κ) (es : List Event) : m.Left es (m.push es) := rfl

theorem Left.trans {m t u : Machine κ} {es fs : List Event} (h : m.Left es t) (k : t.Left fs u) :
    m.Left (es ++ fs) u := by
  rw [Left] at h k ⊢
  simp [k, h, Array.append_assoc]

end Machine

namespace Action

theorem bind_apply (x : Action κ α) (f : α → Action κ γ) (m : Machine κ) :
    (x >>= f) m = match x m with
      | .ok a t => f a t
      | .error e t => .error e t := by
  change EStateM.bind x f m = _
  unfold EStateM.bind
  cases x m <;> rfl

theorem current_apply (m : Machine κ) : current m = .ok m.state m := rfl

theorem update_apply (f : κ → κ) (m : Machine κ) :
    update f m = .ok () { m with state := f m.state } := rfl

theorem send_apply (r : Record) (m : Machine κ) : send r m =
    .ok () { m with serial := m.serial ++ (Record.shown m.console.threshold [r]).toArray } := by
  rw [← Console.written_stream]
  rfl

theorem note_apply (e : Event) (m : Machine κ) : note e m = .ok () (m.push [e]) := by
  unfold note
  cases h : e.record? with
  | none =>
    rw [Machine.push_of_record?_eq_none h]
    rfl
  | some r =>
    dsimp only
    rw [bind_apply, send_apply, Machine.push, List.filterMap_cons_some h, List.filterMap_nil,
      ← Array.push_eq_append]
    rfl

theorem say_apply (i : Importance) (items : List Item) (m : Machine κ) :
    say i items m = .ok () (m.push [.printed ⟨some i, items⟩]) :=
  note_apply _ m

theorem sayAll_apply (rs : List Record) (m : Machine κ) :
    sayAll rs m = .ok () (m.push (rs.map .printed)) := by
  induction rs generalizing m with
  | nil => rw [List.map_nil, Machine.push_nil]; rfl
  | cons r rs ih =>
    rw [sayAll, bind_apply, note_apply]
    dsimp only
    rw [ih, Machine.push_push, List.map_cons, List.singleton_append]

/-- What a panic leaves in the log. -/
def panicRecord (p : Panic) : Record := ⟨none, .text "Panic: " :: p.items ++ [.text "\n"]⟩

theorem halt_apply (p : Panic) (m : Machine κ) :
    (halt p : Action κ α) m = .error (.panicked p) (m.push [.printed (panicRecord p)]) := by
  rw [halt, bind_apply, print, note_apply]
  rfl

/-- The machine that an action leaves, whether it returns or ends in a fault. -/
def after (act : Action κ α) (m : Machine κ) : Machine κ :=
  match act m with
  | .ok _ t => t
  | .error _ t => t

theorem after_of_ok {act : Action κ α} {m t : Machine κ} {a : α} (h : act m = .ok a t) :
    act.after m = t := by
  rw [after, h]

theorem after_of_error {act : Action κ α} {m t : Machine κ} {e : Fault} (h : act m = .error e t) :
    act.after m = t := by
  rw [after, h]

/-- Whether an action comes to a value. -/
def answers [DecidableEq α] (x : Action κ α) (m : Machine κ) (a : α) : Bool :=
  match x m with
  | .ok b _ => b = a
  | .error _ _ => false

variable {f : Machine κ → γ} {x : Action κ α} {g : α → Action κ δ} {m t : Machine κ} {a : α}

theorem run_of_answers [DecidableEq α] (h : x.answers m a = true) : x m = .ok a (x.after m) := by
  unfold answers at h
  unfold after
  split at h
  · rw [‹x m = _›, of_decide_eq_true h]
  · cases h

theorem bind_eq_ok {b : δ} (h : (x >>= g) m = .ok b t) :
    ∃ a u, x m = .ok a u ∧ g a u = .ok b t := by
  rw [bind_apply] at h
  cases hx : x m with
  | ok a u => rw [hx] at h; exact ⟨a, u, rfl, h⟩
  | error e u => rw [hx] at h; cases h

/-- However an action ends, a view of the machine is what it was. -/
def Keeps (f : Machine κ → γ) (x : Action κ α) : Prop := ∀ m, f (x.after m) = f m

theorem Keeps.of_ok (h : Keeps f x) (hx : x m = .ok a t) : f t = f m := by
  rw [← h m, after_of_ok hx]

theorem keeps_pure (a : α) : Keeps f (pure a : Action κ α) := fun _ => rfl

theorem keeps_fault (e : Fault) : Keeps f (fault e : Action κ α) := fun _ => rfl

theorem keeps_current : Keeps f (current : Action κ κ) := fun _ => rfl

theorem Keeps.bind (hx : Keeps f x) (hg : ∀ a, Keeps f (g a)) : Keeps f (x >>= g) := by
  intro m
  have hm := hx m
  rw [after, bind_apply]
  cases h : x m with
  | ok a t =>
    rw [after_of_ok h] at hm
    exact (hg a t).trans hm
  | error e t =>
    rw [after_of_error h] at hm
    exact hm

theorem Keeps.ite {c : Prop} [Decidable c] {y : Action κ α} (hx : Keeps f x) (hy : Keeps f y) :
    Keeps f (if c then x else y) := by
  split
  · exact hx
  · exact hy

theorem keeps_note {e : Event} (h : ∀ m, f (m.push [e]) = f m) : Keeps f (note e) := by
  intro m
  rw [after_of_ok (note_apply e m)]
  exact h m

theorem after_bind (x : Action κ α) (g : α → Action κ δ) (m : Machine κ) :
    (x >>= g).after m = match x m with
      | .ok a t => (g a).after t
      | .error _ t => t := by
  rw [after, bind_apply]
  cases x m <;> rfl

/-- However an action ends, it takes a view of the machine where a relation allows. -/
def Takes (f : Machine κ → γ) (R : γ → γ → Prop) (x : Action κ α) : Prop :=
  ∀ m, R (f m) (f (x.after m))

section Takes

variable {R : γ → γ → Prop}

theorem Takes.of_ok (h : Takes f R x) (hx : x m = .ok a t) : R (f m) (f t) := by
  rw [← after_of_ok hx]
  exact h m

theorem Takes.keeps (h : Takes f Eq x) : Keeps f x := fun m => (h m).symm

theorem Keeps.takes [Std.Refl R] (h : Keeps f x) : Takes f R x := by
  intro m
  rw [h m]
  exact Std.Refl.refl _

/-- One relation after the other, or the first alone when the action ends early. -/
theorem Takes.comp {S U : γ → γ → Prop} (hx : Takes f R x) (hg : ∀ a, Takes f S (g a))
    (hfirst : ∀ a b, R a b → U a b) (hboth : ∀ a b c, R a b → S b c → U a c) :
    Takes f U (x >>= g) := by
  intro m
  have hm := hx m
  rw [after_bind]
  cases h : x m with
  | ok a t =>
    rw [after_of_ok h] at hm
    exact hboth _ _ _ hm (hg a t)
  | error e t =>
    rw [after_of_error h] at hm
    exact hfirst _ _ hm

theorem Takes.bind [IsTrans γ R] (hx : Takes f R x) (hg : ∀ a, Takes f R (g a)) :
    Takes f R (x >>= g) :=
  hx.comp hg (fun _ _ h => h) IsTrans.trans

theorem Takes.keeps_bind [Std.Refl R] (hx : Keeps f x) (hg : ∀ a, Takes f R (g a)) :
    Takes f R (x >>= g) :=
  (hx.takes : Takes f Eq x).comp hg (fun a _ h => h ▸ Std.Refl.refl a) fun _ _ _ h k => h ▸ k

theorem Takes.bind_keeps (hx : Takes f R x) (hg : ∀ a, Keeps f (g a)) : Takes f R (x >>= g) :=
  hx.comp (fun a => ((hg a).takes : Takes f Eq (g a))) (fun _ _ h => h) fun _ _ _ h k => k ▸ h

theorem Takes.ite {c : Prop} [Decidable c] {y : Action κ α} (hx : Takes f R x)
    (hy : Takes f R y) : Takes f R (if c then x else y) := by
  split
  · exact hx
  · exact hy

end Takes

/-- A property of actions that passes to whatever is put together from actions that have it. -/
structure Compositional (P : ∀ {α : Type}, Action κ α → Prop) : Prop where
  pure : ∀ {α : Type} (a : α), P (pure a : Action κ α)
  current : P (current : Action κ κ)
  bind : ∀ {α δ : Type} {x : Action κ α} {g : α → Action κ δ},
    P x → (∀ a, P (g a)) → P (x >>= g)

theorem compositional_takes {R : γ → γ → Prop} [IsPreorder γ R] :
    Compositional (κ := κ) (Takes f R) where
  pure a := (keeps_pure a).takes
  current := keeps_current.takes
  bind hx hg := hx.bind hg

/-- An action that returns and keeps a view of the machine. -/
def Returns (f : Machine κ → γ) (x : Action κ α) : Prop := ∀ m, ∃ a t, x m = .ok a t ∧ f t = f m

theorem compositional_returns : Compositional (κ := κ) (Returns f) where
  pure a m := ⟨a, m, rfl, rfl⟩
  current m := ⟨m.state, m, rfl, rfl⟩
  bind {_ _ x g} hx hg m := by
    obtain ⟨a, t, hxt, ht⟩ := hx m
    obtain ⟨b, u, hgu, hu⟩ := hg a t
    refine ⟨b, u, ?_, hu.trans ht⟩
    rw [bind_apply, hxt]
    exact hgu

namespace Compositional

variable {P : ∀ {α : Type}, Action κ α → Prop}

theorem ite (_ : Compositional P) {p : Prop} [Decidable p] {x y : Action κ α} (hx : P x)
    (hy : P y) : P (if p then x else y) := by
  split
  · exact hx
  · exact hy

variable (c : Compositional P)

include c

theorem handler_throw (e : Errno) : P (throw e : Handler κ α).run :=
  c.pure (.error e : Except Errno α)

theorem handler_pure (a : α) : P (Pure.pure a : Handler κ α).run := c.pure (.ok a : Except Errno α)

theorem handler_bind {x : Handler κ α} {g : α → Handler κ δ} (hx : P x.run)
    (hg : ∀ a, P (g a).run) : P (x >>= g).run := by
  refine c.bind hx fun r => ?_
  cases r with
  | ok a => exact hg a
  | error e => exact c.handler_throw e

theorem lift {x : Action κ α} (hx : P x) : P (ExceptT.lift x : Handler κ α).run := by
  have hlift : (ExceptT.lift x : Handler κ α).run = (do return .ok (← x)) := map_eq_pure_bind _ x
  rw [hlift]
  exact c.bind hx fun a => c.handler_pure a

theorem lift_bind {x : Action κ α} {g : α → Handler κ δ} (hx : P x) (hg : ∀ a, P (g a).run) :
    P (ExceptT.lift x >>= g).run :=
  c.handler_bind (c.lift hx) hg

end Compositional

end Action

namespace Handler

open KernelCore.Action

variable {f : Machine κ → γ} {x : Handler κ α} {g : α → Handler κ δ} {m t : Machine κ} {e : Errno}

theorem keeps_bind (hx : Keeps f x.run) (hg : ∀ a, Keeps f (g a).run) : Keeps f (x >>= g).run := by
  refine Keeps.bind hx fun r => ?_
  cases r with
  | ok a => exact hg a
  | error e => exact keeps_pure _

theorem lift_apply (y : Action κ α) (m : Machine κ) :
    (ExceptT.lift y : Handler κ α).run m = match y m with
      | .ok a t => .ok (.ok a) t
      | .error e t => .error e t := by
  change EStateM.map Except.ok y m = _
  unfold EStateM.map
  cases y m <;> rfl

theorem keeps_lift {y : Action κ α} (hy : Keeps f y) :
    Keeps f (ExceptT.lift y : Handler κ α).run := by
  intro m
  have hm := hy m
  rw [after] at hm ⊢
  rw [lift_apply]
  cases h : y m <;> rw [h] at hm <;> exact hm

theorem keeps_pure (a : α) : Keeps f (pure a : Handler κ α).run := fun _ => rfl
theorem keeps_throw (e : Errno) : Keeps f (throw e : Handler κ α).run := fun _ => rfl

section Takes

variable {R : γ → γ → Prop}

theorem takes_bind [IsPreorder γ R] (hx : Takes f R x.run) (hg : ∀ a, Takes f R (g a).run) :
    Takes f R (x >>= g).run :=
  compositional_takes.handler_bind hx hg

theorem takes_lift {y : Action κ α} (hy : Takes f R y) :
    Takes f R (ExceptT.lift y : Handler κ α).run := by
  intro m
  have hm := hy m
  rw [after] at hm ⊢
  rw [lift_apply]
  cases h : y m <;> rw [h] at hm <;> exact hm

theorem takes_pure [Std.Refl R] (a : α) : Takes f R (pure a : Handler κ α).run :=
  (keeps_pure a).takes

theorem takes_throw [Std.Refl R] (e : Errno) : Takes f R (throw e : Handler κ α).run :=
  (keeps_throw e).takes

theorem takes_keeps_bind [Std.Refl R] (hx : Keeps f x.run) (hg : ∀ a, Takes f R (g a).run) :
    Takes f R (x >>= g).run := by
  refine Takes.keeps_bind hx fun r => ?_
  cases r with
  | ok a => exact hg a
  | error e => exact (Action.keeps_pure _).takes

theorem takes_bind_keeps (hx : Takes f R x.run) (hg : ∀ a, Keeps f (g a).run) :
    Takes f R (x >>= g).run := by
  refine Takes.bind_keeps hx fun r => ?_
  cases r with
  | ok a => exact hg a
  | error e => exact Action.keeps_pure _

end Takes

theorem bind_eq_ok {b : δ} (h : (x >>= g).run m = .ok (.ok b) t) :
    ∃ a u, x.run m = .ok (.ok a) u ∧ (g a).run u = .ok (.ok b) t := by
  obtain ⟨r, u, hx, hg⟩ : ∃ r u, x.run m = .ok r u ∧ ExceptT.bindCont g r u = .ok (.ok b) t :=
    Action.bind_eq_ok h
  cases r with
  | ok a => exact ⟨a, u, hx, hg⟩
  | error e => cases hg

theorem bind_eq_error (h : (x >>= g).run m = .ok (.error e) t) :
    x.run m = .ok (.error e) t ∨
      ∃ a u, x.run m = .ok (.ok a) u ∧ (g a).run u = .ok (.error e) t := by
  obtain ⟨r, u, hx, hg⟩ : ∃ r u, x.run m = .ok r u ∧ ExceptT.bindCont g r u = .ok (.error e) t :=
    Action.bind_eq_ok h
  cases r with
  | ok a => exact Or.inr ⟨a, u, hx, hg⟩
  | error e' =>
    cases hg
    exact Or.inl hx

theorem lift_eq_ok {y : Action κ α} {r : Except Errno α}
    (h : (ExceptT.lift y : Handler κ α).run m = .ok r t) : ∃ a, r = .ok a ∧ y m = .ok a t := by
  rw [lift_apply] at h
  cases hy : y m with
  | ok a u =>
    rw [hy] at h
    cases h
    exact ⟨a, rfl, rfl⟩
  | error e u =>
    rw [hy] at h
    cases h

theorem bind_lift_eq_error {y : Action κ α} (h : (ExceptT.lift y >>= g).run m = .ok (.error e) t) :
    ∃ a u, y m = .ok a u ∧ (g a).run u = .ok (.error e) t := by
  rcases bind_eq_error h with h | ⟨a, u, hy, hg⟩
  · obtain ⟨a, ha, -⟩ := lift_eq_ok h
    cases ha
  · obtain ⟨b, hb, hy⟩ := lift_eq_ok hy
    cases hb
    exact ⟨a, u, hy, hg⟩

/-- Whether a handler comes to a value. -/
def answers [DecidableEq α] (x : Handler κ α) (m : Machine κ) (a : α) : Bool :=
  match x.run m with
  | .ok (.ok b) _ => b = a
  | _ => false

theorem run_of_answers [DecidableEq α] {a : α} (h : x.answers m a = true) :
    ∃ t, x.run m = .ok (.ok a) t := by
  unfold answers at h
  split at h
  · rename_i b t hx
    obtain rfl := of_decide_eq_true h
    exact ⟨t, hx⟩
  · cases h

/-- Whether a handler comes to an error. -/
def refuses (x : Handler κ α) (m : Machine κ) (e : Errno) : Bool :=
  match x.run m with
  | .ok (.error e') _ => e' = e
  | _ => false

theorem run_of_refuses (h : x.refuses m e = true) : ∃ t, x.run m = .ok (.error e) t := by
  unfold refuses at h
  split at h
  · rename_i e' t hx
    obtain rfl := of_decide_eq_true h
    exact ⟨t, hx⟩
  · cases h

theorem bind_lift_apply (y : Action κ α) (g : α → Handler κ δ) (m : Machine κ) :
    (ExceptT.lift y >>= g).run m = match y m with
      | .ok a t => (g a).run t
      | .error e t => .error e t := by
  change (EStateM.map Except.ok y >>= ExceptT.bindCont g) m = _
  rw [bind_apply]
  unfold EStateM.map
  cases y m <;> rfl

theorem bind_apply (x : Handler κ α) (g : α → Handler κ δ) (m : Machine κ) :
    (x >>= g).run m = match x.run m with
      | .ok (.ok a) t => (g a).run t
      | .ok (.error e) t => .ok (.error e) t
      | .error e t => .error e t := by
  change (x.run >>= ExceptT.bindCont g) m = _
  rw [Action.bind_apply]
  cases x.run m with
  | ok r t => cases r <;> rfl
  | error e t => rfl

theorem after_bind_lift (y : Action κ α) (g : α → Handler κ δ) (m : Machine κ) :
    (ExceptT.lift y >>= g).run.after m = match y m with
      | .ok a t => (g a).run.after t
      | .error _ t => t := by
  rw [after, bind_lift_apply]
  cases y m <;> rfl

theorem bind_lift_eq_ok {y : Action κ α} {b : δ}
    (h : (ExceptT.lift y >>= g).run m = .ok (.ok b) t) :
    ∃ a u, y m = .ok a u ∧ (g a).run u = .ok (.ok b) t := by
  obtain ⟨a, u, hy, hg⟩ := bind_eq_ok h
  obtain ⟨c, hc, hy⟩ := lift_eq_ok hy
  cases hc
  exact ⟨a, u, hy, hg⟩

end Handler

namespace Kernel

variable {β : Type}

def onState (m : Machine (Kernel β)) (k : Kernel β) : Machine (Kernel β) := { m with state := k }

@[simp] theorem state_onState (m : Machine (Kernel β)) (k : Kernel β) :
    (onState m k).state = k := rfl

@[simp] theorem calls_onState (m : Machine (Kernel β)) (k : Kernel β) :
    (onState m k).calls = m.calls := rfl

theorem ask_apply (f : Kernel β → α × Kernel β) (c : α → Call) (m : Machine (Kernel β)) :
    ask f c m = .ok (f m.state).1
      ((onState m (f m.state).2).push [.called (c (f m.state).1) m.state.lock.held]) := by
  rw [Machine.push_of_record?_eq_none rfl]
  rfl

theorem onMemory_apply (id : MemoryId) (op : BootMemory.Operation) (m : Machine (Kernel β)) :
    onMemory id op m =
      match (m.state.getMemory id).apply op with
      | .ok (o, b) => .ok o
          ((onState m (m.state.setMemory id b)).push
            (((m.state.getMemory id).records op).map .printed))
      | .error p => .error (.panicked p)
          (m.push (((m.state.getMemory id).records op).map .printed ++
            [.printed (Action.panicRecord p)])) := by
  rw [onMemory, Action.bind_apply, Action.current_apply]
  dsimp only
  rw [Action.bind_apply, Action.sayAll_apply]
  dsimp only
  split
  · rename_i o b h
    rw [h]
    rfl
  · rename_i p h
    rw [h]
    dsimp only
    rw [Action.halt_apply, Machine.push_push]

theorem acquireLock_of_free {m : Machine (Kernel β)} (h : m.state.lock.held = false) :
    acquireLock m =
      .ok () ((onState m { m.state with lock := ⟨⟨true⟩⟩ }).push [.locking]) := by
  rw [Machine.push_of_record?_eq_none rfl]
  simp [acquireLock, Spinlock.acquire?_eq_some_iff.mpr ⟨h, rfl⟩, onState]

theorem acquireLock_of_held {m : Machine (Kernel β)} (h : m.state.lock.held = true) :
    acquireLock m = .error .lockHeld (m.push [.locking]) := by
  have hnone : m.state.lock.acquire? = none := by
    refine Option.eq_none_iff_forall_not_mem.mpr fun l hl => ?_
    rw [(Spinlock.acquire?_eq_some_iff.mp hl).1] at h
    cases h
  rw [Machine.push_of_record?_eq_none rfl]
  simp [acquireLock, hnone]

theorem unlocked_eq (m : Machine (Kernel β)) :
    unlocked m = (onState m { m.state with lock := .free }).push [.unlocking] := by
  rw [Machine.push_of_record?_eq_none rfl]
  rfl

theorem holdingLock_eq_ok {x : Action (Kernel β) α} {m t : Machine (Kernel β)} {a : α}
    (h : holdingLock x m = .ok a t) :
    ∃ u v, acquireLock m = .ok () u ∧ x u = .ok a v ∧ t = unlocked v := by
  unfold holdingLock at h
  split at h
  · cases h
  · rename_i u hu
    split at h
    · rename_i b v hx
      cases h
      exact ⟨u, v, hu, hx, rfl⟩
    · cases h

theorem holdingLock_eq_error {x : Action (Kernel β) α} {m t : Machine (Kernel β)} {e : Fault}
    (h : holdingLock x m = .error e t) :
    acquireLock m = .error e t ∨
      ∃ u v, acquireLock m = .ok () u ∧ x u = .error e v ∧ t = unlocked v := by
  unfold holdingLock at h
  split at h
  · rename_i hu
    cases h
    exact Or.inl hu
  · rename_i u hu
    split at h
    · cases h
    · rename_i f v hx
      cases h
      exact Or.inr ⟨u, v, hu, hx, rfl⟩

theorem holdingLock_of_held (x : Action (Kernel β) α) {m : Machine (Kernel β)}
    (h : m.state.lock.held = true) :
    holdingLock x m = .error .lockHeld (m.push [.locking]) := by
  rw [holdingLock, acquireLock_of_held h]

theorem after_holdingLock (x : Action (Kernel β) α) (m : Machine (Kernel β)) :
    (holdingLock x).after m = match acquireLock m with
      | .ok () u => unlocked (x.after u)
      | .error _ u => u := by
  unfold Action.after holdingLock
  cases acquireLock m with
  | error e u => rfl
  | ok a u =>
    dsimp only
    cases x u <;> rfl

end Kernel

end KernelCore
