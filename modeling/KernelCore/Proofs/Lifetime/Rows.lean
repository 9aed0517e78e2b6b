import KernelCore.Proofs.Lifetime.Effects
import Mathlib.Data.List.Perm.Basic
import Mathlib.Tactic.SplitIfs

/-! # Rows of cells that hold values

Each operation on a row of cells gives the reply of the same operation on the row of their values, and leaves
the cells that hold what that leaves. What it constructs beyond what it destroys is what the row gains.
-/

namespace KernelCore

variable {α β δ ε γ ρ : Type} {n x y z i j : Nat}

section Row

variable (f : α → β) (p : α → Bool) (vs : Vector α n) (d : Fin n)

theorem ite_eq_toNat (b : Bool) : (if b = true then 1 else 0) = b.toNat := by
  cases b <;> rfl

theorem get_eq : vs.get d = vs[d.val] := rfl

theorem get_mapped : (vs.map f).get d = f (vs.get d) := Vector.getElem_map ..

theorem set_get : vs.set d (vs.get d) d.isLt = vs := Vector.set_getElem_self ..

theorem map_eraseIdx : (vs.map f).eraseIdx d d.isLt = (vs.eraseIdx d d.isLt).map f := by
  apply Vector.toList_inj.mp
  rw [Vector.toList_eraseIdx, Vector.toList_map, Vector.toList_map, Vector.toList_eraseIdx,
    List.eraseIdx_map]

theorem countP_eraseIdx_add :
    (vs.eraseIdx d d.isLt).countP p + (p (vs.get d)).toNat = vs.countP p := by
  have hd : d.val < vs.toList.length := by rw [Vector.length_toList]; exact d.isLt
  have h := (List.getElem_cons_eraseIdx_perm hd).countP_eq p
  rw [List.countP_cons, Vector.getElem_toList, ← Vector.toList_eraseIdx d.isLt] at h
  rw [Vector.countP_toList, Vector.countP_toList] at h
  rw [← h, get_eq, ite_eq_toNat]

theorem countP_set_add (v : α) :
    (vs.set d v d.isLt).countP p + (p (vs.get d)).toNat = vs.countP p + (p v).toNat := by
  have before := countP_eraseIdx_add p vs d
  have after := countP_eraseIdx_add p (vs.set d v d.isLt) d
  rw [Vector.eraseIdx_set_eq, get_eq, Vector.getElem_set_self] at after
  omega

theorem countP_push_eq (v : α) : (vs.push v).countP p = vs.countP p + (p v).toNat := by
  rw [Vector.countP_push, ite_eq_toNat]

end Row

section Moving

variable {f : Type → Type} [Functor f] [Movable α] (p : f α → Bool) (vs : Vector (f α) n) (d x : Fin n)

theorem relocate_self : relocate vs d d = vs := by
  rw [relocate, movedOut, Vector.set_set, set_get]

theorem map_movedOut (hold : f α → β) : (movedOut vs x).map hold =
    (vs.map hold).set x (hold (Movable.leftBehind <$> vs.get x)) x.isLt :=
  Vector.map_set

theorem get_movedOut_of_ne (h : d ≠ x) : (movedOut vs x).get d = vs.get d :=
  Vector.getElem_set_ne _ _ fun e => h (Fin.ext e.symm)

variable (hp : ∀ v, p (Movable.leftBehind <$> v) = p v)
include hp

theorem countP_movedOut : (movedOut vs x).countP p = vs.countP p := by
  have h := countP_set_add p vs x (Movable.leftBehind <$> vs.get x)
  rw [hp] at h
  exact Nat.add_right_cancel h

theorem countP_relocate : (relocate vs d x).countP p + (p ((movedOut vs x).get d)).toNat =
    vs.countP p + (p (vs.get x)).toNat := by
  rw [relocate, countP_set_add, countP_movedOut p vs x hp]

end Moving

/-- An action that comes to `b` without misuse, over cells that hold `x` objects before and `y` after it. -/
def Trades (act : Life β) (b : β) (x y : Nat) : Prop :=
  ∃ i j, Completes act b i j ∧ x + i = y + j

theorem Completes.trades {act : Life β} {b : β} (h : Completes act b i j) (e : x + i = y + j) :
    Trades act b x y :=
  ⟨i, j, h, e⟩

theorem Trades.bind {act : Life β} {f : β → Life δ} {b : β} {d : δ} (h : Trades act b x y)
    (hf : Trades (f b) d y z) : Trades (act >>= f) d x z := by
  obtain ⟨i, j, h, e⟩ := h
  obtain ⟨i', j', hf, e'⟩ := hf
  exact (h.bind hf).trades (by omega)

theorem trades_set {p : α → Bool} {hold : α → β} {vs : Vector α n} {d : Fin n} {v : α} {r : ρ}
    {act : Life (ρ × Vector β n)} (h : Completes act (r, (vs.map hold).set d (hold v) d.isLt) i j)
    (e : (p (vs.get d)).toNat + i = (p v).toNat + j) :
    Trades act (r, (vs.map hold).set d (hold v) d.isLt) (vs.countP p)
      ((vs.set d v d.isLt).countP p) :=
  h.trades (by have := countP_set_add p vs d v; omega)

theorem trades_relocate {f : Type → Type} [Functor f] [Movable α] {p : f α → Bool} {hold : f α → β}
    {vs : Vector (f α) n} {d x : Fin n} {r : ρ} {act : Life (ρ × Vector β n)} {cells : Vector β n}
    (hp : ∀ v, p (Movable.leftBehind <$> v) = p v)
    (hcells : cells = ((vs.map hold).set x (hold (Movable.leftBehind <$> vs.get x)) x.isLt).set d
      (hold (vs.get x)) d.isLt)
    (h : Completes act (r, cells) i j)
    (e : (p ((movedOut vs x).get d)).toNat + i = (p (vs.get x)).toNat + j) :
    Trades act (r, (relocate vs d x).map hold) (vs.countP p) ((relocate vs d x).countP p) := by
  have hcount := countP_relocate p vs d x hp
  rw [relocate, Vector.map_set, map_movedOut, ← hcells, ← relocate]
  exact h.trades (by omega)

namespace OptionalCell

variable (vs : Vector (Option α) n)

theorem occupied_holding (v : Option α) : (holding v).occupied = v.isSome := by
  cases v <;> rfl

theorem discard_trades (x : Fin n) :
    Trades (discard (vs.map holding) x) ((vs.eraseIdx x x.isLt).map holding)
      (vs.countP Option.isSome) ((vs.eraseIdx x x.isLt).countP Option.isSome) := by
  simp only [discard, get_mapped, map_eraseIdx]
  exact Completes.trades ((completes_reset _).bind <| completes_pure _)
    (by have := countP_eraseIdx_add Option.isSome vs x; simp only [weight]; omega)

variable [Movable α]

theorem isSome_leftBehind (v : Option α) : (Movable.leftBehind <$> v).isSome = v.isSome :=
  Option.isSome_map

theorem build_trades (source : Source α n) :
    Trades (build (vs.map holding) source) ((built vs source).map holding) (vs.countP Option.isSome)
      ((built vs source).countP Option.isSome) := by
  cases source with
  | empty =>
    simp only [build, built, Vector.map_push, countP_push_eq]
    exact (completes_pure _).trades rfl
  | copy a =>
    simp only [build, built, Vector.map_push, countP_push_eq]
    exact Completes.trades ((Storage.completes_construct a).bind <| (Storage.completes_read a).bind <|
      (completes_ofCopy a).bind <| (Storage.completes_destroy a).bind <| completes_pure _) rfl
  | move a =>
    simp only [build, built, Vector.map_push, countP_push_eq]
    exact Completes.trades ((Storage.completes_construct a).bind <| (completes_ofMove a).bind <|
      (Storage.completes_destroy _).bind <| completes_pure _) rfl
  | copyOf x =>
    simp only [build, built, Vector.map_push, get_mapped, countP_push_eq]
    exact Completes.trades ((completes_copyOf _).bind <| completes_pure _) rfl
  | moveOf x =>
    simp only [build, built, Vector.map_push, get_mapped, countP_push_eq, map_movedOut,
      countP_movedOut _ _ _ isSome_leftBehind]
    exact Completes.trades ((completes_moveOf _).bind <| completes_pure _) rfl

variable [DecidableEq α]

theorem step_trades (op : Operation α n) :
    Trades (step (vs.map holding) op)
      ((next vs op : CellReply α ε γ × _).1, (next vs op : CellReply α ε γ × _).2.map holding)
      (vs.countP Option.isSome) ((next vs op : CellReply α ε γ × _).2.countP Option.isSome) := by
  cases op with
  | setCopy d a =>
    simp only [step, next, get_mapped, Vector.map_set]
    exact trades_set ((Storage.completes_construct a).bind <| (Storage.completes_read a).bind <|
      (completes_ofCopy a).bind <| (completes_assignTemporary _ _).bind <|
      (Storage.completes_destroy a).bind <| completes_pure _) (by simp [weight]; omega)
  | setMove d a =>
    simp only [step, next, get_mapped, Vector.map_set]
    exact trades_set ((Storage.completes_construct a).bind <| (completes_ofMove a).bind <|
      (completes_assignTemporary _ _).bind <| (Storage.completes_destroy _).bind <| completes_pure _)
      (by simp [weight]; omega)
  | clear d =>
    simp only [step, next, get_mapped, Vector.map_set]
    exact trades_set ((completes_assignTemporary _ none).bind <| completes_pure _) (by simp [weight])
  | copy d x =>
    simp only [step, next, get_mapped]
    split_ifs with e
    · -- A cell keeps its object when it is assigned to itself.
      subst e
      rw [set_get]
      exact (completes_pure _).trades rfl
    · rw [Vector.map_set]
      exact trades_set ((completes_assignCopy _ _).bind <| completes_pure _) (Nat.add_comm _ _)
  | move d x =>
    simp only [step, next, get_mapped]
    split_ifs with e
    · subst e
      rw [relocate_self]
      exact (completes_pure _).trades rfl
    · refine trades_relocate isSome_leftBehind (Vector.set_comm _ _ fun h => e (Fin.ext h))
        ((completes_assignMove _ _).bind <| completes_pure _) ?_
      rw [get_movedOut_of_ne _ _ _ e]
      exact Nat.add_comm _ _
  | copyNew d x =>
    simp only [step, next, get_mapped, Vector.map_set]
    exact trades_set ((completes_copyOf _).bind <| (completes_assignTemporary _ _).bind <|
      completes_pure _) (by simp only [weight]; omega)
  | moveNew d x =>
    simp only [step, next, get_mapped]
    -- The temporary is assigned to what its source has become if the target is the source.
    have assign := completes_assignTemporary ((movedOut vs x).get d) (vs.get x)
    rw [← get_mapped holding, map_movedOut] at assign
    exact trades_relocate isSome_leftBehind rfl
      ((completes_moveOf _).bind <| assign.bind <| completes_pure _) (by simp only [weight]; omega)
  | emplace d a =>
    simp only [step, next, get_mapped, Vector.map_set]
    exact trades_set ((completes_emplace _ a).bind <| completes_pure _) (Nat.add_comm _ _)
  | reset d =>
    simp only [step, next, get_mapped, Vector.map_set]
    exact trades_set ((completes_reset _).bind <| completes_pure _) (Nat.add_comm _ _)
  | deref d =>
    simp only [step, next, get_mapped]
    exact Completes.trades ((completes_deref _).bind <| completes_pure _) rfl
  | put d a =>
    simp only [step, next, get_mapped]
    cases h : vs.get d with
    | none => exact Completes.trades ((completes_deref none).bind <| completes_pure _) rfl
    | some b =>
      simp only [Vector.map_set]
      exact trades_set ((completes_deref (some b)).bind <| (Storage.completes_assign b a).bind <|
        completes_pure _) (by rw [h]; rfl)
  | valueOr d a =>
    simp only [step, next, get_mapped]
    exact Completes.trades ((Storage.completes_construct a).bind <| (completes_valueOr _ a).bind <|
      (Storage.completes_read _).bind <| (Storage.completes_destroy _).bind <|
      (Storage.completes_destroy a).bind <| completes_pure _) rfl
  | equals d x =>
    simp only [step, next, get_mapped]
    exact Completes.trades ((completes_equals _ _).bind <| completes_pure _) rfl
  | occupied d =>
    simp only [step, next, get_mapped, occupied_holding]
    exact (completes_pure _).trades rfl
  | transform d f =>
    simp only [step, next, get_mapped]
    exact Completes.trades ((completes_transform _ f).bind <| (completes_value? _).bind <|
      (completes_reset _).bind <| completes_pure _) (by simp [weight])

end OptionalCell

namespace ResultCell

variable (vs : Vector (Except ε α) n)

theorem isOk_ok (a : α) : (Except.ok a : Except ε α).isOk = true := rfl

theorem isOk_error (e : ε) : (Except.error e : Except ε α).isOk = false := rfl

theorem isOk_holding (v : Except ε α) : (holding v).isOk = v.isOk := by
  cases v <;> rfl

theorem takeError_holding (v : Except ε α) : CellReply.ofError (holding v).takeError =
    (match v with
      | .ok _ => .panicked .errorOfSuccess
      | .error e => .error e : CellReply α ε γ) := by
  cases v <;> rfl

theorem discard_trades (x : Fin n) :
    Trades (discard (vs.map holding) x) ((vs.eraseIdx x x.isLt).map holding)
      (vs.countP Except.isOk) ((vs.eraseIdx x x.isLt).countP Except.isOk) := by
  simp only [discard, get_mapped, map_eraseIdx]
  exact Completes.trades ((completes_vacate _).bind <| completes_pure _)
    (by have := countP_eraseIdx_add Except.isOk vs x; simp only [weight]; omega)

variable [Movable α]

theorem isOk_leftBehind (v : Except ε α) : (Movable.leftBehind <$> v).isOk = v.isOk := by
  cases v <;> rfl

theorem build_trades (source : Source α ε n) :
    Trades (build (vs.map holding) source) ((built vs source).map holding) (vs.countP Except.isOk)
      ((built vs source).countP Except.isOk) := by
  cases source with
  | copy a =>
    simp only [build, built, Vector.map_push, countP_push_eq]
    exact Completes.trades ((Storage.completes_construct a).bind <| (Storage.completes_read a).bind <|
      (completes_ofCopy a).bind <| (Storage.completes_destroy a).bind <| completes_pure _) rfl
  | move a =>
    simp only [build, built, Vector.map_push, countP_push_eq]
    exact Completes.trades ((Storage.completes_construct a).bind <| (completes_ofMove a).bind <|
      (Storage.completes_destroy _).bind <| completes_pure _) rfl
  | error e =>
    simp only [build, built, Vector.map_push, countP_push_eq]
    exact (completes_pure _).trades rfl
  | copyOf x =>
    simp only [build, built, Vector.map_push, get_mapped, countP_push_eq]
    exact Completes.trades ((completes_copyOf _).bind <| completes_pure _) rfl
  | moveOf x =>
    simp only [build, built, Vector.map_push, get_mapped, countP_push_eq, map_movedOut,
      countP_movedOut _ _ _ isOk_leftBehind]
    exact Completes.trades ((completes_moveOf _).bind <| completes_pure _) rfl

theorem step_trades (op : Operation α ε γ n) :
    Trades (step (vs.map holding) op) ((next vs op).1, (next vs op).2.map holding)
      (vs.countP Except.isOk) ((next vs op).2.countP Except.isOk) := by
  cases op with
  | succeed d a =>
    simp only [step, next, get_mapped, Vector.map_set]
    exact trades_set ((Storage.completes_construct a).bind <| (Storage.completes_read a).bind <|
      (completes_ofCopy a).bind <| (completes_assignTemporary _ _).bind <|
      (Storage.completes_destroy a).bind <| completes_pure _) (by simp [weight, isOk_ok]; omega)
  | succeedMove d a =>
    simp only [step, next, get_mapped, Vector.map_set]
    exact trades_set ((Storage.completes_construct a).bind <| (completes_ofMove a).bind <|
      (completes_assignTemporary _ (.ok a)).bind <| (Storage.completes_destroy _).bind <| completes_pure _)
      (by simp [weight, isOk_ok]; omega)
  | fail d e =>
    simp only [step, next, get_mapped, Vector.map_set]
    exact trades_set ((completes_assignTemporary _ (.error e)).bind <| completes_pure _)
      (by simp [weight, isOk_error])
  | copy d x | move d x =>
    simp only [step, next, get_mapped]
    split_ifs with e
    · subst e
      rw [set_get]
      exact (completes_pure _).trades rfl
    · rw [Vector.map_set]
      exact trades_set ((completes_assign _ _).bind <| completes_pure _) (Nat.add_comm _ _)
  | copyNew d x =>
    simp only [step, next, get_mapped, Vector.map_set]
    exact trades_set ((completes_copyOf _).bind <| (completes_assignTemporary _ _).bind <|
      completes_pure _) (by simp only [weight]; omega)
  | moveNew d x =>
    simp only [step, next, get_mapped]
    have assign := completes_assignTemporary ((movedOut vs x).get d) (vs.get x)
    rw [← get_mapped holding, map_movedOut] at assign
    exact trades_relocate isOk_leftBehind rfl
      ((completes_moveOf _).bind <| assign.bind <| completes_pure _) (by simp only [weight]; omega)
  | deref d =>
    simp only [step, next, get_mapped]
    exact Completes.trades ((completes_deref _).bind <| completes_pure _) rfl
  | put d a =>
    simp only [step, next, get_mapped]
    cases h : vs.get d with
    | error e => exact (completes_pure _).trades rfl
    | ok b =>
      simp only [Vector.map_set]
      exact trades_set ((Storage.completes_assign b a).bind <| completes_pure _) (by rw [h]; rfl)
  | takeError d =>
    simp only [step, next, get_mapped, takeError_holding]
    cases vs.get d <;> exact (completes_pure _).trades rfl
  | valueOr d a =>
    simp only [step, next, get_mapped]
    exact Completes.trades ((Storage.completes_construct a).bind <| (completes_valueOr _ a).bind <|
      (Storage.completes_read _).bind <| (Storage.completes_destroy _).bind <|
      (Storage.completes_destroy a).bind <| completes_pure _) rfl
  | isOk d =>
    simp only [step, next, get_mapped, isOk_holding]
    exact (completes_pure _).trades rfl
  | transformError d f =>
    simp only [step, next, get_mapped]
    exact Completes.trades ((completes_transformError _ f).bind <| (completes_value _).bind <|
      (completes_vacate _).bind <| completes_pure _) (by cases vs.get d <;> rfl)

end ResultCell

end KernelCore
