import KernelCore.Memory.Tracker

/-! # Operations on a tracker

What is reported to a tracker, one operation after the other. A release that is refused leaves the tracker
as it was. Whoever records a pointer sees to it that it is not null and not tracked already.
-/

namespace KernelCore.Tracker

inductive Operation where
  | record (p : Address) (size : UInt64)
  | release (p : Address)
  deriving DecidableEq, Repr

def apply (t : Tracker) : Operation → Tracker
  | .record p size => t.record p size
  | .release p => (t.release? p).getD t

def run (t : Tracker) (ops : List Operation) : Tracker := ops.foldl apply t

def Allows (t : Tracker) : Operation → Prop
  | .record p _ => p ≠ 0 ∧ t.tracked p = false
  | .release _ => True

def AllowsAll (t : Tracker) : List Operation → Prop
  | [] => True
  | op :: ops => t.Allows op ∧ (t.apply op).AllowsAll ops

instance (t : Tracker) : ∀ op : Operation, Decidable (t.Allows op)
  | .record p _ => inferInstanceAs (Decidable (p ≠ 0 ∧ t.tracked p = false))
  | .release _ => inferInstanceAs (Decidable True)

instance decidableAllowsAll (t : Tracker) : ∀ ops : List Operation, Decidable (t.AllowsAll ops)
  | [] => inferInstanceAs (Decidable True)
  | op :: ops =>
      have := decidableAllowsAll (t.apply op) ops
      inferInstanceAs (Decidable (t.Allows op ∧ (t.apply op).AllowsAll ops))

@[simp] theorem run_nil (t : Tracker) : t.run [] = t := rfl

theorem run_concat (t : Tracker) (ops : List Operation) (op : Operation) :
    t.run (ops ++ [op]) = (t.run ops).apply op := by
  simp [run]

theorem allowsAll_concat {t : Tracker} {ops : List Operation} {op : Operation} :
    t.AllowsAll (ops ++ [op]) ↔ t.AllowsAll ops ∧ (t.run ops).Allows op := by
  induction ops generalizing t with
  | nil => simp [AllowsAll]
  | cons first ops ih =>
    simp only [List.cons_append, AllowsAll, ih, and_assoc]
    rfl

theorem release?_eq_some_iff {t t' : Tracker} {p : Address} :
    t.release? p = some t' ↔ p ≠ 0 ∧ ∃ size, t.live.lookup p = some size ∧
      t' = { t with live := t.without p, freed := t.freed + size, usage := t.usage - size } := by
  by_cases hp : p = 0
  · simp [release?, hp]
  · simp only [release?, hp, if_false, Option.map_eq_some_iff, ne_eq, not_false_eq_true, true_and,
      @eq_comm _ t']

end KernelCore.Tracker
