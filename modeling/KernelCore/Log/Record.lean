import KernelCore.Text.Item

/-! # Log records

A record is one message with the importance it was written at; a record without one is shown
whatever the threshold. Raising the threshold only ever hides records: what is then shown is a
sublist of what was shown before.
-/

namespace KernelCore

structure Importance where
  level : UInt8
  deriving DecidableEq, Repr

namespace Importance

def debug : Importance := ⟨0⟩
def important : Importance := ⟨1⟩
def critical : Importance := ⟨2⟩
def error : Importance := ⟨3⟩

instance : LE Importance := ⟨fun a b => a.level ≤ b.level⟩

instance (a b : Importance) : Decidable (a ≤ b) := inferInstanceAs (Decidable (a.level ≤ b.level))

theorem le_trans {a b c : Importance} (h : a ≤ b) (h' : b ≤ c) : a ≤ c :=
  UInt8.le_trans h h'

end Importance

structure Record where
  importance : Option Importance
  items : List Item
  deriving DecidableEq, Repr

namespace Record

/-- A record is shown when it reaches the threshold or has no importance at all. -/
def visible (threshold : Importance) (r : Record) : Bool :=
  match r.importance with
  | none => true
  | some i => decide (threshold ≤ i)

/-- The items that a log with the given threshold shows. -/
def shown (threshold : Importance) (rs : List Record) : List Item :=
  (rs.filter (visible threshold)).flatMap items

theorem visible_of_le {t t' : Importance} {r : Record} (h : t ≤ t') (hr : visible t' r = true) :
    visible t r = true := by
  unfold visible at *
  split at hr
  · rfl
  · simp only [decide_eq_true_eq] at *; exact Importance.le_trans h hr

@[simp] theorem shown_nil (t : Importance) : shown t [] = [] := rfl

@[simp] theorem shown_append (t : Importance) (rs rs' : List Record) :
    shown t (rs ++ rs') = shown t rs ++ shown t rs' := by
  simp [shown]

theorem shown_cons (t : Importance) (r : Record) (rs : List Record) :
    shown t (r :: rs) = (if visible t r then r.items else []) ++ shown t rs := by
  unfold shown; by_cases h : visible t r <;> simp [h]

theorem shown_sublist {t t' : Importance} (h : t ≤ t') (rs : List Record) :
    (shown t' rs).Sublist (shown t rs) := by
  induction rs with
  | nil => exact .slnil
  | cons r rs ih =>
    simp only [shown_cons]
    by_cases hr : visible t' r = true
    · simp only [hr, visible_of_le h hr, if_true]; exact (List.Sublist.refl _).append ih
    · simp only [hr, Bool.false_eq_true, if_false, List.nil_append]
      exact ih.trans (List.sublist_append_right _ _)

end Record

end KernelCore
