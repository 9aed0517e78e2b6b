import KernelCore.Lifetime.Values

/-! # What work on cells constructs and destroys

Each operation on cells that hold values comes to cells that hold values, and the numbers of objects that it
constructs and destroys on its way only depend on which of the cells are occupied. No operation comes to a
misuse: storage is destroyed before it is constructed over, and each temporary ends once.
-/

namespace KernelCore

variable {α β δ ε γ : Type} {i i' j j' : Nat}

/-- An action that comes to `b` without misuse, and constructs `i` objects and destroys `j` on its way. -/
def Completes (act : Life β) (b : β) (i j : Nat) : Prop :=
  ∀ c : Census, act.run c = .ok (b, ⟨c.constructed + i, c.destroyed + j⟩)

theorem completes_pure (b : β) : Completes (pure b) b 0 0 := fun _ => rfl

theorem Completes.bind {act : Life β} {f : β → Life δ} {b : β} {d : δ} (h : Completes act b i j)
    (hf : Completes (f b) d i' j') : Completes (act >>= f) d (i + i') (j + j') := by
  intro c
  rw [StateT.run_bind, h c]
  exact (hf _).trans (by rw [Nat.add_assoc, Nat.add_assoc])

namespace Storage

variable (a : α)

theorem completes_construct : Completes (raw.construct a) (live a) 1 0 := fun _ => rfl

theorem completes_destroy : Completes (live a).destroy raw 0 1 := fun _ => rfl

theorem completes_read : Completes (live a).read a 0 0 := fun _ => rfl

theorem completes_assign (a' : α) : Completes ((live a).assign a') (live a') 0 0 := fun _ => rfl

end Storage

namespace OptionalCell

/-- How many objects a cell has. -/
def weight (v : Option α) : Nat := v.isSome.toNat

variable (v w : Option α) (a : α)

theorem completes_ofCopy : Completes (ofCopy a) (holding (some a)) 1 0 := fun _ => rfl

theorem completes_value? : Completes (holding v).value? v 0 0 := by
  intro c
  cases v <;> rfl

theorem completes_deref :
    Completes (holding v).deref (v.elim (.error .emptyOptional) .ok) 0 0 := by
  intro c
  cases v <;> rfl

theorem completes_reset : Completes (holding v).reset (holding none) 0 (weight v) := by
  intro c
  cases v <;> rfl

theorem completes_emplace : Completes ((holding v).emplace a) (holding (some a)) 1 (weight v) := by
  intro c
  cases v <;> rfl

theorem completes_copyOf : Completes (holding v).copyOf (holding v) (weight v) 0 := by
  intro c
  cases v <;> rfl

theorem completes_assignCopy :
    Completes ((holding v).assignCopy (holding w)) (holding w) (weight w) (weight v) := by
  intro c
  cases v <;> cases w <;> rfl

theorem completes_equals [DecidableEq α] :
    Completes ((holding v).equals (holding w)) (decide (v = w)) 0 0 := by
  intro c
  cases v <;> cases w <;> rfl

theorem completes_valueOr :
    Completes ((holding v).valueOr (.live a)) (.live (v.getD a)) 1 0 := by
  intro c
  cases v <;> rfl

variable [Movable α]

theorem completes_ofMove :
    Completes (ofMove (.live a)) (holding (some a), .live (Movable.leftBehind a)) 1 0 := fun _ => rfl

theorem completes_moveOf : Completes (holding v).moveOf
    (holding v, holding (Movable.leftBehind <$> v)) (weight v) 0 := by
  intro c
  cases v <;> rfl

theorem completes_assignMove : Completes ((holding v).assignMove (holding w))
    (holding w, holding (Movable.leftBehind <$> w)) (weight w) (weight v) := by
  intro c
  cases v <;> cases w <;> rfl

theorem completes_assignTemporary : Completes ((holding v).assignTemporary (holding w)) (holding w)
    (weight w) (weight v + weight w) := by
  intro c
  cases v <;> cases w <;> rfl

theorem completes_transform (f : α → α) : Completes ((holding v).transform f) (holding (v.map f))
    (weight v + weight v) (weight v) := by
  intro c
  cases v <;> rfl

end OptionalCell

namespace ResultCell

def weight (v : Except ε α) : Nat := v.isOk.toNat

variable (v w : Except ε α) (a : α)

theorem completes_ofCopy : Completes (ofCopy a) (holding (.ok a : Except ε α)) 1 0 := fun _ => rfl

theorem completes_value : Completes (holding v).value v 0 0 := by
  intro c
  cases v <;> rfl

theorem completes_vacate : Completes (holding v).vacate .raw 0 (weight v) := by
  intro c
  cases v <;> rfl

theorem completes_copyOf : Completes (holding v).copyOf (holding v) (weight v) 0 := by
  intro c
  cases v <;> rfl

theorem completes_assign :
    Completes ((holding v).assign (holding w)) (holding w) (weight w) (weight v) := by
  intro c
  cases v <;> cases w <;> rfl

theorem completes_assignTemporary : Completes ((holding v).assignTemporary (holding w)) (holding w)
    (weight w) (weight v + weight w) := by
  intro c
  cases v <;> cases w <;> rfl

theorem completes_deref :
    Completes (holding v).deref (v.mapError fun _ => .valueOfFailure) 0 0 := by
  intro c
  cases v <;> rfl

theorem completes_valueOr :
    Completes ((holding v).valueOr (.live a)) (.live (v.toOption.getD a)) 1 0 := by
  intro c
  cases v <;> rfl

theorem completes_transformError (f : ε → γ) :
    Completes ((holding v).transformError f) (holding (v.mapError f)) (weight v) 0 := by
  intro c
  cases v <;> rfl

variable [Movable α]

theorem completes_ofMove : Completes (ofMove (.live a))
    (holding (.ok a : Except ε α), .live (Movable.leftBehind a)) 1 0 := fun _ => rfl

theorem completes_moveOf : Completes (holding v).moveOf
    (holding v, holding (Movable.leftBehind <$> v)) (weight v) 0 := by
  intro c
  cases v <;> rfl

end ResultCell

end KernelCore
