import KernelCore.Proofs.Lifetime.Rows

/-! # Cells refine plain values

Whatever is done to cells, the replies are those of the same history on values alone, and the cells are those
that hold its values. All objects that were constructed are destroyed but those of the occupied cells.
-/

namespace KernelCore

variable {α β ε γ : Type} {n m k n₀ m₀ x y z : Nat}

section Frame

variable {act : Life β} {b : β}

theorem Trades.frame_right (h : Trades act b x y) (z : Nat) : Trades act b (x + z) (y + z) := by
  obtain ⟨i, j, h, e⟩ := h
  exact h.trades (by omega)

theorem Trades.frame_left (h : Trades act b x y) (z : Nat) : Trades act b (z + x) (z + y) := by
  rw [Nat.add_comm z, Nat.add_comm z]
  exact h.frame_right z

end Frame

namespace Values

/-- How many of the values are there. -/
def held (s : Values α ε n m k) : Nat :=
  s.optionals.countP Option.isSome + s.results.countP Except.isOk

theorem occupied_objects (s : Values α ε n m k) : s.objects.occupied = s.held := by
  have optionals : (·.occupied) ∘ OptionalCell.holding = (Option.isSome : Option α → Bool) :=
    funext OptionalCell.occupied_holding
  have results : (·.isOk) ∘ ResultCell.holding = (Except.isOk : Except ε α → Bool) :=
    funext ResultCell.isOk_holding
  rw [Objects.occupied, Vector.countP_toList, Vector.countP_toList, objects, Vector.countP_map,
    Vector.countP_map, optionals, results, held]

theorem row_trades (a : α) (m : Nat) :
    Trades (Objects.row a m) ((Vector.replicate m (.ok a : Except ε α)).map ResultCell.holding) 0 m := by
  induction m with
  | zero =>
    rw [Vector.replicate_zero, Vector.map_empty]
    exact (completes_pure _).trades rfl
  | succ m ih =>
    rw [Vector.replicate_succ, Vector.map_push]
    exact ih.bind (Completes.trades ((ResultCell.completes_ofCopy a).bind <| completes_pure _) rfl)

theorem initial_trades (a : α) :
    Trades (Objects.initial a) (initial a : Values α ε n m k).objects 0
      (initial a : Values α ε n m k).held := by
  have optionals : (Vector.replicate n (none : Option α)).map OptionalCell.holding =
      Vector.replicate n .null := Vector.map_replicate
  have held : (initial a : Values α ε n m k).held = m := by
    rw [Values.held, initial, Vector.countP_replicate, Vector.countP_replicate]
    exact Nat.zero_add m
  rw [held, objects, initial, optionals]
  exact (row_trades a m).bind ((completes_pure _).trades rfl)

variable [Movable α] [DecidableEq α]

theorem step_trades (s : Values α ε n m k) (op : Objects.Operation α ε γ n m k) :
    Trades (s.objects.step op) ((s.next op).1, (s.next op).2.objects) s.held (s.next op).2.held := by
  cases op with
  | optional op =>
    exact ((OptionalCell.step_trades s.optionals op).frame_right _).bind
      ((completes_pure _).trades rfl)
  | result op =>
    exact ((ResultCell.step_trades s.results op).frame_left _).bind ((completes_pure _).trades rfl)
  | void op => exact (completes_pure _).trades rfl

theorem run_trades (a : α) (h : Objects.History α ε γ n₀ m₀ k n m) :
    Trades (Objects.run a h) ((run a h).1, (run a h).2.objects) 0 (run a h).2.held := by
  induction h with
  | start => exact (initial_trades a).bind ((completes_pure _).trades rfl)
  | act h op ih => exact ih.bind ((step_trades _ op).bind ((completes_pure _).trades rfl))
  | newOptional h source ih =>
    exact ih.bind (((OptionalCell.build_trades _ source).frame_right _).bind
      ((completes_pure _).trades rfl))
  | endOptional h x ih =>
    exact ih.bind (((OptionalCell.discard_trades _ x).frame_right _).bind
      ((completes_pure _).trades rfl))
  | newResult h source ih =>
    exact ih.bind (((ResultCell.build_trades _ source).frame_left _).bind
      ((completes_pure _).trades rfl))
  | endResult h x ih =>
    exact ih.bind (((ResultCell.discard_trades _ x).frame_left _).bind
      ((completes_pure _).trades rfl))

end Values

/-- Every history runs without misuse and replies as plain values do. -/
theorem Objects.run_refines_values [Movable α] [DecidableEq α] (a : α)
    (h : Objects.History α ε γ n₀ m₀ k n m) : ∃ c : Census,
      (Objects.run a h).run .zero = .ok (((Values.run a h).1, (Values.run a h).2.objects), c) ∧
        c.destroyed ≤ c.constructed ∧ c.alive = (Values.run a h).2.objects.occupied := by
  obtain ⟨i, j, completes, balance⟩ := Values.run_trades a h
  rw [Values.occupied_objects]
  refine ⟨_, completes .zero, ?_, ?_⟩
  · simp only [Census.zero]
    omega
  · simp only [Census.alive, Census.zero]
    omega

end KernelCore
