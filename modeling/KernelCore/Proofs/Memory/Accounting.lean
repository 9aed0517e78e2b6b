import KernelCore.Memory.Tracker.Operation
import Mathlib.Order.Bounds.Basic
import Mathlib.Data.List.Infix
import Mathlib.Data.List.Nodup
import Mathlib.Data.UInt

/-! # What a tracker knows

From a reset on a tracker keeps exactly the allocations of its history that were not given back, each once,
and its usage is the sum of their sizes up to multiples of 2 ^ 64. The peak is only looked at when something
is recorded, which suffices while the live sizes do not wrap.
-/

namespace KernelCore.Tracker

variable {t t' : Tracker} {ops : List Operation} {op : Operation} {p q : Address} {size s : UInt64}

/-- In a history a pointer was recorded with a size and has not been given back since. -/
def Outstanding (ops : List Operation) (p : Address) (size : UInt64) : Prop :=
  ∃ before after, ops = before ++ .record p size :: after ∧ Operation.release p ∉ after

theorem not_outstanding_nil : ¬ Outstanding [] p size := by
  rintro ⟨before, after, h, -⟩
  simp at h

theorem outstanding_concat : Outstanding (ops ++ [op]) p size ↔
    op = .record p size ∨ (Outstanding ops p size ∧ op ≠ .release p) := by
  constructor
  · rintro ⟨before, after, h, hafter⟩
    rcases List.eq_nil_or_concat after with rfl | ⟨after, last, rfl⟩
    · exact .inl (List.singleton_inj.mp (List.append_inj' h rfl).2)
    · rw [List.concat_eq_append] at h hafter
      rw [← List.cons_append, ← List.append_assoc] at h
      obtain ⟨rfl, hlast⟩ := List.append_inj' h rfl
      obtain rfl : op = last := List.singleton_inj.mp hlast
      simp only [List.mem_append, List.mem_singleton, not_or] at hafter
      exact .inr ⟨⟨before, after, rfl, hafter.1⟩, Ne.symm hafter.2⟩
  · rintro (rfl | ⟨⟨before, after, rfl, hafter⟩, hop⟩)
    · exact ⟨ops, [], rfl, List.not_mem_nil⟩
    · refine ⟨before, after ++ [op], by simp, ?_⟩
      simp only [List.mem_append, List.mem_singleton, not_or]
      exact ⟨hafter, Ne.symm hop⟩

/-- How many bytes some allocations have. -/
def totalSize (l : List (Address × UInt64)) : Nat := (l.map fun x => x.2.toNat).sum

/-- Every pointer is live at most once. -/
def Distinct (t : Tracker) : Prop := (t.live.map Prod.fst).Nodup

theorem without_eq_live (h : ∀ size, (p, size) ∉ t.live) : t.without p = t.live := by
  refine List.filter_eq_self.mpr fun x hx => ?_
  rw [decide_eq_true_eq]
  rintro rfl
  exact h x.2 hx

theorem Distinct.without_eq (h : t.Distinct) {l l' : List (Address × UInt64)}
    (hl : t.live = l ++ (p, size) :: l') : t.without p = l ++ l' := by
  rw [Distinct, hl, List.map_append, List.map_cons, List.nodup_middle, List.nodup_cons,
    ← List.map_append] at h
  have hothers : ∀ size, (p, size) ∉ l ++ l' := fun size hx => h.1 (List.mem_map.mpr ⟨_, hx, rfl⟩)
  rw [without, hl, List.filter_append, List.filter_cons_of_neg (by simp), ← List.filter_append]
  exact without_eq_live (t := { t with live := l ++ l' }) hothers

theorem Distinct.parts (h : t.Distinct) (hlook : t.live.lookup p = some size) :
    ∃ l l', t.live = l ++ (p, size) :: l' ∧ t.without p = l ++ l' := by
  obtain ⟨l, l', hl, -⟩ := List.lookup_eq_some_iff.mp hlook
  exact ⟨l, l', hl, h.without_eq hl⟩

theorem Distinct.totalSize_eq (h : t.Distinct) (hlook : t.live.lookup p = some size) :
    totalSize t.live = size.toNat + totalSize (t.without p) := by
  obtain ⟨l, l', hl, hwithout⟩ := h.parts hlook
  simp only [totalSize, hwithout, hl, List.map_append, List.map_cons, List.sum_append, List.sum_cons]
  omega

theorem tracked_iff : t.tracked p = true ↔ ∃ size, (p, size) ∈ t.live := by
  rw [tracked, Option.isSome_iff_exists]
  constructor
  · rintro ⟨size, h⟩
    obtain ⟨l, l', hl, -⟩ := List.lookup_eq_some_iff.mp h
    exact ⟨size, hl ▸ List.mem_append_right l List.mem_cons_self⟩
  · rintro ⟨size, h⟩
    cases hlook : t.live.lookup p with
    | some size => exact ⟨size, rfl⟩
    | none => simpa using List.lookup_eq_none_iff.mp hlook _ h

theorem hasLeaks_iff : t.hasLeaks = true ↔ ∃ p size, (p, size) ∈ t.live := by
  rw [hasLeaks, Bool.not_eq_true', List.isEmpty_eq_false_iff_exists_mem, Prod.exists]

/-- The tracker lists what is outstanding in a history, and its counters agree with the list. -/
structure Kept (ops : List Operation) (t : Tracker) : Prop where
  distinct : t.Distinct
  mem_iff : ∀ p size, (p, size) ∈ t.live ↔ Outstanding ops p size
  nonnull : ∀ size, ¬ Outstanding ops 0 size
  usage_eq : t.usage.toNat = totalSize t.live % 2 ^ 64
  balance : t.usage = t.allocated - t.freed

theorem kept_empty : Kept [] empty where
  distinct := List.nodup_nil
  mem_iff _ _ := ⟨fun h => absurd h List.not_mem_nil, fun h => absurd h not_outstanding_nil⟩
  nonnull _ := not_outstanding_nil
  usage_eq := rfl
  balance := rfl

theorem Kept.record (h : Kept ops t) (hp : p ≠ 0) (hnew : t.tracked p = false) :
    Kept (ops ++ [.record p size]) (t.record p size) := by
  have hfresh : ∀ s, (p, s) ∉ t.live := by
    simpa using mt tracked_iff.mpr (Bool.eq_false_iff.mp hnew)
  have hlive : (t.record p size).live = (p, size) :: t.live := by
    rw [Tracker.record, if_neg hp, without_eq_live hfresh]
  have husage : (t.record p size).usage = t.usage + size := by rw [Tracker.record, if_neg hp]
  constructor
  case distinct =>
    rw [Distinct, hlive, List.map_cons, List.nodup_cons]
    refine ⟨fun hmem => ?_, h.distinct⟩
    obtain ⟨⟨q, s⟩, hs, rfl⟩ := List.mem_map.mp hmem
    exact hfresh s hs
  case mem_iff =>
    intro q s
    rw [hlive, List.mem_cons, h.mem_iff, outstanding_concat]
    simp [eq_comm]
  case nonnull =>
    intro s hs
    rcases outstanding_concat.mp hs with hop | ⟨hs, -⟩
    · injection hop with hzero
      exact hp hzero
    · exact h.nonnull s hs
  case usage_eq =>
    rw [husage, UInt64.toNat_add, h.usage_eq, Nat.mod_add_mod, hlive, totalSize, totalSize, List.map_cons,
      List.sum_cons, Nat.add_comm]
  case balance =>
    rw [husage, h.balance, Tracker.record, if_neg hp]
    exact sub_add_eq_add_sub _ _ _

theorem Kept.release (h : Kept ops t) : Kept (ops ++ [.release p]) (t.apply (.release p)) := by
  have hnonnull : ∀ s, ¬ Outstanding (ops ++ [.release p]) 0 s := by
    intro s hs
    rcases outstanding_concat.mp hs with hop | ⟨hs, -⟩
    · cases hop
    · exact h.nonnull s hs
  cases hr : t.release? p with
  | none =>
    -- Nothing by that pointer was outstanding, and so nothing is given back.
    have hnot : ∀ s, ¬ Outstanding ops p s := fun s hs => by
      have hp : p ≠ 0 := fun hp => h.nonnull s (hp ▸ hs)
      have htracked := tracked_iff.mpr ⟨s, (h.mem_iff p s).mpr hs⟩
      rw [release?, if_neg hp, Option.map_eq_none_iff] at hr
      simp [tracked, hr] at htracked
    rw [apply, hr, Option.getD_none]
    refine ⟨h.distinct, fun q s => ?_, hnonnull, h.usage_eq, h.balance⟩
    rw [h.mem_iff, outstanding_concat]
    constructor
    · intro hs
      refine .inr ⟨hs, fun hop => ?_⟩
      injection hop with he
      exact hnot s (he ▸ hs)
    · rintro (hop | ⟨hs, -⟩)
      · cases hop
      · exact hs
  | some t' =>
    rw [apply, hr, Option.getD_some]
    obtain ⟨hp, size, hlook, rfl⟩ := release?_eq_some_iff.mp hr
    constructor
    case distinct => exact h.distinct.sublist (List.filter_sublist.map _)
    case mem_iff =>
      intro q s
      rw [without, List.mem_filter, h.mem_iff, outstanding_concat]
      simp only [decide_eq_true_eq, reduceCtorEq, false_or, ne_eq, Operation.release.injEq]
      exact and_congr_right fun _ => not_congr eq_comm
    case nonnull => exact hnonnull
    case usage_eq =>
      have hu := h.usage_eq
      have hsize := size.toNat_lt
      rw [h.distinct.totalSize_eq hlook] at hu
      change (t.usage - size).toNat = totalSize (t.without p) % 2 ^ 64
      rw [UInt64.toNat_sub]
      omega
    case balance =>
      dsimp only
      rw [h.balance, sub_sub]

/-- A run that its caller sees to keeps the list and the counters right. -/
theorem kept_run (h : empty.AllowsAll ops) : Kept ops (empty.run ops) := by
  induction ops using List.reverseRecOn with
  | nil => exact kept_empty
  | append_singleton ops op ih =>
    obtain ⟨hops, hop⟩ := allowsAll_concat.mp h
    rw [run_concat]
    cases op with
    | record p size => exact (ih hops).record hop.1 hop.2
    | release p => exact (ih hops).release

/-- The usages that a run came to. -/
def usages (t : Tracker) (ops : List Operation) : Set Nat :=
  {u | ∃ before, before <+: ops ∧ (t.run before).usage.toNat = u}

theorem usages_nil : t.usages [] = {t.usage.toNat} := by
  ext u
  simp [usages, eq_comm]

theorem usages_concat :
    t.usages (ops ++ [op]) = insert (t.run (ops ++ [op])).usage.toNat (t.usages ops) := by
  ext u
  simp only [usages, Set.mem_ofPred_eq, Set.mem_insert_iff, List.prefix_concat_iff]
  constructor
  · rintro ⟨before, rfl | hbefore, rfl⟩
    · exact .inl rfl
    · exact .inr ⟨before, hbefore, rfl⟩
  · rintro (rfl | ⟨before, hbefore, rfl⟩)
    · exact ⟨_, .inl rfl, rfl⟩
    · exact ⟨before, .inr hbefore, rfl⟩

theorem toNat_peak_record (hp : p ≠ 0) :
    (t.record p size).peak.toNat = max (t.record p size).usage.toNat t.peak.toNat := by
  rw [record, if_neg hp]
  dsimp only
  split
  case isTrue hlt => exact (max_eq_left (UInt64.lt_iff_toNat_lt.mp hlt).le).symm
  case isFalse hle => exact (max_eq_right (not_lt.mp (mt UInt64.lt_iff_toNat_lt.mpr hle))).symm

/-- Live sizes that do not wrap only shrink when something is given back. -/
theorem Kept.release_le (h : Kept ops t) (hroom : totalSize t.live < 2 ^ 64) :
    (t.apply (.release p)).usage.toNat ≤ t.usage.toNat ∧ (t.apply (.release p)).peak = t.peak := by
  cases hr : t.release? p with
  | none =>
    rw [apply, hr, Option.getD_none]
    exact ⟨le_rfl, rfl⟩
  | some t' =>
    rw [apply, hr, Option.getD_some]
    obtain ⟨-, size, hlook, rfl⟩ := release?_eq_some_iff.mp hr
    have hle : size ≤ t.usage := by
      rw [UInt64.le_iff_toNat_le, h.usage_eq, Nat.mod_eq_of_lt hroom, h.distinct.totalSize_eq hlook]
      exact Nat.le_add_right _ _
    refine ⟨?_, rfl⟩
    change (t.usage - size).toNat ≤ _
    rw [UInt64.toNat_sub_of_le _ _ hle]
    exact Nat.sub_le _ _

theorem isGreatest_peak (h : empty.AllowsAll ops)
    (hroom : ∀ before, before <+: ops → totalSize (empty.run before).live < 2 ^ 64) :
    IsGreatest (empty.usages ops) (empty.run ops).peak.toNat := by
  induction ops using List.reverseRecOn with
  | nil =>
    rw [usages_nil]
    exact isGreatest_singleton
  | append_singleton ops op ih =>
    obtain ⟨hops, hop⟩ := allowsAll_concat.mp h
    have hpeak := ih hops fun before hbefore => hroom before (hbefore.trans (List.prefix_append ops [op]))
    have hstep : (empty.run (ops ++ [op])).peak.toNat =
        max (empty.run (ops ++ [op])).usage.toNat (empty.run ops).peak.toNat := by
      rw [run_concat]
      cases op with
      | record p size => exact toNat_peak_record hop.1
      | release p =>
        obtain ⟨hle, hsame⟩ := (kept_run hops).release_le (p := p) (hroom ops (List.prefix_append ops _))
        have husage : (empty.run ops).usage.toNat ≤ (empty.run ops).peak.toNat :=
          hpeak.2 ⟨ops, List.prefix_rfl, rfl⟩
        rw [hsame, max_eq_right (hle.trans husage)]
    rw [usages_concat, hstep]
    exact hpeak.insert _

/-- After a reset the tracker accounts for what is outstanding, whatever came before. -/
theorem accounts_for_outstanding (past : Tracker) (h : past.reset.AllowsAll ops) :
    let t := past.reset.run ops
    (∀ p, (t.release? p).isSome = true ↔ ∃ size, Outstanding ops p size) ∧
      (∀ p, t.tracked p = true ↔ ∃ size, Outstanding ops p size) ∧
      t.Distinct ∧ (∀ p size, (p, size) ∈ t.live ↔ Outstanding ops p size) ∧
      t.usage.toNat = totalSize t.live % 2 ^ 64 ∧ t.usage = t.allocated - t.freed ∧
      (t.hasLeaks = true ↔ ∃ p size, Outstanding ops p size) ∧
      ((∀ before, before <+: ops → totalSize (past.reset.run before).live < 2 ^ 64) →
        IsGreatest (past.reset.usages ops) t.peak.toNat) := by
  rw [reset_eq_empty] at h ⊢
  intro t
  have hkept : Kept ops t := kept_run h
  have hsome : ∀ p, (∃ size, (p, size) ∈ t.live) ↔ ∃ size, Outstanding ops p size :=
    fun p => exists_congr (hkept.mem_iff p)
  have htracked : ∀ p, t.tracked p = true ↔ ∃ size, Outstanding ops p size :=
    fun p => tracked_iff.trans (hsome p)
  refine ⟨fun p => ?_, htracked, hkept.distinct, hkept.mem_iff, hkept.usage_eq, hkept.balance,
    hasLeaks_iff.trans (exists_congr hsome), isGreatest_peak h⟩
  rw [← htracked, tracked]
  by_cases hp : p = 0
  · have hnone : t.tracked 0 ≠ true := fun h0 => ((htracked 0).mp h0).elim hkept.nonnull
    rw [tracked] at hnone
    simp [release?, hp, hnone]
  · simp [release?, hp]

/-- A pointer used again, a release that is refused, and a size that wraps the totals. -/
theorem accounts_for_outstanding_reused :
    let past : Tracker := ⟨[(0x1000, 9)], 9, 0, 9, 9⟩
    let ops : List Operation := [.record 0x1000 0xfffffffffffffff0, .release 0x1000, .record 0x2000 28,
      .release 0x3000, .record 0x1000 7]
    let t : Tracker := ⟨[(0x1000, 7), (0x2000, 28)], 19, 0xfffffffffffffff0, 0xfffffffffffffff0, 35⟩
    past.reset.AllowsAll ops ∧ past.reset.run ops = t ∧ t.usage.toNat = totalSize t.live % 2 ^ 64 ∧
      Outstanding ops 0x1000 7 ∧ (∀ size, ¬ Outstanding ops 0x3000 size) ∧
      IsGreatest (past.reset.usages ops) 0xfffffffffffffff0 := by
  intro past ops t
  have hallows : past.reset.AllowsAll ops := by decide
  have hrun : past.reset.run ops = t := by decide
  obtain ⟨-, htracked, -, hmem, husage, -, -, hpeak⟩ := accounts_for_outstanding past hallows
  rw [hrun] at htracked hmem husage hpeak
  have hroom : ∀ before ∈ ops.inits, totalSize (past.reset.run before).live < 2 ^ 64 := by decide
  exact ⟨hallows, hrun, husage, (hmem _ _).mp (by decide),
    fun size h => absurd ((htracked _).mpr ⟨size, h⟩) (by decide),
    hpeak fun before h => hroom before ((List.mem_inits before ops).mpr h)⟩

end KernelCore.Tracker
