import KernelCore.Proofs.Files.Portion
import KernelCore.Proofs.Syscall.Cursors

/-! # Filling a buffer from a file

Every read asks for all that is missing, right behind the bytes that came before. None reaches beyond the
buffer, and one that answers nothing ends the loop, so every other one makes the missing part smaller. The
first call that is refused decides what the whole comes to.
-/

namespace KernelCore

namespace FileTable

variable {t : FileTable} {m : Memory} {fd : Descriptor} {buffer : Address} {length got : UInt64}

theorem readInto_le (h : (t.readInto m fd buffer length).1 = .ok got) : got ≤ length := by
  unfold readInto at h
  split at h
  · cases h
  · rcases t.read_cases fd length with ⟨e, he, -⟩ | ⟨f, n, hn, -, hcount, hr⟩
    · cases hr : t.read fd length with
      | mk r u =>
        rw [hr] at he h
        obtain rfl : r = .error e := he
        cases h
    · rw [hr] at h
      dsimp only at h
      rw [OpenFile.size_extract hn, Nat.toUInt64_eq, UInt64.ofNat_toNat] at h
      obtain rfl := Except.ok.inj h
      have hcap := t.policy.cap_le length
      rw [UInt64.le_iff_toNat_le, hcount, FilePolicy.toNat_min]
      omega

end FileTable

namespace Call

open FileTable

/-- What reading a file comes to: the first refusal among its calls, or the bytes of its reads. -/
def outcome (cs : List Call) : Except Errno UInt64 :=
  match cs.findSome? refusal? with
  | some e => .error e
  | none => .ok (.ofNat (totalRead cs))

/-- A read of all that is missing behind the first `total` bytes of a buffer. Others come after it only if it
answers something. -/
def Asks (fd : Descriptor) (buffer : Address) (length : UInt64) (total : Nat) (c : Call) (after : List Call) :
    Prop :=
  total < length.toNat ∧ ∃ n r, c = .fileRead fd (buffer + .ofNat total) n r ∧ total + n.toNat = length.toNat ∧
    (after = [] ∨ ∃ got, r = .ok got ∧ got ≠ 0)

/-- Reads that fill a buffer from some place on, until nothing is missing or one failed or answered
nothing. -/
structure Fills (fd : Descriptor) (buffer : Address) (length : UInt64) (start : Nat) (reads : List Call) :
    Prop where
  asked : ∀ before c after, reads = before ++ c :: after →
    Asks fd buffer length (start + totalRead before) c after
  total_le : start + totalRead reads ≤ length.toNat
  count_le : start + reads.length ≤ length.toNat
  exhausted : start + totalRead reads = length.toNat ∨
    ∃ before a n r, reads = before ++ [.fileRead fd a n r] ∧ (r = .ok 0 ∨ ∃ e, r = .error e)

variable {fd : Descriptor} {buffer : Address} {length total got : UInt64} {start : Nat} {reads : List Call}
  {r : Except Errno UInt64}

theorem fills_nil (h : start = length.toNat) : Fills fd buffer length start [] where
  asked := by simp
  total_le := Nat.le_of_eq h
  count_le := Nat.le_of_eq h
  exhausted := Or.inl h

/-- The read that the loop makes next, and what it is answered. -/
def nextRead (fd : Descriptor) (buffer : Address) (length total : UInt64) (r : Except Errno UInt64) : Call :=
  .fileRead fd (buffer + total) (length - total) r

@[simp] theorem totalRead_nextRead :
    totalRead (nextRead fd buffer length total r :: reads) = readCount r + totalRead reads := rfl

theorem toNat_missing (h : total < length) : total.toNat + (length - total).toNat = length.toNat := by
  have hlt := UInt64.lt_iff_toNat_lt.mp h
  rw [UInt64.toNat_sub_of_le _ _ (UInt64.le_iff_toNat_le.mpr (Nat.le_of_lt hlt))]
  omega

theorem toNat_add_of_le_missing (h : total < length) (hle : got ≤ length - total) :
    (total + got).toNat = total.toNat + got.toNat ∧ total.toNat + got.toNat ≤ length.toNat := by
  have hmissing := toNat_missing h
  have hle := UInt64.le_iff_toNat_le.mp hle
  have hlength := length.toNat_lt
  rw [UInt64.toNat_add, Nat.mod_eq_of_lt (by omega)]
  exact ⟨rfl, by omega⟩

theorem toNat_pos_of_ne_zero (h : got ≠ 0) : 0 < got.toNat :=
  Nat.pos_of_ne_zero fun hz => h (UInt64.toNat_inj.mp hz)

theorem asks_nextRead (h : total < length) (hr : reads = [] ∨ ∃ got, r = .ok got ∧ got ≠ 0) :
    Asks fd buffer length total.toNat (nextRead fd buffer length total r) reads :=
  ⟨UInt64.lt_iff_toNat_lt.mp h, length - total, r, by rw [UInt64.ofNat_toNat, nextRead], toNat_missing h, hr⟩

theorem fills_last (h : total < length) (hr : r = .ok 0 ∨ ∃ e, r = .error e) :
    Fills fd buffer length total.toNat [nextRead fd buffer length total r] := by
  have hlt := UInt64.lt_iff_toNat_lt.mp h
  have hnone : readCount r = 0 := by
    rcases hr with rfl | ⟨e, rfl⟩ <;> rfl
  refine ⟨fun before c after hsplit => ?_, ?_, hlt, Or.inr ⟨[], _, _, r, rfl, hr⟩⟩
  · obtain ⟨rfl, rfl, rfl⟩ : before = [] ∧ nextRead fd buffer length total r = c ∧ after = [] := by
      cases before <;> simp_all
    exact asks_nextRead h (Or.inl rfl)
  · rw [totalRead_nextRead, hnone]
    exact Nat.le_of_lt hlt

theorem Fills.cons (h : total < length) (hgot : got ≠ 0) (hle : got ≤ length - total)
    (hf : Fills fd buffer length (total + got).toNat reads) :
    Fills fd buffer length total.toNat (nextRead fd buffer length total (.ok got) :: reads) := by
  have hpos := toNat_pos_of_ne_zero hgot
  have hstart (cs : List Call) : total.toNat + totalRead (nextRead fd buffer length total (.ok got) :: cs) =
      (total + got).toNat + totalRead cs := by
    rw [totalRead_nextRead, (toNat_add_of_le_missing h hle).1, Nat.add_assoc]
    rfl
  have hcount := hf.count_le
  rw [(toNat_add_of_le_missing h hle).1] at hcount
  refine ⟨fun before c after hsplit => ?_, hstart reads ▸ hf.total_le, ?_, ?_⟩
  · cases before with
    | nil =>
      obtain ⟨rfl, rfl⟩ := List.cons.inj hsplit
      exact asks_nextRead h (Or.inr ⟨got, rfl, hgot⟩)
    | cons d before =>
      obtain ⟨rfl, hrest⟩ := List.cons.inj hsplit
      rw [hstart]
      exact hf.asked before c after hrest
  · rw [List.length_cons]
    omega
  · rw [hstart]
    refine hf.exhausted.imp_right ?_
    rintro ⟨before, a, n, r, rfl, hr⟩
    exact ⟨_ :: before, a, n, r, rfl, hr⟩

theorem outcome_restored {offset saved moved : UInt64} {back : Except Errno UInt64} :
    outcome ([.fileSeek fd 0 .cursor (.ok saved), .fileSeek fd offset.toInt64 .start (.ok moved)] ++ reads ++
        [.fileSeek fd saved.toInt64 .start back]) =
      match (reads.findSome? refusal?).or (refusal? (.fileSeek fd saved.toInt64 .start back)) with
      | some e => .error e
      | none => .ok (.ofNat (totalRead reads)) := by
  have hopening : [fileSeek fd 0 .cursor (.ok saved), fileSeek fd offset.toInt64 .start (.ok moved)].findSome?
      refusal? = none := rfl
  have hclosing : [fileSeek fd saved.toInt64 .start back].findSome? refusal? =
      refusal? (.fileSeek fd saved.toInt64 .start back) := by simp
  rw [outcome, List.findSome?_append, List.findSome?_append, hopening, hclosing, Option.none_or,
    totalRead_append, totalRead_append]
  simp [totalRead, bytesRead]

end Call

namespace Kernel

open KernelCore.Action Call FileTable

variable {β : Type} {m t : Machine (Kernel β)} {fd : Descriptor} {buffer : Address}
  {length total offset : UInt64}

/-- A turn of the loop; a full buffer leaves nothing to read. -/
theorem readOn_turn (h : total < length) (m : Machine (Kernel β)) :
    readOn fd buffer length total m =
      let t := (readFile fd (buffer + total) (length - total)).run.after m
      match (m.state.files.readInto m.state.memory fd (buffer + total) (length - total)).1 with
      | .error e => .ok (total, some e) t
      | .ok got => if got = 0 then .ok (total, none) t else readOn fd buffer length (total + got) t := by
  rw [readOn_of_lt h]
  dsimp only
  cases hgot : (m.state.files.readInto m.state.memory fd (buffer + total) (length - total)).1 with
  | error e => rfl
  | ok got =>
    dsimp only
    by_cases hlast : length - total ≤ got
    · have hle := readInto_le hgot
      have hfull : ¬ total + got < length := by
        have hmissing := toNat_missing h
        have hge := UInt64.le_iff_toNat_le.mp hlast
        rw [UInt64.lt_iff_toNat_lt, (toNat_add_of_le_missing h hle).1]
        omega
      rw [if_pos hlast, readOn_of_ge hfull]
    · rw [if_neg hlast]

/-- Reading on ends: what is missing gets smaller in every turn. -/
theorem fills_readOn (h : total ≤ length) (m : Machine (Kernel β)) :
    ∃ t reads, readOn fd buffer length total m =
        .ok (.ofNat (total.toNat + totalRead reads), reads.findSome? refusal?) t ∧
      t.calls = m.calls ++ reads ∧ Fills fd buffer length total.toNat reads := by
  induction hk : length.toNat - total.toNat using Nat.strongRecOn generalizing total m with
  | ind k ih =>
    by_cases hlt : total < length
    · rw [readOn_turn hlt]
      have hcalls := calls_readFile fd (buffer + total) (length - total) m
      generalize (readFile fd (buffer + total) (length - total)).run.after m = t at hcalls ⊢
      dsimp only
      cases hread : (m.state.files.readInto m.state.memory fd (buffer + total) (length - total)).1 with
      | error e =>
        rw [hread] at hcalls
        exact ⟨t, _, by simp [totalRead, bytesRead, readCount, refusal?], hcalls,
          fills_last hlt (Or.inr ⟨e, rfl⟩)⟩
      | ok got =>
        rw [hread] at hcalls
        by_cases hgot : got = 0
        · subst hgot
          exact ⟨t, _, by simp [totalRead, bytesRead, readCount, refusal?], hcalls,
            fills_last hlt (Or.inl rfl)⟩
        · have hle := readInto_le hread
          have hpos := toNat_pos_of_ne_zero hgot
          obtain ⟨hsum, hbound⟩ := toNat_add_of_le_missing hlt hle
          have hnext : total + got ≤ length := by rwa [UInt64.le_iff_toNat_le, hsum]
          obtain ⟨u, reads, hrun, hcalls', hfills⟩ :=
            ih (length.toNat - (total + got).toNat) (by omega) hnext t rfl
          refine ⟨u, nextRead fd buffer length total (.ok got) :: reads, ?_, ?_, hfills.cons hlt hgot hle⟩
          · dsimp only
            rw [if_neg hgot, hrun, hsum, Nat.add_assoc]
            rfl
          · rw [hcalls', hcalls, List.append_assoc]
            rfl
    · rw [readOn_of_ge hlt]
      have heq : total = length := UInt64.le_antisymm h (UInt64.not_lt.mp hlt)
      exact ⟨m, [], by simp [totalRead], by simp, fills_nil (congrArg UInt64.toNat heq)⟩

theorem readContents_apply {saved : Option UInt64} {n : UInt64} {failed refused : Option Errno}
    {u v w : Machine (Kernel β)} (hmove : (moveCursor fd offset).run m = .ok (.ok saved) u)
    (hread : readOn fd buffer length 0 u = .ok (n, failed) v)
    (hrestore : restoreCursor fd saved v = .ok refused w) :
    (readContents fd offset buffer length).run m =
      .ok (match failed.or refused with
        | some e => .error e
        | none => .ok n) w := by
  unfold readContents
  rw [Handler.bind_apply, hmove]
  dsimp only
  rw [Handler.bind_lift_apply, hread]
  dsimp only
  rw [Handler.bind_lift_apply, hrestore]
  dsimp only
  cases failed.or refused <;> rfl

/-- Reading a file returns; its reads only fill the buffer, between the seeks away and back. -/
theorem reading_fills_buffer (fd : Descriptor) (offset : UInt64) (buffer : Address) (length : UInt64)
    (m : Machine (Kernel β)) :
    ∃ t cs, (readContents fd offset buffer length).run m = .ok (outcome cs) t ∧ t.calls = m.calls ++ cs ∧
      (offset = 0 → Fills fd buffer length 0 cs) ∧
      (offset ≠ 0 →
        (∃ e, cs = [.fileSeek fd 0 .cursor (.error e)] ∨
          ∃ saved, cs = [.fileSeek fd 0 .cursor (.ok saved), .fileSeek fd offset.toInt64 .start (.error e)]) ∨
        ∃ saved moved reads back,
          cs = [.fileSeek fd 0 .cursor (.ok saved), .fileSeek fd offset.toInt64 .start (.ok moved)] ++ reads ++
            [.fileSeek fd saved.toInt64 .start back] ∧
          Fills fd buffer length 0 reads ∧ ∀ e, reads.findSome? refusal? = some e → outcome cs = .error e) := by
  have hreads (u : Machine (Kernel β)) : ∃ t reads,
      readOn fd buffer length 0 u = .ok (.ofNat (totalRead reads), reads.findSome? refusal?) t ∧
        t.calls = u.calls ++ reads ∧ Fills fd buffer length 0 reads := by
    simpa only [UInt64.toNat_zero, Nat.zero_add] using fills_readOn (UInt64.zero_le : 0 ≤ length) u
  by_cases hz : offset = 0
  · obtain ⟨t, reads, hrun, hcalls, hfills⟩ := hreads m
    have hmove : (moveCursor fd offset).run m = .ok (.ok none) m := by rw [moveCursor, if_pos hz]; rfl
    refine ⟨t, reads, ?_, hcalls, fun _ => hfills, fun h => absurd hz h⟩
    rw [readContents_apply hmove hrun rfl, Option.or_none]
    rfl
  · obtain ⟨r, u, opening, hmove, hopening, hcases⟩ := moveCursor_calls fd hz m
    rcases hcases with ⟨e, rfl, hrefused, -⟩ | ⟨f, rfl, -, rfl, -⟩
    · refine ⟨u, opening, ?_, hopening, fun h => absurd h hz, fun _ => Or.inl ⟨e, hrefused⟩⟩
      have hfirst : outcome opening = .error e := by
        rcases hrefused with rfl | ⟨saved, rfl⟩ <;> rfl
      rw [readContents, Handler.bind_apply, hmove, hfirst]
    · obtain ⟨v, reads, hrun, hcalls, hfills⟩ := hreads u
      have hback := calls_of_seekFile fd f.cursor.toInt64 .start v
      rw [hcalls, hopening, List.append_assoc m.calls, List.append_assoc m.calls] at hback
      refine ⟨_, _, ?_, hback, fun h => absurd h hz, fun _ => Or.inr ⟨f.cursor, offset, reads, _, rfl, hfills, ?_⟩⟩
      · rw [readContents_apply hmove hrun (restoreCursor_apply fd f.cursor v), outcome_restored]
      · intro e he
        rw [outcome_restored, he, Option.some_or]

end Kernel

end KernelCore
