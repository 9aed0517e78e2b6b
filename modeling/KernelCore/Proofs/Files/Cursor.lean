import KernelCore.Files.Transfer

/-! # Cursors of open files

A read takes the cursor of its own file forward by the bytes that it answers, and a seek puts it
somewhere. Both leave the contents of all files and the cursors of all others alone.
-/

namespace KernelCore

namespace OpenFile

variable {f : OpenFile} {n : UInt64}

theorem toNat_size_le (f : OpenFile) : f.size.toNat ≤ f.contents.size := by
  rw [size, Nat.toUInt64_eq, UInt64.toNat_ofNat']
  exact Nat.mod_le _ _

theorem toNat_remaining (f : OpenFile) : f.remaining.toNat = f.size.toNat - f.cursor.toNat := by
  unfold remaining
  split
  · rename_i h
    have := UInt64.le_iff_toNat_le.mp h
    rw [Nat.sub_eq_zero_of_le this]
    rfl
  · rename_i h
    exact UInt64.toNat_sub_of_le _ _ (UInt64.le_of_lt (UInt64.not_le.mp h))

/-- A cursor never wraps around where it reads. -/
theorem toNat_cursor_add (h : n ≤ f.remaining) :
    (f.cursor + n).toNat = f.cursor.toNat + n.toNat := by
  have hn := UInt64.le_iff_toNat_le.mp h
  have hsize := f.size.toNat_lt
  have hcursor := f.cursor.toNat_lt
  rw [toNat_remaining] at hn
  rw [UInt64.toNat_add, Nat.mod_eq_of_lt (by omega)]

theorem size_extract (h : n ≤ f.remaining) :
    (f.contents.extract f.cursor.toNat (f.cursor.toNat + n.toNat)).size = n.toNat := by
  have hn := UInt64.le_iff_toNat_le.mp h
  have hsize := f.toNat_size_le
  rw [toNat_remaining] at hn
  rw [ByteArray.size_extract]
  omega

end OpenFile

namespace FileTable

variable {t u v : FileTable} {fd d : Descriptor} {k n : Nat}

theorem get?_setCursor_of_ne (h : d ≠ fd) (c : UInt64) : (t.setCursor fd c).get? d = t.get? d := by
  rw [get?_setCursor, if_neg h]

theorem get?_setCursor_self {f : OpenFile} (h : t.get? fd = some f) (d : Descriptor) :
    (t.setCursor fd f.cursor).get? d = t.get? d := by
  rw [get?_setCursor]
  split
  · subst d
    rw [h]
    rfl
  · rfl

theorem read_cases (t : FileTable) (fd : Descriptor) (length : UInt64) :
    (∃ e, (t.read fd length).1 = .error e ∧ ∀ d, (t.read fd length).2.get? d = t.get? d) ∨
      ∃ f, ∃ n ≤ f.remaining, t.get? fd = some f ∧ n = min (t.policy.cap length) f.remaining ∧
        t.read fd length = (.ok (f.contents.extract f.cursor.toNat (f.cursor.toNat + n.toNat)),
          { t with reads := t.reads + 1 }.setCursor fd (f.cursor + n)) := by
  have hget : { t with reads := t.reads + 1 }.get? fd = t.get? fd := rfl
  unfold read
  dsimp only
  rw [hget]
  cases hf : t.get? fd with
  | none => exact Or.inl ⟨_, rfl, fun _ => rfl⟩
  | some f =>
    dsimp only
    cases t.policy.failedRead? (t.reads + 1) with
    | some e => exact Or.inl ⟨e, rfl, fun _ => rfl⟩
    | none => exact Or.inr ⟨f, _, Std.min_le_right, rfl, rfl, rfl⟩

/-- The cursor of one file moves forward, and nothing else changes. -/
structure Advanced (fd : Descriptor) (n : Nat) (t u : FileTable) : Prop where
  others : ∀ d, d ≠ fd → u.get? d = t.get? d
  closed : t.get? fd = none → u.get? fd = none
  forward : ∀ f, t.get? fd = some f →
    ∃ c, u.get? fd = some { f with cursor := c } ∧ c.toNat = f.cursor.toNat + n

theorem advanced_zero (h : ∀ d, u.get? d = t.get? d) : Advanced fd 0 t u where
  others d _ := h d
  closed hc := (h fd).trans hc
  forward f hf := ⟨f.cursor, (h fd).trans hf, rfl⟩

theorem Advanced.trans (h : Advanced fd k t u) (h' : Advanced fd n u v) :
    Advanced fd (k + n) t v where
  others d hd := (h'.others d hd).trans (h.others d hd)
  closed hc := h'.closed (h.closed hc)
  forward f hf := by
    obtain ⟨c, hu, hc⟩ := h.forward f hf
    obtain ⟨c', hv, hc'⟩ := h'.forward _ hu
    exact ⟨c', hv, by rw [hc', hc, Nat.add_assoc]⟩

theorem Advanced.congr (h : Advanced fd n t u) (ht : ∀ d, v.get? d = t.get? d) :
    Advanced fd n v u where
  others d hd := (h.others d hd).trans (ht d).symm
  closed hc := h.closed ((ht fd).symm.trans hc)
  forward f hf := h.forward f ((ht fd).symm.trans hf)

theorem advanced_setCursor {f : OpenFile} {c : UInt64} (hf : t.get? fd = some f)
    (hc : c.toNat = f.cursor.toNat + n) : Advanced fd n t (t.setCursor fd c) where
  others d hd := get?_setCursor_of_ne hd c
  closed h := by
    rw [hf] at h
    cases h
  forward g hg := by
    obtain rfl := Option.some.inj (hf.symm.trans hg)
    exact ⟨c, by rw [get?_setCursor, if_pos rfl, hf]; rfl, hc⟩

/-- A cursor that was moved, and moved on, is put back by one move. -/
theorem Advanced.putBack {f : OpenFile} {c : UInt64} (h : Advanced fd n (t.setCursor fd c) u)
    (hf : t.get? fd = some f) (d : Descriptor) :
    (u.setCursor fd f.cursor).get? d = t.get? d := by
  rw [get?_setCursor]
  split
  · subst d
    have hmoved : (t.setCursor fd c).get? fd = some { f with cursor := c } := by
      rw [get?_setCursor, if_pos rfl, hf]
      rfl
    obtain ⟨c', hu, -⟩ := h.forward _ hmoved
    rw [hu, hf]
    rfl
  · rename_i hd
    rw [h.others d hd, get?_setCursor_of_ne hd]

/-- How many bytes were read. -/
def readCount : Except Errno UInt64 → Nat
  | .ok n => n.toNat
  | .error _ => 0

theorem advanced_readInto (t : FileTable) (m : Memory) (fd : Descriptor) (buffer : Address)
    (length : UInt64) :
    Advanced fd (readCount (t.readInto m fd buffer length).1) t
      (t.readInto m fd buffer length).2.1 := by
  unfold readInto
  split
  · exact advanced_zero fun _ => rfl
  · rcases read_cases t fd length with ⟨e, he, hsame⟩ | ⟨f, n, hn, hf, -, hr⟩
    · cases hr : t.read fd length with
      | mk r u =>
        rw [hr] at he hsame
        obtain rfl : r = .error e := he
        exact advanced_zero hsame
    · rw [hr]
      dsimp only [readCount]
      rw [OpenFile.size_extract hn, Nat.toUInt64_eq, UInt64.ofNat_toNat]
      have hmoved := advanced_setCursor (t := { t with reads := t.reads + 1 }) hf
        (OpenFile.toNat_cursor_add hn)
      exact hmoved.congr fun _ => rfl

theorem readInto_eq_ok {m : Memory} {buffer : Address} {length got : UInt64} {f : OpenFile}
    (hf : t.get? fd = some f) (h : (t.readInto m fd buffer length).1 = .ok got) :
    m.accessible buffer length = true ∧ got = min (t.policy.cap length) f.remaining ∧
      (t.readInto m fd buffer length).2.1 =
        { t with reads := t.reads + 1 }.setCursor fd (f.cursor + got) ∧
      (t.readInto m fd buffer length).2.2 =
        m.store buffer (f.contents.extract f.cursor.toNat (f.cursor.toNat + got.toNat)) := by
  have hopen : t.isOpen fd = true := by rw [isOpen, hf]; rfl
  unfold readInto at h ⊢
  rw [hopen, Bool.true_and] at h ⊢
  split at h
  · cases h
  · rename_i haccess
    rw [if_neg haccess]
    rcases read_cases t fd length with ⟨e, he, -⟩ | ⟨g, n, hn, hg, hcount, hr⟩
    · cases hr : t.read fd length with
      | mk r u =>
        rw [hr] at he h
        obtain rfl : r = .error e := he
        cases h
    · obtain rfl := Option.some.inj (hf.symm.trans hg)
      rw [hr] at h ⊢
      dsimp only at h ⊢
      rw [OpenFile.size_extract hn, Nat.toUInt64_eq, UInt64.ofNat_toNat] at h
      obtain rfl := Except.ok.inj h
      exact ⟨by simpa using haccess, hcount, rfl, rfl⟩

theorem seek_cases (t : FileTable) (fd : Descriptor) (offset : Int64) (whence : Whence) :
    (∃ e, (t.seek fd offset whence).1 = .error e ∧
        ∀ d, (t.seek fd offset whence).2.get? d = t.get? d) ∨
      ∃ f, t.get? fd = some f ∧
        (t.seek fd offset whence).1 = .ok (whence.origin f + offset).toUInt64 ∧
        ∀ d, (t.seek fd offset whence).2.get? d =
          (t.setCursor fd (whence.origin f + offset).toUInt64).get? d := by
  have hget : { t with seeks := t.seeks + 1 }.get? fd = t.get? fd := rfl
  unfold seek seekTo
  dsimp only
  rw [hget]
  cases t.policy.failedSeek? (t.seeks + 1) with
  | some e => exact Or.inl ⟨e, rfl, fun _ => rfl⟩
  | none =>
    cases hf : t.get? fd with
    | none => exact Or.inl ⟨_, rfl, fun _ => rfl⟩
    | some f =>
      dsimp only
      by_cases hneg : whence.origin f + offset < 0
      · rw [if_pos hneg]
        exact Or.inl ⟨_, rfl, fun _ => rfl⟩
      · rw [if_neg hneg]
        exact Or.inr ⟨f, rfl, rfl, fun _ => rfl⟩

theorem policy_seek (t : FileTable) (fd : Descriptor) (offset : Int64) (whence : Whence) :
    (t.seek fd offset whence).2.policy = t.policy := by
  unfold seek seekTo
  dsimp only
  cases t.policy.failedSeek? (t.seeks + 1) with
  | some e => rfl
  | none =>
    dsimp only
    cases { t with seeks := t.seeks + 1 }.get? fd with
    | none => rfl
    | some f =>
      dsimp only
      split <;> rfl

theorem seek_cursor_cases (t : FileTable) (fd : Descriptor) :
    (∀ d, (t.seek fd 0 .cursor).2.get? d = t.get? d) ∧
      ((∃ e, (t.seek fd 0 .cursor).1 = .error e) ∨
        ∃ f, t.get? fd = some f ∧ (t.seek fd 0 .cursor).1 = .ok f.cursor) := by
  rcases t.seek_cases fd 0 .cursor with ⟨e, he, hsame⟩ | ⟨f, hf, hr, hsame⟩
  · exact ⟨hsame, Or.inl ⟨e, he⟩⟩
  · rw [Whence.origin, Int64.add_zero, UInt64.toUInt64_toInt64] at hr hsame
    exact ⟨fun d => (hsame d).trans (get?_setCursor_self hf d), Or.inr ⟨f, hf, hr⟩⟩

theorem seek_start_cases (t : FileTable) (fd : Descriptor) (offset : UInt64) :
    (∃ e, (t.seek fd offset.toInt64 .start).1 = .error e ∧
        ∀ d, (t.seek fd offset.toInt64 .start).2.get? d = t.get? d) ∨
      (t.seek fd offset.toInt64 .start).1 = .ok offset ∧
        ∀ d, (t.seek fd offset.toInt64 .start).2.get? d = (t.setCursor fd offset).get? d := by
  rcases t.seek_cases fd offset.toInt64 .start with ⟨e, he, hsame⟩ | ⟨f, -, hr, hsame⟩
  · exact Or.inl ⟨e, he, hsame⟩
  · rw [Whence.origin, Int64.zero_add, UInt64.toUInt64_toInt64] at hr hsame
    exact Or.inr ⟨hr, hsame⟩

end FileTable

end KernelCore
