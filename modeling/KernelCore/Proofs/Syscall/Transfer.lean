import KernelCore.Proofs.Files.Portion
import KernelCore.Proofs.Syscall.Cursors

/-! # Bytes of a file in a buffer

However short the reads are, the bytes of the file arrive in the buffer one after the other, from
the offset on, or from the cursor on, as far as the file and the request go.
-/

namespace KernelCore

namespace Kernel

open KernelCore.Action FileTable

variable {β : Type} {m t u : Machine (Kernel β)} {fd : Descriptor} {f : OpenFile}
  {start buffer : Address} {length total offset n : UInt64}

/-- A part of a file went to memory, and the cursor of the file followed. -/
structure Took (fd : Descriptor) (f : OpenFile) (start k : Nat) (m t : Machine (Kernel β)) :
    Prop where
  cursor : ∃ c, t.state.files.get? fd = some { f with cursor := c } ∧ c.toNat = f.cursor.toNat + k
  policy_eq : t.state.files.policy = m.state.files.policy
  accessible_eq : ∀ b n, t.state.memory.accessible b n = m.state.memory.accessible b n
  bytes : ∀ x, t.state.memory.get x =
    if start ≤ x ∧ x < start + k then f.get (f.cursor.toNat + (x - start)) else m.state.memory.get x

theorem took_nothing (hf : m.state.files.get? fd = some f) (x : Nat) : Took fd f x 0 m m where
  cursor := ⟨f.cursor, hf, rfl⟩
  policy_eq := rfl
  accessible_eq _ _ := rfl
  bytes y := by rw [if_neg (by omega)]

theorem Took.trans {c : UInt64} {x k l : Nat} (h : Took fd f x k m t)
    (hc : c.toNat = f.cursor.toNat + k) (h' : Took fd { f with cursor := c } (x + k) l t u) :
    Took fd f x (k + l) m u where
  cursor := by
    obtain ⟨d, hfiles, hd⟩ := h'.cursor
    exact ⟨d, hfiles, by rw [hd, hc, Nat.add_assoc]⟩
  policy_eq := h'.policy_eq.trans h.policy_eq
  accessible_eq b n := (h'.accessible_eq b n).trans (h.accessible_eq b n)
  bytes y := by
    rw [h'.bytes, h.bytes]
    change (if _ then f.get (c.toNat + _) else _) = _
    by_cases hlate : x + k ≤ y ∧ y < x + k + l
    · rw [if_pos hlate, if_pos (by omega)]
      congr 1
      omega
    · rw [if_neg hlate]
      by_cases hearly : x ≤ y ∧ y < x + k
      · rw [if_pos hearly, if_pos (by omega)]
      · rw [if_neg hearly, if_neg (by omega)]

theorem took_readFile {got : UInt64} (hf : m.state.files.get? fd = some f)
    (h : (m.state.files.readInto m.state.memory fd buffer length).1 = .ok got) :
    m.state.memory.accessible buffer length = true ∧
      got = min (m.state.files.policy.cap length) f.remaining ∧
      Took fd f buffer.toNat got.toNat m ((readFile fd buffer length).run.after m) := by
  obtain ⟨haccess, hgot, hfiles, hmemory⟩ := readInto_eq_ok hf h
  change ((readFile fd buffer length).run.after m).state.files = _ at hfiles
  change ((readFile fd buffer length).run.after m).state.memory = _ at hmemory
  generalize (readFile fd buffer length).run.after m = t at hfiles hmemory ⊢
  have hle : got ≤ f.remaining := hgot ▸ Std.min_le_right
  have hsize := OpenFile.size_extract hle
  have hlength : got.toNat ≤ length.toNat := by
    have := FilePolicy.cap_le m.state.files.policy length
    rw [hgot, FilePolicy.toNat_min]
    omega
  refine ⟨haccess, hgot, ⟨f.cursor + got, ?_, OpenFile.toNat_cursor_add hle⟩, by rw [hfiles]; rfl,
    fun b n => ?_, fun x => ?_⟩
  · rw [hfiles, get?_setCursor, if_pos rfl]
    exact congrArg (Option.map _) hf
  · rw [hmemory, Memory.store, Memory.accessible_change]
  · rw [hmemory, Memory.get_store haccess (Nat.le_trans (Nat.le_of_eq hsize) hlength), hsize]
    by_cases hx : buffer.toNat ≤ x ∧ x < buffer.toNat + got.toNat
    · have hin : x - buffer.toNat <
          (f.contents.extract f.cursor.toNat (f.cursor.toNat + got.toNat)).size := by omega
      rw [if_pos hx, if_pos hx, ByteStore.get_ofBytes hin, OpenFile.getElem_extract]
    · rw [if_neg hx, if_neg hx]

theorem accessible_of_readOn (hf : m.state.files.get? fd = some f) (hlength : 0 < length)
    (h : readOn fd buffer length 0 m = .ok (n, none) t) :
    m.state.memory.accessible buffer length = true := by
  rw [readOn_of_lt hlength, UInt64.add_zero, UInt64.sub_zero] at h
  dsimp only at h
  split at h
  · cases h
  · rename_i got hgot
    exact (took_readFile hf hgot).1

/-- However short the reads are, reading on takes all the bytes there are to take. -/
theorem took_readOn (hbuffer : m.state.memory.accessible buffer length = true)
    (hchunk : m.state.files.policy.chunk ≠ some 0) (hf : m.state.files.get? fd = some f)
    (htotal : total.toNat ≤ length.toNat) (h : readOn fd buffer length total m = .ok (n, none) t) :
    ∃ k, k = min (length.toNat - total.toNat) (f.size.toNat - f.cursor.toNat) ∧
      n.toNat = total.toNat + k ∧ Took fd f (buffer.toNat + total.toNat) k m t := by
  -- The cursor of `f` moves with the loop, so the file is generalized along with the machine.
  induction total using readOn.induct length generalizing m f with
  | case1 total hlt ih =>
    rw [readOn_of_lt hlt] at h
    have hbound : buffer.toNat + length.toNat ≤ 2 ^ 64 := Memory.accessible_bounded hbuffer
    have hlt := UInt64.lt_iff_toNat_lt.mp hlt
    have hsub := UInt64.toNat_sub_of_le _ _ (UInt64.le_iff_toNat_le.mpr htotal)
    have hstart : (buffer + total).toNat = buffer.toNat + total.toNat := by
      rw [UInt64.toNat_add, Nat.mod_eq_of_lt (by omega)]
    dsimp only at h
    split at h
    · cases h
    · rename_i got hgot
      obtain ⟨-, hcount, htook⟩ := took_readFile hf hgot
      rw [hstart] at htook
      have hcap := FilePolicy.cap_le m.state.files.policy (length - total)
      have hpos := FilePolicy.cap_pos hchunk (show 0 < (length - total).toNat by omega)
      have hgot' : got.toNat = min (m.state.files.policy.cap (length - total)).toNat
          (f.size.toNat - f.cursor.toNat) := by
        rw [hcount, FilePolicy.toNat_min, OpenFile.toNat_remaining]
      by_cases hzero : got = 0
      -- Nothing was served though something was asked for: the file has ended.
      · rw [if_pos hzero] at h
        cases h
        have hz : got.toNat = 0 := congrArg UInt64.toNat hzero
        exact ⟨got.toNat, by omega, by omega, htook⟩
      rw [if_neg hzero] at h
      have hsum : (total + got).toNat = total.toNat + got.toNat := by
        have := length.toNat_lt
        rw [UInt64.toNat_add, Nat.mod_eq_of_lt (by omega)]
      by_cases hlast : length - total ≤ got
      · rw [if_pos hlast] at h
        cases h
        have hge := UInt64.le_iff_toNat_le.mp hlast
        exact ⟨got.toNat, by omega, hsum, htook⟩
      · rw [if_neg hlast] at h
        obtain ⟨c, hfiles, hc⟩ := htook.cursor
        obtain ⟨k, hk, hn, hrest⟩ := ih got hzero hlast ((htook.accessible_eq _ _).trans hbuffer)
          (htook.policy_eq ▸ hchunk) hfiles (by omega) h
        change k = min _ (f.size.toNat - c.toNat) at hk
        rw [hsum, ← Nat.add_assoc] at hrest
        exact ⟨got.toNat + k, by omega, by omega, htook.trans hc hrest⟩
  | case2 total hge =>
    rw [readOn_of_ge hge] at h
    cases h
    have hge := UInt64.le_iff_toNat_le.mp (UInt64.not_lt.mp hge)
    exact ⟨0, by omega, by omega, took_nothing hf _⟩

/-- Memory, and how files are read. -/
def transferView (m : Machine (Kernel β)) : Memory × FilePolicy :=
  (m.state.memory, m.state.files.policy)

theorem takes_seekFile (offset : Int64) (whence : Whence) :
    Takes transferView Eq (seekFile fd offset whence : Handler (Kernel β) UInt64).run := fun m =>
  congrArg (m.state.memory, ·) (m.state.files.policy_seek fd offset whence).symm

theorem moveCursor_eq_ok {saved : Option UInt64} (hf : m.state.files.get? fd = some f)
    (h : (moveCursor fd offset).run m = .ok (.ok saved) t) :
    t.state.files.get? fd = some { f with cursor := f.readFrom offset } := by
  by_cases hz : offset = 0
  · rw [moveCursor, if_pos hz] at h
    cases h
    rw [OpenFile.readFrom, if_pos hz]
    exact hf
  · obtain ⟨r, u, cs, hr, hcases⟩ := moveCursor_cases fd hz m
    rw [h] at hr
    cases hr
    rcases hcases with ⟨e, he, -⟩ | ⟨g, -, hnone, hmoved⟩
    · cases he
    · have hset : (m.state.files.setCursor fd offset).get? fd =
          some { f with cursor := offset } := by
        rw [get?_setCursor, if_pos rfl, hf]
        rfl
      obtain ⟨c, hc, hoffset⟩ := hmoved.advanced.forward _ hset
      rw [hnone] at hoffset
      obtain rfl : c = offset := UInt64.toNat_inj.mp hoffset
      rw [OpenFile.readFrom, if_neg hz]
      exact hc

theorem load_eq_portion {b : Memory} (haccess : b.accessible buffer length = true)
    (hn : n.toNat = min length.toNat (f.size.toNat - (f.readFrom offset).toNat))
    (hbytes : ∀ i < n.toNat, b.get (buffer.toNat + i) = f.get ((f.readFrom offset).toNat + i)) :
    (b.load? buffer n).getD .empty = f.portion offset length := by
  have hread : b.accessible buffer n = true :=
    Memory.accessible_sub haccess (Nat.le_refl _) (by omega)
  obtain ⟨d, hd⟩ := Option.isSome_iff_exists.mp ((b.isSome_load? buffer n).trans hread)
  have hdsize := Memory.size_load? hd
  rw [hd, Option.getD_some]
  refine ByteArray.ext_getElem ?_ fun i hi hi' => ?_
  · rw [hdsize, OpenFile.size_portion, hn]
  · rw [Memory.getElem_load? hd, hbytes i (hdsize ▸ hi), OpenFile.getElem_portion]

/-- Reading that succeeds leaves its part of the file in the buffer. -/
theorem readContents_eq_ok (hchunk : m.state.files.policy.chunk ≠ some 0)
    (hf : m.state.files.get? fd = some f) (hlength : 0 < length)
    (h : (readContents fd offset buffer length).run m = .ok (.ok n) t) :
    n.toNat = min length.toNat (f.size.toNat - (f.readFrom offset).toNat) ∧
      (t.state.memory.load? buffer n).getD .empty = f.portion offset length := by
  obtain ⟨saved, u, hmove, h⟩ := Handler.bind_eq_ok h
  obtain ⟨⟨total, readError⟩, v, hread, h⟩ := Handler.bind_lift_eq_ok h
  obtain ⟨restoreError, w, hrestore, h⟩ := Handler.bind_lift_eq_ok h
  split at h
  · cases h
  · rename_i hnone
    cases h
    obtain ⟨rfl, -⟩ := Option.or_eq_none_iff.mp hnone
    obtain ⟨humemory, hupolicy⟩ := Prod.mk.inj ((compositional_takes.moveCursor takes_seekFile).of_ok hmove)
    obtain ⟨hmemory, -⟩ := Prod.mk.inj ((compositional_takes.restoreCursor takes_seekFile).of_ok hrestore)
    have hcursor := moveCursor_eq_ok hf hmove
    have hbuffer := accessible_of_readOn hcursor hlength hread
    obtain ⟨k, hk, hn, htook⟩ :=
      took_readOn hbuffer (hupolicy ▸ hchunk) hcursor (Nat.zero_le _) hread
    rw [UInt64.toNat_zero, Nat.zero_add] at hn
    rw [UInt64.toNat_zero, Nat.add_zero] at htook
    rw [← hmemory]
    have haccess := (htook.accessible_eq buffer length).trans hbuffer
    refine ⟨hn.trans hk, load_eq_portion haccess (hn.trans hk) fun i hi => ?_⟩
    rw [htook.bytes, if_pos (by omega), Nat.add_sub_cancel_left]
    rfl

end Kernel

end KernelCore
