import KernelCore.Memory.Window

/-! # The bytes of memory

Memory seen as one row of bytes, whatever windows they lie in: a store changes the bytes of its span
only, and a load answers the bytes that are there.
-/

namespace KernelCore

namespace ByteStore

theorem get_ofBytes {b : ByteArray} {i : Nat} (h : i < b.size) : (ofBytes b).get i = b[i] :=
  dif_pos h

theorem get_write_ofBytes (s : ByteStore) (offset : Nat) (data : ByteArray) (i : Nat) :
    (s.write offset data).get i =
      if offset ≤ i ∧ i < offset + data.size then (ofBytes data).get (i - offset) else s.get i := by
  rw [get_write]
  by_cases h : offset ≤ i ∧ i < offset + data.size
  · have hi : offset ≤ i ∧ i - offset < data.size := by omega
    rw [dif_pos hi, if_pos h, get_ofBytes hi.2]
  · rw [dif_neg (by omega), if_neg h]

end ByteStore

namespace Window

variable {w : Window} {ws : List Window} {a : Address} {n : UInt64} {x : Nat}

def has (w : Window) (x : Nat) : Bool := w.base.toNat ≤ x && x < w.base.toNat + w.size.toNat

/-- The byte at an address in the window that it lies in. -/
def byteIn : List Window → Nat → UInt8
  | [], _ => 0
  | w :: ws, x => if w.has x then w.bytes.get (x - w.base.toNat) else byteIn ws x

theorem has_iff : w.has x = true ↔ w.base.toNat ≤ x ∧ x < w.base.toNat + w.size.toNat := by
  simp [has]

theorem holds_iff :
    w.holds a n = true ↔
      w.base.toNat ≤ a.toNat ∧ a.toNat + n.toNat ≤ w.base.toNat + w.size.toNat :=
  Span.covers_eq_true_iff

theorem offset_eq (h : w.holds a n = true) : w.offset a = a.toNat - w.base.toNat :=
  UInt64.toNat_sub_of_le _ _ (UInt64.le_iff_toNat_le.mpr (holds_iff.mp h).1)

theorem has_of_holds (h : w.holds a n = true) (ha : a.toNat ≤ x) (hx : x < a.toNat + n.toNat) :
    w.has x = true := by
  have := holds_iff.mp h
  exact has_iff.mpr (by omega)

theorem Apart.not_has {v : Window} (h : v.Apart w) (hw : w.has x = true) : v.has x = false := by
  rw [Bool.eq_false_iff]
  intro hv
  have hv := has_iff.mp hv
  have hw := has_iff.mp hw
  rcases h with h | h <;> omega

theorem byteIn_write {data : ByteArray} (hapart : ws.Pairwise Apart)
    (hholds : ∃ w ∈ ws, w.holds a n = true) (hn : n.toNat = data.size) :
    byteIn (changeFirst a n (fun offset s => s.write offset data) ws) x =
      if a.toNat ≤ x ∧ x < a.toNat + data.size then (ByteStore.ofBytes data).get (x - a.toNat)
      else byteIn ws x := by
  -- The window that is written is the first one that holds the span; that no window before it has
  -- an address of the span is what keeping apart is needed for.
  induction ws with
  | nil =>
    obtain ⟨w, hw, -⟩ := hholds
    cases hw
  | cons v vs ih =>
    obtain ⟨hv, hvs⟩ := List.pairwise_cons.mp hapart
    by_cases hfirst : v.holds a n = true
    · have hspan := holds_iff.mp hfirst
      rw [changeFirst, if_pos hfirst, byteIn, byteIn]
      change (if v.has x = true then _ else _) = _
      dsimp only
      by_cases hx : v.has x = true
      · have := has_iff.mp hx
        rw [if_pos hx, if_pos hx, ByteStore.get_write_ofBytes, offset_eq hfirst]
        by_cases hin : a.toNat ≤ x ∧ x < a.toNat + data.size
        · rw [if_pos (by omega), if_pos hin]
          congr 1
          omega
        · rw [if_neg (by omega), if_neg hin]
      · have hin : ¬ (a.toNat ≤ x ∧ x < a.toNat + data.size) :=
          fun h => hx (has_of_holds hfirst h.1 (by omega))
        rw [if_neg hx, if_neg hx, if_neg hin]
    · have hrest : ∃ w ∈ vs, w.holds a n = true := by
        obtain ⟨w, hw, hwh⟩ := hholds
        rcases List.mem_cons.mp hw with rfl | hw
        · exact absurd hwh hfirst
        · exact ⟨w, hw, hwh⟩
      rw [changeFirst, if_neg hfirst, byteIn, byteIn, ih hvs hrest]
      by_cases hin : a.toNat ≤ x ∧ x < a.toNat + data.size
      · obtain ⟨w, hw, hwh⟩ := hrest
        have hx : v.has x = false := (hv w hw).not_has (has_of_holds hwh hin.1 (by omega))
        rw [hx, if_neg Bool.false_ne_true, if_pos hin, if_pos hin]
      · rw [if_neg hin, if_neg hin]

theorem byteIn_of_find? (hapart : ws.Pairwise Apart) (h : ws.find? (·.holds a n) = some w)
    (ha : a.toNat ≤ x) (hx : x < a.toNat + n.toNat) :
    byteIn ws x = w.bytes.get (x - w.base.toNat) := by
  induction ws with
  | nil => cases h
  | cons v vs ih =>
    obtain ⟨hv, hvs⟩ := List.pairwise_cons.mp hapart
    rw [byteIn]
    by_cases hfirst : v.holds a n = true
    · obtain rfl : v = w := by simpa [hfirst] using h
      rw [if_pos (has_of_holds hfirst ha hx)]
    · have h : vs.find? (·.holds a n) = some w := by simpa [hfirst] using h
      have hholds : w.holds a n = true := by simpa using List.find?_some h
      have hw : w.has x = true := has_of_holds hholds ha hx
      rw [(hv w (List.mem_of_find?_eq_some h)).not_has hw, if_neg Bool.false_ne_true, ih hvs h]

end Window

namespace Memory

variable {m : Memory} {a b : Address} {n k : UInt64}

def get (m : Memory) (x : Nat) : UInt8 := Window.byteIn m.windows x

theorem accessible_iff :
    m.accessible a n = true ↔ ∃ w ∈ m.windows, w.holds a n = true := List.any_eq_true

theorem accessible_sub (h : m.accessible a n = true) (hab : a.toNat ≤ b.toNat)
    (hk : b.toNat + k.toNat ≤ a.toNat + n.toNat) : m.accessible b k = true := by
  obtain ⟨w, hw, hholds⟩ := accessible_iff.mp h
  have := Window.holds_iff.mp hholds
  exact accessible_iff.mpr ⟨w, hw, Window.holds_iff.mpr (by omega)⟩

theorem accessible_bounded (h : m.accessible a n = true) : a.toNat + n.toNat ≤ UInt64.size := by
  obtain ⟨w, hw, hholds⟩ := accessible_iff.mp h
  have := Window.holds_iff.mp hholds
  have := m.flat.bounded w hw
  omega

theorem get_store {data : ByteArray} (h : m.accessible a n = true) (hn : data.size ≤ n.toNat)
    (x : Nat) :
    (m.store a data).get x =
      if a.toNat ≤ x ∧ x < a.toNat + data.size then (ByteStore.ofBytes data).get (x - a.toNat)
      else m.get x := by
  have hsize : data.size.toUInt64.toNat = data.size := by
    rw [Nat.toUInt64_eq, UInt64.toNat_ofNat_of_lt' (Nat.lt_of_le_of_lt hn n.toNat_lt)]
  have hdata : m.accessible a data.size.toUInt64 = true :=
    accessible_sub h (Nat.le_refl _) (by omega)
  rw [get, store, windows_change]
  exact Window.byteIn_write m.flat.apart (accessible_iff.mp hdata) hsize

theorem size_load? {d : ByteArray} (h : m.load? a n = some d) : d.size = n.toNat := by
  obtain ⟨w, -, rfl⟩ := Option.map_eq_some_iff.mp h
  exact ByteStore.size_read _ _ _

theorem getElem_load? {d : ByteArray} (h : m.load? a n = some d) {i : Nat} (hi : i < d.size) :
    d[i] = m.get (a.toNat + i) := by
  have hin : i < n.toNat := size_load? h ▸ hi
  obtain ⟨w, hw, rfl⟩ := Option.map_eq_some_iff.mp h
  have hholds : w.holds a n = true := by simpa using List.find?_some hw
  have := Window.holds_iff.mp hholds
  have hget := Window.byteIn_of_find? m.flat.apart hw (Nat.le_add_right a.toNat i) (by omega)
  rw [ByteStore.getElem_read, Window.offset_eq hholds]
  refine Eq.trans ?_ hget.symm
  congr 1
  omega

end Memory

end KernelCore
