import KernelCore.Kernel.World
import KernelCore.Proofs.Heap.Routing

/-! # The hand-off of the kernel heap

Boot memory serves the kernel heap until a backend is installed, and takes its pointers back before
and after that. Whoever holds a pointer is answered by the allocator that handed it out, and the
memory counts its own pointers through the hand-off.
-/

namespace KernelCore

open BootMemory Kernel

/-- Boot memory away from address 0 counts the pointers that are out, which all take up room. -/
structure Counted (r : Range) (b : BootMemory) (out : List Address) : Prop where
  start_ne : r.start ≠ 0
  awake : b.phase ≠ .dormant
  zoned : b.extent.Zoned
  start_eq : b.extent.start = r.start
  stop_eq : b.extent.start.toNat + b.extent.size.toNat = r.stop.toNat
  live_eq : b.extent.live.toNat = out.length
  room : b.extent.start.toNat + out.length ≤ b.extent.byteCursor.toNat
  rewound : out = [] → b.extent.byteCursor = b.extent.start
  inside : ∀ a ∈ out, r.start ≤ a ∧ a < r.stop

namespace Counted

variable {r : Range} {b b' : BootMemory} {out : List Address} {a : Address}

theorem of_activate (hr : r.start ≠ 0) (h : BootMemory.dormant.activate r = .ok b) :
    Counted r b [] := by
  have hz := zoned_activate h
  obtain ⟨-, hle, -, rfl⟩ := activate_eq_ok_iff.mp h
  exact ⟨hr, nofun, hz, rfl, Word.add?_eq_some_iff.mp (Range.add?_start_size hle), rfl,
    Nat.le_refl _, fun _ => rfl, fun _ ha => absurd ha List.not_mem_nil⟩

theorem nonnull (h : Counted r b out) (ha : a ∈ out) : a ≠ 0 := by
  rintro rfl
  have hs := UInt64.le_iff_toNat_le.mp (h.inside 0 ha).1
  exact h.start_ne (UInt64.toNat_inj.mp (Nat.le_zero.mp hs))

theorem congr (h : Counted r b out) (hz : b'.extent.Zoned) (hp : b'.phase ≠ .dormant)
    (hs : b'.extent.start = b.extent.start) (hn : b'.extent.size = b.extent.size)
    (hb : b'.extent.byteCursor = b.extent.byteCursor) (hl : b'.extent.live = b.extent.live) :
    Counted r b' out :=
  ⟨h.start_ne, hp, hz, hs.trans h.start_eq, hs ▸ hn ▸ h.stop_eq, hl ▸ h.live_eq, hs ▸ hb ▸ h.room,
    fun ho => by rw [hb, hs, h.rewound ho], h.inside⟩

theorem owns_iff (h : Counted r b out) : b.owns a = true ↔ r.start ≤ a ∧ a < r.stop := by
  have hc : b.extent.ceiling = r.stop := UInt64.toNat_inj.mp (h.zoned.toNat_ceiling.trans h.stop_eq)
  rw [owns_eq_true_iff, h.start_eq, hc]
  exact and_iff_right h.awake

theorem allocate {size align : UInt64} {p : Option Address} (h : Counted r b out)
    (hsize : size ≠ 0) (ha : b.allocate size align = .ok (p, b')) :
    Counted r b' (p.toList ++ out) := by
  rcases allocate_eq_ok ha with ⟨rfl, rfl⟩ | ⟨-, a, e, he, rfl, rfl⟩
  · exact h
  have hz := h.zoned.alloc he
  obtain ⟨next, hba, hn, hle, rfl⟩ := Extent.alloc_bounds he
  have hstart := h.zoned.start_le
  have hpage := h.zoned.page_le
  have hstop := h.stop_eq
  have hroom := h.room
  have hlive := h.live_eq
  have hbytes : size.toNat ≠ 0 := fun h0 => hsize (UInt64.toNat_inj.mp h0)
  have hlow : r.start.toNat ≤ a.toNat := by
    rw [← h.start_eq]
    omega
  have hin : r.start ≤ a ∧ a < r.stop :=
    ⟨UInt64.le_iff_toNat_le.mpr hlow, UInt64.lt_iff_toNat_lt.mpr (by omega)⟩
  have hne : a ≠ 0 := by
    rintro rfl
    exact h.start_ne (UInt64.toNat_inj.mp (Nat.le_zero.mp hlow))
  have hcount : (b.extent.live + 1).toNat = out.length + 1 := by
    have := b.extent.byteCursor.toNat_lt
    have := next.toNat_lt
    rw [Extent.toNat_live_add_one (by omega), hlive]
  rw [pointer?_eq_some_iff.mpr ⟨hne, rfl⟩, Option.toList_some, List.singleton_append]
  refine ⟨h.start_ne, h.awake, hz, h.start_eq, hstop, hcount, ?_, nofun, ?_⟩
  · rw [List.length_cons]
    dsimp only
    omega
  · intro x hx
    rcases List.mem_cons.mp hx with rfl | hx
    · exact hin
    · exact h.inside x hx

/-- The byte cursor goes back to the start when the last pointer comes back. -/
theorem free (h : Counted r b out) (ha : a ∈ out) : Counted r (b.free a) (out.erase a) := by
  have hfree : b.free a = { b with extent := b.extent.release } :=
    if_neg (not_or.mpr ⟨h.awake, h.nonnull ha⟩)
  have hlen := List.length_erase_of_mem ha
  have hpos := List.length_pos_of_mem ha
  have hroom := h.room
  have hlive : b.extent.release.live.toNat = (out.erase a).length := by
    rw [Extent.toNat_live_release, h.live_eq, hlen]
  have hzero : b.extent.release.live = 0 ↔ out.erase a = [] := by
    rw [← UInt64.toNat_inj, hlive, UInt64.toNat_zero, List.length_eq_zero_iff]
  rw [hfree]
  refine ⟨h.start_ne, h.awake, h.zoned.release, h.start_eq, h.stop_eq, hlive, ?_, ?_, ?_⟩
  · dsimp only
    rw [Extent.release_byteCursor, Extent.release_start]
    split
    · rw [hzero.mp ‹_›]
      exact Nat.le_refl _
    · omega
  · intro ho
    dsimp only
    rw [Extent.release_byteCursor, if_pos (hzero.mpr ho), Extent.release_start]
  · intro x hx
    exact h.inside x (List.mem_of_mem_erase hx)

theorem allocatePages {count : UInt64} {o : Outcome} (h : Counted r b out)
    (ha : b.apply (.allocatePages count) = .ok (o, b')) : Counted r b' out := by
  have hz := zoned_apply h.zoned ha
  rcases apply_allocatePages_cases ha with ⟨-, rfl⟩ | ⟨-, a, e, he, -, rfl⟩
  · exact h
  · obtain ⟨-, -, rfl⟩ := h.zoned.allocPages_bounds he
    exact h.congr hz h.awake rfl rfl rfl rfl

theorem freePages (h : Counted r b out) (first : Address) (count : UInt64) :
    Counted r (b.freePages first count) out := by
  have ha : b.apply (.freePages first count) = .ok (.done, b.freePages first count) := rfl
  have hz := zoned_apply h.zoned ha
  rw [BootMemory.freePages, if_neg h.awake] at hz ⊢
  obtain ⟨c, he⟩ := Extent.exists_freePages_eq b.extent first count
  rw [he] at hz ⊢
  exact h.congr hz h.awake rfl rfl rfl rfl

theorem retire (h : Counted r b out) : Counted r (b.attempt b.retire?).2 out := by
  cases hb : b.retire? with
  | none => exact h
  | some b' =>
    obtain ⟨-, rfl⟩ := retire?_eq_some_iff.mp hb
    exact h.congr h.zoned nofun rfl rfl rfl rfl

end Counted

/-- What is asked of the kernel heap and of the pages of one boot memory. -/
inductive HeapRequest where
  | allocate (size align : UInt64)
  | free (a : Address)
  | allocatePages (count : UInt64)
  | freePages (first : Address) (count : UInt64)
  | install (h : HeapId)
  deriving DecidableEq, Repr

/-- A machine, and the pointers that its heap has handed out and not been given back: those of boot
memory, and those of backends. -/
structure HeapSession (β : Type) where
  machine : Machine (Kernel β)
  early : List Address
  backed : List (HeapId × Address)

namespace HeapSession

variable {β : Type} {id : MemoryId} {r : Range} {m t : Machine (Kernel β)} {s : HeapSession β}
  {q : HeapRequest} {a : Address} {h : HeapId} {p : Option Address}

/-- A session in which nothing was handed out yet. -/
def starting (m : Machine (Kernel β)) : HeapSession β := ⟨m, [], []⟩

def memory (s : HeapSession β) (id : MemoryId) : BootMemory := s.machine.state.getMemory id

/-- One boot memory was activated on a region away from address 0 and serves all requests. -/
structure Serving (id : MemoryId) (r : Range) (m : Machine (Kernel β)) : Prop where
  start_ne : r.start ≠ 0
  activated : BootMemory.dormant.activate r = .ok (m.state.getMemory id)
  attached : m.state.attached = some id
  uninstalled : m.state.installed = none

/-- The invariant of a session: the attached memory counts its pointers, and those of the backend are
elsewhere. -/
structure Steady (id : MemoryId) (r : Range) (s : HeapSession β) : Prop where
  attached : s.machine.state.attached = some id
  counted : Counted r (s.memory id) s.early
  elsewhere : ∀ x ∈ s.backed, s.machine.state.installed = some x.1 ∧
    x.2 ≠ 0 ∧ (x.2 < r.start ∨ r.stop ≤ x.2)

theorem Serving.steady (hm : Serving id r m) : (starting m).Steady id r :=
  ⟨hm.attached, .of_activate hm.start_ne hm.activated, fun _ hx => absurd hx List.not_mem_nil⟩

namespace Steady

theorem owns (hs : s.Steady id r) (ha : a ∈ s.early) : (s.memory id).owns a = true :=
  hs.counted.owns_iff.mpr (hs.counted.inside a ha)

theorem not_owns (hs : s.Steady id r) (ha : (h, a) ∈ s.backed) : (s.memory id).owns a = false := by
  obtain ⟨-, -, hout⟩ := hs.elsewhere _ ha
  rw [Bool.eq_false_iff]
  intro ho
  obtain ⟨hle, hlt⟩ := hs.counted.owns_iff.mp ho
  rcases hout with hout | hout
  · exact absurd hle (UInt64.not_le.mpr hout)
  · exact absurd hlt (UInt64.not_lt.mpr hout)

theorem not_mem_early (hs : s.Steady id r) (ha : (h, a) ∈ s.backed) : a ∉ s.early := by
  intro he
  have ho := hs.owns he
  rw [hs.not_owns ha] at ho
  cases ho

theorem keep {early : List Address} {backed : List (HeapId × Address)} (hs : s.Steady id r)
    (ha : t.state.attached = s.machine.state.attached)
    (hi : t.state.installed = s.machine.state.installed)
    (hc : Counted r (t.state.getMemory id) early) (hb : ∀ x ∈ backed, x ∈ s.backed) :
    (⟨t, early, backed⟩ : HeapSession β).Steady id r :=
  ⟨ha.trans hs.attached, hc, fun x hx => by rw [hi]; exact hs.elsewhere x (hb x hx)⟩

theorem setMemory {b : BootMemory} {early : List Address} {backed : List (HeapId × Address)}
    (hs : s.Steady id r) (hc : Counted r b early) (hb : ∀ x ∈ backed, x ∈ s.backed) :
    (⟨onState s.machine (s.machine.state.setMemory id b), early, backed⟩ :
      HeapSession β).Steady id r := by
  refine hs.keep rfl rfl ?_ hb
  rwa [state_onState, getMemory_setMemory_self]

end Steady

variable [HeapBackend β]

/-- Carries out a request. Only requests for bytes come to a pointer. -/
def request (id : MemoryId) : HeapRequest → Action (Kernel β) (Option Address)
  | .allocate size align => allocate size align
  | .free a => do
      free a
      return none
  | .allocatePages count => do
      let _ ← onMemory id (.allocatePages count)
      return none
  | .freePages first count => do
      let _ ← onMemory id (.freePages first count)
      return none
  | .install h => do
      install h
      return none

/-- What is out after a request. Bytes come from the backend once there is one. -/
def settle (s : HeapSession β) (q : HeapRequest) (p : Option Address) (t : Machine (Kernel β)) :
    HeapSession β :=
  match q with
  | .allocate .. =>
      match s.machine.state.installed with
      | none => ⟨t, p.toList ++ s.early, s.backed⟩
      | some h => ⟨t, s.early, p.toList.map (h, ·) ++ s.backed⟩
  | .free a => ⟨t, s.early.erase a, s.backed.eraseP (·.2 = a)⟩
  | .allocatePages _ | .freePages .. | .install _ => ⟨t, s.early, s.backed⟩

/-- The session after a request, also when the request ended in a fault. -/
def next (id : MemoryId) (s : HeapSession β) (q : HeapRequest) : HeapSession β :=
  match request id q s.machine with
  | .ok p t => s.settle q p t
  | .error _ t => ⟨t, s.early, s.backed⟩

/-- What may be asked for: bytes at a power of two, to give back what is out, any pages, and one
hand-off. -/
def Permits (s : HeapSession β) : HeapRequest → Prop
  | .allocate size align => size ≠ 0 ∧ align.toNat.isPowerOfTwo
  | .free a => a = 0 ∨ a ∈ s.early ∨ ∃ h, (h, a) ∈ s.backed
  | .install _ => s.machine.state.installed = none
  | .allocatePages _ | .freePages .. => True

/-- Backends keep away from a region. -/
def Respects (r : Range) (s : HeapSession β) : HeapRequest → Prop
  | .allocate size align => ∀ h, s.machine.state.installed = some h →
      ∀ a ∈ (HeapBackend.allocate (s.machine.state.getHeap h) size align).1,
        a = 0 ∨ a < r.start ∨ r.stop ≤ a
  | .free _ | .allocatePages _ | .freePages .. | .install _ => True

/-- The sessions that permitted requests lead to from a machine. -/
inductive Reached (id : MemoryId) (r : Range) (m : Machine (Kernel β)) : HeapSession β → Prop
  | starting : Reached id r m (.starting m)
  | next {s : HeapSession β} {q : HeapRequest} :
      Reached id r m s → s.Permits q → s.Respects r q → Reached id r m (s.next id q)

/-- A request is answered by the allocator that it belongs to, and by no other. -/
def Routed (id : MemoryId) (s : HeapSession β) : HeapRequest → Prop
  | .allocate size align => ∃ p t, allocate size align s.machine = .ok p t ∧
      match s.machine.state.installed with
      | none => (∃ b, (s.memory id).allocate size align = .ok (p, b) ∧
            t.state.memories = (s.machine.state.setMemory id b).memories) ∧
          t.state.heaps = s.machine.state.heaps ∧ t.calls = s.machine.calls
      | some h => t.state.memories = s.machine.state.memories ∧
          ∃ x, p = Option.bind x pointer? ∧
            t.calls = s.machine.calls ++ [.heapAllocate h size align x]
  | .free a =>
      (a = 0 → free a s.machine = .ok () s.machine) ∧
      (a ∈ s.early → ∃ t, free a s.machine = .ok () t ∧
        t.state.memories = (s.machine.state.setMemory id ((s.memory id).free a)).memories ∧
        t.state.heaps = s.machine.state.heaps ∧ t.calls = s.machine.calls) ∧
      ∀ h, (h, a) ∈ s.backed → ∃ accepted,
        ((free a).after s.machine).state.memories = s.machine.state.memories ∧
        ((free a).after s.machine).calls = s.machine.calls ++ [.heapFree h a accepted]
  | .allocatePages _ | .freePages .. | .install _ => True

theorem respects_of_uninstalled (hi : s.machine.state.installed = none) : s.Respects r q := by
  cases q with
  | allocate size align => exact fun h hs => absurd (hi.symm.trans hs) nofun
  | free _ | allocatePages _ | freePages _ _ | install _ => trivial

theorem respects_of_answer {size align : UInt64} (hi : s.machine.state.installed = some h)
    (ha : (HeapBackend.allocate (s.machine.state.getHeap h) size align).1 = some a)
    (hout : a < r.start ∨ r.stop ≤ a) : s.Respects r (.allocate size align) := by
  intro h' hi' b hb
  obtain rfl := Option.some.inj (hi.symm.trans hi')
  obtain rfl := Option.some.inj (ha.symm.trans hb)
  exact Or.inr hout

theorem next_of_ok (hq : request id q s.machine = .ok p t) : s.next id q = s.settle q p t := by
  rw [next, hq]

theorem next_of_error {e : Fault} (hq : request id q s.machine = .error e t) :
    s.next id q = ⟨t, s.early, s.backed⟩ := by
  rw [next, hq]

theorem request_free (id : MemoryId) (a : Address) (m : Machine (Kernel β)) :
    request id (.free a) m = match free a m with
      | .ok _ t => .ok none t
      | .error e t => .error e t := by
  rw [request, Action.bind_apply]
  cases free a m <;> rfl

theorem request_allocatePages (id : MemoryId) (m : Machine (Kernel β)) (count : UInt64) :
    ∃ o b, (m.state.getMemory id).apply (.allocatePages count) = .ok (o, b) ∧
      request id (.allocatePages count) m = .ok none (onState m (m.state.setMemory id b)) := by
  obtain ⟨o, b, hb⟩ : ∃ o b, (m.state.getMemory id).apply (.allocatePages count) = .ok (o, b) := by
    rw [apply]
    split
    · exact ⟨_, _, rfl⟩
    · exact ⟨_, _, rfl⟩
  refine ⟨o, b, hb, ?_⟩
  rw [request, Action.bind_apply, onMemory_eq_ok rfl hb]
  rfl

theorem request_freePages (m : Machine (Kernel β)) (first : Address) (count : UInt64) :
    request id (.freePages first count) m = .ok none
      (onState m (m.state.setMemory id ((m.state.getMemory id).freePages first count))) := by
  rw [request, Action.bind_apply, onMemory_eq_ok rfl rfl]
  rfl

theorem request_install (ha : m.state.attached = some id) :
    ∃ t, request id (.install h) m = .ok none t ∧ t.state.attached = some id ∧
      t.state.getMemory id = ((m.state.getMemory id).attempt (m.state.getMemory id).retire?).2 := by
  obtain ⟨t, hi, hatt, -, hmem⟩ := install_of_attached (h := h) ha
  refine ⟨t, ?_, hatt, hmem⟩
  rw [request, Action.bind_apply, hi]
  rfl

theorem free_of_early (hs : s.Steady id r) (ha : a ∈ s.early) : free a s.machine =
    .ok () (onState s.machine (s.machine.state.setMemory id ((s.memory id).free a))) :=
  free_of_owned (hs.counted.nonnull ha) hs.attached (hs.owns ha)

theorem free_of_backed (hs : s.Steady id r) (ha : (h, a) ∈ s.backed) : ∃ accepted t,
    t.state.memories = s.machine.state.memories ∧ t.state.attached = s.machine.state.attached ∧
    t.state.installed = s.machine.state.installed ∧
    t.calls = s.machine.calls ++ [.heapFree h a accepted] ∧
    free a s.machine = if accepted then .ok () t else .error .foreignPointer t := by
  obtain ⟨hi, hne, -⟩ := hs.elsewhere _ ha
  exact free_by_backend hne (attachedOwner?_eq_none hs.attached (hs.not_owns ha)) hi

namespace Steady

theorem allocate {size align : UInt64} (hs : s.Steady id r)
    (hp : s.Permits (.allocate size align)) (hr : s.Respects r (.allocate size align)) :
    (s.next id (.allocate size align)).Steady id r := by
  cases hi : s.machine.state.installed with
  | none =>
    obtain ⟨p, b, hb⟩ := (s.memory id).exists_allocate size hp.2
    rw [next_of_ok (q := .allocate size align) (allocate_of_attached hi hs.attached hb), settle, hi]
    exact hs.setMemory (hs.counted.allocate hp.1 hb) fun _ hx => hx
  | some h =>
    rw [next_of_ok (q := .allocate size align) (allocate_of_installed hi), settle, hi]
    refine ⟨hs.attached, hs.counted, ?_⟩
    intro x hx
    rcases List.mem_append.mp hx with hx | hx
    · obtain ⟨a, ha, rfl⟩ := List.mem_map.mp hx
      obtain ⟨c, hc, hca⟩ := Option.bind_eq_some_iff.mp (Option.mem_toList.mp ha)
      obtain ⟨hne, rfl⟩ := pointer?_eq_some_iff.mp hca
      exact ⟨hi, hne, (hr h hi a hc).resolve_left hne⟩
    · exact hs.elsewhere x hx

theorem free (hs : s.Steady id r) (hp : s.Permits (.free a)) :
    (s.next id (.free a)).Steady id r := by
  have hsub : ∀ x ∈ s.backed.eraseP (·.2 = a), x ∈ s.backed := fun _ hx => List.mem_of_mem_eraseP hx
  have hreq := request_free id a s.machine
  rcases hp with rfl | he | ⟨h, hb⟩
  · have hno : (0 : Address) ∉ s.early := fun h0 => hs.counted.nonnull h0 rfl
    rw [free_zero] at hreq
    rw [next_of_ok hreq, settle, List.erase_of_not_mem hno]
    exact hs.keep rfl rfl hs.counted hsub
  · rw [free_of_early hs he] at hreq
    rw [next_of_ok hreq, settle]
    exact hs.setMemory (hs.counted.free he) hsub
  · obtain ⟨accepted, t, hmem, hatt, hinst, -, hfree⟩ := free_of_backed hs hb
    have hsame : t.state.getMemory id = s.machine.state.getMemory id := getMemory_congr hmem
    have hc : Counted r (t.state.getMemory id) s.early := hsame ▸ hs.counted
    rw [hfree] at hreq
    cases accepted with
    | false =>
      rw [next_of_error hreq]
      exact hs.keep hatt hinst hc fun _ hx => hx
    | true =>
      rw [next_of_ok hreq, settle, List.erase_of_not_mem (hs.not_mem_early hb)]
      exact hs.keep hatt hinst hc hsub

/-- Every permitted request keeps the invariant. -/
theorem next (hs : s.Steady id r) (hp : s.Permits q) (hr : s.Respects r q) :
    (s.next id q).Steady id r := by
  cases q with
  | allocate size align => exact hs.allocate hp hr
  | free a => exact hs.free hp
  | allocatePages count =>
    obtain ⟨o, b, hb, hreq⟩ := request_allocatePages id s.machine count
    rw [next_of_ok hreq, settle]
    exact hs.setMemory (hs.counted.allocatePages hb) fun _ hx => hx
  | freePages first count =>
    rw [next_of_ok (request_freePages s.machine first count), settle]
    exact hs.setMemory (hs.counted.freePages first count) fun _ hx => hx
  | install h =>
    obtain ⟨t, hreq, hatt, hmem⟩ := request_install (h := h) hs.attached
    rw [next_of_ok hreq, settle]
    have hc : Counted r (t.state.getMemory id) s.early := hmem ▸ hs.counted.retire
    refine ⟨hatt, hc, ?_⟩
    intro x hx
    -- Nothing came from a backend before there was one.
    cases hp.symm.trans (hs.elsewhere x hx).1

end Steady

theorem Reached.steady (hm : Serving id r m) (h : Reached id r m s) : s.Steady id r := by
  induction h with
  | starting => exact hm.steady
  | next _ hp hr ih => exact ih.next hp hr

theorem Steady.routed (hs : s.Steady id r) (hp : s.Permits q) : s.Routed id q := by
  cases q with
  | allocate size align =>
    unfold Routed
    cases hi : s.machine.state.installed with
    | none =>
      obtain ⟨p, b, hb⟩ := (s.memory id).exists_allocate size hp.2
      exact ⟨p, _, allocate_of_attached hi hs.attached hb, ⟨b, hb, rfl⟩, rfl, rfl⟩
    | some h =>
      refine ⟨_, _, allocate_of_installed hi, rfl, _, rfl, ?_⟩
      exact Machine.calls_push _ _
  | free a =>
    refine ⟨?_, ?_, ?_⟩
    · rintro rfl
      exact free_zero s.machine
    · intro he
      exact ⟨_, free_of_early hs he, rfl, rfl, rfl⟩
    · intro h hb
      obtain ⟨accepted, t, hmem, -, -, hcalls, hfree⟩ := free_of_backed hs hb
      have hafter : (Kernel.free a).after s.machine = t := by
        rw [Action.after, hfree]
        cases accepted <;> rfl
      exact ⟨accepted, by rw [hafter, hmem], by rw [hafter, hcalls]⟩
  | allocatePages count => trivial
  | freePages first count => trivial
  | install h => trivial

theorem Steady.not_panicked (hs : s.Steady id r) (hp : s.Permits q) (e : Panic) :
    request id q s.machine ≠ .error (.panicked e) t := by
  intro he
  cases q with
  | allocate size align =>
    obtain ⟨p, u, hok, -⟩ := hs.routed hp
    cases hok.symm.trans he
  | free a =>
    rw [request_free] at he
    rcases hp with rfl | hp | ⟨h, hp⟩
    · rw [free_zero] at he
      cases he
    · rw [free_of_early hs hp] at he
      cases he
    · obtain ⟨accepted, u, -, -, -, -, hfree⟩ := free_of_backed hs hp
      rw [hfree] at he
      cases accepted <;> cases he
  | allocatePages count =>
    obtain ⟨o, b, -, hok⟩ := request_allocatePages id s.machine count
    cases hok.symm.trans he
  | freePages first count => cases (request_freePages s.machine first count).symm.trans he
  | install h =>
    obtain ⟨u, hok, -⟩ := request_install (h := h) hs.attached
    cases hok.symm.trans he

/-- Every request is answered by whom it belongs to, also after the hand-off, and none panics. -/
theorem routed_across_handoff (hm : Serving id r m) (h : Reached id r m s) :
    (s.memory id).extent.live.toNat = s.early.length ∧
      (s.early = [] → (s.memory id).extent.byteCursor = r.start) ∧
      ∀ q, s.Permits q →
        (∀ e t, request id q s.machine ≠ .error (.panicked e) t) ∧ s.Routed id q := by
  have hs := h.steady hm
  refine ⟨hs.counted.live_eq, ?_, ?_⟩
  · intro he
    rw [hs.counted.rewound he, hs.counted.start_eq]
  · intro q hp
    constructor
    · intro e t
      exact hs.not_panicked hp e
    · exact hs.routed hp

/-- A pointer of boot memory comes back after the hand-off, beside one of the backend. -/
theorem routed_across_handoff_late :
    let r : Range := ⟨0x100000000000, 0x100000020000⟩
    let boot : Action (Kernel ArenaHeap) Unit := do
      let _ ← onMemory 0 (.activate r)
      attach 0
    let m := boot.after (World.initial .debug 1 (.empty 0 0)).machine
    Serving 0 r m ∧ ∃ s, Reached 0 r m s ∧ s.early = [0x100000000040] ∧
      s.backed = [(1, 0x201000000000)] ∧ (s.memory 0).extent.live.toNat = s.early.length ∧
      (s.early = [] → (s.memory 0).extent.byteCursor = r.start) ∧
      ∀ q, s.Permits q →
        (∀ e t, request 0 q s.machine ≠ .error (.panicked e) t) ∧ s.Routed 0 q := by
  intro r boot m
  have hm : Serving 0 r m := ⟨by decide,
    activate_eq_ok_iff.mpr ⟨rfl, by decide, by decide, by decide +kernel⟩,
    by decide +kernel, by decide +kernel⟩
  have h₁ : Reached 0 r m _ := Reached.starting.next (q := .allocate 24 8)
    ⟨by decide, 3, rfl⟩ (respects_of_uninstalled (by decide +kernel))
  have h₂ := h₁.next (q := .allocatePages 2) trivial trivial
  have h₃ := h₂.next (q := .allocate 1 64)
    ⟨by decide, 6, rfl⟩ (respects_of_uninstalled (by decide +kernel))
  have h₄ := h₃.next (q := .install 1) (show _ = _ by decide +kernel) trivial
  have h₅ := h₄.next (q := .allocate 100 16) ⟨by decide, 4, rfl⟩
    (respects_of_answer (h := 1) (a := 0x201000000000) (by decide +kernel) (by decide +kernel)
      (by decide))
  have h₆ := h₅.next (q := .free 0x100000000000) (.inr (.inl (by decide +kernel))) trivial
  exact ⟨hm, _, h₆, by decide +kernel, by decide +kernel, routed_across_handoff hm h₆⟩
end HeapSession

end KernelCore
