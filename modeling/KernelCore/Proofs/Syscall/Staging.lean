import KernelCore.Proofs.Heap.Ownership
import KernelCore.Proofs.Heap.Refusal
import KernelCore.Proofs.Kernel.Following
import KernelCore.Proofs.Syscall.Traversal

/-! # The staging buffer of a mapping

A file travels into a mapping through a buffer of the kernel heap. However the mapping goes on, the
buffer goes back once, to the allocator that it came from, and nothing else is asked of the heap.
-/

namespace KernelCore

/-- The calls to backends. -/
def Call.ofHeap : Call → Bool
  | .heapAllocate .. | .heapFree .. => true
  | _ => false

/-- The pointers of backends that are out after a call. The null pointer is none of them. -/
def Call.settle (out : List (HeapId × Address)) : Call → List (HeapId × Address)
  | .heapAllocate h _ _ (some a) => if a = 0 then out else (h, a) :: out
  | .heapFree h a _ => out.erase (h, a)
  | _ => out

namespace Machine

variable {κ : Type}

def heapCalls (m : Machine κ) : List Call := m.calls.filter Call.ofHeap

/-- The pointers that backends handed out and that were not given back. -/
def out (m : Machine κ) : List (HeapId × Address) := m.calls.foldl Call.settle []

theorem out_eq (m : Machine κ) : m.out = m.heapCalls.foldl Call.settle [] := by
  have h : (fun out c => if Call.ofHeap c = true then Call.settle out c else out) = Call.settle := by
    funext out c
    cases c <;> rfl
  rw [heapCalls, List.foldl_filter, h]
  rfl

end Machine

namespace BootMemory

variable {b c : BootMemory} {a : Address} {size align : UInt64}

theorem live_free_of_allocate (h : b.allocate size align = .ok (some a, c))
    (hl : b.extent.live.toNat + 1 < 2 ^ 64) : (c.free a).extent.live = b.extent.live := by
  rcases allocate_eq_ok h with ⟨hnone, -⟩ | ⟨hp, x, e, he, hx, rfl⟩
  · cases hnone
  obtain ⟨hn, rfl⟩ := pointer?_eq_some_iff.mp hx.symm
  obtain ⟨next, -, -, -, rfl⟩ := Extent.alloc_bounds he
  rw [free, if_neg (by simp [hp, hn])]
  refine UInt64.toNat_inj.mp (Extent.toNat_live_release.trans ?_)
  change (b.extent.live + 1).toNat - 1 = b.extent.live.toNat
  rw [Extent.toNat_live_add_one hl, Nat.add_sub_cancel]

end BootMemory

theorem Session.Reached.borrow {b c : BootMemory} {held : Holdings} {a : Address}
    {size align : UInt64} {ops : List BootMemory.Operation} (hs : Session.Reached ops ⟨b, held⟩)
    (h : b.allocate size align = .ok (some a, c)) :
    Session.Reached (ops ++ [.allocate size align, .free a]) ⟨c.free a, held⟩ := by
  have hlend : Session.Step ⟨b, held⟩ (.allocate size align)
      ⟨c, { held with bytes := (a, size) :: held.bytes }⟩ :=
    ⟨.pointer (some a), by rw [BootMemory.apply, h]; rfl, .allocated size align a⟩
  have hback : Session.Step ⟨c, { held with bytes := (a, size) :: held.bytes }⟩ (.free a)
      ⟨c.free a, { held with bytes := ((a, size) :: held.bytes).erase (a, size) }⟩ :=
    ⟨.done, rfl, .freed a size List.mem_cons_self⟩
  rw [List.erase_cons_head] at hback
  have hreached := (hs.step hlend).step hback
  rwa [List.append_assoc] at hreached

namespace Kernel

open KernelCore.Action BootMemory

variable {β α γ : Type} {m t u : Machine (Kernel β)} {k k' : Kernel β} {id : MemoryId}
  {h : HeapId} {a start : Address} {length offset : UInt64} {fd : Descriptor} {r : MapRequest}
  {cs : List Call}

/-- What heap requests are served with. -/
def heapSide (k : Kernel β) :
    Vector BootMemory 3 × Vector β 2 × Option MemoryId × Option HeapId :=
  (k.memories, k.heaps, k.attached, k.installed)

def heapView (m : Machine (Kernel β)) := view heapSide Call.ofHeap m

theorem sameHeaps_of_heapView (hu : heapView u = heapView m) : SameHeaps u.state m.state := by
  simp only [heapView, view, heapSide, Prod.mk.injEq] at hu
  exact ⟨hu.1.1, hu.1.2.1, hu.1.2.2.1, hu.1.2.2.2⟩

theorem heapCalls_of_heapView (hu : heapView u = heapView m) : u.heapCalls = m.heapCalls :=
  congrArg Prod.snd hu

theorem returns_printed (r : Record) : Returns heapView (note (.printed r) : Action (Kernel β) Unit) :=
  fun m => ⟨(), _, note_apply _ m, view_push rfl⟩

theorem returns_ask {F : Kernel β → α × Kernel β} {c : α → Call}
    (hF : ∀ k, heapSide (F k).2 = heapSide k) (hc : ∀ a, (c a).ofHeap = false) :
    Returns heapView (ask F c) := fun m =>
  ⟨_, _, ask_apply F c m, (keeps_ask hF hc).of_ok (ask_apply F c m)⟩

theorem returns_request {F : Kernel β → Except Errno α × Kernel β} {c : Except Errno α → Call}
    (hF : ∀ k, heapSide (F k).2 = heapSide k) (hc : ∀ a, (c a).ofHeap = false) :
    Returns heapView (request F c).run :=
  returns_ask hF hc

theorem returns_writeRegion (start source : Address) (length : UInt64) :
    Returns heapView (writeRegion start source length : Action (Kernel β) _) := by
  refine returns_ask (fun k => ?_) fun _ => rfl
  split <;> rfl

theorem returns_mapRegion (start : Address) (length : UInt64) (permissions : Permissions) :
    Returns heapView (mapRegion start length permissions : Action (Kernel β) _) := by
  refine returns_ask (fun k => ?_) fun _ => rfl
  split <;> rfl

/-- Contents are read and copied to the end, whatever is refused on the way. -/
theorem returns_copyContents (buffer : Address) :
    Returns heapView (copyContents start length fd offset buffer : Handler (Kernel β) Unit).run := by
  have c : Compositional (κ := Kernel β) (Returns heapView) := compositional_returns
  refine c.copyContents returns_printed ?_ fun count => returns_writeRegion _ _ _
  exact c.readContents (fun _ _ => returns_request (fun _ => rfl) fun _ => rfl) fun _ _ =>
    returns_request (fun _ => rfl) fun _ => rfl

theorem heapCalls_push (m : Machine (Kernel β)) (es : List Event) :
    (m.push es).heapCalls = m.heapCalls ++ (es.filterMap Event.call?).filter Call.ofHeap := by
  rw [Machine.heapCalls, Machine.calls_push, List.filter_append]
  rfl

/-- What becomes of a buffer: there was none to be had, or it went back to where it came from. -/
inductive Borrowed [HeapBackend β] (length : UInt64) (k k' : Kernel β) : List Call → Prop
  | untouched (hk : k'.memories = k.memories) : Borrowed length k k' []
  | refused {h : HeapId} {x : Option Address} (hi : k.installed = some h)
      (hx : x.bind pointer? = none) (hk : k'.memories = k.memories) :
      Borrowed length k k' [.heapAllocate h length 1 x]
  | backed {h : HeapId} {a : Address} {accepted : Bool} (hi : k.installed = some h) (hn : a ≠ 0)
      (hk : k'.memories = k.memories) :
      Borrowed length k k' [.heapAllocate h length 1 (some a), .heapFree h a accepted]
  | early {id : MemoryId} {a : Address} {b : BootMemory} (hi : k.installed = none)
      (ha : k.attached = some id) (hb : (k.getMemory id).allocate length 1 = .ok (some a, b))
      (ho : b.owns a = true) (hk : k'.memories = (k.setMemory id (b.free a)).memories) :
      Borrowed length k k' []

variable [HeapBackend β]

namespace Borrowed

theorem settled (h : Borrowed length k k' cs) (out : List (HeapId × Address)) :
    cs.foldl Call.settle out = out := by
  cases h with
  | untouched => rfl
  | early => rfl
  | @refused i x hi hx hk =>
    cases x with
    | none => rfl
    | some a =>
      have hz : a = 0 := by simpa [pointer?] using hx
      simp [Call.settle, hz]
  | backed hi hn hk => simp [Call.settle, hn]

/-- A memory stays as it was, or hands out the buffer and takes it back. -/
theorem memory_cases (h : Borrowed length k k' cs) (id : MemoryId) :
    k'.getMemory id = k.getMemory id ∨ ∃ a b,
      (k.getMemory id).allocate length 1 = .ok (some a, b) ∧ k'.getMemory id = b.free a := by
  cases h with
  | untouched hk => exact Or.inl (getMemory_congr hk)
  | refused hi hx hk => exact Or.inl (getMemory_congr hk)
  | backed hi hn hk => exact Or.inl (getMemory_congr hk)
  | @early i a b hi ha hb ho hk =>
    have hset : k'.getMemory id = (k.setMemory i (b.free a)).getMemory id := getMemory_congr hk
    by_cases hid : i = id
    · subst hid
      exact Or.inr ⟨a, b, hb, hset.trans getMemory_setMemory_self⟩
    · exact Or.inl (hset.trans (getMemory_setMemory_of_ne hid))

theorem reached (h : Borrowed length k k' cs) {ops : List Operation} {held : Holdings}
    (hs : Session.Reached ops ⟨k.getMemory id, held⟩) :
    ∃ mine, (mine = [] ∨ ∃ a, mine = [.allocate length 1, .free a]) ∧
      Session.Reached (ops ++ mine) ⟨k'.getMemory id, held⟩ := by
  rcases h.memory_cases id with hsame | ⟨a, b, hb, hfree⟩
  · refine ⟨[], Or.inl rfl, ?_⟩
    rwa [List.append_nil, hsame]
  · refine ⟨[.allocate length 1, .free a], Or.inr ⟨a, rfl⟩, ?_⟩
    rw [hfree]
    exact hs.borrow hb

theorem live_eq (h : Borrowed length k k' cs)
    (hl : (k.getMemory id).extent.live.toNat + 1 < 2 ^ 64) :
    (k'.getMemory id).extent.live = (k.getMemory id).extent.live := by
  rcases h.memory_cases id with hsame | ⟨a, b, hb, hfree⟩
  · rw [hsame]
  · rw [hfree]
    exact live_free_of_allocate hb hl

end Borrowed

/-- The heap is a backend apart from the attached memory, or it is that memory, away from address 0. -/
structure HeapReady (k : Kernel β) (length : UInt64) : Prop where
  backed : ∀ h, k.installed = some h →
    ∀ a ∈ (HeapBackend.allocate (k.getHeap h) length 1).1, a ≠ 0 → k.attachedOwner? a = none
  early : ∀ id, k.installed = none → k.attached = some id → (k.getMemory id).phase = .active →
    (k.getMemory id).extent.start ≠ 0 ∧ ∃ ops, k.getMemory id = dormant.run ops

theorem HeapReady.congr (hs : SameHeaps k' k) (hr : HeapReady k length) : HeapReady k' length := by
  cases k
  cases k'
  obtain ⟨rfl, rfl, rfl, rfl⟩ := hs
  exact ⟨hr.backed, hr.early⟩

theorem HeapReady.active (hr : HeapReady k length) (hi : k.installed = none)
    (ha : k.attached = some id) (hp : (k.getMemory id).phase = .active) :
    (k.getMemory id).extent.start ≠ 0 ∧ (k.getMemory id).extent.Zoned := by
  obtain ⟨hstart, ops, hops⟩ := hr.early id hi ha hp
  exact ⟨hstart, hops ▸ zoned_run Extent.zoned_empty ops⟩

theorem Borrowed.congr {l l' : Kernel β} (hs : SameHeaps l k) (hm : l'.memories = k'.memories)
    (h : Borrowed length k k' cs) : Borrowed length l l' cs := by
  cases k
  cases l
  obtain ⟨rfl, rfl, rfl, rfl⟩ := hs
  cases h with
  | untouched hk => exact .untouched (hm.trans hk)
  | refused hi hx hk => exact .refused hi hx (hm.trans hk)
  | backed hi hn hk => exact .backed hi hn (hm.trans hk)
  | early ha hi hb ho hk => exact .early ha hi hb ho (hm.trans hk)

theorem borrowed_of_heapView (hu : heapView u = heapView m) :
    u.heapCalls = m.heapCalls ++ [] ∧ Borrowed length m.state u.state [] := by
  rw [List.append_nil]
  exact ⟨heapCalls_of_heapView hu, .untouched (sameHeaps_of_heapView hu).memories_eq⟩

/-- Since an earlier machine an action left the heap tidied up, and returned unless a backend refused its
pointer. -/
structure Tidies (length : UInt64) (m : Machine (Kernel β)) (x : Action (Kernel β) α)
    (u : Machine (Kernel β)) (cs : List Call) : Prop where
  calls : (x.after u).heapCalls = m.heapCalls ++ cs
  borrowed : Borrowed length m.state (x.after u).state cs
  faults : ∀ e t, x u = .error e t → e = .foreignPointer ∧ ∃ h a, .heapFree h a false ∈ cs

namespace Tidies

variable {x : Action (Kernel β) α} {g : α → Action (Kernel β) γ}

theorem of_returns (hx : Returns heapView x) (hu : heapView u = heapView m) :
    Tidies length m x u [] := by
  obtain ⟨a, t, hxt, ht⟩ := hx u
  obtain ⟨hcalls, hborrowed⟩ := borrowed_of_heapView (ht.trans hu)
  constructor
  · rwa [after_of_ok hxt]
  · rw [after_of_ok hxt]
    exact hborrowed
  · simp [hxt]

theorem of_apply_eq {y : Action (Kernel β) α} (h : Tidies length m x u cs) (hy : y t = x u) :
    Tidies length m y t cs := by
  have hafter : y.after t = x.after u := by rw [after, after, hy]
  exact ⟨hafter ▸ h.calls, hafter ▸ h.borrowed, hy ▸ h.faults⟩

theorem rebase (h : Tidies length t x u cs) (ht : heapView t = heapView m) :
    Tidies length m x u cs where
  calls := h.calls.trans (by rw [heapCalls_of_heapView ht])
  borrowed := h.borrowed.congr (sameHeaps_of_heapView ht.symm) rfl
  faults := h.faults

theorem bind (h : Tidies length m x u cs) (hg : ∀ a, Returns heapView (g a)) :
    Tidies length m (x >>= g) u cs := by
  obtain ⟨hcalls, hborrowed, hfaults⟩ := h
  cases hx : x u with
  | error e t =>
    rw [after_of_error hx] at hcalls hborrowed
    have hbind : (x >>= g) u = .error e t := by rw [bind_apply, hx]
    constructor
    · rwa [after_of_error hbind]
    · rwa [after_of_error hbind]
    · intro e' t' h'
      cases hbind.symm.trans h'
      exact hfaults e t hx
  | ok a t =>
    rw [after_of_ok hx] at hcalls hborrowed
    obtain ⟨b, v, hgv, hv⟩ := hg a t
    have hbind : (x >>= g) u = .ok b v := by
      rw [bind_apply, hx]
      exact hgv
    constructor
    · rw [after_of_ok hbind, heapCalls_of_heapView hv, hcalls]
    · rw [after_of_ok hbind]
      exact hborrowed.congr ⟨rfl, rfl, rfl, rfl⟩ (sameHeaps_of_heapView hv).memories_eq
    · simp [hbind]

end Tidies

/-- A request for a buffer comes to nothing, or to a pointer that goes back where it came from. -/
def Lends (length : UInt64) (m : Machine (Kernel β)) : Prop :=
  (∃ t cs, allocate length 1 m = .ok none t ∧ t.heapCalls = m.heapCalls ++ cs ∧
      Borrowed length m.state t.state cs) ∨
    ∃ a t, allocate length 1 m = .ok (some a) t ∧
      ∀ u, heapView u = heapView t → ∃ cs, Tidies length m (free a) u cs

theorem lends_of_backend (hi : m.state.installed = some h) (hr : HeapReady m.state length) :
    Lends length m := by
  have hallocate : allocate length 1 m = _ := allocate_of_installed hi
  cases hx : (HeapBackend.allocate (m.state.getHeap h) length 1).1 with
  | none =>
    rw [hx] at hallocate
    exact Or.inl ⟨_, _, hallocate, heapCalls_push _ _, .refused hi rfl rfl⟩
  | some a =>
    rw [hx] at hallocate
    cases hp : pointer? a with
    | none =>
      rw [Option.bind_some, hp] at hallocate
      exact Or.inl ⟨_, _, hallocate, heapCalls_push _ _, .refused hi hp rfl⟩
    | some b =>
      obtain ⟨hn, rfl⟩ := pointer?_eq_some_iff.mp hp
      rw [Option.bind_some, hp] at hallocate
      refine Or.inr ⟨b, _, hallocate, fun u hu => ?_⟩
      have hs := sameHeaps_of_heapView hu
      have howner : u.state.attachedOwner? b = none :=
        (hs.attachedOwner?_eq b).trans (hr.backed h hi b hx hn)
      obtain ⟨accepted, v, hmemories, -, -, hcalls, hfree⟩ :=
        free_by_backend hn howner (hs.installed_eq.trans hi)
      have hafter : (free b).after u = v := by
        cases accepted
        · exact after_of_error hfree
        · exact after_of_ok hfree
      refine ⟨[.heapAllocate h length 1 (some b), .heapFree h b accepted], ?_, ?_, ?_⟩
      · have hlent := heapCalls_of_heapView hu
        rw [heapCalls_push] at hlent
        have hback : v.heapCalls = u.heapCalls ++ [.heapFree h b accepted] := by
          rw [Machine.heapCalls, hcalls, List.filter_append]
          rfl
        rw [hafter, hback, hlent, List.append_assoc]
        rfl
      · rw [hafter]
        exact .backed hi hn (hmemories.trans hs.memories_eq)
      · intro e t ht
        rw [hfree] at ht
        cases accepted with
        | true => cases ht
        | false =>
          cases ht
          exact ⟨rfl, h, b, by simp⟩

theorem lends_of_early (hi : m.state.installed = none) (ha : m.state.attached = some id)
    (hr : HeapReady m.state length) (hl : length ≠ 0) : Lends length m := by
  have hone : (1 : UInt64).toNat.isPowerOfTwo := by decide
  obtain ⟨p, b, hb⟩ := (m.state.getMemory id).exists_allocate length hone
  have hallocate := allocate_of_attached hi ha hb
  cases p with
  | none =>
    have hsame : b = m.state.getMemory id := eq_of_allocate_none (hr.active hi ha) hb
    refine Or.inl ⟨_, [], hallocate, (List.append_nil _).symm, .untouched ?_⟩
    rw [hsame, state_onState]
    exact Vector.set_getElem_self _
  | some a =>
    refine Or.inr ⟨a, _, hallocate, fun u hu => ?_⟩
    have hs := sameHeaps_of_heapView hu
    have hattached : u.state.attached = some id := hs.attached_eq.trans ha
    have hmemory : u.state.getMemory id = b :=
      (getMemory_congr hs.memories_eq).trans getMemory_setMemory_self
    have hp : (m.state.getMemory id).phase = .active := by
      rcases allocate_eq_ok hb with ⟨hnone, -⟩ | ⟨hp, -⟩
      · cases hnone
      · exact hp
    have hgave : b.Gave a length := gave_of_allocate (hr.active hi ha hp).2 hb
    have howns : b.owns a = true :=
      hgave.owns_iff.mpr (UInt64.ne_of_lt (hgave.lt_ceiling hl))
    have hfree := free_of_owned hgave.nonnull hattached (hmemory.symm ▸ howns)
    refine ⟨[], ?_, .early hi ha hb howns ?_, by simp [hfree]⟩
    · rw [after_of_ok hfree, List.append_nil]
      exact (heapCalls_of_heapView hu).trans rfl
    · rw [after_of_ok hfree, hmemory, state_onState, setMemory, setMemory, hs.memories_eq]
      exact Vector.set_set _ id.isLt

theorem lends (hr : HeapReady m.state length) (hl : length ≠ 0) : Lends length m := by
  cases hi : m.state.installed with
  | some h => exact lends_of_backend hi hr
  | none =>
    cases ha : m.state.attached with
    | some id => exact lends_of_early hi ha hr hl
    | none =>
      refine Or.inl ⟨m, [], ?_, (List.append_nil _).symm, .untouched rfl⟩
      rw [allocate, bind_apply, current_apply]
      dsimp only
      rw [hi, ha]
      rfl

/-- On a heap that is ready an action leaves the heap tidied up. -/
def Tidy (length : UInt64) (x : Action (Kernel β) α) : Prop :=
  ∀ m, HeapReady m.state length → ∃ cs, Tidies length m x m cs

theorem tidy_of_returns {x : Action (Kernel β) α} (hx : Returns heapView x) : Tidy length x :=
  fun _ _ => ⟨[], .of_returns hx rfl⟩

namespace Tidy

theorem ite {p : Prop} [Decidable p] {x y : Action (Kernel β) α} (hx : Tidy length x)
    (hy : Tidy length y) : Tidy length (if p then x else y) := by
  split
  · exact hx
  · exact hy

theorem after {x : Action (Kernel β) α} {g : α → Action (Kernel β) γ} (hx : Returns heapView x)
    (hg : ∀ a, Tidy length (g a)) : Tidy length (x >>= g) := by
  intro m hr
  obtain ⟨a, t, hxt, ht⟩ := hx m
  obtain ⟨cs, h⟩ := hg a t (hr.congr (sameHeaps_of_heapView ht))
  refine ⟨cs, (h.rebase ht).of_apply_eq ?_⟩
  rw [bind_apply, hxt]

theorem handler_after {x : Handler (Kernel β) α} {g : α → Handler (Kernel β) γ}
    (hx : Returns heapView x.run) (hg : ∀ a, Tidy length (g a).run) :
    Tidy length (x >>= g).run := by
  refine Tidy.after hx fun r => ?_
  cases r with
  | ok a => exact hg a
  | error e => exact tidy_of_returns (compositional_returns.handler_throw e)

theorem lift_after {x : Action (Kernel β) α} {g : α → Handler (Kernel β) γ}
    (hx : Returns heapView x) (hg : ∀ a, Tidy length (g a).run) :
    Tidy length (ExceptT.lift x >>= g).run :=
  handler_after (compositional_returns.lift hx) hg

theorem handler_bind {x : Handler (Kernel β) α} {g : α → Handler (Kernel β) γ}
    (hx : Tidy length x.run) (hg : ∀ a, Returns heapView (g a).run) :
    Tidy length (x >>= g).run := by
  intro m hr
  obtain ⟨cs, h⟩ := hx m hr
  refine ⟨cs, h.bind fun r => ?_⟩
  cases r with
  | ok a => exact hg a
  | error e => exact compositional_returns.handler_throw e

theorem holdingLock {x : Action (Kernel β) α} (hx : Tidy length x) (hr : HeapReady m.state length)
    (hfree : m.state.lock.held = false) : ∃ cs, Tidies length m (holdingLock x) m cs := by
  have l : Lockless (heapView (β := β)) := lockless_view fun _ _ => rfl
  have hacquire := acquireLock_of_free hfree
  have hlock := l.acquireLock m
  rw [after_of_ok hacquire] at hlock
  obtain ⟨cs, h⟩ := hx _ (hr.congr (sameHeaps_of_heapView hlock))
  obtain ⟨hcalls, hborrowed, hfaults⟩ := h.rebase hlock
  refine ⟨cs, ?_, ?_, fun e t ht => ?_⟩
  · rw [after_holdingLock, hacquire]
    exact (heapCalls_of_heapView (l.unlocked _)).trans hcalls
  · rw [after_holdingLock, hacquire]
    exact hborrowed.congr ⟨rfl, rfl, rfl, rfl⟩ (sameHeaps_of_heapView (l.unlocked _)).memories_eq
  · rcases holdingLock_eq_error ht with hheld | ⟨u, v, hu, hv, -⟩
    · cases hacquire.symm.trans hheld
    · cases hacquire.symm.trans hu
      exact hfaults e v hv

end Tidy

theorem tidy_populate (hl : length ≠ 0) :
    Tidy length (populate start length fd offset : Handler (Kernel β) Unit).run := by
  intro m hr
  rcases lends hr hl with ⟨t, cs, hallocate, hcalls, hborrowed⟩ | ⟨buffer, t, hallocate, hback⟩
  · have hrun : (populate start length fd offset).run m = .ok (.error .noMemory) t := by
      rw [populate, Handler.bind_lift_apply, hallocate]
      rfl
    refine ⟨cs, ?_, ?_, by simp [hrun]⟩
    · rw [after_of_ok hrun, hcalls]
    · rwa [after_of_ok hrun]
  · have hcopy : Returns heapView
        (copyContents start length fd offset buffer : Handler (Kernel β) Unit).run :=
      returns_copyContents buffer
    -- The outcome of the copy is kept for the end, so the pointer is given back first.
    obtain ⟨outcome, v, hcopied, hv⟩ :=
      hcopy { t with state := { t.state with memory := t.state.memory.clear buffer length } }
    obtain ⟨cs, h⟩ := hback v (hv.trans rfl)
    have hkept := h.bind (g := fun _ => pure outcome) fun _ => compositional_returns.pure outcome
    refine ⟨cs, hkept.of_apply_eq ?_⟩
    rw [populate, Handler.bind_lift_apply, hallocate]
    dsimp only
    rw [Handler.bind_lift_apply, clearBytes, update_apply]
    dsimp only
    rw [Handler.bind_lift_apply, hcopied]
    dsimp only
    rw [Handler.bind_lift_apply, bind_apply]
    cases free buffer v <;> rfl

theorem tidy_mapAt {permissions : Permissions} {anonymous : Bool} {rounded : UInt64}
    (hl : r.length ≠ 0) :
    Tidy r.length (mapAt r permissions anonymous rounded start : Handler (Kernel β) Address).run := by
  have c : Compositional (κ := Kernel β) (Returns heapView) := compositional_returns
  refine Tidy.lift_after (returns_mapRegion _ _ _) fun o => ?_
  cases o with
  | error e =>
    exact tidy_of_returns (c.lift_bind (returns_printed _) fun _ => c.handler_throw _)
  | ok u =>
    cases anonymous with
    | true => exact tidy_of_returns (c.handler_pure start)
    | false => exact (tidy_populate hl).handler_bind fun _ => c.handler_pure start

theorem tidy_mapPlaced {prot : Protection} {flags : MapFlags} {rounded : UInt64}
    (hl : r.length ≠ 0) :
    Tidy r.length (mapPlaced r prot flags rounded : Handler (Kernel β) Address).run := by
  have c : Compositional (κ := Kernel β) (Returns heapView) := compositional_returns
  have hplace : Returns heapView (place r flags rounded : Handler (Kernel β) Address).run :=
    c.place fun _ _ _ => returns_ask (fun _ => rfl) fun _ => rfl
  have hopen : Returns heapView (needOpenFile r.fd : Handler (Kernel β) Unit).run :=
    c.needOpenFile fun _ => returns_ask (fun _ => rfl) fun _ => rfl
  exact Tidy.handler_after hplace fun start =>
    Tidy.ite (tidy_mapAt hl) (Tidy.handler_after hopen fun _ => tidy_mapAt hl)

/-- Why a mapping does not return: there is no task, or the lock is held already, or a backend does not
take its pointer back. -/
inductive Stuck (k : Kernel β) (cs : List Call) : Fault → Prop
  | noTask (h : k.task.present = false) : Stuck k cs .noCurrentTask
  | locked (h : k.lock.held = true) : Stuck k cs .lockHeld
  | notAccepted {h : HeapId} {a : Address} (hc : .heapFree h a false ∈ cs) :
      Stuck k cs .foreignPointer

theorem borrowed_of_mapMemory (hr : HeapReady m.state r.length) :
    ∃ cs, ((mapMemory r).run.after m).heapCalls = m.heapCalls ++ cs ∧
      Borrowed r.length m.state ((mapMemory r).run.after m).state cs ∧
      ∀ e u, (mapMemory r).run m = .error e u → Stuck m.state cs e := by
  obtain ⟨record, hcases⟩ := mapMemory_cases r m
  have hpush : heapView (m.push [.printed record]) = heapView m := view_push rfl
  rcases hcases with ⟨e, hrun⟩ | ⟨hrun, htask⟩ | ⟨prot, flags, rounded, -, -, hrounded, hz, hrun⟩
  · refine ⟨[], ?_⟩
    rw [after_of_ok hrun]
    obtain ⟨hcalls, hborrowed⟩ := borrowed_of_heapView hpush
    exact ⟨hcalls, hborrowed, by simp [hrun]⟩
  · refine ⟨[], ?_⟩
    rw [after_of_error hrun]
    obtain ⟨hcalls, hborrowed⟩ := borrowed_of_heapView hpush
    refine ⟨hcalls, hborrowed, fun e u h => ?_⟩
    cases hrun.symm.trans h
    exact .noTask htask
  · cases hheld : m.state.lock.held with
    | true =>
      have hfault := hrun.trans (holdingLock_of_held _ hheld)
      have hlocking : heapView ((m.push [.printed record]).push [.locking]) = heapView m :=
        (view_push rfl).trans hpush
      refine ⟨[], ?_⟩
      rw [after_of_error hfault]
      obtain ⟨hcalls, hborrowed⟩ := borrowed_of_heapView hlocking
      refine ⟨hcalls, hborrowed, fun e u h => ?_⟩
      cases hfault.symm.trans h
      exact .locked hheld
    | false =>
      have hl : r.length ≠ 0 := by
        intro hzero
        rw [hzero] at hrounded
        cases hrounded
        exact hz rfl
      have hready := hr.congr (sameHeaps_of_heapView hpush)
      obtain ⟨cs, h⟩ := (tidy_mapPlaced hl).holdingLock hready hheld
      obtain ⟨hcalls, hborrowed, hfaults⟩ := (h.rebase hpush).of_apply_eq hrun
      refine ⟨cs, hcalls, hborrowed, fun e u he => ?_⟩
      obtain ⟨rfl, i, a, hc⟩ := hfaults e u he
      exact .notAccepted hc

/-- A mapping borrows at most one buffer from the heap, and gives it back once. -/
theorem heap_of_mapping (hr : HeapReady m.state r.length) :
    let t := (mapMemory r).run.after m
    (∃ cs, t.heapCalls = m.heapCalls ++ cs ∧ Borrowed r.length m.state t.state cs ∧
      ∀ e u, (mapMemory r).run m = .error e u → Stuck m.state cs e) ∧
    (∀ p u, (mapMemory r).run m ≠ .error (.panicked p) u) ∧ t.out = m.out ∧
    (∀ id ops held, Session.Reached ops ⟨m.state.getMemory id, held⟩ →
      ∃ mine, (mine = [] ∨ ∃ a, mine = [.allocate r.length 1, .free a]) ∧
        Session.Reached (ops ++ mine) ⟨t.state.getMemory id, held⟩) ∧
    ∀ id, (m.state.getMemory id).extent.live.toNat + 1 < 2 ^ 64 →
      (t.state.getMemory id).extent.live = (m.state.getMemory id).extent.live := by
  intro t
  obtain ⟨cs, hcalls, hborrowed, hstuck⟩ := borrowed_of_mapMemory hr
  refine ⟨⟨cs, hcalls, hborrowed, hstuck⟩, fun p u h => ?_, ?_, ?_, ?_⟩
  · cases hstuck _ u h
  · rw [Machine.out_eq, hcalls, List.foldl_append, hborrowed.settled, ← Machine.out_eq]
  · intro id ops held
    exact hborrowed.reached
  · intro id
    exact hborrowed.live_eq

/-- A file is mapped from boot memory that already handed out some bytes. -/
theorem heap_of_mapping_early :
    let m := ((World.initial .important 42 (.empty 0x40000000 0x100000)).run
      [.memory 0 (.activate ⟨0x100000000000, 0x100000010000⟩), .attach 0, .allocate 64 16,
        .addFile ⟨#[47, 97]⟩ ⟨#[104, 105]⟩]).2.machine
    let r : MapRequest := ⟨0x40000000, 2, 1, 0x12, 3, 0⟩
    let t := (mapMemory r).run.after m
    let held : Holdings := ⟨some ⟨0x100000000000, 0x100000010000⟩, [(0x100000000000, 64)], []⟩
    HeapReady m.state r.length ∧ t.out = m.out ∧ (m.state.getMemory 0).extent.usedBytes = 64 ∧
      (t.state.getMemory 0).extent.usedBytes = 66 ∧ (t.state.getMemory 0).extent.live = 1 ∧
      ∃ ops, Session.Reached ops ⟨t.state.getMemory 0, held⟩ := by
  intro m r t held
  have hmemory : m.state.getMemory 0 = dormant.run
      [.activate ⟨0x100000000000, 0x100000010000⟩, .allocate 64 16] := by decide +kernel
  have hinstalled : m.state.installed = none := by decide +kernel
  have hattached : m.state.attached = some 0 := by decide +kernel
  have hstart : (m.state.getMemory 0).extent.start ≠ 0 := by decide +kernel
  have hready : HeapReady m.state r.length := by
    constructor
    · intro h hi
      rw [hinstalled] at hi
      cases hi
    · intro id _ ha _
      rw [hattached] at ha
      cases ha
      exact ⟨hstart, _, hmemory⟩
  have hreached : Session.dormant.run?
      [.activate ⟨0x100000000000, 0x100000010000⟩, .allocate 64 16] =
        some ⟨m.state.getMemory 0, held⟩ := by decide +kernel
  have hlive : (m.state.getMemory 0).extent.live = 1 := by decide +kernel
  obtain ⟨-, -, hout, hheld, hcount⟩ := heap_of_mapping hready
  obtain ⟨mine, -, h⟩ := hheld 0 _ held (Session.Reached.dormant.run? hreached)
  have hlast : (t.state.getMemory 0).extent.live = 1 :=
    (hcount 0 (by rw [hlive]; decide)).trans hlive
  exact ⟨hready, hout, by decide +kernel, by decide +kernel, hlast, _, h⟩

end Kernel

end KernelCore
