import KernelCore.Proofs.Kernel.Forgetful
import KernelCore.Proofs.Syscall.Success
import KernelCore.Proofs.Word.Rounding

/-! # What the caller of a system call sees

A caller takes a reply from -4095 to -1 for an error number. While the files answer with errors that have a
name and with values that are not negative, exactly the calls that failed are replied to in this way: pages
are aligned, so that no address of a mapping looks like an error number.
-/

namespace KernelCore

instance (e : Errno) : Decidable e.Named :=
  inferInstanceAs (Decidable (1 ≤ e.code.toInt ∧ e.code.toInt ≤ 40))

/-- A value of some kind, or an error that has a name. -/
def Proper {α : Type} (p : α → Prop) : Except Errno α → Prop
  | .ok a => p a
  | .error e => e.Named

/-- A file call that was answered with a named error or with a value that is not negative. -/
def Call.Regular : Call → Prop
  | .fileOpen _ _ _ r => Proper (fun fd => 0 ≤ fd.toInt) r
  | .fileClose _ r => Proper (fun _ => True) r
  | .fileRead _ _ _ r | .fileWrite _ _ _ r | .fileWriteVectors _ _ _ r | .fileSeek _ _ _ r =>
      Proper (fun n => n.toNat < 2 ^ 63) r
  | .heapAllocate .. | .heapFree .. | .findFreeArea .. | .mapAlloc .. | .spaceWrite ..
  | .fileIsOpen .. | .setClearChildTid _ => True

instance {α : Type} (p : α → Prop) [DecidablePred p] (r : Except Errno α) :
    Decidable (Proper p r) :=
  match r with
  | .ok a => inferInstanceAs (Decidable (p a))
  | .error e => inferInstanceAs (Decidable e.Named)

instance : DecidablePred Call.Regular
  | .fileOpen _ _ _ r => inferInstanceAs (Decidable (Proper (fun fd => 0 ≤ fd.toInt) r))
  | .fileClose _ r => inferInstanceAs (Decidable (Proper (fun _ => True) r))
  | .fileRead _ _ _ r | .fileWrite _ _ _ r | .fileWriteVectors _ _ _ r | .fileSeek _ _ _ r =>
      inferInstanceAs (Decidable (Proper (fun n => n.toNat < 2 ^ 63) r))
  | .heapAllocate .. | .heapFree .. | .findFreeArea .. | .mapAlloc .. | .spaceWrite ..
  | .fileIsOpen .. | .setClearChildTid _ => .isTrue trivial

/-- A reply that a caller takes for an error number. -/
def ErrorReply (r : Int64) : Prop := -4095 ≤ r.toInt ∧ r.toInt ≤ -1

theorem toInt_toInt64 (x : UInt64) :
    x.toInt64.toInt =
      if x.toNat < 2 ^ 63 then (x.toNat : Int) else x.toNat - (2 ^ 64 : Nat) := by
  have h : x.toInt64.toInt = x.toBitVec.toInt := rfl
  have hx : x.toBitVec.toNat = x.toNat := rfl
  rw [h, BitVec.toInt_eq_toNat_cond, hx]
  have := x.toNat_lt
  split <;> split <;> omega

theorem not_errorReply_of_lt {x : UInt64} (h : x.toNat < 2 ^ 63) : ¬ ErrorReply x.toInt64 := by
  rw [ErrorReply, toInt_toInt64, if_pos h]
  omega

/-- An address at a page boundary is not an error number, also in the upper half. -/
theorem not_errorReply_of_aligned {a : Address} (h : Word.isAligned a pageBytes = true) :
    ¬ ErrorReply a.toInt64 := by
  have hpage : a.toNat % 4096 = 0 := (Word.isAligned_iff_toNat rfl).mp h
  have := a.toNat_lt
  rw [ErrorReply, toInt_toInt64]
  split <;> omega

theorem toInt_toReply {e : Errno} (h : e.Named) : e.toReply.toInt = -e.code.toInt := by
  obtain ⟨hlow, hhigh⟩ := h
  rw [Errno.toReply, Int64.toInt_neg, Int32.toInt_toInt64]
  exact Int.bmod_eq_of_le (by omega) (by omega)

theorem errorReply_toReply {e : Errno} (h : e.Named) : ErrorReply e.toReply := by
  have hreply := toInt_toReply h
  obtain ⟨hlow, hhigh⟩ := h
  constructor <;> omega

theorem SpaceError.named_toErrno (e : SpaceError) : e.toErrno.Named := by
  cases e with
  | other code => exact (by decide : Errno.again.Named)
  | _ => decide

namespace Machine

/-- All calls so far were answered as they should be. -/
def Regular {κ : Type} (m : Machine κ) : Prop := ∀ c ∈ m.calls, c.Regular

end Machine

namespace Kernel

open KernelCore.Action

variable {β α γ : Type} {p : α → Prop} {q : γ → Prop} {m t : Machine (Kernel β)}
  {fd : Descriptor} {a buffer start : Address} {length total offset : UInt64} {r : MapRequest}

/-- What an action comes to when all calls were answered as they should be. -/
def Comes (p : α → Prop) (x : Action (Kernel β) α) : Prop :=
  ∀ m a t, x m = .ok a t → t.Regular → p a

theorem regular_of_ok {x : Action (Kernel β) α} {a : α} (hx : Forgetful x) (h : x m = .ok a t)
    (ht : t.Regular) : m.Regular := by
  obtain ⟨cs, hcalls⟩ := hx.calls h
  intro c hc
  exact ht c (hcalls ▸ List.mem_append_left cs hc)

theorem comes_pure {a : α} (h : p a) : Comes p (pure a : Action (Kernel β) α) := by
  intro m b t hb _
  cases hb
  exact h

theorem comes_holdingLock {x : Action (Kernel β) α} (h : Comes p x) :
    Comes p (holdingLock x) := by
  intro m a t ha ht
  obtain ⟨u, v, -, hx, rfl⟩ := holdingLock_eq_ok ha
  have hcalls : (unlocked v).calls = v.calls := by simp [unlocked_eq, Event.call?]
  exact h u a v hx fun c hc => ht c (hcalls ▸ hc)

/-- What a handler comes to: a value of some kind, or an error that has a name. -/
def Yields (p : α → Prop) (x : Handler (Kernel β) α) : Prop := Comes (Proper p) x.run

theorem yields_pure {a : α} (h : p a) : Yields p (pure a : Handler (Kernel β) α) := comes_pure h

theorem yields_throw {e : Errno} (h : e.Named) : Yields p (throw e : Handler (Kernel β) α) :=
  comes_pure (a := (.error e : Except Errno α)) h

theorem Yields.ite {c : Prop} [Decidable c] {x y : Handler (Kernel β) α} (hx : Yields p x)
    (hy : Yields p y) : Yields p (if c then x else y) := by
  split
  · exact hx
  · exact hy

theorem Yields.bind {p' : α → Prop} {x : Handler (Kernel β) α} {g : α → Handler (Kernel β) γ}
    (hx : Yields p' x) (hg : ∀ a, Yields q (g a)) : Yields q (x >>= g) := by
  intro m r t h ht
  cases hr : r with
  | ok b =>
    obtain ⟨a, u, -, hb⟩ := Handler.bind_eq_ok (hr ▸ h)
    exact hg a u _ t hb ht
  | error e =>
    rcases Handler.bind_eq_error (hr ▸ h) with he | ⟨a, u, -, he⟩
    · exact hx m (.error e) t he ht
    · exact hg a u _ t he ht

theorem yields_bind_lift {x : Action (Kernel β) α} {g : α → Handler (Kernel β) γ}
    (hg : ∀ a, Yields q (g a)) : Yields q (ExceptT.lift x >>= g) := by
  intro m r t h ht
  rw [Handler.bind_lift_apply] at h
  cases hx : x m with
  | ok a u =>
    rw [hx] at h
    exact hg a u r t h ht
  | error e u =>
    rw [hx] at h
    cases h

theorem Comes.bind_lift {x : Action (Kernel β) α} {g : α → Handler (Kernel β) γ} (hx : Comes p x)
    (hforget : ∀ a, Forgetful (g a).run) (hg : ∀ a, p a → Yields q (g a)) :
    Yields q (ExceptT.lift x >>= g) := by
  intro m r t h ht
  rw [Handler.bind_lift_apply] at h
  cases hxm : x m with
  | ok a u =>
    rw [hxm] at h
    exact hg a (hx m a u hxm (regular_of_ok (hforget a) h ht)) u r t h ht
  | error e u =>
    rw [hxm] at h
    cases h

theorem yields_request {F : Kernel β → Except Errno α × Kernel β} {c : Except Errno α → Call}
    (h : ∀ r, (c r).Regular → Proper p r) : Yields p (request F c) := by
  intro m r t hr ht
  change ask F c m = _ at hr
  rw [ask_apply] at hr
  cases hr
  exact h _ (ht _ (by simp [Event.call?]))

theorem yields_readFile :
    Yields (fun n => n.toNat < 2 ^ 63) (readFile fd buffer length : Handler (Kernel β) UInt64) :=
  yields_request fun _ h => h

theorem yields_writeFile :
    Yields (fun n => n.toNat < 2 ^ 63) (writeFile fd buffer length : Handler (Kernel β) UInt64) :=
  yields_request fun _ h => h

theorem yields_closeFile : Yields (fun _ => True) (closeFile fd : Handler (Kernel β) Unit) :=
  yields_request fun _ h => h

theorem yields_seekFile {distance : Int64} {whence : Whence} :
    Yields (fun n => n.toNat < 2 ^ 63) (seekFile fd distance whence : Handler (Kernel β) UInt64) :=
  yields_request fun _ h => h

theorem comes_readOn :
    Comes (fun x => ∀ e ∈ x.2, e.Named)
      (readOn fd buffer length total : Action (Kernel β) (UInt64 × Option Errno)) := by
  induction total using Kernel.readOn.induct length with
  | case1 total hlt ih =>
    intro m x t h ht
    rw [readOn, if_pos hlt] at h
    obtain ⟨r, u, hread, h⟩ := bind_eq_ok h
    cases r with
    | error e =>
      cases h
      rintro _ ⟨⟩
      exact yields_readFile m _ t hread ht
    | ok got =>
      dsimp only at h
      split at h
      · cases h
        simp
      · split at h
        · cases h
          simp
        · exact ih got ‹_› ‹_› u x t h ht
  | case2 total hge =>
    rw [readOn, if_neg hge]
    exact comes_pure (by simp)

theorem comes_restoreCursor {saved : Option UInt64} :
    Comes (fun o => ∀ e ∈ o, e.Named)
      (restoreCursor fd saved : Action (Kernel β) (Option Errno)) := by
  cases saved with
  | none => exact comes_pure (by simp)
  | some cursor =>
    intro m x t h ht
    obtain ⟨r, u, hseek, h⟩ := bind_eq_ok h
    cases r with
    | ok n =>
      cases h
      simp
    | error e =>
      cases h
      rintro _ ⟨⟩
      exact yields_seekFile m _ t hseek ht

theorem yields_moveCursor :
    Yields (fun _ => True) (moveCursor fd offset : Handler (Kernel β) (Option UInt64)) :=
  .ite (yields_pure trivial) <| yields_seekFile.bind fun _ => yields_seekFile.bind fun _ =>
    yields_pure trivial

theorem yields_readContents :
    Yields (fun _ => True) (readContents fd offset buffer length : Handler (Kernel β) UInt64) := by
  have c : Compositional (κ := Kernel β) Forgetful := compositional_forgetful
  refine yields_moveCursor.bind fun saved => comes_readOn.bind_lift (fun x => ?_) fun x hx =>
    comes_restoreCursor.bind_lift (fun o => ?_) fun o ho => ?_
  · refine c.lift_bind (c.restoreCursor fun _ _ => elementary_forgetful.request _ _) fun o => ?_
    cases x.2.or o with
    | none => exact c.handler_pure x.1
    | some e => exact c.handler_throw e
  · cases x.2.or o with
    | none => exact c.handler_pure x.1
    | some e => exact c.handler_throw e
  · cases hor : x.2.or o with
    | none => exact yields_pure trivial
    | some e =>
      rcases Option.or_eq_some_iff.mp hor with he | ⟨-, he⟩
      · exact yields_throw (hx e he)
      · exact yields_throw (ho e he)

theorem yields_copyContents :
    Yields (fun _ => True)
      (copyContents start length fd offset buffer : Handler (Kernel β) Unit) := by
  refine yields_readContents.bind fun count => yields_bind_lift fun _ => yields_bind_lift fun r => ?_
  cases r with
  | ok u => exact yields_pure trivial
  | error e => exact yields_bind_lift fun _ => yields_throw (by decide)

theorem yields_place {flags : MapFlags} :
    Yields (fun _ => True) (place r flags length : Handler (Kernel β) Address) := by
  refine .ite (.ite (yields_pure trivial) (yields_throw (by decide))) ?_
  refine yields_bind_lift fun k => yields_bind_lift fun o => ?_
  cases o with
  | some start => exact yields_pure trivial
  | none => exact yields_throw (by decide)

theorem yields_needOpenFile :
    Yields (fun _ => True) (needOpenFile fd : Handler (Kernel β) Unit) := by
  have h : Yields (fun _ => True) (do unless ← ExceptT.lift (isOpenFile fd) do throw .badDescriptor :
      Handler (Kernel β) Unit) :=
    yields_bind_lift fun _ => .ite (yields_pure trivial) (yields_throw (by decide))
  exact .ite ((yields_throw (p := fun _ => True) (by decide)).bind fun _ => h) h

variable [HeapBackend β]

theorem yields_populate :
    Yields (fun _ => True) (populate start length fd offset : Handler (Kernel β) Unit) := by
  refine yields_bind_lift fun o => ?_
  cases o with
  | none => exact yields_throw (by decide)
  | some buffer =>
    have e : Elementary (β := β) Forgetful := elementary_forgetful
    refine yields_bind_lift fun _ => Comes.bind_lift yields_copyContents (fun r => ?_) fun r hr =>
      yields_bind_lift fun _ => comes_pure hr
    exact e.lift_bind e.serves.free fun _ => (e.pure r : Forgetful (ExceptT.mk (pure r)).run)

theorem yields_mapAt {permissions : Permissions} {anonymous : Bool} :
    Yields (fun _ => True)
      (mapAt r permissions anonymous length start : Handler (Kernel β) Address) := by
  refine yields_bind_lift fun o => ?_
  cases o with
  | error e => exact yields_bind_lift fun _ => yields_throw e.named_toErrno
  | ok u =>
    cases anonymous with
    | true => exact yields_pure trivial
    | false => exact yields_populate.bind fun _ => yields_pure trivial

theorem yields_mapPlaced {prot : Protection} {flags : MapFlags} :
    Yields (fun _ => True) (mapPlaced r prot flags length : Handler (Kernel β) Address) :=
  yields_place.bind fun _ => .ite yields_mapAt (yields_needOpenFile.bind fun _ => yields_mapAt)

theorem aligned_of_mapped (h : (mapMemory r).run m = .ok (.ok a) t) :
    Word.isAligned a pageBytes = true := by
  obtain ⟨_, _, _, start, _, u, v, -, -, -, -, -, -, hmap, -⟩ := mapMemory_eq_ok h
  obtain ⟨rfl, s, _, hs, -⟩ := mapAt_eq_ok hmap
  exact (AddressSpace.mapAlloc_eq_ok hs).1

theorem yields_mapMemory :
    Yields (fun a => Word.isAligned a pageBytes = true)
      (mapMemory r : Handler (Kernel β) Address) := by
  have herror : Yields (fun _ => True) (mapMemory r : Handler (Kernel β) Address) := by
    unfold mapMemory
    split
    · refine yields_bind_lift fun _ => ?_
      split
      · exact yields_throw (by decide)
      · rename_i prot flags _ _ _ _ length _
        have hplaced : Yields (fun _ => True)
            (ExceptT.mk (holdingLock (mapPlaced r prot flags length).run) :
              Handler (Kernel β) Address) :=
          comes_holdingLock yields_mapPlaced
        have hmap := yields_bind_lift (x := needTask) fun _ => hplaced
        exact .ite ((yields_throw (p := fun _ => True) (by decide)).bind fun _ => hmap) hmap
    · exact yields_bind_lift fun _ => yields_throw (by decide)
  intro m x t h ht
  cases x with
  | ok a => exact aligned_of_mapped h
  | error e => exact herror m _ t h ht

variable {f : Frame}

omit [HeapBackend β] in
theorem yields_replied [ReplyValue α] {body : Handler (Kernel β) α} {p' : Int64 → Prop}
    (h : Yields p body) (hp : ∀ a, p a → p' (ReplyValue.toReply a)) : Yields p' body.replied := by
  intro m x t hx ht
  cases x with
  | ok v =>
    obtain ⟨a, u, hbody, hv⟩ := Handler.bind_eq_ok hx
    cases hv
    exact hp a (h m (.ok a) t hbody ht)
  | error e =>
    rcases Handler.bind_eq_error hx with he | ⟨a, u, -, he⟩
    · exact h m (.error e) t he ht
    · cases he

omit [HeapBackend β] in
theorem yields_openPath {directory : Descriptor} {path : Address} {flags mode : UInt32} :
    Yields (fun fd => 0 ≤ fd.toInt)
      (openPath directory path flags mode : Handler (Kernel β) Descriptor) := by
  have hopen : Yields (fun fd => 0 ≤ fd.toInt) (do
      ExceptT.lift needTask
      openFile path flags mode : Handler (Kernel β) Descriptor) :=
    yields_bind_lift fun _ => yields_request fun _ h => h
  have hpath : Yields (fun fd => 0 ≤ fd.toInt) (do
      if path = 0 then throw .fault
      ExceptT.lift needTask
      openFile path flags mode : Handler (Kernel β) Descriptor) :=
    .ite ((yields_throw (p := fun _ => True) (by decide)).bind fun _ => hopen) hopen
  exact .ite ((yields_throw (p := fun _ => True) (by decide)).bind fun _ => hpath) hpath

omit [HeapBackend β] in
theorem yields_writeDescriptorVectors {vectors : Address} {count : Int32} :
    Yields (fun n => n.toNat < 2 ^ 63)
      (writeDescriptorVectors fd vectors count : Handler (Kernel β) UInt64) := by
  have hwrite : Yields (fun n => n.toNat < 2 ^ 63) (do
      ExceptT.lift needTask
      writeVectors fd vectors count.toInt.toNat.toUInt64 : Handler (Kernel β) UInt64) :=
    yields_bind_lift fun _ => yields_request fun _ h => h
  exact .ite ((yields_throw (p := fun _ => True) (by decide)).bind fun _ => hwrite) hwrite

omit [HeapBackend β] in
theorem setTidAddress_eq_ok {x : Except Errno UInt64} (h : (setTidAddress a).run m = .ok x t) :
    x = .ok m.state.task.id := by
  rw [setTidAddress, Handler.bind_lift_apply, needTask_apply] at h
  split at h
  · rename_i u hu
    obtain rfl : u = m := by
      split at hu <;> cases hu
      rfl
    rw [Handler.bind_lift_apply, ask_apply] at h
    cases h
    rfl
  · cases h

theorem proper_of_service {x : Service β} {result : Except Errno Int64} (hx : x ∈ services f)
    (hid : m.state.task.id.toNat < 2 ^ 63) (h : x.handler.run m = .ok result t)
    (ht : t.Regular) : Proper (fun r => ¬ ErrorReply r) result := by
  simp only [services, List.mem_cons, List.not_mem_nil, or_false] at hx
  have hcount (n : UInt64) (hn : n.toNat < 2 ^ 63) : ¬ ErrorReply (ReplyValue.toReply n) :=
    not_errorReply_of_lt hn
  have hzero : ¬ ErrorReply 0 := fun h => absurd h.2 (by decide)
  rcases hx with rfl | rfl | rfl | rfl | rfl | rfl | rfl | rfl | rfl | rfl
  · exact yields_replied (yields_bind_lift fun _ => yields_pure (by decide)) hcount m _ t h ht
  · refine yields_replied yields_openPath (fun fd hfd => ?_) m _ t h ht
    change ¬ ErrorReply fd.toInt64
    rw [ErrorReply, Int32.toInt_toInt64]
    omega
  · exact yields_replied (yields_bind_lift fun _ => yields_closeFile) (fun _ _ => hzero) m _ t h ht
  · exact yields_replied (yields_bind_lift fun _ => yields_readFile) hcount m _ t h ht
  · exact yields_replied (yields_bind_lift fun _ => yields_writeFile) hcount m _ t h ht
  · exact yields_replied yields_writeDescriptorVectors hcount m _ t h ht
  · obtain ⟨_, -, h⟩ := Handler.lift_eq_ok h
    rw [exitTask_apply] at h
    cases h
  · obtain ⟨_, -, h⟩ := Handler.lift_eq_ok h
    rw [exitTask_apply] at h
    cases h
  · obtain rfl : result = .ok (ReplyValue.toReply m.state.task.id) := by
      rw [Handler.replied, Handler.bind_apply] at h
      cases hset : (setTidAddress (f.word 0)).run m with
      | ok x u =>
        rw [hset] at h
        obtain rfl := setTidAddress_eq_ok hset
        cases h
        rfl
      | error e u =>
        rw [hset] at h
        cases h
    exact hcount _ hid
  · exact yields_replied yields_mapMemory (fun a ha => not_errorReply_of_aligned ha) m _ t h ht

/-- A call fails where its number is not in the table, and where its handler comes to an error. -/
def Fails (f : Frame) (m : Machine (Kernel β)) (e : Errno) : Prop :=
  match service? f with
  | none => e = .noSyscall
  | some x => ∃ t, x.handler.run m = .ok (.error e) t

theorem service?_eq_none_iff :
    (service? f : Option (Service β)) = none ↔
      ∀ e ∈ (syscallTable : List (SyscallEntry β)), e.number ≠ f.number := by
  have hnumbers : (services f : List (Service β)).map Service.number =
      (syscallTable : List (SyscallEntry β)).map SyscallEntry.number := rfl
  have h := congrArg (fun l => ∀ n ∈ l, n ≠ f.number) hnumbers
  simp only [List.forall_mem_map] at h
  simp [service?, ← h]

theorem service?_of_mapNumber (hn : f.number = mapNumber) :
    (service? f : Option (Service β)) =
      some ⟨mapNumber, "mmap", (mapMemory f.mapRequest).replied⟩ := by
  rw [service?, hn]
  rfl

/-- A reply is that of an unknown number, or of what the handler comes to. -/
theorem reply_cases {r : Int64} (h : handleSyscall f m = .ok r t) :
    (service? f : Option (Service β)) = none ∧ r = Errno.noSyscall.toReply ∨
      ∃ x result u v, service? f = some x ∧ x.handler.run m.fresh = .ok result v ∧
        x.handler.run m = .ok result u ∧ t.calls = m.calls ++ v.calls ∧
        r = Handler.replyOf result := by
  rw [handleSyscall_eq] at h
  cases hx : (service? f : Option (Service β)) with
  | none =>
    rw [hx] at h
    dsimp only at h
    rw [bind_apply, say_apply] at h
    cases h
    exact Or.inl ⟨rfl, rfl⟩
  | some x =>
    rw [hx] at h
    dsimp only at h
    rw [bind_apply, say_apply] at h
    obtain ⟨result, w, record, hrun, rfl, rfl⟩ := Handler.reply_eq_ok h
    have hforget : Forgetful x.handler.run :=
      elementary_forgetful.service (List.mem_of_find?_eq_some hx)
    obtain ⟨v, hv, rfl⟩ := hforget.fresh hrun
    have hfresh : x.handler.run m.fresh = .ok result v := hv
    refine Or.inr ⟨x, result, m.behind v, v, rfl, hfresh, ?_, ?_, rfl⟩
    · rw [hforget.apply, hfresh]
      rfl
    · rw [Machine.calls_push_printed, Machine.calls_behind, Machine.calls_push_printed]

/-- A reply is an error number exactly if the call failed, and then that of the error. -/
theorem replies_unambiguous {r : Int64} {cs : List Call} (hid : m.state.task.id.toNat < 2 ^ 63)
    (h : handleSyscall f m = .ok r t) (hcalls : t.calls = m.calls ++ cs)
    (hregular : ∀ c ∈ cs, c.Regular) :
    (ErrorReply r ↔ ∃ e, Fails f m e) ∧ (∀ e, Fails f m e → r.toInt = -e.code.toInt) ∧
      ((∀ e ∈ (syscallTable : List (SyscallEntry β)), e.number ≠ f.number) → r = -38) ∧
      ∀ a u, f.number = mapNumber → (mapMemory f.mapRequest).run m = .ok (.ok a) u →
        r = a.toInt64 ∧ ¬ ErrorReply r := by
  rcases reply_cases h with ⟨hx, rfl⟩ | ⟨x, result, u, v, hx, hfresh, hrun, hv, rfl⟩
  · have hnamed : Errno.noSyscall.Named := by decide
    have hfails (e : Errno) : Fails f m e ↔ e = .noSyscall := by rw [Fails, hx]
    have hreply : ErrorReply Errno.noSyscall.toReply := errorReply_toReply hnamed
    refine ⟨⟨fun _ => ⟨_, (hfails _).mpr rfl⟩, fun _ => hreply⟩, ?_, fun _ => rfl, ?_⟩
    · intro e he
      rw [(hfails e).mp he]
      exact toInt_toReply hnamed
    · intro a u hn
      rw [service?_of_mapNumber hn] at hx
      cases hx
  · have hproper : Proper (fun r => ¬ ErrorReply r) result := by
      refine proper_of_service (m := m.fresh) (List.mem_of_find?_eq_some hx) hid hfresh ?_
      intro c hc
      exact hregular c (List.append_cancel_left (hcalls.symm.trans hv) ▸ hc)
    have hfails (e : Errno) : Fails f m e ↔ result = .error e := by
      rw [Fails, hx]
      simp [hrun]
    refine ⟨?_, ?_, fun hn => ?_, fun a w hn hmap => ?_⟩
    · cases result with
      | ok r => exact ⟨fun hr => absurd hr hproper, fun ⟨e, he⟩ => nomatch (hfails e).mp he⟩
      | error e => exact ⟨fun _ => ⟨e, (hfails e).mpr rfl⟩, fun _ => errorReply_toReply hproper⟩
    · intro e he
      obtain rfl := (hfails e).mp he
      exact toInt_toReply hproper
    · rw [service?_eq_none_iff.mpr hn] at hx
      cases hx
    · rw [service?_of_mapNumber hn] at hx
      cases hx
      rw [Handler.replied, Handler.bind_apply, hmap] at hrun
      cases hrun
      exact ⟨rfl, hproper⟩

/-- A file is mapped at the last but one gigabyte of the upper half. -/
theorem replies_unambiguous_upper_half :
    let m : Machine (Kernel ArenaHeap) :=
      ((World.initial .important 42 (.empty 0xffffffff80000000 0x100000)).run
        [.install 0, .addFile ⟨#[47, 97]⟩ ⟨#[104, 105]⟩]).2.machine
    let f : Frame := ⟨222, #v[0xffffffff80000000, 2, 1, 0x12, 3, 1]⟩
    ∃ t, handleSyscall f m = .ok (-0x80000000) t ∧
      (ErrorReply (-0x80000000) ↔ ∃ e, Fails f m e) ∧ ¬ ∃ e, Fails f m e := by
  intro m f
  have hr : answers (handleSyscall f) m (-0x80000000) = true := by decide +kernel
  have hempty : m.calls = [] :=
    List.isEmpty_iff.mp (show m.calls.isEmpty = true by decide +kernel)
  have hregular : ∀ c ∈ ((handleSyscall f).after m).calls, c.Regular := by decide +kernel
  have h := replies_unambiguous (m := m) (f := f) (by decide +kernel) (run_of_answers hr)
    (by rw [hempty, List.nil_append]) hregular
  exact ⟨_, run_of_answers hr, h.1, fun he => absurd (h.1.mpr he).1 (by decide)⟩

end Kernel

end KernelCore
