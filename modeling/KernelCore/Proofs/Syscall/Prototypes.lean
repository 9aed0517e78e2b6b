import KernelCore.Kernel.World
import KernelCore.Proofs.Kernel.Actions
import Mathlib.Algebra.Group.Nat.Defs

/-! # The prototypes of system calls

The prototype of a call says which argument registers it has and how wide its arguments are. Frames of
one call that agree on those arguments are not told apart: what else the registers hold has no part in
the reply, in what is asked of collaborators, in the log or in the world that is left.
-/

namespace KernelCore

/-- How an argument is declared: as wide as its register, or as an integer of 32 bits. -/
inductive Parameter where
  | word
  | half
  deriving DecidableEq, Repr

namespace Parameter

/-- What an argument takes from its register. -/
def read : Parameter → UInt64 → Nat
  | word, r => r.toNat
  | half, r => r.toNat % 2 ^ 32

/-- The calls and their parameters, one for each register from the first one on. -/
def prototypes : List (UInt64 × List Parameter) :=
  [(29, [half, word]), -- what a device control points to is not looked at
    (56, [half, word, half, half]),
    (57, [half]),
    (63, [half, word, word]),
    (64, [half, word, word]),
    (66, [half, word, half]),
    (93, [half]),
    (94, [half]),
    (96, [word]),
    (222, [word, word, half, half, half, word])]

end Parameter

namespace Frame

variable {f g : Frame} {i : Fin 6}

/-- The parameters of the call that a frame asks for. A number without a prototype has none. -/
def parameters (f : Frame) : List Parameter := (Parameter.prototypes.lookup f.number).getD []

/-- The arguments of the call that a frame asks for. -/
def arguments (f : Frame) : List Nat :=
  List.zipWith (fun p i => Parameter.read p (f.word i)) f.parameters (List.finRange 6)

/-- Frames that ask for the same call with the same arguments. -/
structure SameCall (f g : Frame) : Prop where
  number_eq : f.number = g.number
  arguments_eq : f.arguments = g.arguments

namespace SameCall

variable (h : SameCall f g)

include h

theorem read_eq {p : Parameter} (hp : f.parameters[i.val]? = some p) :
    p.read (f.word i) = p.read (g.word i) := by
  have hi : (List.finRange 6)[i.val]? = some i := by simp
  have hg : g.parameters[i.val]? = some p := by rwa [parameters, ← h.number_eq]
  have hsame := congrArg (·[i.val]?) h.arguments_eq
  simpa [arguments, List.getElem?_zipWith, hi, hp, hg] using hsame

theorem word_eq (hp : f.parameters[i.val]? = some .word) : f.word i = g.word i :=
  UInt64.toNat_inj.mp (h.read_eq hp)

theorem unsigned_eq (hp : f.parameters[i.val]? = some .half) :
    f.unsigned i = g.unsigned i := by
  have hread : f.args[i].toNat % 2 ^ 32 = g.args[i].toNat % 2 ^ 32 := h.read_eq hp
  rwa [unsigned, unsigned, ← UInt32.toNat_inj, UInt64.toNat_toUInt32, UInt64.toNat_toUInt32]

theorem signed_eq (hp : f.parameters[i.val]? = some .half) :
    f.signed i = g.signed i :=
  congrArg UInt32.toInt32 (h.unsigned_eq hp)

end SameCall

end Frame

namespace Kernel

open KernelCore.Action

variable {β : Type} [HeapBackend β] {f g : Frame}

theorem map_number_syscallTable :
    (syscallTable : List (SyscallEntry β)).map SyscallEntry.number =
      Parameter.prototypes.map Prod.fst := rfl

/-- An entry runs its handler on the arguments of its prototype. -/
theorem run_of_sameCall (h : f.SameCall g) {e : SyscallEntry β} (he : e ∈ syscallTable)
    (hn : e.number = f.number) : e.run f = e.run g := by
  have hwidth (i : Fin 6) (p : Parameter)
      (hp : ((Parameter.prototypes.lookup e.number).getD [])[i.val]? = some p) :
      f.parameters[i.val]? = some p := by rwa [Frame.parameters, ← hn]
  simp only [syscallTable, List.mem_cons, List.not_mem_nil, or_false] at he
  rcases he with rfl | rfl | rfl | rfl | rfl | rfl | rfl | rfl | rfl | rfl
  · simp only [replying, h.signed_eq (hwidth 0 _ rfl), h.word_eq (hwidth 1 _ rfl)]
  · simp only [replying, h.signed_eq (hwidth 0 _ rfl), h.word_eq (hwidth 1 _ rfl),
      h.unsigned_eq (hwidth 2 _ rfl), h.unsigned_eq (hwidth 3 _ rfl)]
  · simp only [replying, h.signed_eq (hwidth 0 _ rfl)]
  · simp only [replying, h.signed_eq (hwidth 0 _ rfl), h.word_eq (hwidth 1 _ rfl),
      h.word_eq (hwidth 2 _ rfl)]
  · simp only [replying, h.signed_eq (hwidth 0 _ rfl), h.word_eq (hwidth 1 _ rfl),
      h.word_eq (hwidth 2 _ rfl)]
  · simp only [replying, h.signed_eq (hwidth 0 _ rfl), h.word_eq (hwidth 1 _ rfl),
      h.signed_eq (hwidth 2 _ rfl)]
  · simp only [h.signed_eq (hwidth 0 _ rfl)]
  · simp only [h.signed_eq (hwidth 0 _ rfl)]
  · simp only [replying, h.word_eq (hwidth 0 _ rfl)]
  · simp only [replying, Frame.mapRequest, h.word_eq (hwidth 0 _ rfl), h.word_eq (hwidth 1 _ rfl),
      h.unsigned_eq (hwidth 2 _ rfl), h.unsigned_eq (hwidth 3 _ rfl), h.signed_eq (hwidth 4 _ rfl),
      h.word_eq (hwidth 5 _ rfl)]

theorem handleSyscall_of_sameCall (h : f.SameCall g) :
    (handleSyscall f : Action (Kernel β) Int64) = handleSyscall g := by
  unfold handleSyscall
  rw [h.number_eq]
  cases he : (syscallTable : List (SyscallEntry β)).find? (·.number = g.number) with
  | none => rfl
  | some e =>
    have hn : e.number = g.number := by simpa using List.find?_some he
    dsimp only
    rw [run_of_sameCall h (List.mem_of_find?_eq_some he) (hn.trans h.number_eq.symm)]

/-- A number outside the table leaves one record in the log and nothing else. -/
theorem handleSyscall_of_not_mem
    (h : f.number ∉ (syscallTable : List (SyscallEntry β)).map SyscallEntry.number)
    (m : Machine (Kernel β)) :
    handleSyscall f m = .ok (-38) (m.push [.printed ⟨some .important,
      [.text "Unimplemented syscall: ", .number f.number.toNat, .text "\n"]⟩]) := by
  have hfind : (syscallTable : List (SyscallEntry β)).find? (·.number = f.number) = none := by
    refine List.find?_eq_none.mpr fun e he hn => h ?_
    exact List.mem_map.mpr ⟨e, he, of_decide_eq_true hn⟩
  unfold handleSyscall
  rw [hfind]
  dsimp only
  rw [bind_apply, say_apply]
  rfl

/-- Frames with the same call and arguments have the same effect on every machine. -/
theorem only_arguments_matter (h : f.SameCall g) :
    (∀ m : Machine (Kernel β), handleSyscall f m = handleSyscall g m) ∧
      (∀ w : World β, w.step (.syscall f) = w.step (.syscall g)) ∧
      (f.number ∉ (syscallTable : List (SyscallEntry β)).map SyscallEntry.number →
        f.arguments = [] ∧ ∀ m : Machine (Kernel β),
          handleSyscall f m = .ok (-38) (m.push [.printed ⟨some .important,
            [.text "Unimplemented syscall: ", .number f.number.toNat, .text "\n"]⟩])) := by
  refine ⟨fun m => by rw [handleSyscall_of_sameCall h], fun w => ?_, fun hn => ⟨?_, ?_⟩⟩
  · have hexecute : (execute (.syscall f) : Action (Kernel β) Answer) = execute (.syscall g) := by
      simp only [execute, handleSyscall_of_sameCall h]
    simp only [World.step, hexecute]
  · have hnone : Parameter.prototypes.lookup f.number = none := by
      rw [map_number_syscallTable] at hn
      refine List.lookup_eq_none_iff.mpr fun p hp => ?_
      simpa using fun hf => hn (List.mem_map.mpr ⟨p, hp, hf.symm⟩)
    rw [Frame.arguments, Frame.parameters, hnone]
    rfl
  · exact handleSyscall_of_not_mem hn

/-- Anonymous memory is asked for without a descriptor: -1, of 32 bits and of 64. -/
theorem only_arguments_matter_no_descriptor :
    let f : Frame := ⟨222, #v[0, 4096, 3, 0x22, 0xffffffff, 0]⟩
    let g : Frame := ⟨222, #v[0, 4096, 0x700000003, 0xffffffff00000022, 0xffffffffffffffff, 0]⟩
    f.SameCall g ∧ f.args ≠ g.args ∧
      ∀ m : Machine (Kernel ArenaHeap), handleSyscall f m = handleSyscall g m := by
  intro f g
  have h : f.SameCall g := ⟨rfl, by decide⟩
  exact ⟨h, by decide, (only_arguments_matter h).1⟩

end Kernel

end KernelCore
