import KernelCore.Lifetime.Objects

/-! # The values of cells

What cells hold, without storage and lifetimes: optional values and outcomes. Copying takes the value of
another place and leaves it there. Moving out of an optional leaves its place occupied, with what moving
leaves behind. A result gives its value up only when a new cell is built out of it; it keeps its value when
another result is assigned from it.
-/

namespace KernelCore

variable {α ε γ : Type} {n m k : Nat} [Movable α]

/-- What stays of a row when the value of one place is moved out. -/
def movedOut {f : Type → Type} [Functor f] (vs : Vector (f α) n) (x : Fin n) : Vector (f α) n :=
  vs.set x (Movable.leftBehind <$> vs.get x) x.isLt

/-- Takes the value of one place to another. -/
def relocate {f : Type → Type} [Functor f] (vs : Vector (f α) n) (d x : Fin n) : Vector (f α) n :=
  (movedOut vs x).set d (vs.get x) d.isLt

namespace OptionalCell

/-- The cell that holds a value or none. -/
def holding : Option α → OptionalCell α
  | some a => ⟨.live a, true⟩
  | none => null

def built (vs : Vector (Option α) n) : Source α n → Vector (Option α) (n + 1)
  | .empty => vs.push none
  | .copy a | .move a => vs.push (some a)
  | .copyOf x => vs.push (vs.get x)
  | .moveOf x => (movedOut vs x).push (vs.get x)

def next [DecidableEq α] (vs : Vector (Option α) n) :
    Operation α n → CellReply α ε γ × Vector (Option α) n
  | .setCopy d a | .setMove d a | .emplace d a => (.nothing, vs.set d (some a) d.isLt)
  | .clear d | .reset d => (.nothing, vs.set d none d.isLt)
  | .copy d x | .copyNew d x => (.nothing, vs.set d (vs.get x) d.isLt)
  | .move d x | .moveNew d x => (.nothing, relocate vs d x)
  | .deref d => (.ofValue ((vs.get d).elim (.error .emptyOptional) .ok), vs)
  | .put d a =>
      match vs.get d with
      | some _ => (.nothing, vs.set d (some a) d.isLt)
      | none => (.panicked .emptyOptional, vs)
  | .valueOr d a => (.value ((vs.get d).getD a), vs)
  | .equals d x => (.truth (vs.get d = vs.get x), vs)
  | .occupied d => (.truth (vs.get d).isSome, vs)
  | .transform d f => (.optional ((vs.get d).map f), vs)

end OptionalCell

namespace ResultCell

/-- The cell that holds a value or an error. -/
def holding : Except ε α → ResultCell α ε
  | .ok a => ok (.live a)
  | .error e => error e

def built (vs : Vector (Except ε α) n) : Source α ε n → Vector (Except ε α) (n + 1)
  | .copy a | .move a => vs.push (.ok a)
  | .error e => vs.push (.error e)
  | .copyOf x => vs.push (vs.get x)
  | .moveOf x => (movedOut vs x).push (vs.get x)

def next (vs : Vector (Except ε α) n) : Operation α ε γ n → CellReply α ε γ × Vector (Except ε α) n
  | .succeed d a | .succeedMove d a => (.nothing, vs.set d (.ok a) d.isLt)
  | .fail d e => (.nothing, vs.set d (.error e) d.isLt)
  | .copy d x | .move d x | .copyNew d x => (.nothing, vs.set d (vs.get x) d.isLt)
  | .moveNew d x => (.nothing, relocate vs d x)
  | .deref d => (.ofValue ((vs.get d).mapError fun _ => .valueOfFailure), vs)
  | .put d a =>
      match vs.get d with
      | .ok _ => (.nothing, vs.set d (.ok a) d.isLt)
      | .error _ => (.panicked .valueOfFailure, vs)
  | .takeError d =>
      match vs.get d with
      | .ok _ => (.panicked .errorOfSuccess, vs)
      | .error e => (.error e, vs)
  | .valueOr d a => (.value ((vs.get d).toOption.getD a), vs)
  | .isOk d => (.truth (vs.get d).isOk, vs)
  | .transformError d f => (.outcome ((vs.get d).mapError f), vs)

end ResultCell

structure Values (α ε : Type) (n m k : Nat) where
  optionals : Vector (Option α) n
  results : Vector (Except ε α) m
  voids : Vector (Except ε Unit) k

namespace Values

def initial (a : α) : Values α ε n m k :=
  ⟨Vector.replicate n none, Vector.replicate m (.ok a), Vector.replicate k (.ok ())⟩

def objects (s : Values α ε n m k) : Objects α ε n m k :=
  ⟨s.optionals.map OptionalCell.holding, s.results.map ResultCell.holding, s.voids⟩

variable [DecidableEq α]

def next (s : Values α ε n m k) :
    Objects.Operation α ε γ n m k → CellReply α ε γ × Values α ε n m k
  | .optional op =>
      let (r, vs) := OptionalCell.next s.optionals op
      (r, { s with optionals := vs })
  | .result op =>
      let (r, vs) := ResultCell.next s.results op
      (r, { s with results := vs })
  | .void op =>
      let (r, vs) := VoidResult.step s.voids op
      (r, { s with voids := vs })

/-- The replies in a history and the values after it. -/
def run {n₀ m₀ : Nat} (a : α) : {n m : Nat} → Objects.History α ε γ n₀ m₀ k n m →
    List (CellReply α ε γ) × Values α ε n m k
  | _, _, .start => ([], initial a)
  | _, _, .act h op =>
      let (replies, s) := run a h
      let (r, s) := s.next op
      (replies ++ [r], s)
  | _, _, .newOptional h source =>
      let (replies, s) := run a h
      (replies, ⟨OptionalCell.built s.optionals source, s.results, s.voids⟩)
  | _, _, .endOptional h x =>
      let (replies, s) := run a h
      (replies, ⟨s.optionals.eraseIdx x x.isLt, s.results, s.voids⟩)
  | _, _, .newResult h source =>
      let (replies, s) := run a h
      (replies, ⟨s.optionals, ResultCell.built s.results source, s.voids⟩)
  | _, _, .endResult h x =>
      let (replies, s) := run a h
      (replies, ⟨s.optionals, s.results.eraseIdx x x.isLt, s.voids⟩)

end Values

end KernelCore
