import KernelCore.Log.Record

/-! # Consoles

A console has a threshold, and it has two streams: the serial line, and one that discards what is written
to it. Every message asks for its stream. Writing past the filter is for what must be seen whatever happens.
-/

namespace KernelCore

/-- Where a console sends a message. -/
inductive Stream where
  | serial
  | discard
  deriving DecidableEq, Repr

def Stream.written : Stream → List Item → List Item
  | .serial, items => items
  | .discard, _ => []

structure Console where
  threshold : Importance
  deriving DecidableEq, Repr

namespace Console

/-- A console that shows all but debug messages. -/
def quiet : Console := ⟨.important⟩

/-- The stream for messages at an importance. What does not reach the threshold is discarded. -/
def log (c : Console) (i : Importance) : Stream := if c.threshold ≤ i then .serial else .discard

/-- The stream past the filter. -/
def emergencyLog (_ : Console) : Stream := .serial

/-- The stream for a record. -/
def stream (c : Console) (r : Record) : Stream :=
  match r.importance with
  | none => c.emergencyLog
  | some i => c.log i

theorem written_stream (c : Console) (r : Record) :
    (c.stream r).written r.items = Record.shown c.threshold [r] := by
  obtain ⟨importance, items⟩ := r
  cases importance with
  | none => simp [stream, emergencyLog, Stream.written, Record.shown_cons, Record.visible]
  | some i =>
    by_cases h : c.threshold ≤ i <;>
      simp [stream, log, Stream.written, Record.shown_cons, Record.visible, h]

inductive Operation where
  | setThreshold (t : Importance)
  | say (i : Importance) (items : List Item)
  | print (items : List Item)
  deriving DecidableEq, Repr

/-- What comes out of an operation, and the console after it. -/
def step (c : Console) : Operation → List Item × Console
  | .setThreshold t => ([], ⟨t⟩)
  | .say i items => ((c.log i).written items, c)
  | .print items => (c.emergencyLog.written items, c)

end Console

end KernelCore
