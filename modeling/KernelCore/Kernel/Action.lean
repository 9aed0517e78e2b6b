import KernelCore.Kernel.Call
import KernelCore.Log.Console
import KernelCore.Panic

/-! # Actions

An action changes a state, leaves a trace of what it printed and whom it called, and either returns
or ends in a fault. A fault keeps the state and the trace as they were when it arose. Every message asks
the console of the machine for its stream. All of them are in the trace; the serial log has only what came
out of the serial line.
-/

namespace KernelCore

/-- Why an action did not return. -/
inductive Fault where
  | panicked (p : Panic)
  | exited (status : Int32)
  | noCurrentTask
  | foreignPointer
  | lockHeld
  | noInitializer
  deriving DecidableEq, Repr

namespace Fault

def message : Fault → List Item
  | panicked p => p.items
  | exited status => [.text "task exited with status ", .number status.toInt]
  | noCurrentTask => [.text "no current task"]
  | foreignPointer => [.text "kernel heap asked to free a pointer it never handed out"]
  | lockHeld => [.text "address-space lock is already held"]
  | noInitializer => [.text "boot component has no initializer"]

end Fault

inductive Event where
  | printed (r : Record)
  | called (c : Call) (locked : Bool)
  | ran (index : Nat)
  | locking
  | unlocking

namespace Event

def record? : Event → Option Record
  | printed r => some r
  | _ => none

def call? : Event → Option Call
  | called c _ => some c
  | _ => none

def ran? : Event → Option Nat
  | ran i => some i
  | _ => none

/-- A call that touches the address space while its lock is free. -/
def unguarded : Event → Bool
  | called c locked => c.touchesSpace && !locked
  | _ => false

end Event

structure Machine (κ : Type) where
  state : κ
  console : Console
  serial : Array Item
  trace : Array Event

abbrev Action (κ : Type) := EStateM Fault (Machine κ)

namespace Action

variable {κ α : Type}

/-- Writes the pieces of a record to the stream that the console has for it. -/
def send (r : Record) : Action κ Unit := do
  let written := ((← get).console.stream r).written r.items
  modify fun m => { m with serial := m.serial ++ written.toArray }

/-- Leaves an event in the trace. A record is sent to the log as well. -/
def note (e : Event) : Action κ Unit := do
  if let some r := e.record? then send r
  modify fun m => { m with trace := m.trace.push e }

def print (items : List Item) : Action κ Unit := note (.printed ⟨none, items⟩)

def say (i : Importance) (items : List Item) : Action κ Unit := note (.printed ⟨some i, items⟩)

def sayAll : List Record → Action κ Unit
  | [] => pure ()
  | r :: rs => do note (.printed r); sayAll rs

def fault (f : Fault) : Action κ α := throw f

/-- Leaves the message of a panic in the log and stops. -/
def halt (p : Panic) : Action κ α := do
  print (.text "Panic: " :: p.items ++ [.text "\n"])
  fault (.panicked p)

def current : Action κ κ := do return (← get).state

def update (f : κ → κ) : Action κ Unit := modify fun m => { m with state := f m.state }

end Action

end KernelCore
