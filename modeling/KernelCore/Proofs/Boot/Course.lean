import KernelCore.Proofs.Kernel.Forgetful
import Mathlib.Data.List.Basic
import Mathlib.Data.List.Flatten

/-! # The course of a boot

Which initializers a table runs, what they make of the state and how the boot ends depends on the table
and on the state it starts from, not on the minimal importance: that only decides which lines are printed,
and a higher one prints a part of what a lower one prints.
-/

namespace KernelCore

open KernelCore.Action

variable {κ : Type} {p q : Importance} {c : Component κ} {cs : List (Component κ)}
  {act : Action κ Bool} {m : Machine κ}

/-- The places that boot components noted when they were called, in the order of the calls. -/
def Event.calledPlaces (es : List Event) : List Nat := es.filterMap Event.ran?

/-- The turn of a component: its place in the table, what its initializer came to, the state after it
and what it left. -/
structure Turn (κ : Type) where
  place : Nat
  component : Component κ
  succeeded : Bool
  state : κ
  events : List Event

namespace Component

/-- An initializer may change the state and leave events, and comes to success or failure. All of that
depends on the state alone. -/
def Initializes (act : Action κ Bool) : Prop :=
  ∀ k, ∃ b k' es, ∀ m : Machine κ, m.state = k → act m = .ok b ({ m with state := k' }.push es)

/-- A component that is not a phase marker has an initializer. -/
def Callable (c : Component κ) : Prop :=
  c.phaseMarker = false → ∃ act, c.initializer = some act ∧ Initializes act

/-- What a component prints when its turn comes. -/
def headline (p : Importance) (c : Component κ) : List Record :=
  if shows p c.importance then
    [⟨none, [.text (if c.phaseMarker then "[Phase] " else "[Boot] "), .name c.name, .text "\n"]⟩]
  else []

/-- What is printed about a component that failed. -/
def complaint (p : Importance) (c : Component κ) : List Record :=
  if showsFailure p c.importance then
    [⟨none, [.text "Failed to initialize ", .name c.name, .text "\n"]⟩]
  else []

/-- The components before the first sentinel. -/
def listed (cs : List (Component κ)) : List (Component κ) := cs.takeWhile fun c => !c.isSentinel

/-- A machine in a state that has left nothing yet. -/
def starting (k : κ) : Machine κ := ⟨k, .quiet, #[], #[]⟩

/-- The turn of a component in a state. A phase marker leaves the state alone. -/
def turn (c : Component κ) (place : Nat) (k : κ) : Turn κ :=
  match if c.phaseMarker then none else c.initializer with
  | none => ⟨place, c, true, k, []⟩
  | some act =>
      match act (starting k) with
      | .ok b t => ⟨place, c, b, t.state, t.trace.toList⟩
      | .error _ t => ⟨place, c, false, t.state, t.trace.toList⟩

/-- The turns of all components one after the other, as if no failure ever stopped the boot. -/
def turns (place : Nat) : List (Component κ) → κ → List (Turn κ)
  | [], _ => []
  | c :: cs, k => c.turn place k :: turns (place + 1) cs (c.turn place k).state

end Component

namespace Turn

def stops (t : Turn κ) : Bool := t.component.required && !t.succeeded

def calls (t : Turn κ) : Bool := !t.component.phaseMarker

/-- The turns up to the first required component that fails, and that one. -/
def course (ts : List (Turn κ)) : List (Turn κ) :=
  ts.takeWhile (!·.stops) ++ (ts.find? stops).toList

/-- The places of the components whose initializers are called. -/
def called (ts : List (Turn κ)) : List Nat := (ts.filter calls).map (·.place)

/-- How a boot ends: with a panic about the component that stopped it, or with the number of failures. -/
def conclude (ts : List (Turn κ)) : Action κ Nat :=
  match ts.find? stops with
  | some t => Action.halt (.requiredComponent t.component.name)
  | none => return ts.countP (!·.succeeded)

/-- What boot prints after a failure that does not stop it. -/
def footer (p : Importance) (t : Turn κ) : List Record :=
  if t.succeeded || t.component.required then [] else t.component.complaint p

/-- The lines that boot prints about a turn. -/
def lines (p : Importance) (t : Turn κ) : List Record := t.component.headline p ++ t.footer p

/-- All that a turn leaves in the trace. -/
def told (p : Importance) (t : Turn κ) : List Event :=
  (t.component.headline p).map .printed ++ t.events ++ (t.footer p).map .printed

/-- The machine that turns leave. -/
def leave (p : Importance) (m : Machine κ) (ts : List (Turn κ)) : Machine κ :=
  ({ m with state := ts.foldl (fun _ t => t.state) m.state } : Machine κ).push (ts.flatMap (told p))

variable {t : Turn κ} {ts : List (Turn κ)}

@[simp] theorem course_nil : course ([] : List (Turn κ)) = [] := rfl

theorem course_cons_of_stops (h : t.stops = true) : course (t :: ts) = [t] := by
  simp [course, h]

theorem course_cons_of_not_stops (h : t.stops = false) : course (t :: ts) = t :: course ts := by
  simp [course, h]

theorem course_sublist (ts : List (Turn κ)) : (course ts).Sublist ts := by
  induction ts with
  | nil => exact .slnil
  | cons t ts ih =>
    cases h : t.stops with
    | true =>
      rw [course_cons_of_stops h]
      exact (List.nil_sublist ts).cons_cons t
    | false =>
      rw [course_cons_of_not_stops h]
      exact ih.cons_cons t

theorem conclude_of_stops (h : t.stops = true) :
    conclude [t] = Action.halt (.requiredComponent t.component.name) := by
  simp [conclude, h]

theorem conclude_cons_of_not_stops (h : t.stops = false) :
    conclude (t :: ts) = do
      let failures ← conclude ts
      return if t.succeeded then failures else failures + 1 := by
  unfold conclude
  rw [List.find?_cons_of_neg (by simp [h]), List.countP_cons]
  cases ts.find? stops with
  | none => cases t.succeeded <;> simp
  | some u =>
    funext m
    dsimp only
    rw [bind_apply, halt_apply]

@[simp] theorem leave_nil : leave p m [] = m := by simp [leave]

theorem leave_cons : leave p m (t :: ts) = leave p (leave p m [t]) ts := by
  simp [leave, Machine.push]

theorem conclude_course_of_stops (h : t.stops = true) (m : Machine κ) :
    conclude (course (t :: ts)) (leave p m (course (t :: ts))) =
      Action.halt (.requiredComponent t.component.name) (leave p m [t]) := by
  rw [course_cons_of_stops h, conclude_of_stops h, halt_apply]

theorem conclude_course_of_not_stops (h : t.stops = false) (m : Machine κ) :
    conclude (course (t :: ts)) (leave p m (course (t :: ts))) =
      (do
        let failures ← conclude (course ts)
        return if t.succeeded then failures else failures + 1 : Action κ Nat)
        (leave p (leave p m [t]) (course ts)) := by
  rw [course_cons_of_not_stops h, conclude_cons_of_not_stops h, leave_cons]

theorem footer_sublist (h : p ≤ q) (t : Turn κ) : (t.footer q).Sublist (t.footer p) := by
  unfold footer Component.complaint
  split
  · exact .slnil
  · by_cases hq : Component.showsFailure q t.component.importance = true
    · rw [if_pos hq, if_pos (Component.showsFailure_of_le h hq)]
    · rw [if_neg hq]
      exact List.nil_sublist _

/-- A higher minimal importance prints a part of the lines about a turn. -/
theorem lines_sublist (h : p ≤ q) (t : Turn κ) : (t.lines q).Sublist (t.lines p) := by
  refine List.Sublist.append ?_ (footer_sublist h t)
  unfold Component.headline
  by_cases hq : Component.shows q t.component.importance = true
  · rw [if_pos hq, if_pos (Component.shows_of_le h hq)]
  · rw [if_neg hq]
    exact List.nil_sublist _

theorem calledPlaces_told (p : Importance) (t : Turn κ) :
    Event.calledPlaces (t.told p) = Event.calledPlaces t.events := by
  have hprinted (rs : List Record) : (rs.map Event.printed).filterMap Event.ran? = [] := by
    simp [List.filterMap_map, Function.comp_def, Event.ran?]
  simp [Event.calledPlaces, told, hprinted]

theorem calledPlaces_flatMap_told
    (h : ∀ t ∈ ts, Event.calledPlaces t.events = if t.calls then [t.place] else []) :
    Event.calledPlaces (ts.flatMap (told p)) = called ts := by
  induction ts with
  | nil => rfl
  | cons t ts ih =>
    rw [List.forall_mem_cons] at h
    have happend : Event.calledPlaces ((t :: ts).flatMap (told p)) =
        Event.calledPlaces (t.told p) ++ Event.calledPlaces (ts.flatMap (told p)) := by
      simp [Event.calledPlaces]
    rw [happend, calledPlaces_told, h.1, ih h.2]
    cases hcalls : t.calls <;> simp [called, hcalls]

end Turn

namespace Component

open Turn

@[simp] theorem component_turn (place : Nat) (k : κ) : (c.turn place k).component = c := by
  unfold turn
  split
  · rfl
  · split <;> rfl

@[simp] theorem place_turn (place : Nat) (k : κ) : (c.turn place k).place = place := by
  unfold turn
  split
  · rfl
  · split <;> rfl

theorem turn_of_marker (h : c.phaseMarker = true) (place : Nat) (k : κ) :
    c.turn place k = ⟨place, c, true, k, []⟩ := by
  simp [turn, h]

theorem stops_of_marker (h : c.phaseMarker = true) (place : Nat) (k : κ) :
    (c.turn place k).stops = false := by
  rw [turn_of_marker h]
  simp [stops]

theorem leave_of_marker (h : c.phaseMarker = true) (place : Nat) (m : Machine κ) :
    leave p m [c.turn place m.state] = m.push ((c.headline p).map .printed) := by
  rw [turn_of_marker h]
  simp [leave, told, footer, Machine.push]

theorem Initializes.apply (h : Initializes act) (hmarker : c.phaseMarker = false)
    (hact : c.initializer = some act) (place : Nat) (m : Machine κ) :
    act m = .ok (c.turn place m.state).succeeded
      ({ m with state := (c.turn place m.state).state }.push (c.turn place m.state).events) := by
  obtain ⟨b, k, es, hrun⟩ := h m.state
  have hturn : c.turn place m.state = ⟨place, c, b, k, es⟩ := by
    unfold turn
    rw [hmarker, if_neg Bool.false_ne_true, hact]
    dsimp only
    rw [hrun (starting m.state) rfl]
    simp [starting, Machine.push]
  rw [hrun m rfl, hturn]

theorem run_apply (hmarker : c.phaseMarker = false) (hact : c.initializer = some act)
    (m : Machine κ) :
    c.run p m = match act (m.push ((c.headline p).map .printed)) with
      | .ok true t => .ok false t
      | .ok false t =>
          if c.required then Action.halt (.requiredComponent c.name) t
          else .ok true (t.push ((c.complaint p).map .printed))
      | .error e t => .error e t := by
  have hrun : c.run p m = (do
      if ← act then return false
      if c.required then Action.halt (.requiredComponent c.name)
      if showsFailure p c.importance then
        Action.print [.text "Failed to initialize ", .name c.name, .text "\n"]
      return true : Action κ Bool) (m.push ((c.headline p).map .printed)) := by
    unfold run headline
    rw [hact, hmarker]
    by_cases hshow : shows p c.importance = true
    · simp only [hshow, if_true]
      rw [bind_apply, print, note_apply]
      rfl
    · simp only [hshow, Bool.false_eq_true, if_false, List.map_nil, Machine.push_nil]
  rw [hrun, bind_apply]
  cases act (m.push ((c.headline p).map .printed)) with
  | error e t => rfl
  | ok b t =>
    cases b with
    | true => rfl
    | false =>
      dsimp only
      by_cases hreq : c.required = true
      · simp only [hreq, if_true, Bool.false_eq_true, if_false]
        rw [bind_apply, halt_apply, halt_apply]
      · by_cases hfail : showsFailure p c.importance = true
        · simp only [hreq, hfail, complaint, if_true, Bool.false_eq_true, if_false]
          rw [bind_apply, print, note_apply]
          rfl
        · simp only [hreq, hfail, complaint, Bool.false_eq_true, if_false, List.map_nil,
            Machine.push_nil]
          rfl

/-- A component that is called has its turn. -/
theorem run_eq_turn (h : Initializes act) (hmarker : c.phaseMarker = false)
    (hact : c.initializer = some act) (place : Nat) (m : Machine κ) :
    c.run p m =
      let t := c.turn place m.state
      if t.stops then Action.halt (.requiredComponent c.name) (leave p m [t])
      else .ok (!t.succeeded) (leave p m [t]) := by
  rw [run_apply hmarker hact, h.apply hmarker hact place, Machine.state_push]
  have hcomponent := component_turn (c := c) place m.state
  generalize c.turn place m.state = t at hcomponent ⊢
  obtain ⟨i, d, succeeded, k, es⟩ := t
  obtain rfl : d = c := hcomponent
  cases succeeded with
  | true => simp [stops, leave, told, footer, Machine.push]
  | false =>
    by_cases hreq : d.required = true
    · simp [hreq, stops, leave, told, footer, Machine.push]
    · simp [hreq, stops, leave, told, footer, Machine.push]

theorem listed_cons : listed (c :: cs) = if c.isSentinel then [] else c :: listed cs := by
  cases h : c.isSentinel <;> simp [listed, h]

theorem runTable_of_marker (h : c.isSentinel = false) (hmarker : c.phaseMarker = true)
    (m : Machine κ) :
    runTable p (c :: cs) m = runTable p cs (m.push ((c.headline p).map .printed)) := by
  rw [runTable, h]
  by_cases hshow : shows p c.importance = true
  · simp only [hmarker, hshow, headline, if_true, Bool.false_eq_true, if_false]
    rw [bind_apply, print, note_apply]
    rfl
  · simp only [hmarker, hshow, headline, if_true, Bool.false_eq_true, if_false, List.map_nil,
      Machine.push_nil]

theorem runTable_of_called (h : c.isSentinel = false) (hmarker : c.phaseMarker = false) :
    runTable p (c :: cs) = do
      let failed ← c.run p
      let failures ← runTable p cs
      return if failed then failures + 1 else failures := by
  simp only [runTable, h, hmarker, Bool.false_eq_true, if_false]

/-- The turns of a table are taken until one of them stops the boot. -/
theorem runTable_eq_course (hcs : ∀ c ∈ listed cs, c.Callable) (place : Nat) (m : Machine κ) :
    runTable p cs m =
      let ts := course (turns place (listed cs) m.state)
      conclude ts (leave p m ts) := by
  induction cs generalizing place m with
  | nil =>
    simp only [listed, List.takeWhile_nil, turns, course_nil, leave_nil]
    rfl
  | cons c cs ih =>
    cases hsentinel : c.isSentinel with
    | true =>
      rw [listed_cons, hsentinel, runTable, hsentinel]
      simp only [turns, course_nil, leave_nil, if_true]
      rfl
    | false =>
      rw [listed_cons, hsentinel] at hcs ⊢
      simp only [Bool.false_eq_true, if_false, List.forall_mem_cons] at hcs ⊢
      obtain ⟨hc, hcs⟩ := hcs
      rw [turns]
      cases hmarker : c.phaseMarker with
      | true =>
        rw [runTable_of_marker hsentinel hmarker, ih hcs (place + 1),
          conclude_course_of_not_stops (stops_of_marker hmarker place m.state),
          leave_of_marker hmarker, turn_of_marker hmarker]
        simp
      | false =>
        obtain ⟨act, hact, hinit⟩ := hc hmarker
        rw [runTable_of_called hsentinel hmarker, bind_apply, run_eq_turn hinit hmarker hact place]
        cases hstops : (c.turn place m.state).stops with
        | true =>
          rw [conclude_course_of_stops hstops, component_turn]
          simp only [hstops, if_true]
          rw [halt_apply, halt_apply]
        | false =>
          have hstate : (leave p m [c.turn place m.state]).state = (c.turn place m.state).state := rfl
          rw [conclude_course_of_not_stops hstops]
          simp only [hstops, Bool.false_eq_true, if_false]
          rw [bind_apply, bind_apply, ih hcs (place + 1), hstate]
          cases (c.turn place m.state).succeeded <;> rfl

theorem map_place_turns (place : Nat) (cs : List (Component κ)) (k : κ) :
    (turns place cs k).map Turn.place = List.range' place cs.length := by
  induction cs generalizing place k with
  | nil => rfl
  | cons c cs ih => rw [turns, List.map_cons, place_turn, ih, List.length_cons, List.range'_succ]

/-- The initializers are called in the order of the table, each of them once. -/
theorem pairwise_called (place : Nat) (cs : List (Component κ)) (k : κ) :
    (called (course (turns place cs k))).Pairwise (· < ·) := by
  have hsub : (called (course (turns place cs k))).Sublist (List.range' place cs.length) := by
    rw [← map_place_turns place cs k]
    exact (List.filter_sublist.trans (course_sublist _)).map (·.place)
  exact List.Pairwise.sublist hsub List.pairwise_lt_range'

theorem events_of_marker {place : Nat} {k : κ} {t : Turn κ} (ht : t ∈ turns place cs k)
    (hcalls : t.calls = false) : t.events = [] := by
  induction cs generalizing place k with
  | nil => cases ht
  | cons c cs ih =>
    rcases List.mem_cons.mp ht with rfl | ht
    · have hmarker : c.phaseMarker = true := by simpa [calls] using hcalls
      rw [turn_of_marker hmarker]
    · exact ih ht

/-- The course of a boot is the same at every minimal importance; only the lines get fewer. -/
theorem boot_takes_its_course (hcs : ∀ c ∈ listed cs, c.Callable) (m : Machine κ) :
    let ts := course (turns 0 (listed cs) m.state)
    (∀ p, runTable p cs m = conclude ts (leave p m ts)) ∧
      (called ts).Pairwise (· < ·) ∧
      ((∀ t ∈ ts, t.calls = true → Event.calledPlaces t.events = [t.place]) →
        ∀ p, Event.calledPlaces (ts.flatMap (told p)) = called ts) ∧
      ∀ p q, p ≤ q → (ts.flatMap (lines q)).Sublist (ts.flatMap (lines p)) := by
  intro ts
  refine ⟨fun p => runTable_eq_course hcs 0 m, pairwise_called 0 _ _, fun hnoted p => ?_,
    fun p q hpq => List.Sublist.flatMap_right ts fun t _ => lines_sublist hpq t⟩
  refine calledPlaces_flatMap_told fun t ht => ?_
  cases hcalls : t.calls with
  | true => exact hnoted t ht hcalls
  | false =>
    rw [events_of_marker ((course_sublist _).mem ht) hcalls]
    rfl

/-- An initializer that counts the calls in the state, notes its place and succeeds in even states. -/
def counting (place : Nat) : Action Nat Bool := fun m =>
  .ok (m.state % 2 = 0) ({ m with state := m.state + 1 }.push [.ran place])

theorem initializes_counting (place : Nat) : Initializes (counting place) := by
  intro k
  refine ⟨k % 2 = 0, k + 1, [.ran place], fun m hm => ?_⟩
  rw [counting, hm]

/-- The fourth of these components is required and fails, so the fifth is not reached. -/
def trial : List (Component Nat) :=
  [⟨some "Phase", none, 4, .critical⟩, ⟨some "First", some (counting 1), 0, .debug⟩,
    ⟨some "Second", some (counting 2), 0, .important⟩, ⟨some "Third", some (counting 3), 1, .debug⟩,
    ⟨some "Fourth", some (counting 4), 1, .critical⟩, ⟨some "Fifth", some (counting 5), 0, .critical⟩,
    .sentinel]

theorem callable_trial : ∀ c ∈ listed trial, c.Callable := by
  have hlisted : listed trial = trial.take 6 := rfl
  rw [hlisted]
  intro c hc hmarker
  simp only [trial, List.take, List.mem_cons, List.not_mem_nil, or_false] at hc
  rcases hc with rfl | rfl | rfl | rfl | rfl | rfl
  · exact absurd hmarker (by decide)
  all_goals exact ⟨_, rfl, initializes_counting _⟩

/-- The fourth component stops the trial at every importance. -/
theorem boot_takes_its_course_of_trial :
    let ts := course (turns 0 (listed trial) 0)
    (∀ p, ∃ t, runTable p trial (starting 0) = .error (.panicked (.requiredComponent (some "Fourth"))) t ∧
        t.state = 4 ∧ Event.calledPlaces t.trace.toList = [1, 2, 3, 4]) ∧
      (ts.flatMap (lines .important)).Sublist (ts.flatMap (lines .debug)) ∧
      (ts.flatMap (lines .important)).length = 4 ∧ (ts.flatMap (lines .debug)).length = 6 := by
  obtain ⟨hrun, -, hcalled, hlines⟩ := boot_takes_its_course callable_trial (starting 0)
  refine ⟨fun p => ⟨_, (hrun p).trans (halt_apply _ _), rfl, ?_⟩, hlines _ _ (by decide), rfl, rfl⟩
  have hnoted := hcalled (by decide) p
  rw [Event.calledPlaces] at hnoted
  simp only [Machine.push, leave, Event.calledPlaces, Array.toList_append, List.filterMap_append, hnoted]
  rfl

end Component

end KernelCore
