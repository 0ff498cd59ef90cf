import Mathlib

/-!
# Labelled transition systems

Finite runs of a labelled transition system and the two induction rules that the
concurrent components are verified with: an invariant of the reachable states, and an
invariant that also relates a state to the labels of the run that led to it.
-/

namespace Plinth.Core

open List

universe u v

section Guard

variable {Value : Type u} {guard : Prop} [Decidable guard] {value result : Value}

theorem of_guard (passed : (if guard then some value else none) = some result) :
    guard ∧ value = result := by
  simpa using passed

theorem of_guard_not (passed : (if guard then none else some value) = some result) :
    ¬ guard ∧ value = result := by
  simpa using passed

end Guard

structure TransitionSystem (State : Type u) (Label : Type v) where
  initial : State → Prop
  step : State → Label → State → Prop

namespace TransitionSystem

variable {State : Type u} {Label : Type v} (sys : TransitionSystem State Label)

/-- A finite run, with the labels of its steps in the order in which they were taken. -/
inductive Run : State → List Label → State → Prop where
  | refl (start : State) : Run start [] start
  | step {start middle finish : State} {labels : List Label} {label : Label}
      (run : Run start labels middle) (last : sys.step middle label finish) :
      Run start (labels ++ [label]) finish

def Reachable (state : State) : Prop :=
  ∃ start labels, sys.initial start ∧ sys.Run start labels state

variable {sys} {start finish : State} {labels : List Label} {first second : List Label}

/-- Runs compose. -/
theorem Run.trans {middle : State}
    (before : sys.Run start first middle) (after : sys.Run middle second finish) :
    sys.Run start (first ++ second) finish := by
  induction after with
  | refl => simpa using before
  | step _ last ih =>
    rw [← append_assoc]
    exact .step ih last

theorem Run.single {label : Label} (step : sys.step start label finish) :
    sys.Run start [label] finish :=
  .step (.refl start) step

theorem Run.head {middle : State} {label : Label} (first : sys.step start label middle)
    (rest : sys.Run middle labels finish) : sys.Run start (label :: labels) finish :=
  (Run.single first).trans rest

def replay (exec : State → Label → Option State) : State → List Label → Option State
  | state, [] => some state
  | state, label :: labels => (exec state label).bind fun next => replay exec next labels

/-- What an executable step function plays is a run. -/
theorem Run.of_replay {exec : State → Label → Option State}
    (sound : ∀ {state label next}, exec state label = some next → sys.step state label next)
    (played : replay exec start labels = some finish) : sys.Run start labels finish := by
  induction labels generalizing start with
  | nil =>
    cases played
    exact .refl _
  | cons label labels ih =>
    rcases Option.bind_eq_some_iff.mp played with ⟨next, first, rest⟩
    exact .head (sound first) (ih rest)

/-- An invariant of every step is one of every run. -/
theorem Run.preserves (Invariant : State → Prop)
    (preserved : ∀ {state label next}, Invariant state → sys.step state label next → Invariant next)
    (run : sys.Run start labels finish) (holds : Invariant start) : Invariant finish := by
  induction run with
  | refl => exact holds
  | step _ last ih => exact preserved ih last

/-- An invariant of the allowed steps holds along a run of such steps. -/
theorem Run.preserves_of_labels (Invariant : State → Prop) {Allowed : Label → Prop}
    (preserved : ∀ {state label next}, Allowed label → Invariant state →
      sys.step state label next → Invariant next)
    (run : sys.Run start labels finish) (allowed : ∀ label ∈ labels, Allowed label)
    (holds : Invariant start) : Invariant finish := by
  induction run with
  | refl => exact holds
  | step _ last ih =>
    have previous := ih fun label mem => allowed label (by simp [mem])
    exact preserved (allowed _ (by simp)) previous last

/-- A simulation maps runs to runs. -/
theorem Run.map {Image : Type*} {image : TransitionSystem Image Label} (f : State → Image)
    (simulates : ∀ {state label next}, sys.step state label next →
      image.step (f state) label (f next))
    (run : sys.Run start labels finish) : image.Run (f start) labels (f finish) := by
  induction run with
  | refl => exact .refl _
  | step _ last ih => exact .step ih (simulates last)

/-- A relation between the labels taken so far and the state, kept by every step, relates
every run's labels to its final state. -/
theorem Run.history (History : List Label → State → Prop)
    (preserved : ∀ {labels state label next}, History labels state →
      sys.step state label next → History (labels ++ [label]) next)
    (run : sys.Run start labels finish) (holds : History [] start) : History labels finish := by
  induction run with
  | refl => exact holds
  | step _ last ih => exact preserved ih last

/-- A run is a first part, a single step and a second part at each of its labels. -/
theorem Run.split {label : Label} (run : sys.Run start (first ++ label :: second) finish) :
    ∃ before after, sys.Run start first before ∧ sys.step before label after ∧
      sys.Run after second finish := by
  generalize hlabels : first ++ label :: second = labels at run
  induction run generalizing second with
  | refl => simp at hlabels
  | @step middle end' taken last run' final ih =>
    rcases eq_nil_or_concat second with rfl | ⟨init, final', rfl⟩
    · have same := append_inj' hlabels rfl
      rcases same with ⟨rfl, lastEq⟩
      obtain rfl : label = last := by simpa using lastEq
      exact ⟨_, _, run', final, .refl _⟩
    · rw [concat_eq_append] at hlabels ⊢
      rw [← cons_append, ← append_assoc] at hlabels
      rcases append_inj' hlabels rfl with ⟨initEq, lastEq⟩
      obtain rfl : final' = last := by simpa using lastEq
      rcases ih initEq with ⟨before, after, hbefore, hstep, hafter⟩
      exact ⟨before, after, hbefore, hstep, .step hafter final⟩

/-- The invariant rule: what holds initially and is kept by every step holds in every
reachable state. -/
theorem Reachable.invariant (Invariant : State → Prop)
    (base : ∀ {state}, sys.initial state → Invariant state)
    (preserved : ∀ {state label next}, Invariant state → sys.step state label next → Invariant next)
    {state : State} (reachable : sys.Reachable state) : Invariant state := by
  rcases reachable with ⟨start, labels, initial, run⟩
  exact run.preserves Invariant preserved (base initial)

/-- A run that is played from a reachable state may use what holds in the states it passes. -/
theorem Reachable.of_replay {exec : State → Label → Option State}
    (sound : ∀ {state label next}, sys.Reachable state → exec state label = some next →
      sys.step state label next)
    (reachable : sys.Reachable start) (played : replay exec start labels = some finish) :
    sys.Reachable finish := by
  induction labels generalizing start with
  | nil =>
    cases played
    exact reachable
  | cons label labels ih =>
    rcases Option.bind_eq_some_iff.mp played with ⟨next, first, rest⟩
    have step := sound reachable first
    rcases reachable with ⟨origin, before, isInitial, run⟩
    exact ih ⟨origin, before ++ [label], isInitial, .step run step⟩ rest

def Visits (sys : TransitionSystem State Label) (start finish middle : State) : Prop :=
  ∃ before after, sys.Run start before middle ∧ sys.Run middle after finish

/-- The rule for an invariant that speaks of the states passed so far, of which there are only
ever more. -/
theorem Run.past (Invariant : (State → Prop) → State → Prop)
    (mono : ∀ {past more : State → Prop} {state}, (∀ middle, past middle → more middle) →
      Invariant past state → Invariant more state)
    (preserved : ∀ {past state label next}, past state → Invariant past state →
      sys.step state label next → Invariant past next)
    (run : sys.Run start labels finish) (holds : Invariant (sys.Visits start start) start) :
    Invariant (sys.Visits start finish) finish := by
  induction run with
  | refl => exact holds
  | step run last ih =>
    have further : ∀ middle, sys.Visits start _ middle → sys.Visits start _ middle :=
      fun _ ⟨before, after, reached, rest⟩ => ⟨before, after ++ [_], reached, .step rest last⟩
    exact mono further (preserved ⟨_, [], run, .refl _⟩ ih last)

end TransitionSystem

end Plinth.Core
