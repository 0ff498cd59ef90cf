import Plinth.Core.Transition

/-!
# The registry of asynchronous tasks

`lifecycle/async_task_registry.cpp`: leases count the accepted executions, and a cleanup owner
that could not finish stays on an intrusive list until a drain retries it with success. A step
is one critical section, so steps of other threads stand between any two sections of a drain,
also while the cleanup of an owner runs. What the clock says is part of a label. The revisions of
owners and the epoch of the cleanups are `uint64_t` in the source and natural numbers here, so that
the model leaves out a registry which has counted up to 2^64 of them.
-/

namespace Plinth.Lifecycle.AsyncTaskRegistry

open List Core
open Function (update update_apply)

/-- Where the drain that holds `retry_mutex` stands, with its local variables. -/
inductive Phase (Owner : Type) where
  | unlocked
  | entered
  | observed (before : ℕ)
  | passing (before : ℕ) (rest : List Owner) (progressed : Bool)
  | retrying (before : ℕ) (rest : List Owner) (progressed : Bool) (owner : Owner) (revision : ℕ)
  | parked (epoch : ℕ) (inTime : Bool)

structure State (Owner : Type) where
  accepting : Bool
  active : ℕ
  cleanupCount : ℕ
  cleanupEpoch : ℕ
  -- the intrusive list from `cleanup_head` on
  cleanups : List Owner
  revision : Owner → ℕ
  registered : Owner → Bool
  phase : Phase Owner

inductive Label (Owner : Type) where
  | tryAcquire | releaseLease | closeAdmission
  | retainCleanup (owner : Owner) | notifyCleanupProgress
  | lock | observe | detach
  | take (owner : Owner) | finish (owner : Owner) (completed : Bool)
  | check (inTime : Bool) | wake

variable {Owner : Type} [DecidableEq Owner] {state after : State Owner} {label : Label Owner}
  {owner : Owner}

namespace State

def retainCleanup (state : State Owner) (owner : Owner) : State Owner :=
  let raised : State Owner := { state with
    revision := update state.revision owner (state.revision owner + 1)
    cleanupEpoch := state.cleanupEpoch + 1 }
  if state.registered owner then raised
  else { raised with
    registered := update state.registered owner true
    cleanups := owner :: state.cleanups
    cleanupCount := state.cleanupCount + 1 }

/-- The condition under which `drain` returns true. -/
def drained (state : State Owner) : Bool :=
  state.active = 0 ∧ state.cleanupCount = 0

def exec (state : State Owner) (label : Label Owner) : Option (State Owner) :=
  match label, state.phase with
  | .tryAcquire, _ =>
    some (if state.accepting then { state with active := state.active + 1 } else state)
  | .releaseLease, _ =>
    if 0 < state.active then some { state with active := state.active - 1 } else none
  | .closeAdmission, _ => some { state with accepting := false }
  | .retainCleanup owner, _ => some (state.retainCleanup owner)
  | .notifyCleanupProgress, _ => some { state with cleanupEpoch := state.cleanupEpoch + 1 }
  | .lock, .unlocked => some { state with phase := .entered }
  | .observe, .entered => some { state with phase := .observed state.cleanupEpoch }
  | .detach, .observed before =>
    some { state with cleanups := [], phase := .passing before state.cleanups false }
  | .take owner, .passing before (first :: rest) progressed =>
    if first = owner then
      some { state with phase := .retrying before rest progressed owner (state.revision owner) }
    else none
  | .finish owner completed, .retrying before rest progressed current revision =>
    if current = owner then
      some (if completed ∧ revision = state.revision owner then
        { state with
          registered := update state.registered owner false
          cleanupCount := state.cleanupCount - 1
          phase := .passing before rest true }
        else { state with
          cleanups := owner :: state.cleanups
          phase := .passing before rest progressed })
    else none
  | .check inTime, .passing before [] progressed =>
    if state.drained then some { state with phase := .unlocked }
    else if (progressed ∨ state.cleanupEpoch ≠ before) ∧ inTime then
      some { state with phase := .entered }
    else some { state with phase := .parked state.cleanupEpoch inTime }
  -- where its predicate does not hold, the deadline has ended the wait
  | .wake, .parked epoch _ =>
    some { state with
      phase := if state.drained ∨ state.cleanupEpoch ≠ epoch then .entered else .unlocked }
  | _, _ => none

end State

def idle : State Owner := ⟨true, 0, 0, 0, [], fun _ => 0, fun _ => false, .unlocked⟩

def system (Owner : Type) [DecidableEq Owner] : TransitionSystem (State Owner) (Label Owner) where
  initial state := state = idle
  step state label after := state.exec label = some after

namespace Phase

def attempt : Phase Owner → Option (Owner × ℕ)
  | .retrying _ _ _ owner revision => some (owner, revision)
  | _ => none

/-- The owners that the drain has taken. -/
def held : Phase Owner → List Owner
  | .passing _ rest _ => rest
  | .retrying _ rest _ owner _ => owner :: rest
  | _ => []

/-- The epoch that the drain read before its pass, as long as it has time left. -/
def mark : Phase Owner → Option ℕ
  | .observed before | .passing before _ _ | .retrying before .. => some before
  | .parked epoch inTime => if inTime then some epoch else none
  | _ => none

end Phase

def Label.signals : Label Owner → Bool
  | .retainCleanup _ | .notifyCleanupProgress => true
  | _ => false

attribute [grind] State.drained Phase.attempt Phase.held Phase.mark Label.signals

/-- The registered owners are those on the shared list and with the drain, once each, and they are
counted. -/
structure Kept (state : State Owner) : Prop where
  once : (state.phase.held ++ state.cleanups).Nodup
  registered : ∀ owner, state.registered owner = true ↔ owner ∈ state.phase.held ++ state.cleanups
  counted : state.cleanupCount = (state.phase.held ++ state.cleanups).length
  read : ∀ owner revision, state.phase.attempt = some (owner, revision) →
    revision ≤ state.revision owner

theorem kept_idle : Kept (idle : State Owner) :=
  ⟨nodup_nil, by simp [idle, Phase.held], rfl, by simp [idle, Phase.attempt]⟩

/-- Every step keeps the registered owners. -/
theorem Kept.exec (kept : Kept state) (step : state.exec label = some after) : Kept after := by
  rcases kept with ⟨once, registered, counted, read⟩
  unfold State.exec State.retainCleanup at step
  repeat' split at step
  all_goals cases step
  all_goals constructor <;> grind [update_apply]

/-- What a step may change for an owner and for the epoch. -/
theorem exec_effect (step : state.exec label = some after) :
    (∀ owner, (state.registered owner → after.registered owner ∨
        state.phase.attempt = some (owner, state.revision owner) ∧ label = .finish owner true) ∧
      state.revision owner ≤ after.revision owner ∧
      ∀ revision, after.phase.attempt = some (owner, revision) →
        state.phase.attempt = some (owner, revision) ∨ label = .take owner) ∧
    state.cleanupEpoch ≤ after.cleanupEpoch ∧
    (label.signals → state.cleanupEpoch < after.cleanupEpoch) ∧
    ∀ before, after.phase.mark = some before →
      state.phase.mark = some before ∨ label = .observe ∧ before = after.cleanupEpoch := by
  unfold State.exec State.retainCleanup at step
  repeat' split at step
  all_goals cases step
  all_goals grind [update_apply]

variable {labels first second : List (Label Owner)}

/-- In every interleaving, a registered owner stands in one place, from which this pass or the next
one retries it, and a drain that returns true leaves nothing behind. -/
theorem registered_kept_once (run : (system Owner).Run idle labels state) :
    Kept state ∧ ∀ inTime, ∀ after ∈ state.exec (.check inTime), after.phase = .unlocked →
      after.active = 0 ∧ after.cleanups = [] ∧ ∀ owner, after.registered owner = false := by
  have kept : Kept state := run.preserves Kept Kept.exec kept_idle
  refine ⟨kept, ?_⟩
  intro inTime after step returned
  rcases kept.exec step with ⟨-, registered, counted, -⟩
  have drained : after.drained := by
    simp only [State.exec, Option.mem_def] at step
    grind
  have empty : after.cleanups = [] := by grind
  exact ⟨by grind, empty, by grind⟩

def begun : List (Label ℕ) := [.retainCleanup 0, .lock, .observe, .detach, .take 0]

theorem registered_kept_once_begun : ∃ state, (system ℕ).Run idle begun state ∧ Kept state := by
  have run : (system ℕ).Run idle begun _ := .of_replay id rfl
  exact ⟨_, run, (registered_kept_once run).1⟩

/-- A retained owner is dropped only by an attempt that began after its retention. -/
theorem retained_until_retried
    (run : (system Owner).Run idle (first ++ .retainCleanup owner :: second) state) :
    state.registered owner = true ∨ [.take owner, .finish owner true].Sublist second := by
  rcases run.split with ⟨before, after, earlier, retained, later⟩
  refine (later.history (fun labels state =>
    (state.registered owner = true ∨ [.take owner, .finish owner true].Sublist labels) ∧
      ∀ revision, state.phase.attempt = some (owner, revision) →
        revision < state.revision owner ∨ .take owner ∈ labels) ?_ ?_).1
  · rintro labels state label after ⟨kept, current⟩ step
    rcases (exec_effect step).1 owner with ⟨leaves, grows, attempt⟩
    refine ⟨?_, by grind⟩
    rcases kept with registered | done
    · refine (leaves registered).imp_right ?_
      rintro ⟨attempted, rfl⟩
      have taken : .take owner ∈ labels := (current _ attempted).resolve_left (lt_irrefl _)
      exact (singleton_sublist.mpr taken).append (Sublist.refl [_])
    · exact .inr (done.trans (sublist_append_left ..))
  · cases retained
    have read := (earlier.preserves Kept Kept.exec kept_idle).read owner
    unfold State.retainCleanup
    split <;> simp_all

theorem retained_until_retried_begun : ∃ state : State ℕ,
    state.registered 0 = true ∨ [.take 0, .finish 0 true].Sublist [Label.finish 0 true] := by
  have run : (system ℕ).Run idle (begun ++ .retainCleanup 0 :: [.finish 0 true]) _ :=
    .of_replay id rfl
  exact ⟨_, retained_until_retried run⟩

/-- No signal came since the drain read the epoch for its pass. -/
def QuietPass (labels : List (Label Owner)) : Prop :=
  ∃ first last, labels = first ++ .observe :: last ∧ ∀ label ∈ last, label.signals = false

/-- A drain that sleeps with time left misses no signal: the epoch wakes it, or the last signal
came before the pass that it made. -/
theorem parked_unsignalled {epoch : ℕ} (run : (system Owner).Run idle labels state)
    (parked : state.phase = .parked epoch true) :
    state.cleanupEpoch ≠ epoch ∨ QuietPass labels := by
  have seen := run.history (fun labels state => ∀ before, state.phase.mark = some before →
      before < state.cleanupEpoch ∨ before = state.cleanupEpoch ∧ QuietPass labels)
    ?_ (by simp [idle, Phase.mark]) epoch (by simp [parked, Phase.mark])
  · exact seen.imp ne_of_gt And.right
  intro labels state label after holds step before marked
  rcases (exec_effect step).2 with ⟨grows, signalled, mark⟩
  rcases mark before marked with earlier | ⟨rfl, rfl⟩
  · rcases holds before earlier with past | ⟨rfl, first, last, rfl, quiet⟩
    · exact .inl (past.trans_le grows)
    · refine grows.lt_or_eq.imp_right ?_
      intro same
      exact ⟨same, first, last ++ [label], by simp, by grind⟩
  · exact .inr ⟨rfl, labels, [], rfl, by simp⟩

def asleep : List (Label ℕ) := [.tryAcquire, .lock, .observe, .detach, .check true]

theorem parked_unsignalled_asleep : ∃ state : State ℕ, state.phase = .parked 0 true ∧
    (state.cleanupEpoch ≠ 0 ∨ QuietPass asleep) := by
  have run : (system ℕ).Run idle asleep _ := .of_replay id rfl
  exact ⟨_, rfl, parked_unsignalled run rfl⟩

end Plinth.Lifecycle.AsyncTaskRegistry
