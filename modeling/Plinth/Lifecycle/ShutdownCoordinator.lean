import Plinth.Core.Transition

/-!
# The shutdown coordinator

Model of `run_graph`, `quiesce` and `finish_after_drogon` in
`lifecycle/shutdown_coordinator.cpp`. A section under `state_mu`, a step of the graph and the
closing of the log sinks are one step each, and a hook ends well or badly at will, be it by its
answer, by the deadline or by an exception.
-/

namespace Plinth.Lifecycle.ShutdownCoordinator

inductive State where
  | running | quiescing | quiesced | failed | finishing | finished
  deriving DecidableEq

structure ShutdownResult where
  clean : Bool := true
  completedSteps : List String := []
  failedStep : String := ""
  deriving DecidableEq

/-- The steps of `run_graph`, each after those that it depends on. -/
def graph : List String :=
  ["close_ingress", "drain_http_requests", "stop_listeners", "drain_async_tasks",
    "drain_rbac_workers", "drain_extension_dispatches", "drain_js_stress_dispatches",
    "flush_database_state", "close_audit_gate", "stop_drogon"]

def ShutdownResult.runBounded (result : ShutdownResult) (name : String) (ok : Bool) :
    ShutdownResult :=
  if ok then { result with completedSteps := result.completedSteps ++ [name] }
  else { result with clean := false, failedStep := name }

/-- Where a thread is. The flag says that `quiesce` was called by `finish_after_drogon`, which
`resumes` after a clean result. -/
inductive Caller where
  | idle
  | quiesces (inFinish : Bool)
  | runs (inFinish : Bool) (result : ShutdownResult)
  | finishes
  | resumes
  | closes
  | closed (ok : Bool)
  deriving DecidableEq

namespace Caller

def returned (inFinish : Bool) (result : ShutdownResult) : Caller :=
  if inFinish ∧ result.clean then .resumes else .idle

theorem returned_cases (inFinish : Bool) (result : ShutdownResult) :
    returned inFinish result = .idle ∨ returned inFinish result = .resumes ∧ result.clean := by
  unfold returned
  split
  · exact .inr ⟨rfl, by simp_all⟩
  · exact .inl rfl

def Busy : Caller → Prop
  | runs .. | closes | closed _ => True
  | _ => False

end Caller

/-- `cleaned` and `closings` record that a run of the graph was clean and how often the log sinks
were closed. -/
structure Coordinator where
  state : State := .running
  lastResult : ShutdownResult := {}
  callers : Nat → Caller := fun _ => .idle
  cleaned : Bool := false
  closings : Nat := 0

inductive Label where
  | call (who : Nat) (finish : Bool)
  | advance (who : Nat) (ok : Bool)

def Label.who : Label → Nat
  | call who _ | advance who _ => who

namespace Coordinator

def goto (c : Coordinator) (who : Nat) (phase : Caller) : Coordinator :=
  { c with callers := Function.update c.callers who phase }

def quiesce (c : Coordinator) (who : Nat) (inFinish : Bool) : Option Coordinator :=
  match c.state with
  | .quiescing | .finishing => none
  | .quiesced | .finished => some (c.goto who (.returned inFinish c.lastResult))
  | .running | .failed => some ({ c with state := .quiescing }.goto who (.runs inFinish {}))

def runGraph (c : Coordinator) (who : Nat) (inFinish : Bool) (result : ShutdownResult)
    (ok : Bool) : Coordinator :=
  match result.clean, graph[result.completedSteps.length]? with
  | true, some name => c.goto who (.runs inFinish (result.runBounded name ok))
  | _, _ =>
    { c with
      lastResult := result
      state := if result.clean then .quiesced else .failed
      cleaned := c.cleaned || result.clean }.goto who (.returned inFinish result)

def finishAfterDrogon (c : Coordinator) (who : Nat) : Option Coordinator :=
  match c.state with
  | .quiescing | .finishing => none
  | .finished => some (c.goto who .idle)
  | .quiesced => some ({ c with state := .finishing }.goto who .closes)
  | .running | .failed => some (c.goto who (.quiesces true))

/-- After its own `quiesce` the caller does not look at the state again. -/
def advance (c : Coordinator) (who : Nat) (ok : Bool) : Option Coordinator :=
  match c.callers who with
  | .idle => none
  | .quiesces inFinish => c.quiesce who inFinish
  | .runs inFinish result => some (c.runGraph who inFinish result ok)
  | .finishes => c.finishAfterDrogon who
  | .resumes => some ({ c with state := .finishing }.goto who .closes)
  | .closes =>
    some ({ c with closings := c.closings + if ok then 1 else 0 }.goto who (.closed ok))
  | .closed ok => some ({ c with state := if ok then .finished else .quiesced }.goto who .idle)

def exec (c : Coordinator) : Label → Option Coordinator
  | .call who finish =>
    if c.callers who = .idle then
      some (c.goto who (if finish then .finishes else .quiesces false))
    else none
  | .advance who ok => c.advance who ok

/-- A caller back from its own `quiesce` finds the state that `quiesce` left. -/
def Rechecked (c : Coordinator) (label : Label) : Prop :=
  c.callers label.who = .resumes → c.state = .quiesced

end Coordinator

def system (allowed : Coordinator → Label → Prop) : Core.TransitionSystem Coordinator Label where
  initial c := c = {}
  step c label next := allowed c label ∧ c.exec label = some next

def Caller.Fits (c : Coordinator) : Caller → Prop
  | .runs _ result => c.state = .quiescing ∧ result.completedSteps <+: graph
  | .resumes => c.cleaned
  | .closes => c.state = .finishing ∧ c.closings = 0
  | .closed ok => c.state = .finishing ∧ (ok = false → c.closings = 0)
  | _ => True

def State.settled : State → Bool
  | .quiesced | .finishing | .finished => true
  | _ => false

namespace Coordinator

variable {c d : Coordinator} {label : Label} {who : Nat} {phase : Caller}

structure Orderly (c : Coordinator) : Prop where
  fits : ∀ who, (c.callers who).Fits c
  alone : ∀ first second, (c.callers first).Busy → (c.callers second).Busy → first = second
  settled : c.cleaned = c.state.settled
  complete : c.cleaned → c.lastResult.completedSteps = graph
  closed : 0 < c.closings → c.state = .finishing ∨ c.state = .finished
  once : c.closings ≤ 1

/-- Callers are busy only while the coordinator quiesces or finishes. -/
theorem Orderly.busy (orderly : c.Orderly) (busy : (c.callers who).Busy) :
    c.state = .quiescing ∨ c.state = .finishing := by
  have fits := orderly.fits who
  cases place : c.callers who with
  | runs | closes | closed => simp_all [Caller.Fits]
  | _ => simp [place, Caller.Busy] at busy

theorem Orderly.goto (orderly : c.Orderly) (same : d.callers = c.callers)
    (grows : c.cleaned → d.cleaned)
    (free : (d.state = c.state ∧ d.closings = c.closings ∧ ¬ phase.Busy) ∨
      (c.state ≠ .quiescing ∧ c.state ≠ .finishing) ∨ (c.callers who).Busy)
    (mine : phase.Fits d) (settled : d.cleaned = d.state.settled)
    (complete : d.cleaned → d.lastResult.completedSteps = graph)
    (closed : 0 < d.closings → d.state = .finishing ∨ d.state = .finished)
    (once : d.closings ≤ 1) : (d.goto who phase).Orderly := by
  have busy := @orderly.busy
  have alone := orderly.alone
  refine ⟨?_, ?_, settled, complete, closed, once⟩
  · refine (Function.forall_update_iff d.callers fun _ caller => caller.Fits _).mpr
      ⟨by cases phase <;> exact mine, fun other ne => ?_⟩
    have stays : (c.callers other).Busy → d.state = c.state ∧ d.closings = c.closings := by grind
    have fits := orderly.fits other
    rw [same]
    cases place : c.callers other with
    | runs | closes | closed =>
      rcases stays (place ▸ trivial) with ⟨sameState, sameCount⟩
      simpa only [place, Caller.Fits, Coordinator.goto, sameState, sameCount] using fits
    | resumes => exact grows (place ▸ fits :)
    | _ => trivial
  · intro first second
    simp only [Coordinator.goto, same, Function.update_apply]
    grind

theorem Orderly.move (orderly : c.Orderly) (mine : phase.Fits c) (idle : ¬ phase.Busy) :
    (c.goto who phase).Orderly :=
  orderly.goto rfl id (.inl ⟨rfl, rfl, idle⟩) mine orderly.settled orderly.complete orderly.closed
    orderly.once

theorem Orderly.runGraph {inFinish : Bool} {result : ShutdownResult} (orderly : c.Orderly)
    (place : c.callers who = .runs inFinish result) (ok : Bool) :
    (c.runGraph who inFinish result ok).Orderly := by
  have fits := orderly.fits who
  simp only [place, Caller.Fits] at fits
  rcases fits with ⟨state, fits⟩
  have busy : Caller.Busy (c.callers who) := by
    rw [place]
    trivial
  have unclean : c.cleaned = false := by
    rw [orderly.settled, state]
    rfl
  unfold Coordinator.runGraph
  split
  · rename_i name clean next
    refine orderly.goto rfl id (.inr (.inr busy)) ⟨state, ?_⟩ orderly.settled orderly.complete
      orderly.closed orderly.once
    cases ok with
    | false => exact fits
    | true =>
      rw [List.prefix_iff_eq_take] at fits
      have done := List.take_add_one (l := graph) (i := result.completedSteps.length)
      rw [← fits, next] at done
      exact (done ▸ List.take_prefix _ graph :)
  · rename_i last
    have complete : result.clean → result.completedSteps = graph := by
      intro clean
      refine fits.eq_of_length_le ?_
      by_contra short
      exact last _ clean (List.getElem?_eq_getElem (Nat.lt_of_not_le short))
    have none : c.closings = 0 := by
      have closed := orderly.closed
      simp only [state] at closed
      simpa using closed
    have grows : (c.cleaned || result.clean) = result.clean := by simp [unclean]
    simp only [grows]
    refine orderly.goto rfl (by simp [unclean]) (.inr (.inr busy)) ?_ ?_ complete ?_ ?_
    · rcases Caller.returned_cases inFinish result with idle | ⟨resumes, clean⟩ <;>
        simp [*, Caller.Fits]
    · cases result.clean <;> rfl
    · simp [none]
    · simp [none]

theorem Orderly.closes (orderly : c.Orderly) (state : c.state = .quiesced) :
    ({ c with state := .finishing }.goto who .closes).Orderly := by
  have settled := orderly.settled
  have closed := orderly.closed
  simp only [state] at settled closed
  refine orderly.goto rfl id (.inr (.inl ?_)) ⟨rfl, ?_⟩ settled orderly.complete ?_ orderly.once
  · simp [state]
  · simpa using closed
  · simp

/-- Every rechecked step is orderly. -/
theorem Orderly.step (orderly : c.Orderly) (rechecked : c.Rechecked label)
    (step : c.exec label = some d) : d.Orderly ∧ (c.state = .finished → d.state = .finished) := by
  cases label with
  | call who finish =>
    rcases Core.of_guard step with ⟨-, rfl⟩
    refine ⟨?_, id⟩
    cases finish <;> exact orderly.move trivial id
  | advance who ok =>
    have fits := orderly.fits who
    have settled := orderly.settled
    have closed := orderly.closed
    simp only [exec, advance] at step
    cases place : c.callers who with
    | idle => simp [place] at step
    | runs inFinish result =>
      simp only [place, Caller.Fits] at step fits
      cases step
      exact ⟨orderly.runGraph place ok, by simp [fits]⟩
    | quiesces inFinish =>
      simp only [place, quiesce] at step
      cases onState : c.state with
      | quiescing | finishing => simp [onState] at step
      | quiesced | finished =>
        simp only [onState] at step settled
        cases step
        refine ⟨?_, onState.trans⟩
        rcases Caller.returned_cases inFinish c.lastResult with idle | ⟨resumes, -⟩
        · exact idle ▸ orderly.move trivial id
        · exact resumes ▸ orderly.move settled id
      | running | failed =>
        simp only [onState] at step settled closed
        cases step
        refine ⟨orderly.goto rfl id (.inr (.inl ?_)) ⟨rfl, List.nil_prefix⟩ settled
          orderly.complete ?_ orderly.once, nofun⟩
        · simp [onState]
        · simpa using closed
    | finishes =>
      simp only [place, finishAfterDrogon] at step
      cases onState : c.state with
      | quiescing | finishing => simp [onState] at step
      | finished | running | failed =>
        simp only [onState] at step
        cases step
        exact ⟨orderly.move trivial id, onState.trans⟩
      | quiesced =>
        simp only [onState] at step
        cases step
        exact ⟨orderly.closes onState, nofun⟩
    | resumes =>
      simp only [place] at step
      cases step
      exact ⟨orderly.closes (rechecked place), by simp [rechecked place]⟩
    | closes =>
      simp only [place, Caller.Fits] at step fits
      cases step
      refine ⟨orderly.goto rfl id (.inr (.inr (place ▸ trivial))) ⟨fits.1, ?_⟩ settled
        orderly.complete (fun _ => .inl fits.1) ?_, by simp [fits]⟩
      · grind
      · grind
    | closed ok =>
      simp only [place, Caller.Fits] at step fits
      cases step
      refine ⟨orderly.goto rfl id (.inr (.inr (place ▸ trivial))) trivial ?_ orderly.complete ?_
        orderly.once, by simp [fits]⟩
      · grind [State.settled]
      · grind

instance : Decidable (c.Rechecked label) := inferInstanceAs (Decidable (_ → _))

end Coordinator

/-- If a caller back from its own `quiesce` always finds the state that `quiesce` left, then the
steps of the graph run in order, by one caller and not after a clean run, the log sinks are closed
at most once and after a clean run, and `FINISHED` is final. -/
theorem finishAfterDrogon_once {c : Coordinator}
    (reached : (system Coordinator.Rechecked).Reachable c) :
    (∀ who inFinish result, c.callers who = .runs inFinish result →
      result.completedSteps <+: graph ∧ c.cleaned = false ∧
        ∀ other, (c.callers other).Busy → other = who) ∧
    (∀ who ok, c.callers who = .closes ∨ c.callers who = .closed ok ∨ 0 < c.closings →
      c.cleaned ∧ c.lastResult.completedSteps = graph) ∧
    c.closings ≤ 1 ∧
    ∀ labels later, (system Coordinator.Rechecked).Run c labels later →
      c.state = .finished → later.state = .finished := by
  have orderly : c.Orderly := by
    refine reached.invariant Coordinator.Orderly ?_ ?_
    · rintro _ rfl
      exact ⟨fun _ => trivial, nofun, rfl, nofun, nofun, Nat.zero_le _⟩
    · rintro c label d orderly ⟨rechecked, step⟩
      exact (orderly.step rechecked step).1
  have settled := orderly.settled
  refine ⟨?_, ?_, orderly.once, ?_⟩
  · intro who inFinish result place
    have fits := orderly.fits who
    simp only [place, Caller.Fits] at fits
    exact ⟨fits.2, by rw [settled, fits.1]; rfl, fun other busy =>
      orderly.alone other who busy (place ▸ trivial)⟩
  · intro who ok closing
    have fits := orderly.fits who
    have cleaned : c.cleaned := by
      have closed := orderly.closed
      grind [State.settled, Caller.Fits]
    exact ⟨cleaned, orderly.complete cleaned⟩
  · intro labels later run finished
    refine (run.preserves (fun c => c.Orderly ∧ c.state = .finished) ?_ ⟨orderly, finished⟩).2
    rintro c label d ⟨orderly, finished⟩ ⟨rechecked, step⟩
    exact (orderly.step rechecked step).imp_right (· finished)

theorem finishAfterDrogon_once_single :
    ∃ c, (system Coordinator.Rechecked).Reachable c ∧ c.state = .finished ∧ c.closings ≤ 1 := by
  have played : Core.TransitionSystem.replay (fun (c : Coordinator) label =>
      if c.Rechecked label then c.exec label else none) {}
      (.call 0 true :: List.replicate 16 (.advance 0 true)) = some _ := rfl
  have reached : (system Coordinator.Rechecked).Reachable _ :=
    ⟨{}, _, rfl, .of_replay Option.ite_none_right_eq_some.mp played⟩
  exact ⟨_, reached, rfl, (finishAfterDrogon_once reached).2.2.1⟩

/-- Two threads come to finish while the process runs. -/
theorem finishAfterDrogon_twice :
    ∃ c labels later, (system fun _ _ => True).Reachable c ∧ c.state = .finished ∧
      (system fun _ _ => True).Run c labels later ∧ later.state = .finishing ∧
      later.closings = 2 :=
  ⟨_, List.replicate 2 (.advance 1 true), _,
    ⟨{}, [.call 0 true, .call 1 true, .advance 0 true, .advance 1 true] ++
      List.replicate 12 (.advance 0 true) ++ .advance 1 true :: List.replicate 3 (.advance 0 true),
      rfl, .of_replay (fun step => ⟨trivial, step⟩) rfl⟩,
    rfl, .of_replay (fun step => ⟨trivial, step⟩) rfl, rfl, rfl⟩

end Plinth.Lifecycle.ShutdownCoordinator
