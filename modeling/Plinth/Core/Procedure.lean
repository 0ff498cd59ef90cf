import Plinth.Core.Transition

/-!
# Procedures in a faulty environment

A procedure is a tree of commands and reads. Every command that leaves the process is
answered by the environment: it may take effect, be refused, take effect although its reply
is lost, or never be reached because the process stops. A run is determined by a schedule of
such answers.
-/

namespace Plinth.Core

/-- A sequence of fallible steps succeeds if both steps do. -/
theorem bind_eq_ok {Error Value Other : Type} {first : Except Error Value}
    {rest : Value → Except Error Other} {result : Other} :
    (first >>= rest) = .ok result ↔ ∃ value, first = .ok value ∧ rest value = .ok result := by
  cases first with
  | error | ok => simp [bind, Except.bind]

theorem of_bind_pure {Error Value Other : Type} {first : Except Error Value} {f : Value → Other}
    {result : Other} (ok : (first >>= fun value => pure (f value)) = .ok result) :
    ∃ value, first = .ok value ∧ result = f value := by
  rcases bind_eq_ok.mp ok with ⟨value, isFirst, returned⟩
  exact ⟨value, isFirst, (Except.ok.inj returned).symm⟩

theorem guard_eq_ok {Error Value : Type} {refused : Prop} [Decidable refused] {error : Error}
    {rest : Except Error Value} {result : Value} :
    (if refused then .error error else rest) = .ok result ↔ ¬ refused ∧ rest = .ok result := by
  split <;> simp [*]

/-- How the environment answers one command or read. -/
inductive Answer where
  | proceed
  | refuse (detail : String)
  | loseReply (detail : String)
  | crash
  deriving DecidableEq

@[simp]
def Answer.takesEffect : Answer → Bool
  | proceed | loseReply _ => true
  | refuse _ | crash => false

theorem Answer.takesEffect_proceed : Answer.proceed.takesEffect := rfl

def answerAt (answers : List Answer) (n : Nat) : Answer := (answers.drop n).headD .proceed

theorem headD_eq_answerAt (answers : List Answer) :
    answers.headD .proceed = answerAt answers 0 := rfl

theorem answerAt_tail (answers : List Answer) (n : Nat) :
    answerAt answers.tail n = answerAt answers (n + 1) := by
  simp [answerAt]

inductive Outcome (Error Value : Type) where
  | done (value : Value)
  | failed (error : Error)
  | crashed
  deriving DecidableEq

def Outcome.isDone {Error Value : Type} : Outcome Error Value → Bool
  | .done _ => true
  | .failed _ | .crashed => false

/-- A procedure over commands and states. `perform` and `inspect` stay inside the process and
are not subject to the environment. -/
inductive Procedure (Command State Error Value : Type) where
  | pure (value : Value)
  | fail (error : Error)
  | exec (command : Command) (next : Except String Unit → Procedure Command State Error Value)
  | query (next : Except String State → Procedure Command State Error Value)
  | perform (command : Command) (next : Procedure Command State Error Value)
  | inspect (next : State → Procedure Command State Error Value)

/-- What a run leaves behind: its outcome, the state and the answers that it did not use. -/
structure Result (State Error Value : Type) where
  outcome : Outcome Error Value
  state : State
  answers : List Answer

namespace Result

variable {State Error Fault Value Other : Type} (first : Result State Error Value)

def andThen (rest : Value → List Answer → State → Result State Error Other) :
    Result State Error Other :=
  match first.outcome with
  | .done value => rest value first.answers first.state
  | .failed error => ⟨.failed error, first.state, first.answers⟩
  | .crashed => ⟨.crashed, first.state, first.answers⟩

def orElse (rest : Error → List Answer → State → Result State Fault Value) :
    Result State Fault Value :=
  match first.outcome with
  | .done value => ⟨.done value, first.state, first.answers⟩
  | .failed error => rest error first.answers first.state
  | .crashed => ⟨.crashed, first.state, first.answers⟩

end Result

namespace Procedure

variable {Command State Error Fault Value Other Item : Type}

protected def bind : Procedure Command State Error Value →
    (Value → Procedure Command State Error Other) → Procedure Command State Error Other
  | pure value, continuation => continuation value
  | fail error, _ => fail error
  | exec command next, continuation => exec command fun reply => (next reply).bind continuation
  | query next, continuation => query fun reply => (next reply).bind continuation
  | perform command next, continuation => perform command (next.bind continuation)
  | inspect next, continuation => inspect fun state => (next state).bind continuation

instance : Monad (Procedure Command State Error) where
  pure := Procedure.pure
  bind := Procedure.bind

protected theorem bind_pure (procedure : Procedure Command State Error Value) :
    procedure.bind pure = procedure := by
  induction procedure with
  | pure | fail => rfl
  | exec _ _ ih | query _ ih | inspect _ ih => exact congrArg _ (funext ih)
  | perform _ _ ih => exact congrArg _ ih

/-- Sequences may be regrouped. -/
protected theorem bind_assoc {Last : Type} (procedure : Procedure Command State Error Value)
    (first : Value → Procedure Command State Error Other)
    (second : Other → Procedure Command State Error Last) :
    (procedure.bind first).bind second = procedure.bind fun value => (first value).bind second := by
  induction procedure with
  | pure | fail => rfl
  | exec _ _ ih | query _ ih | inspect _ ih => exact congrArg _ (funext ih)
  | perform _ _ ih => exact congrArg _ ih

instance : LawfulMonad (Procedure Command State Error) :=
  LawfulMonad.mk' _ Procedure.bind_pure (fun _ _ => rfl) Procedure.bind_assoc

/-- Runs a handler where a procedure fails. A crash is not handled. -/
def handle : Procedure Command State Error Value →
    (Error → Procedure Command State Fault Value) → Procedure Command State Fault Value
  | pure value, _ => pure value
  | fail error, handler => handler error
  | exec command next, handler => exec command fun reply => (next reply).handle handler
  | query next, handler => query fun reply => (next reply).handle handler
  | perform command next, handler => perform command (next.handle handler)
  | inspect next, handler => inspect fun state => (next state).handle handler

/-- One command whose failure stops the procedure. -/
def command (command : Command) (refusal : String → Error) : Procedure Command State Error Unit :=
  exec command fun
    | .ok _ => pure ()
    | .error detail => fail (refusal detail)

/-- One command whose failure is passed over. -/
def tryCommand (command : Command) : Procedure Command State Error Unit :=
  exec command fun _ => pure ()

/-- One command whose reply the procedure looks at. -/
def attempt (command : Command) : Procedure Command State Error (Except String Unit) :=
  exec command pure

/-- One read whose reply the procedure looks at. -/
def probe : Procedure Command State Error (Except String State) := query pure

/-- One read whose failure stops the procedure. -/
def read (refusal : String → Error) : Procedure Command State Error State :=
  query fun
    | .ok state => pure state
    | .error detail => fail (refusal detail)

/-- One command inside the process. -/
def act (command : Command) : Procedure Command State Error Unit := perform command (pure ())

/-- The state, read inside the process. -/
def observe : Procedure Command State Error State := inspect pure

def ofExcept : Except Error Value → Procedure Command State Error Value
  | .ok value => pure value
  | .error error => fail error

def each (body : Item → Procedure Command State Error Unit) :
    List Item → Procedure Command State Error Unit
  | [] => pure ()
  | item :: items => (body item).bind fun _ => each body items

variable (body : Item → Procedure Command State Error Unit)

@[simp]
theorem each_singleton (item : Item) : each body [item] = body item :=
  Procedure.bind_pure (body item)

/-- A loop over two lists is one loop after the other. -/
theorem each_append (first second : List Item) :
    each body (first ++ second) = (each body first >>= fun _ => each body second) := by
  induction first with
  | nil => rfl
  | cons item items ih =>
    change (body item).bind (fun _ => each body (items ++ second)) = _
    rw [ih]
    exact (Procedure.bind_assoc ..).symm

/-- The run of a procedure under a schedule of answers. An exhausted schedule lets every
command proceed. -/
@[grind]
def run (apply : Command → State → Except String State) :
    Procedure Command State Error Value → List Answer → State → Result State Error Value
  | pure value, answers, state => ⟨.done value, state, answers⟩
  | fail error, answers, state => ⟨.failed error, state, answers⟩
  | exec command next, answers, state =>
    match answers.headD .proceed, apply command state with
    | .proceed, .ok after => (next (.ok ())).run apply answers.tail after
    | .proceed, .error detail => (next (.error detail)).run apply answers.tail state
    | .refuse detail, _ => (next (.error detail)).run apply answers.tail state
    | .loseReply detail, .ok after => (next (.error detail)).run apply answers.tail after
    | .loseReply _, .error detail => (next (.error detail)).run apply answers.tail state
    | .crash, _ => ⟨.crashed, state, answers.tail⟩
  | query next, answers, state =>
    match answers.headD .proceed with
    | .proceed => (next (.ok state)).run apply answers.tail state
    | .refuse detail => (next (.error detail)).run apply answers.tail state
    | .loseReply detail => (next (.error detail)).run apply answers.tail state
    | .crash => ⟨.crashed, state, answers.tail⟩
  | perform command next, answers, state =>
    match apply command state with
    | .ok after => next.run apply answers after
    | .error _ => next.run apply answers state
  | inspect next, answers, state => (next state).run apply answers state

section

variable (apply : Command → State → Except String State)
  (procedure : Procedure Command State Error Value)
include apply procedure

/-- The run of a sequence is the run of its rest from where the first part ended. -/
theorem run_bind
    (continuation : Value → Procedure Command State Error Other) (answers : List Answer)
    (state : State) :
    (procedure >>= continuation).run apply answers state =
      (procedure.run apply answers state).andThen fun value => (continuation value).run apply := by
  change (procedure.bind continuation).run apply answers state = _
  induction procedure generalizing answers state with
  | pure | fail => rfl
  | exec _ _ ih | perform _ _ ih | query _ ih =>
    simp only [Procedure.bind, run, ih]
    split <;> rfl
  | inspect next ih => exact ih state answers state

/-- The run of a handled procedure, which goes on with the handler after a failure. -/
theorem run_handle (handler : Error → Procedure Command State Fault Value) (answers : List Answer)
    (state : State) :
    (procedure.handle handler).run apply answers state =
      (procedure.run apply answers state).orElse fun error => (handler error).run apply := by
  induction procedure generalizing answers state with
  | pure | fail => rfl
  | exec _ _ ih | perform _ _ ih | query _ ih =>
    simp only [handle, run, ih]
    split <;> rfl
  | inspect next ih => exact ih state answers state

end

section State

variable {apply : Command → State → Except String State} {answers : List Answer}
  {state after : State} {command : Command} {refusal : String → Error}
  {continuation : Unit → Procedure Command State Error Value}

theorem state_read_bind (refusal : String → Error)
    (continuation : State → Procedure Command State Error Value) :
    ((read refusal >>= continuation).run apply answers state).state =
      if answers.headD .proceed = .proceed then
        ((continuation state).run apply answers.tail state).state
      else state := by
  rw [run_bind]
  cases answer : answers.headD .proceed <;>
    simp [-List.headD_eq_head?_getD, read, run, answer, Result.andThen]

theorem state_command_bind_error {detail : String}
    (rejected : apply command state = .error detail) :
    ((Procedure.command command refusal >>= continuation).run apply answers state).state =
      state := by
  rw [run_bind]
  cases answer : answers.headD .proceed <;>
    simp [-List.headD_eq_head?_getD, Procedure.command, run, answer, rejected, Result.andThen]

section

variable (applied : apply command state = .ok after)
include applied

/-- The state after a command that would be applied and what follows it. -/
theorem state_command_bind :
    ((Procedure.command command refusal >>= continuation).run apply answers state).state =
      if answers.headD .proceed = .proceed then
        ((continuation ()).run apply answers.tail after).state
      else if (answers.headD .proceed).takesEffect then after else state := by
  rw [run_bind]
  cases answer : answers.headD .proceed <;>
    simp [-List.headD_eq_head?_getD, Procedure.command, run, answer, applied, Result.andThen]

theorem state_command :
    ((Procedure.command command refusal).run apply answers state).state =
      if (answers.headD .proceed).takesEffect then after else state := by
  cases answer : answers.headD .proceed <;>
    simp [-List.headD_eq_head?_getD, Procedure.command, run, answer, applied]

/-- The same for a command whose failure is passed over. -/
theorem state_tryCommand_bind :
    ((tryCommand command >>= continuation).run apply answers state).state =
      if answers.headD .proceed = .crash then state
      else if (answers.headD .proceed).takesEffect then
        ((continuation ()).run apply answers.tail after).state
      else ((continuation ()).run apply answers.tail state).state := by
  rw [run_bind]
  cases answer : answers.headD .proceed <;>
    simp [-List.headD_eq_head?_getD, tryCommand, run, answer, applied, Result.andThen]

theorem state_act_bind :
    ((act command >>= continuation).run apply answers state).state =
      ((continuation ()).run apply answers after).state := by
  rw [run_bind]
  simp [act, run, applied, Result.andThen]

end

end State

/-- The reply that a procedure sees to a command, and the state that it finds then. -/
inductive Reply (apply : Command → State → Except String State) (command : Command)
    (state : State) : Except String Unit → State → Prop where
  | taken {after : State} (applied : apply command state = .ok after) :
      Reply apply command state (.ok ()) after
  | lost {after : State} {detail : String} (applied : apply command state = .ok after) :
      Reply apply command state (.error detail) after
  | failed {detail : String} : Reply apply command state (.error detail) state

/-- Every command of the procedure, on whatever path, is an allowed one. -/
def Issues (Allowed : Command → Prop) : Procedure Command State Error Value → Prop
  | pure _ => True
  | fail _ => True
  | exec command next => Allowed command ∧ ∀ reply, (next reply).Issues Allowed
  | query next => ∀ reply, (next reply).Issues Allowed
  | perform command next => Allowed command ∧ next.Issues Allowed
  | inspect next => ∀ state, (next state).Issues Allowed

section Issues

variable {Allowed : Command → Prop}

@[simp]
theorem issues_pure (value : Value) :
    (Pure.pure value : Procedure Command State Error Value).Issues Allowed := trivial

@[simp]
theorem issues_fail (error : Error) :
    (fail error : Procedure Command State Error Value).Issues Allowed := trivial

variable {procedure : Procedure Command State Error Value} {command : Command}

/-- A sequence issues what its parts issue. -/
theorem Issues.bind {continuation : Value → Procedure Command State Error Other}
    (first : procedure.Issues Allowed) (rest : ∀ value, (continuation value).Issues Allowed) :
    (procedure >>= continuation).Issues Allowed := by
  induction procedure with
  | pure value => exact rest value
  | fail error => trivial
  | exec command next ih => exact ⟨first.1, fun reply => ih reply (first.2 reply)⟩
  | query _ ih | inspect _ ih => exact fun reply => ih reply (first reply)
  | perform command next ih => exact ⟨first.1, ih first.2⟩

/-- A handled procedure issues what it and its handler issue. -/
theorem Issues.handle {handler : Error → Procedure Command State Fault Value}
    (first : procedure.Issues Allowed) (rest : ∀ error, (handler error).Issues Allowed) :
    (procedure.handle handler).Issues Allowed := by
  induction procedure with
  | pure value => trivial
  | fail error => exact rest error
  | exec command next ih => exact ⟨first.1, fun reply => ih reply (first.2 reply)⟩
  | query _ ih | inspect _ ih => exact fun reply => ih reply (first reply)
  | perform command next ih => exact ⟨first.1, ih first.2⟩

/-- A loop issues what its turns issue. -/
theorem Issues.each {body : Item → Procedure Command State Error Unit} {items : List Item}
    (body_issues : ∀ item ∈ items, (body item).Issues Allowed) :
    (Procedure.each body items).Issues Allowed := by
  induction items with
  | nil => trivial
  | cons item items ih =>
    apply Issues.bind
    · exact body_issues item (by simp)
    · intro _
      exact ih fun other mem => body_issues other (by simp [mem])

@[simp]
theorem issues_command {refusal : String → Error} :
    (Procedure.command command refusal : Procedure Command State Error Unit).Issues Allowed ↔
      Allowed command := by
  constructor
  · exact fun issues => issues.1
  · intro allowed
    refine ⟨allowed, fun reply => ?_⟩
    cases reply <;> trivial

@[simp]
theorem issues_tryCommand :
    (tryCommand command : Procedure Command State Error Unit).Issues Allowed ↔ Allowed command := by
  simp [tryCommand, Issues]

@[simp]
theorem issues_attempt :
    (attempt command : Procedure Command State Error (Except String Unit)).Issues Allowed ↔
      Allowed command := by
  simp [attempt, Issues]

@[simp]
theorem issues_probe :
    (probe : Procedure Command State Error (Except String State)).Issues Allowed :=
  fun _ => trivial

@[simp]
theorem issues_read (refusal : String → Error) :
    (read refusal : Procedure Command State Error State).Issues Allowed := by
  intro reply
  cases reply <;> trivial

@[simp]
theorem issues_act :
    (act command : Procedure Command State Error Unit).Issues Allowed ↔ Allowed command := by
  simp [act, Issues]

@[simp]
theorem issues_observe : (observe : Procedure Command State Error State).Issues Allowed :=
  fun _ => trivial

@[simp]
theorem issues_ofExcept (value : Except Error Value) :
    (ofExcept value : Procedure Command State Error Value).Issues Allowed := by
  cases value <;> trivial

theorem Issues.mono {Wider : Command → Prop} (issues : procedure.Issues Allowed)
    (wider : ∀ command, Allowed command → Wider command) : procedure.Issues Wider := by
  induction procedure with
  | pure | fail => trivial
  | exec command next ih =>
    exact ⟨wider command issues.1, fun reply => ih reply (issues.2 reply)⟩
  | query _ ih | inspect _ ih => exact fun reply => ih reply (issues reply)
  | perform command next ih => exact ⟨wider command issues.1, ih issues.2⟩

end Issues

end Procedure

end Plinth.Core
