import Mathlib

/-!
# Programs under interference

A program issues commands and continues with their answers. A machine says which answers and
states a command can lead to, and what other threads can do to the state in between. The
events of an execution record the commands with the states around them. A program also runs
against a function that answers every command.
-/

namespace Plinth.Core

universe u

inductive Program (Command : Type) (Answer : Command → Type) (Value : Type) where
  | pure (value : Value)
  | issue (command : Command) (next : Answer command → Program Command Answer Value)

namespace Program

variable {Command : Type} {Answer : Command → Type} {Value Other State : Type}

def bind : Program Command Answer Value → (Value → Program Command Answer Other) →
    Program Command Answer Other
  | pure value, rest => rest value
  | issue command next, rest => issue command fun answer => (next answer).bind rest

instance : Monad (Program Command Answer) where
  pure := pure
  bind := bind

def call (command : Command) : Program Command Answer (Answer command) := issue command pure

@[simp]
theorem pure_bind (value : Value) (rest : Value → Program Command Answer Other) :
    (Pure.pure value : Program Command Answer Value) >>= rest = rest value := rfl

@[simp]
theorem call_bind (command : Command) (rest : Answer command → Program Command Answer Other) :
    call command >>= rest = issue command rest := rfl

/-- The value and the state that a program ends with when a function answers its commands. -/
def run (answer : (command : Command) → State → Answer command × State) :
    Program Command Answer Value → State → Value × State
  | pure value, state => (value, state)
  | issue command next, state =>
    run answer (next (answer command state).1) (answer command state).2

variable (answer : (command : Command) → State → Answer command × State)

@[simp]
theorem run_pure (value : Value) (state : State) :
    run answer (Pure.pure value : Program Command Answer Value) state = (value, state) := rfl

@[simp]
theorem run_issue (answer : (command : Command) → State → Answer command × State)
    (command : Command) (next : Answer command → Program Command Answer Value) (state : State) :
    run answer (issue command next) state =
      run answer (next (answer command state).1) (answer command state).2 := rfl

/-- A sequence runs its second part where the first one ended. -/
@[simp]
theorem run_bind (program : Program Command Answer Value)
    (rest : Value → Program Command Answer Other) (state : State) :
    run answer (program >>= rest) state =
      run answer (rest (run answer program state).1) (run answer program state).2 := by
  induction program generalizing state with
  | pure => rfl
  | issue command next ih => exact ih _ _

end Program

/-- The meaning of the commands, and the steps of other threads. -/
structure Machine (Command : Type) (Answer : Command → Type) (State : Type) where
  step : State → (command : Command) → Answer command → State → Prop
  interfere : State → State → Prop

namespace Machine

variable {Command : Type} {Answer : Command → Type} {Value Other State : Type}

structure Event (Command : Type) (Answer : Command → Type) (State : Type) where
  command : Command
  answer : Answer command
  before : State
  after : State

/-- The executions of a program, with other threads running between its commands. -/
inductive Exec (machine : Machine Command Answer State) :
    Program Command Answer Value → State → List (Event Command Answer State) → State → Value →
      Prop where
  | pure (value : Value) (state : State) : Exec machine (.pure value) state [] state value
  | interfere {program : Program Command Answer Value} {start middle finish : State}
      {events : List (Event Command Answer State)} {value : Value}
      (others : machine.interfere start middle)
      (rest : Exec machine program middle events finish value) :
      Exec machine program start events finish value
  | issue {command : Command} {next : Answer command → Program Command Answer Value}
      {answer : Answer command} {start middle finish : State}
      {events : List (Event Command Answer State)} {value : Value}
      (step : machine.step start command answer middle)
      (rest : Exec machine (next answer) middle events finish value) :
      Exec machine (.issue command next) start (⟨command, answer, start, middle⟩ :: events) finish
        value

variable {machine : Machine Command Answer State} {events : List (Event Command Answer State)}
  {start finish : State} {value : Value}

theorem Exec.pure_inv {result : Value}
    (exec : machine.Exec (.pure value) start events finish result) :
    events = [] ∧ result = value := by
  generalize isPure : Program.pure value = program at exec
  induction exec with
  | pure =>
    cases isPure
    exact ⟨rfl, rfl⟩
  | interfere _ _ ih => exact ih isPure
  | issue => cases isPure

/-- A command is answered after some steps of other threads. -/
theorem Exec.call_inv {command : Command} {rest : Answer command → Program Command Answer Value}
    (exec : machine.Exec (Program.call command >>= rest) start events finish value) :
    ∃ before answer after later, Relation.ReflTransGen machine.interfere start before ∧
      machine.step before command answer after ∧
      events = ⟨command, answer, before, after⟩ :: later ∧
      machine.Exec (rest answer) after later finish value := by
  change machine.Exec (.issue command rest) start events finish value at exec
  generalize isIssue : Program.issue command rest = program at exec
  induction exec with
  | pure => cases isIssue
  | interfere others _ ih =>
    rcases ih isIssue with ⟨before, answer, after, rest, reached, step, isFirst, exec⟩
    exact ⟨before, answer, after, rest, .head others reached, step, isFirst, exec⟩
  | @issue _ _ answer start middle _ events _ step rest _ =>
    cases isIssue
    exact ⟨start, answer, middle, events, .refl, step, rfl, rest⟩

/-- An execution of a sequence splits into executions of its parts. -/
theorem Exec.bind_inv {program : Program Command Answer Value}
    {rest : Value → Program Command Answer Other} {result : Other}
    (exec : machine.Exec (program >>= rest) start events finish result) :
    ∃ middle first second value, events = first ++ second ∧
      machine.Exec program start first middle value ∧
      machine.Exec (rest value) middle second finish result := by
  induction program generalizing start events with
  | pure value => exact ⟨start, [], events, value, rfl, .pure value start, exec⟩
  | issue command next ih =>
    change machine.Exec (Program.call command >>= fun answer => next answer >>= rest) start events
      finish result at exec
    rcases exec.call_inv with ⟨before, answer, after, others, reached, step, rfl, later⟩
    rcases ih answer later with ⟨middle, first, second, value, rfl, execFirst, execSecond⟩
    refine ⟨middle, ⟨command, answer, before, after⟩ :: first, second, value, rfl, ?_, execSecond⟩
    have issued : machine.Exec (.issue command next) before
        (⟨command, answer, before, after⟩ :: first) middle value := .issue step execFirst
    clear exec later execSecond execFirst
    induction reached using Relation.ReflTransGen.head_induction_on with
    | refl => exact issued
    | head others _ ih => exact .interfere others ih

/-- The invariant rule: what other threads keep, and the commands that an execution issues. -/
theorem Exec.invariant (Invariant : State → Prop) (Allowed : Command → Prop)
    (others : ∀ {state next}, Invariant state → machine.interfere state next → Invariant next)
    (steps : ∀ {state command answer next}, Allowed command → Invariant state →
      machine.step state command answer next → Invariant next)
    {program : Program Command Answer Value}
    (exec : machine.Exec program start events finish value)
    (allowed : ∀ event ∈ events, Allowed event.command) (holds : Invariant start) :
    Invariant finish := by
  induction exec with
  | pure => exact holds
  | interfere interferes _ ih => exact ih allowed (others holds interferes)
  | issue step _ ih =>
    exact ih (fun event mem => allowed event (by simp [mem]))
      (steps (allowed _ List.mem_cons_self) holds step)

def trace (answer : (command : Command) → State → Answer command × State) :
    Program Command Answer Value → State → List (Event Command Answer State)
  | .pure _, _ => []
  | .issue command next, state =>
    ⟨command, (answer command state).1, state, (answer command state).2⟩ ::
      trace answer (next (answer command state).1) (answer command state).2

/-- A run against answers that the machine allows is an execution. -/
theorem Exec.of_run {answer : (command : Command) → State → Answer command × State}
    (allowed : ∀ command state,
      machine.step state command (answer command state).1 (answer command state).2)
    (program : Program Command Answer Value) (state : State) :
    machine.Exec program state (trace answer program state) (program.run answer state).2
      (program.run answer state).1 := by
  induction program generalizing state with
  | pure value => exact .pure value state
  | issue command next ih => exact .issue (allowed command state) (ih _ _)

end Machine

end Plinth.Core
