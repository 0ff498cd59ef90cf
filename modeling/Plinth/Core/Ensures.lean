import Plinth.Core.Procedure

/-!
# Rules for procedures

`Ensures` relates the state before a run to its outcome and the state after it, under every schedule
of answers. `Delivers` says the same of the runs that finish, and `Succeeds` that the run without
disturbance finishes. Each has one rule for each way to build a procedure.
-/

namespace Plinth.Core

namespace Procedure

variable {Command State Error Fault Value Other Item : Type}
  {apply : Command → State → Except String State} {state : State}
  {procedure : Procedure Command State Error Value}

/-- Every run from a state ends as the postcondition says. -/
structure Ensures (apply : Command → State → Except String State)
    (procedure : Procedure Command State Error Value) (state : State)
    (Post : Outcome Error Value → State → Prop) : Prop where
  holds : ∀ answers,
    Post (procedure.run apply answers state).outcome (procedure.run apply answers state).state

variable {refusal : String → Error} {continuation : Value → Procedure Command State Error Other}
  {handler : Error → Procedure Command State Fault Value}

section Ensures

variable {Post : Outcome Error Value → State → Prop}

/-- A postcondition may be weakened. -/
theorem Ensures.mono {Weaker : Outcome Error Value → State → Prop}
    (ensures : procedure.Ensures apply state Post)
    (weaker : ∀ outcome final, Post outcome final → Weaker outcome final) :
    procedure.Ensures apply state Weaker :=
  ⟨fun answers => weaker _ _ (ensures.holds answers)⟩

theorem Ensures.and {First Second : Outcome Error Value → State → Prop}
    (first : procedure.Ensures apply state First)
    (second : procedure.Ensures apply state Second) :
    procedure.Ensures apply state fun outcome final =>
      First outcome final ∧ Second outcome final :=
  ⟨fun answers => ⟨first.holds answers, second.holds answers⟩⟩

theorem ensures_pure {value : Value} :
    (Pure.pure value : Procedure Command State Error Value).Ensures apply state Post ↔
      Post (.done value) state :=
  ⟨fun ensures => ensures.holds [], fun holds => ⟨fun _ => holds⟩⟩

theorem ensures_fail {error : Error} :
    (fail error : Procedure Command State Error Value).Ensures apply state Post ↔
      Post (.failed error) state :=
  ⟨fun ensures => ensures.holds [], fun holds => ⟨fun _ => holds⟩⟩

/-- The rule for a command: it crashes, or the procedure goes on with a reply. -/
theorem Ensures.exec {command : Command}
    {next : Except String Unit → Procedure Command State Error Value}
    (crashed : Post .crashed state)
    (continued : ∀ reply after, Reply apply command state reply after →
      (next reply).Ensures apply after Post) :
    (Procedure.exec command next).Ensures apply state Post := by
  constructor
  intro answers
  unfold run
  split
  case h_1 after _ applied => exact (continued _ _ (.taken applied)).holds answers.tail
  case h_4 detail after _ applied => exact (continued _ _ (.lost applied)).holds answers.tail
  case h_6 => exact crashed
  all_goals exact (continued _ _ .failed).holds answers.tail

theorem Ensures.query {next : Except String State → Procedure Command State Error Value}
    (crashed : Post .crashed state)
    (answered : (next (.ok state)).Ensures apply state Post)
    (refused : ∀ detail, (next (.error detail)).Ensures apply state Post) :
    (Procedure.query next).Ensures apply state Post := by
  constructor
  intro answers
  unfold run
  split
  · exact answered.holds answers.tail
  · exact (refused _).holds answers.tail
  · exact (refused _).holds answers.tail
  · exact crashed

theorem Ensures.perform {command : Command} {next : Procedure Command State Error Value}
    (applied : ∀ after, apply command state = .ok after → next.Ensures apply after Post)
    (rejected : ∀ detail, apply command state = .error detail → next.Ensures apply state Post) :
    (Procedure.perform command next).Ensures apply state Post := by
  constructor
  intro answers
  unfold run
  split
  case h_1 after isReply => exact (applied after isReply).holds answers
  case h_2 detail isReply => exact (rejected detail isReply).holds answers

theorem Ensures.inspect {next : State → Procedure Command State Error Value}
    (continued : (next state).Ensures apply state Post) :
    (Procedure.inspect next).Ensures apply state Post :=
  ⟨continued.holds⟩

/-- The rule of sequence: what stops the first part stops the whole. -/
theorem Ensures.bind {Post : Outcome Error Other → State → Prop}
    (first : procedure.Ensures apply state fun outcome after =>
      match outcome with
      | .done value => (continuation value).Ensures apply after Post
      | .failed error => Post (.failed error) after
      | .crashed => Post .crashed after) :
    (procedure >>= continuation).Ensures apply state Post := by
  constructor
  intro answers
  rw [run_bind]
  have finished := first.holds answers
  generalize procedure.run apply answers state = result at finished
  rcases result with ⟨outcome, after, answers⟩
  cases outcome with
  | done value => exact finished.holds answers
  | failed | crashed => exact finished

/-- The rule for a handler, which sees the failures only. -/
theorem Ensures.handle {Post : Outcome Fault Value → State → Prop}
    (first : procedure.Ensures apply state fun outcome after =>
      match outcome with
      | .done value => Post (.done value) after
      | .failed error => (handler error).Ensures apply after Post
      | .crashed => Post .crashed after) :
    (procedure.handle handler).Ensures apply state Post := by
  constructor
  intro answers
  rw [run_handle]
  have finished := first.holds answers
  generalize procedure.run apply answers state = result at finished
  rcases result with ⟨outcome, after, answers⟩
  cases outcome with
  | done | crashed => exact finished
  | failed error => exact finished.holds answers

/-- The rule for a command that must succeed; a lost reply fails after the effect. -/
theorem Ensures.command {command : Command} {Post : Outcome Error Unit → State → Prop}
    (crashed : Post .crashed state) (refused : ∀ detail, Post (.failed (refusal detail)) state)
    (taken : ∀ after, apply command state = .ok after → Post (.done ()) after)
    (lost : ∀ detail after, apply command state = .ok after →
      Post (.failed (refusal detail)) after) :
    (Procedure.command command refusal).Ensures apply state Post := by
  apply Ensures.exec crashed
  intro reply after replied
  cases replied with
  | taken applied => exact ensures_pure.mpr (taken after applied)
  | lost applied => exact ensures_fail.mpr (lost _ after applied)
  | failed => exact ensures_fail.mpr (refused _)

/-- The rule for a command whose failure is passed over. -/
theorem Ensures.tryCommand {command : Command} {Post : Outcome Error Unit → State → Prop}
    (crashed : Post .crashed state) (refused : Post (.done ()) state)
    (taken : ∀ after, apply command state = .ok after → Post (.done ()) after) :
    (Procedure.tryCommand command).Ensures apply state Post := by
  apply Ensures.exec crashed
  intro reply after replied
  cases replied with
  | taken applied | lost applied => exact ensures_pure.mpr (taken after applied)
  | failed => exact ensures_pure.mpr refused

theorem Ensures.read {Post : Outcome Error State → State → Prop}
    (crashed : Post .crashed state) (answered : Post (.done state) state)
    (refused : ∀ detail, Post (.failed (refusal detail)) state) :
    (Procedure.read refusal).Ensures apply state Post :=
  .query crashed (ensures_pure.mpr answered) fun detail => ensures_fail.mpr (refused detail)

/-- The rule for a read before the rest. -/
theorem Ensures.readBind {continuation : State → Procedure Command State Error Value}
    (crashed : Post .crashed state) (refused : ∀ detail, Post (.failed (refusal detail)) state)
    (answered : (continuation state).Ensures apply state Post) :
    (Procedure.read refusal >>= continuation).Ensures apply state Post :=
  .bind (.read crashed answered refused)

/-- What every allowed command preserves, every run of the procedure preserves. -/
theorem Issues.invariant (Invariant : State → Prop) {Allowed : Command → Prop}
    (issues : procedure.Issues Allowed)
    (preserved : ∀ {command state after}, Allowed command → Invariant state →
      apply command state = .ok after → Invariant after)
    (holds : Invariant state) :
    procedure.Ensures apply state fun _ final => Invariant final := by
  induction procedure generalizing state with
  | pure | fail => exact ⟨fun _ => holds⟩
  | exec command next ih =>
    apply Ensures.exec holds
    intro reply after replied
    apply ih reply (issues.2 reply)
    cases replied with
    | taken applied | lost applied => exact preserved issues.1 holds applied
    | failed => exact holds
  | query next ih =>
    exact .query holds (ih _ (issues _) holds) fun _ => ih _ (issues _) holds
  | perform command next ih =>
    exact .perform (fun _ applied => ih issues.2 (preserved issues.1 holds applied))
      fun _ _ => ih issues.2 holds
  | inspect next ih => exact .inspect (ih state (issues state) holds)

end Ensures

/-- Every run from a state that finishes ends as the postcondition says. -/
def Delivers (apply : Command → State → Except String State)
    (procedure : Procedure Command State Error Value) (state : State)
    (Post : Value → State → Prop) : Prop :=
  procedure.Ensures apply state fun outcome final =>
    ∀ value, outcome = .done value → Post value final

section Delivers

variable {Post : Value → State → Prop}

/-- What a procedure delivers holds after every run that finishes. -/
theorem Delivers.of_done (delivers : procedure.Delivers apply state Post) {answers : List Answer}
    {value : Value} (finished : (procedure.run apply answers state).outcome = .done value) :
    Post value (procedure.run apply answers state).state :=
  delivers.holds answers value finished

theorem Delivers.of_forall (procedure : Procedure Command State Error Value)
    (holds : ∀ value final, Post value final) : procedure.Delivers apply state Post :=
  ⟨fun _ value _ => holds value _⟩

theorem Delivers.mono {Weaker : Value → State → Prop}
    (delivers : procedure.Delivers apply state Post)
    (weaker : ∀ value final, Post value final → Weaker value final) :
    procedure.Delivers apply state Weaker :=
  Ensures.mono delivers fun _ final holds value finished =>
    weaker value final (holds value finished)

theorem delivers_pure {value : Value} :
    (Pure.pure value : Procedure Command State Error Value).Delivers apply state Post ↔
      Post value state := by
  simp [Delivers, ensures_pure]

theorem delivers_fail {error : Error} :
    (fail error : Procedure Command State Error Value).Delivers apply state Post := by
  simp [Delivers, ensures_fail]

/-- The rule of sequence, for runs that finish. -/
theorem Delivers.bind {Post : Other → State → Prop}
    (first : procedure.Delivers apply state fun value after =>
      (continuation value).Delivers apply after Post) :
    (procedure >>= continuation).Delivers apply state Post := by
  apply Ensures.bind
  apply Ensures.mono first
  intro outcome after finished
  cases outcome with
  | done value => exact finished value rfl
  | failed | crashed => simp

/-- A handled procedure delivers what it and its handler deliver. -/
theorem Delivers.handle (first : procedure.Delivers apply state Post)
    (handled : ∀ error after, (handler error).Delivers apply after Post) :
    (procedure.handle handler).Delivers apply state Post := by
  apply Ensures.handle
  apply Ensures.mono first
  intro outcome after finished
  cases outcome with
  | done value => exact fun _ same => Outcome.done.inj same ▸ finished value rfl
  | failed error => exact handled error after
  | crashed => simp

theorem Delivers.command {command : Command} {Post : Unit → State → Prop}
    (taken : ∀ after, apply command state = .ok after → Post () after) :
    (Procedure.command command refusal).Delivers apply state Post :=
  Ensures.command (by simp) (by simp) (fun after applied _ _ => taken after applied) (by simp)

/-- The rule for a command whose reply is looked at. -/
theorem Delivers.attempt {command : Command} {Post : Except String Unit → State → Prop}
    (replied : ∀ reply after, Reply apply command state reply after →
      Post reply after) :
    (Procedure.attempt command : Procedure Command State Error _).Delivers apply state Post :=
  Ensures.exec (by simp) fun reply after isReply => delivers_pure.mpr (replied reply after isReply)

theorem Delivers.read {Post : State → State → Prop}
    (answered : Post state state) : (Procedure.read refusal).Delivers apply state Post :=
  Ensures.read (by simp) (fun _ same => Outcome.done.inj same ▸ answered) (by simp)

theorem Delivers.observe {Post : State → State → Prop} (seen : Post state state) :
    (Procedure.observe : Procedure Command State Error State).Delivers apply state Post :=
  Ensures.inspect (delivers_pure.mpr seen)

theorem Delivers.ofExcept {value : Except Error Value}
    (known : ∀ result, value = .ok result → Post result state) :
    (Procedure.ofExcept value).Delivers apply state Post := by
  cases value with
  | error error => exact delivers_fail
  | ok result => exact delivers_pure.mpr (known result rfl)

end Delivers

/-- A run without disturbance uses no answers. -/
theorem run_nil_answers (apply : Command → State → Except String State)
    (procedure : Procedure Command State Error Value) (state : State) :
    (procedure.run apply [] state).answers = [] := by
  induction procedure generalizing state with
  | pure | fail => rfl
  | exec command next ih =>
    simp only [run, List.headD_nil, List.tail_nil]
    cases apply command state with
    | error detail => exact ih _ state
    | ok after => exact ih _ after
  | query next ih => exact ih _ state
  | perform command next ih =>
    simp only [run]
    cases apply command state with
    | error detail => exact ih state
    | ok after => exact ih after
  | inspect next ih => exact ih state state

/-- The run in which every command proceeds finishes as the postcondition says. -/
def Succeeds (apply : Command → State → Except String State)
    (procedure : Procedure Command State Error Value) (state : State)
    (Post : Value → State → Prop) : Prop :=
  ∃ value, (procedure.run apply [] state).outcome = .done value ∧
    Post value (procedure.run apply [] state).state

section Succeeds

theorem Succeeds.mono {Post Weaker : Value → State → Prop}
    (succeeds : procedure.Succeeds apply state Post)
    (weaker : ∀ value final, Post value final → Weaker value final) :
    procedure.Succeeds apply state Weaker := by
  rcases succeeds with ⟨value, finished, holds⟩
  exact ⟨value, finished, weaker value _ holds⟩

theorem Succeeds.and {First Second : Value → State → Prop}
    (first : procedure.Succeeds apply state First)
    (second : procedure.Succeeds apply state Second) :
    procedure.Succeeds apply state fun value after => First value after ∧ Second value after := by
  rcases first with ⟨value, finished, holds⟩
  rcases second with ⟨other, otherFinished, alsoHolds⟩
  rcases Outcome.done.inj (finished.symm.trans otherFinished) with rfl
  exact ⟨value, finished, holds, alsoHolds⟩

variable {Post : Value → State → Prop}

@[simp]
theorem succeeds_pure {value : Value} :
    (Pure.pure value : Procedure Command State Error Value).Succeeds apply state Post ↔
      Post value state := by
  constructor
  · rintro ⟨_, finished, holds⟩
    cases finished
    exact holds
  · exact fun holds => ⟨value, rfl, holds⟩

@[simp]
theorem not_succeeds_fail {error : Error} :
    ¬ (fail error : Procedure Command State Error Value).Succeeds apply state Post := by
  rintro ⟨_, finished, -⟩
  cases finished

/-- A sequence succeeds if its parts do, one after the other. -/
theorem succeeds_bind {Post : Other → State → Prop} :
    (procedure >>= continuation).Succeeds apply state Post ↔
      procedure.Succeeds apply state fun value after =>
        (continuation value).Succeeds apply after Post := by
  have rest := run_nil_answers apply procedure state
  simp only [Succeeds, run_bind, Result.andThen]
  generalize procedure.run apply [] state = result at rest
  rcases result with ⟨outcome, after, answers⟩
  rcases rest with rfl
  cases outcome with
  | done | failed | crashed => simp

/-- Where no handler succeeds, a success is one of the procedure. -/
theorem Succeeds.of_handle (never : ∀ error after, ¬ (handler error).Succeeds apply after Post)
    (succeeds : (procedure.handle handler).Succeeds apply state Post) :
    procedure.Succeeds apply state Post := by
  have rest := run_nil_answers apply procedure state
  simp only [Succeeds, run_handle, Result.orElse] at succeeds ⊢
  generalize procedure.run apply [] state = result at rest succeeds
  rcases result with ⟨outcome, after, answers⟩
  rcases rest with rfl
  cases outcome with
  | done value => simpa using succeeds
  | failed error => exact absurd succeeds (never error after)
  | crashed => simp at succeeds

@[simp]
theorem succeeds_command {command : Command} {Post : Unit → State → Prop} :
    (Procedure.command command refusal).Succeeds apply state Post ↔
      ∃ after, apply command state = .ok after ∧ Post () after := by
  cases applied : apply command state with
  | error detail => simp [Succeeds, Procedure.command, run, applied]
  | ok after =>
    simp only [Succeeds, Procedure.command, run, applied, List.headD_nil, Except.ok.injEq,
      exists_eq_left']
    constructor
    · rintro ⟨_, -, holds⟩
      exact holds
    · exact fun holds => ⟨(), trivial, holds⟩

theorem Succeeds.command {command : Command} {after : State}
    {Post : Unit → State → Prop} (applied : apply command state = .ok after)
    (holds : Post () after) : (Procedure.command command refusal).Succeeds apply state Post :=
  succeeds_command.mpr ⟨after, applied, holds⟩

theorem Succeeds.tryCommand {command : Command} {after : State} {Post : Unit → State → Prop}
    (applied : apply command state = .ok after) (holds : Post () after) :
    (Procedure.tryCommand command : Procedure Command State Error Unit).Succeeds apply state
      Post := by
  refine ⟨(), ?_, ?_⟩ <;> simp [Procedure.tryCommand, run, applied, holds]

@[simp]
theorem succeeds_read {Post : State → State → Prop} :
    (Procedure.read refusal).Succeeds apply state Post ↔ Post state state := by
  simp [Succeeds, Procedure.read, run]

@[simp]
theorem succeeds_observe {Post : State → State → Prop} :
    (Procedure.observe : Procedure Command State Error State).Succeeds apply state Post ↔
      Post state state := by
  simp [Succeeds, Procedure.observe, run]

/-- A loop succeeds if every turn does and keeps the invariant. -/
theorem Succeeds.each {body : Item → Procedure Command State Error Unit} {items : List Item}
    (Invariant : State → Prop) (holds : Invariant state)
    (keeps : ∀ item ∈ items, ∀ reached, Invariant reached →
      (body item).Succeeds apply reached fun _ after => Invariant after) :
    (Procedure.each body items).Succeeds apply state fun _ after => Invariant after := by
  induction items generalizing state with
  | nil => exact succeeds_pure.mpr holds
  | cons item items ih =>
    apply succeeds_bind.mpr
    apply (keeps item (by simp) state holds).mono
    intro _ after kept
    exact ih kept fun other mem => keeps other (by simp [mem])

end Succeeds

end Procedure

end Plinth.Core
