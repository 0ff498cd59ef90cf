import Plinth.Core.Transition

/-!
# The events writer

The writer takes the events that its handler accepts from a bounded queue, inserts each of them in a
transaction of its own and hands it to the broker with the number that the insert returned. The
drain timer starts an insert when no job of the timers is in flight; `stop` keeps the timers out,
waits for that job, inserts what is left in the queue and flushes the cursors. One start of the
writer is modelled, until the last `stop` that follows it.

A step is what one thread does under one lock, or one completion of an insert. The handler reads the
flags before it locks the queue, so its check and its push are two steps.
-/

namespace Plinth.Realtime.EventsWriter

open Core List Function

inductive Phase where
  | inserting
  | numbered (seq : ℕ)
  | committed (seq : ℕ)
  | dispatched (seq : ℕ)

/-- The transaction has not been committed. -/
def Phase.isOpen : Phase → Bool
  | .inserting | .numbered _ => true
  | .committed _ | .dispatched _ => false

inductive Outcome where
  | delivered (seq : ℕ)
  | skipped
  | failed

/-- Who runs an insert: a job of the drain timer, or `drain_until`. -/
inductive Slot where
  | timer
  | drain
deriving DecidableEq

/-- Where the `stop` that holds the lifecycle lock stands. While it is waiting or draining it
holds the dispatch lock. -/
inductive Stopping where
  | idle
  | waiting
  | draining
  | flushing

structure Insert (Event : Type*) where
  event : Event
  phase : Phase

/-- The writer. The lists from `accepted` on record what has happened: the events the queue took,
the inserts that were issued, committed, handed to the broker and ended, and the events accepted
when `drain_until` last found the queue empty. -/
structure Writer (Event : Type*) where
  running : Bool := true
  shuttingDown : Bool := false
  deliveryFailed : Bool := false
  queue : List Event := []
  /-- Handlers that have read the flags and not yet taken the lock of the queue. -/
  entering : List Event := []
  /-- Handlers that were refused by a full queue and have not yet recorded it. -/
  dropping : ℕ := 0
  /-- Entries that a full queue has dropped and their handlers have recorded. -/
  dropped : ℕ := 0
  inserts : Slot → Option (Insert Event) := fun _ => none
  cleanup : Bool := false
  stopping : Stopping := .idle
  /-- The last number the sequence of the table gave out. -/
  lastSeq : ℕ := 0
  accepted : List Event := []
  issued : List Event := []
  inserted : List (Event × ℕ) := []
  dispatched : List (Event × ℕ) := []
  ended : List (Event × Outcome) := []
  drained : List Event := []

inductive Action (Event : Type*) where
  | enter (event : Event)
  | push (event : Event)
  | drop (event : Event)
  | recordDrop
  | drainOne
  | cleanup
  | cleanupDone
  | insert (slot : Slot) (seq : ℕ)
  | commit (slot : Slot)
  | dispatch (slot : Slot)
  | finish (slot : Slot) (threw : Bool)
  | skip (slot : Slot)
  | fail (slot : Slot)
  | stop
  | quiescent
  | pop
  | drained
  | flushFailed
  | stopped (success : Bool)

variable {Event : Type*}

namespace Writer

def Quiet (writer : Writer Event) : Prop :=
  writer.inserts .timer = none ∧ writer.cleanup = false

def DispatchFree (writer : Writer Event) : Prop :=
  writer.stopping ≠ .waiting ∧ writer.stopping ≠ .draining

@[simp]
def issue (writer : Writer Event) (slot : Slot) (event : Event) (rest : List Event) :
    Writer Event :=
  { writer with
    queue := rest
    inserts := update writer.inserts slot (some ⟨event, .inserting⟩)
    issued := writer.issued ++ [event] }

@[simp]
def conclude (writer : Writer Event) (slot : Slot) (event : Event) (outcome : Outcome) :
    Writer Event :=
  { writer with
    inserts := update writer.inserts slot none
    ended := writer.ended ++ [(event, outcome)] }

end Writer

/-- The steps of a writer whose `write_queue_size` is `size`. -/
inductive Step (size : ℕ) : Writer Event → Action Event → Writer Event → Prop where
  /-- `handler` reads the flags. -/
  | enter {writer event} (running : writer.running = true) (serving : writer.shuttingDown = false) :
      Step size writer (.enter event) { writer with entering := event :: writer.entering }
  | push {writer event before after} (entering : writer.entering = before ++ event :: after)
      (room : writer.queue.length < size) :
      Step size writer (.push event)
        { writer with
          entering := before ++ after
          queue := writer.queue ++ [event]
          accepted := writer.accepted ++ [event] }
  | drop {writer event before after} (entering : writer.entering = before ++ event :: after)
      (full : size ≤ writer.queue.length) :
      Step size writer (.drop event)
        { writer with entering := before ++ after, dropping := writer.dropping + 1 }
  | recordDrop {writer} (dropping : 0 < writer.dropping) : Step size writer .recordDrop
        { writer with
          dropping := writer.dropping - 1
          dropped := writer.dropped + 1
          deliveryFailed := true }
  /-- `drain_one` with an entry to take. -/
  | drainOne {writer event rest}
      (free : writer.DispatchFree) (serving : writer.shuttingDown = false) (quiet : writer.Quiet)
      (front : writer.queue = event :: rest) :
      Step size writer .drainOne (writer.issue .timer event rest)
  | cleanup {writer} (free : writer.DispatchFree)
      (serving : writer.shuttingDown = false) (quiet : writer.Quiet) :
      Step size writer .cleanup { writer with cleanup := true }
  | cleanupDone {writer} (busy : writer.cleanup = true) :
      Step size writer .cleanupDone { writer with cleanup := false }
  /-- `INSERT … RETURNING seq`. Other nodes draw from the same sequence. -/
  | insert {writer slot event seq}
      (insert : writer.inserts slot = some ⟨event, .inserting⟩) (fresh : writer.lastSeq < seq) :
      Step size writer (.insert slot seq)
        { writer with
          inserts := update writer.inserts slot (some ⟨event, .numbered seq⟩)
          lastSeq := seq }
  | commit {writer slot event seq} (insert : writer.inserts slot = some ⟨event, .numbered seq⟩) :
      Step size writer (.commit slot)
        { writer with
          inserts := update writer.inserts slot (some ⟨event, .committed seq⟩)
          inserted := writer.inserted ++ [(event, seq)] }
  | dispatch {writer slot event seq} (insert : writer.inserts slot = some ⟨event, .committed seq⟩) :
      Step size writer (.dispatch slot)
        { writer with
          inserts := update writer.inserts slot (some ⟨event, .dispatched seq⟩)
          dispatched := writer.dispatched ++ [(event, seq)] }
  /-- The coroutine ends, or the broker or a cursor update has thrown. -/
  | finish {writer slot event seq} {threw : Bool}
      (insert : writer.inserts slot = some ⟨event, .dispatched seq⟩) :
      Step size writer (.finish slot threw)
        { writer.conclude slot event (.delivered seq) with
          deliveryFailed := writer.deliveryFailed || threw }
  /-- Another node holds the advisory lock. -/
  | skip {writer slot event} (insert : writer.inserts slot = some ⟨event, .inserting⟩) :
      Step size writer (.skip slot) (writer.conclude slot event .skipped)
  /-- There is no client, or a statement throws, `COMMIT` included. -/
  | fail {writer slot event phase} (insert : writer.inserts slot = some ⟨event, phase⟩)
      (isOpen : phase.isOpen = true) :
      Step size writer (.fail slot)
        { writer.conclude slot event .failed with deliveryFailed := true }
  /-- `stop` of a running writer, up to the dispatch lock. -/
  | stop {writer} (free : writer.stopping = .idle) (running : writer.running = true) :
      Step size writer .stop
        { writer with shuttingDown := true, stopping := .waiting }
  | quiescent {writer} (waiting : writer.stopping = .waiting) (quiet : writer.Quiet) :
      Step size writer .quiescent { writer with stopping := .draining }
  /-- `drain_until` takes the front of the queue. -/
  | pop {writer event rest}
      (draining : writer.stopping = .draining) (ready : writer.inserts .drain = none)
      (front : writer.queue = event :: rest) :
      Step size writer .pop (writer.issue .drain event rest)
  /-- `drain_until` finds the queue empty. -/
  | drained {writer} (draining : writer.stopping = .draining)
      (ready : writer.inserts .drain = none) (empty : writer.queue = []) :
      Step size writer .drained
        { writer with stopping := .flushing, drained := writer.accepted }
  | flushFailed {writer} (flushing : writer.stopping = .flushing) :
      Step size writer .flushFailed { writer with deliveryFailed := true }
  /-- `stop` gives up at its deadline, between two inserts. -/
  | timedOut {writer} (stopping : writer.stopping ≠ .idle) (ready : writer.inserts .drain = none) :
      Step size writer (.stopped false) { writer with stopping := .idle }
  | stopped {writer} (flushing : writer.stopping = .flushing) :
      Step size writer (.stopped !writer.deliveryFailed)
        { writer with stopping := .idle, running := false }
  /-- `stop` of a writer that does not run. -/
  | alreadyStopped {writer} (free : writer.stopping = .idle) (halted : writer.running = false) :
      Step size writer (.stopped !writer.deliveryFailed) writer

def system (Event : Type*) (size : ℕ) : TransitionSystem (Writer Event) (Action Event) where
  initial writer := writer = {}
  step := Step size

namespace Writer

def current (writer : Writer Event) : List (Insert Event) :=
  (writer.inserts .timer).toList ++ (writer.inserts .drain).toList

def Alone (writer : Writer Event) : Prop :=
  writer.inserts .timer = none ∨ writer.inserts .drain = none

section

variable {writer : Writer Event} (alone : writer.Alone) {slot : Slot} {insert : Insert Event}
  (inserts : writer.inserts slot = some insert)
include alone inserts

theorem current_of_insert : writer.current = [insert] := by
  cases slot <;> rcases alone with none | none <;> simp_all [current]

theorem current_update (next : Option (Insert Event)) {other : Writer Event}
    (updated : other.inserts = update writer.inserts slot next) :
    other.Alone ∧ other.current = next.toList := by
  cases slot <;> rcases alone with none | none <;> simp_all [current, Alone]

end

end Writer

def Insert.row (insert : Insert Event) : List (Event × ℕ) :=
  match insert.phase with
  | .inserting | .numbered _ => []
  | .committed seq | .dispatched seq => [(insert.event, seq)]

def Insert.handed (insert : Insert Event) : List (Event × ℕ) :=
  match insert.phase with
  | .dispatched seq => [(insert.event, seq)]
  | _ => []

def deliveredRow : Event × Outcome → Option (Event × ℕ)
  | (event, .delivered seq) => some (event, seq)
  | _ => none

/-- The records agree with each other and with the inserts in progress: an insert is issued when the
one before has ended, and issued and waiting events are the accepted ones in order. -/
structure Writer.Books (writer : Writer Event) (current : List (Insert Event)) : Prop where
  issued : writer.issued = writer.ended.map Prod.fst ++ current.map Insert.event
  accepted : writer.accepted = writer.issued ++ writer.queue
  inserted : writer.inserted = writer.ended.filterMap deliveredRow ++ current.flatMap Insert.row
  dispatched : writer.dispatched =
    writer.ended.filterMap deliveredRow ++ current.flatMap Insert.handed
  increasing : (writer.inserted.map Prod.snd).Pairwise (· < ·)
  drawn : ∀ row ∈ writer.inserted, row.2 ≤ writer.lastSeq
  /-- A number that is not yet committed is the last one drawn. -/
  numbered : ∀ event seq, ⟨event, .numbered seq⟩ ∈ current →
    seq ≤ writer.lastSeq ∧ ∀ row ∈ writer.inserted, row.2 < seq
  remembered : (∃ event, (event, .failed) ∈ writer.ended) ∨ 0 < writer.dropped →
    writer.deliveryFailed = true

/-- Who may hold an insert, and what a `stop` that has drained the queue has left. -/
structure Writer.Locks (writer : Writer Event) : Prop where
  alone : writer.Alone
  drainer : writer.inserts .drain ≠ none → writer.stopping = .draining
  quiet : writer.stopping = .draining → writer.Quiet
  idle : writer.running = false → writer.stopping = .idle
  flagged : writer.stopping ≠ .idle ∨ writer.running = false → writer.shuttingDown = true
  halted : writer.stopping = .flushing ∨ writer.running = false →
    writer.current = [] ∧ writer.drained = writer.ended.map Prod.fst

namespace Writer

variable {writer : Writer Event} {slot : Slot} {event : Event}

theorem current_eq_nil (timer : writer.inserts .timer = none)
    (drain : writer.inserts .drain = none) : writer.current = [] := by
  simp [current, timer, drain]

/-- A writer at rest that issues an event has that insert only. -/
theorem current_issue (timer : writer.inserts .timer = none)
    (drain : writer.inserts .drain = none) (rest : List Event) :
    (writer.issue slot event rest).Alone ∧
      (writer.issue slot event rest).current = [⟨event, .inserting⟩] := by
  cases slot <;> simp [current, issue, Alone, timer, drain]

/-- Whoever finds the dispatch lock free finds no drain. -/
theorem Locks.drain_eq_none (locks : writer.Locks) (free : writer.DispatchFree) :
    writer.inserts .drain = none := by
  by_contra busy
  exact free.2 (locks.drainer busy)

theorem Locks.update (locks : writer.Locks) {insert : Insert Event}
    (inserts : writer.inserts slot = some insert) {other : Writer Event}
    {following : Option (Insert Event)}
    (updated : other.inserts = update writer.inserts slot following)
    (running : other.running = writer.running)
    (shuttingDown : other.shuttingDown = writer.shuttingDown)
    (cleanup : other.cleanup = writer.cleanup)
    (stopping : other.stopping = writer.stopping) : other.Locks where
  alone := (current_update locks.alone inserts following updated).1
  drainer := by
    intro busy
    rw [stopping]
    apply locks.drainer
    cases slot <;> simp_all
  quiet := by
    intro draining
    rw [stopping] at draining
    have quiet := locks.quiet draining
    cases slot with
    | timer => simp [quiet.1] at inserts
    | drain => exact ⟨by simpa [updated] using quiet.1, cleanup.trans quiet.2⟩
  idle := by simpa [running, stopping] using locks.idle
  flagged := by simpa [running, stopping, shuttingDown] using locks.flagged
  halted := by
    -- While an insert is in progress nothing is halted.
    intro halts
    rw [running, stopping] at halts
    have nothing := (locks.halted halts).1
    simp [current_of_insert locks.alone inserts] at nothing

theorem Books.issue (books : writer.Books []) {rest : List Event}
    (front : writer.queue = event :: rest) :
    (writer.issue slot event rest).Books [⟨event, .inserting⟩] := by
  refine ⟨?_, ?_, books.inserted, books.dispatched, books.increasing, books.drawn, by simp,
    books.remembered⟩
  · simpa using books.issued
  · simp [books.accepted, front]

theorem Books.insert {seq : ℕ} (books : writer.Books [⟨event, .inserting⟩])
    (fresh : writer.lastSeq < seq) (inserts : Slot → Option (Insert Event)) :
    Books { writer with inserts, lastSeq := seq } [⟨event, .numbered seq⟩] := by
  have below (row) (mem : row ∈ writer.inserted) : row.2 < seq :=
    Nat.lt_of_le_of_lt (books.drawn row mem) fresh
  refine ⟨books.issued, books.accepted, books.inserted, books.dispatched, books.increasing,
    fun row mem => (below row mem).le, ?_, books.remembered⟩
  rintro other number mem
  cases mem_singleton.mp mem
  exact ⟨le_rfl, below⟩

theorem Books.commit {seq : ℕ} (books : writer.Books [⟨event, .numbered seq⟩])
    (inserts : Slot → Option (Insert Event)) :
    Books { writer with inserts, inserted := writer.inserted ++ [(event, seq)] }
      [⟨event, .committed seq⟩] := by
  rcases books.numbered event seq mem_cons_self with ⟨isDrawn, below⟩
  refine ⟨books.issued, books.accepted, ?_, books.dispatched, ?_, ?_, by simp, books.remembered⟩
  · simpa [Insert.row] using books.inserted
  · -- Every earlier number was drawn before this one.
    rw [map_append, pairwise_append]
    refine ⟨books.increasing, by simp, ?_⟩
    intro earlier mem last isLast
    rcases mem_map.mp mem with ⟨row, rowMem, rfl⟩
    rcases mem_singleton.mp isLast with rfl
    exact below row rowMem
  · intro row mem
    rcases mem_append.mp mem with earlier | last
    · exact books.drawn row earlier
    · rcases mem_singleton.mp last with rfl
      exact isDrawn

theorem Books.conclude {phase : Phase} (books : writer.Books [⟨event, phase⟩])
    {outcome : Outcome} {failed : Bool}
    (row : (deliveredRow (event, outcome)).toList = Insert.row ⟨event, phase⟩)
    (handed : Insert.handed ⟨event, phase⟩ = Insert.row ⟨event, phase⟩)
    (flag : outcome = .failed ∨ writer.deliveryFailed → failed) :
    Books { writer.conclude slot event outcome with deliveryFailed := failed } [] := by
  have rows : (writer.ended ++ [(event, outcome)]).filterMap deliveredRow =
      writer.ended.filterMap deliveredRow ++ Insert.row ⟨event, phase⟩ := by
    rw [filterMap_append, ← row]
    cases isRow : deliveredRow (event, outcome) <;> simp [isRow]
  refine ⟨?_, books.accepted, ?_, ?_, books.increasing, books.drawn, by simp, ?_⟩
  · simpa using books.issued
  · simpa [rows] using books.inserted
  · simpa [rows, handed] using books.dispatched
  · rintro (⟨other, mem⟩ | dropped)
    · rcases mem_append.mp mem with earlier | last
      · exact flag (Or.inr (books.remembered (.inl ⟨other, earlier⟩)))
      · simp only [mem_singleton, Prod.mk.injEq] at last
        exact flag (Or.inl last.2.symm)
    · exact flag (Or.inr (books.remembered (.inr dropped)))

end Writer

variable {size : ℕ} {writer next : Writer Event} {action : Action Event}

/-- Every step keeps the books. -/
theorem Step.books (step : Step size writer action next)
    (books : writer.Books writer.current) (locks : writer.Locks) : next.Books next.current := by
  have idle (timer : writer.inserts .timer = none) (drain : writer.inserts .drain = none) :
      writer.Books [] := Writer.current_eq_nil timer drain ▸ books
  have busy {slot : Slot} {insert : Insert Event} (inserts : writer.inserts slot = some insert) :
      writer.Books [insert] := Writer.current_of_insert locks.alone inserts ▸ books
  cases step with
  | push =>
    refine { books with accepted := ?_ }
    simp [books.accepted]
  | recordDrop | flushFailed => exact { books with remembered := fun _ => rfl }
  | drainOne free _ quiet front =>
    have drain := locks.drain_eq_none free
    rw [(Writer.current_issue quiet.1 drain _).2]
    exact (idle quiet.1 drain).issue front
  | pop draining ready front =>
    have timer := (locks.quiet draining).1
    rw [(Writer.current_issue timer ready _).2]
    exact (idle timer ready).issue front
  | insert insert fresh =>
    rw [(Writer.current_update locks.alone insert _ rfl).2]
    exact (busy insert).insert fresh _
  | commit insert =>
    rw [(Writer.current_update locks.alone insert _ rfl).2]
    exact (busy insert).commit _
  | dispatch insert =>
    rw [(Writer.current_update locks.alone insert _ rfl).2]
    refine { busy insert with dispatched := ?_, numbered := by simp }
    simpa [Insert.handed] using (busy insert).dispatched
  | finish insert =>
    rw [(Writer.current_update locks.alone insert none rfl).2]
    exact (busy insert).conclude rfl rfl (by simp +contextual)
  | skip insert =>
    rw [(Writer.current_update locks.alone insert none rfl).2]
    exact (busy insert).conclude rfl rfl (by simp)
  | @fail _ _ phase insert isOpen =>
    rw [(Writer.current_update locks.alone insert none rfl).2]
    cases phase with
    | inserting | numbered => exact (busy insert).conclude rfl rfl (by simp)
    | committed | dispatched => cases isOpen
  | _ => exact { books with }

/-- Every step keeps the locks. -/
theorem Step.locks (step : Step size writer action next)
    (books : writer.Books writer.current) (locks : writer.Locks) : next.Locks := by
  have running {phase : Stopping} (stopping : writer.stopping = phase) (busy : phase ≠ .idle)
      (halted : writer.running = false) : False :=
    busy (stopping.symm.trans (locks.idle halted))
  cases step with
  | drainOne free serving quiet front =>
    have serves (halts : writer.stopping ≠ .idle ∨ writer.running = false) : False := by
      simp [locks.flagged halts] at serving
    refine { locks with
      alone := (Writer.current_issue quiet.1 (locks.drain_eq_none free) _).1
      quiet := fun draining => absurd draining free.2
      halted := fun halts => (serves ?_).elim }
    rcases halts with flushing | halted
    · left
      simpa [flushing] using congrArg (· ≠ Stopping.idle) flushing
    · exact Or.inr halted
  | cleanup free =>
    exact { locks with quiet := fun draining => absurd draining free.2 }
  | cleanupDone =>
    exact { locks with quiet := fun draining => ⟨(locks.quiet draining).1, rfl⟩ }
  | insert insert | commit insert | dispatch insert | finish insert | skip insert | fail insert =>
    exact locks.update insert rfl rfl rfl rfl rfl
  | stop free isRunning =>
    refine { locks with drainer := ?_, quiet := ?_, idle := ?_, flagged := ?_, halted := ?_ }
    · intro busy
      have draining := locks.drainer busy
      rw [free] at draining
      cases draining
    all_goals simp [isRunning]
  | quiescent waiting quiet =>
    exact { locks with
      drainer := fun _ => rfl
      quiet := fun _ => quiet
      idle := fun halted => (running waiting (by simp) halted).elim
      flagged := fun _ => locks.flagged (Or.inl (by simp [waiting]))
      halted := fun halts => halts.elim (by simp) fun halted =>
        (running waiting (by simp) halted).elim }
  | pop draining ready front =>
    have quiet := locks.quiet draining
    exact { locks with
      alone := (Writer.current_issue quiet.1 ready _).1
      drainer := fun _ => draining
      quiet := fun _ => ⟨by simpa using quiet.1, quiet.2⟩
      halted := fun halts => halts.elim (by simp [draining]) fun halted =>
        (running draining (by simp) halted).elim }
  | drained draining ready empty =>
    have nothing := Writer.current_eq_nil (locks.quiet draining).1 ready
    have accepted := books.accepted
    rw [books.issued, nothing, empty] at accepted
    exact { locks with
      drainer := fun busy => absurd ready busy
      quiet := by simp
      idle := fun halted => (running draining (by simp) halted).elim
      flagged := fun _ => locks.flagged (Or.inl (by simp [draining]))
      halted := fun _ => ⟨nothing, by simpa using accepted⟩ }
  | timedOut _ ready =>
    exact { locks with
      drainer := fun busy => absurd ready busy
      quiet := by simp
      idle := fun _ => rfl
      flagged := fun halts => locks.flagged (Or.inr (by simpa using halts))
      halted := fun halts => locks.halted (Or.inr (by simpa using halts)) }
  | stopped flushing =>
    exact { locks with
      drainer := fun busy => by simp [locks.drainer busy] at flushing
      quiet := by simp
      idle := fun _ => rfl
      flagged := fun _ => locks.flagged (Or.inl (by simp [flushing]))
      halted := fun _ => locks.halted (Or.inl flushing) }
  | _ => exact { locks with }

theorem invariant_of_reachable (reached : (system Event size).Reachable writer) :
    writer.Books writer.current ∧ writer.Locks := by
  rcases reached with ⟨_, labels, rfl, run⟩
  refine run.preserves (fun writer => writer.Books writer.current ∧ writer.Locks) ?_ ?_
  · intro writer action next holds step
    exact ⟨Step.books step holds.1 holds.2, Step.locks step holds.1 holds.2⟩
  · refine ⟨⟨rfl, rfl, rfl, rfl, .nil, by simp, by simp [Writer.current], by simp⟩, ?_⟩
    exact ⟨Or.inl rfl, by simp, by simp, by simp, by simp, by simp⟩

/-- Inserts are issued one at a time in the order of the queue, each committed row is handed to
the broker once, after its insert, and a failed insert or a dropped entry is remembered. -/
structure Writer.Orderly (writer : Writer Event) : Prop extends writer.Books writer.current where
  single : writer.current.length ≤ 1
  insertOrder : (writer.inserted.map Prod.fst).Sublist writer.issued
  /-- The broker lacks at most the row that the insert in progress has just committed. -/
  dispatchOrder : writer.inserted = writer.dispatched ∨
    ∃ event seq, ⟨event, .committed seq⟩ ∈ writer.current ∧
      writer.inserted = writer.dispatched ++ [(event, seq)]

/-- What a `stop` that is about to report success has seen to: each event accepted before the queue
was found empty was inserted and handed to the broker, or was locked by another node. -/
structure Writer.Complete (writer : Writer Event) : Prop where
  left : writer.accepted = writer.drained ++ writer.queue
  ended : writer.ended.map Prod.fst = writer.drained
  unfailed : ∀ ending ∈ writer.ended, ending.2 = .skipped ∨ ∃ seq, ending.2 = .delivered seq
  inserted : writer.inserted = writer.ended.filterMap deliveredRow
  dispatched : writer.dispatched = writer.ended.filterMap deliveredRow

theorem rows_of_ended (ended : List (Event × Outcome)) :
    ((ended.filterMap deliveredRow).map Prod.fst).Sublist (ended.map Prod.fst) := by
  induction ended with
  | nil => exact .slnil
  | cons ending ended ih =>
    rcases ending with ⟨event, outcome⟩
    cases outcome with
    | delivered seq => exact ih.cons_cons event
    | skipped | failed => exact ih.cons event

theorem Writer.orderly (books : writer.Books writer.current) (alone : writer.Alone) :
    writer.Orderly := by
  have single : writer.current.length ≤ 1 := by
    rcases alone with nothing | nothing
    · cases drain : writer.inserts .drain <;> simp [current, nothing, drain]
    · cases timer : writer.inserts .timer <;> simp [current, nothing, timer]
  refine ⟨books, single, ?_, ?_⟩
  · rw [books.inserted, books.issued, map_append]
    refine (rows_of_ended _).append ?_
    generalize writer.current = inserts at single ⊢
    rcases inserts with _ | ⟨⟨event, phase⟩, _ | _⟩
    · simp
    · cases phase <;> simp [Insert.row]
    · simp at single
  · rw [books.inserted, books.dispatched]
    generalize writer.current = inserts at single ⊢
    rcases inserts with _ | ⟨⟨event, phase⟩, _ | _⟩
    · exact Or.inl rfl
    · cases phase with
      | inserting | numbered | dispatched => exact Or.inl rfl
      | committed seq => exact Or.inr ⟨event, seq, by simp, by simp [Insert.row, Insert.handed]⟩
    · simp at single

theorem Step.succeeds (step : Step size writer action next) (success : action = .stopped true) :
    writer.deliveryFailed = false ∧ (writer.stopping = .flushing ∨ writer.running = false) := by
  cases step with
  | stopped flushing => exact ⟨by simpa using success, Or.inl flushing⟩
  | alreadyStopped _ halted => exact ⟨by simpa using success, Or.inr halted⟩
  | _ => simp at success

/-- Events are numbered and handed on in order, and a clean stop leaves none behind. -/
theorem eventsWriter_orderly (reached : (system Event size).Reachable writer) :
    writer.Orderly ∧ ∀ next, Step size writer (.stopped true) next → writer.Complete := by
  rcases invariant_of_reachable reached with ⟨books, locks⟩
  refine ⟨writer.orderly books locks.alone, ?_⟩
  intro next step
  rcases Step.succeeds step rfl with ⟨clean, halts⟩
  rcases locks.halted halts with ⟨nothing, isDrained⟩
  rw [nothing] at books
  refine ⟨?_, isDrained.symm, ?_, ?_, ?_⟩
  · simpa [isDrained, books.issued] using books.accepted
  · intro ending mem
    rcases ending with ⟨event, outcome⟩
    cases outcome with
    | skipped => exact Or.inl rfl
    | delivered seq => exact Or.inr ⟨seq, rfl⟩
    | failed => simp [books.remembered (.inl ⟨event, mem⟩)] at clean
  · simpa using books.inserted
  · simpa using books.dispatched

/-- The timer inserts the first event, and `drain_until` the second. -/
theorem deliveredEvent_orderly : ∃ writer next : Writer ℕ,
    (system ℕ 4).Reachable writer ∧ Step 4 writer (.stopped true) next ∧
      writer.dispatched = [(7, 1), (8, 3)] ∧ writer.Orderly ∧ writer.Complete := by
  have reached : (system ℕ 4).Reachable _ :=
    ⟨{}, _, rfl, .head (.enter rfl rfl) <| .head (@Step.push _ 4 _ 7 [] [] rfl (by decide)) <|
      .head (.enter rfl rfl) <| .head (@Step.push _ 4 _ 8 [] [] rfl (by decide)) <|
      .head (.drainOne (by simp [Writer.DispatchFree]) rfl ⟨rfl, rfl⟩ rfl) <|
      .head (@Step.insert _ 4 _ .timer _ 1 rfl (by decide)) <|
      .head (@Step.commit _ 4 _ .timer _ _ rfl) <|
      .head (@Step.dispatch _ 4 _ .timer _ _ rfl) <|
      .head (@Step.finish _ 4 _ .timer _ _ false rfl) <|
      .head (.stop rfl rfl) <| .head (.quiescent rfl ⟨rfl, rfl⟩) <|
      .head (.pop rfl rfl rfl) <| .head (@Step.insert _ 4 _ .drain _ 3 rfl (by decide)) <|
      .head (@Step.commit _ 4 _ .drain _ _ rfl) <|
      .head (@Step.dispatch _ 4 _ .drain _ _ rfl) <|
      .head (@Step.finish _ 4 _ .drain _ _ false rfl) <|
      .head (.drained rfl rfl rfl) <| .refl _⟩
  have orderly := eventsWriter_orderly reached
  exact ⟨_, _, reached, .stopped rfl, rfl, orderly.1, orderly.2 _ (.stopped rfl)⟩

/-- An event that another node has locked: `stop` reports success, and the event has neither been
inserted nor handed to the broker here. -/
theorem lockedEvent_lost : ¬ ∀ writer next : Writer ℕ,
    (system ℕ 4).Reachable writer → Step 4 writer (.stopped true) next →
      ∀ event ∈ writer.accepted, ∃ seq, (event, seq) ∈ writer.inserted ∧
        (event, seq) ∈ writer.dispatched := by
  intro complete
  have reached : (system ℕ 4).Reachable _ :=
    ⟨{}, _, rfl, .head (.enter rfl rfl) <| .head (@Step.push _ 4 _ 7 [] [] rfl (by decide)) <|
      .head (.drainOne (by simp [Writer.DispatchFree]) rfl ⟨rfl, rfl⟩ rfl) <|
      .head (@Step.skip _ 4 _ .timer _ rfl) <|
      .head (.stop rfl rfl) <| .head (.quiescent rfl ⟨rfl, rfl⟩) <|
      .head (.drained rfl rfl rfl) <| .refl _⟩
  rcases complete _ _ reached (.stopped rfl) 7 (mem_singleton_self 7) with ⟨seq, inserted, -⟩
  exact not_mem_nil inserted

end Plinth.Realtime.EventsWriter
