import Plinth.Realtime.Coalescer

/-!
# The coalescer loses no row unnoticed

For each table and operation, the rows that were counted are the rows in open windows and
buckets, in envelopes that were emitted, in scopes that were discarded and in windows that were
lost with a failed flush. This and what `shutdown` certifies rest on two things that the code
does not enforce: a write that has passed the test of `g_shutting_down` is counted before the
shutdown sets it, and the shutdown reads `g_discarded_flush_failed` when no other flush is
undecided.
-/

namespace Plinth.Realtime.Coalescer

open List Core

def WindowState.weight (key : WindowKey) (op : OpKind) (w : WindowState) : Nat :=
  if w.key = key then w.rows op else 0

open WindowState (weight)

def Write.weight (key : WindowKey) (op : OpKind) (write : Write) : Nat :=
  if write.key = key ∧ write.opKind = op then write.rowCount else 0

def Envelope.weight (key : WindowKey) (op : OpKind) (env : Envelope) : Nat :=
  if env.key = key then env.ops op else 0

def rowsIn (key : WindowKey) (op : OpKind) (windows : List WindowState) : Nat :=
  (windows.map (weight key op)).sum

section Rows

variable {key : WindowKey} {op : OpKind}

@[simp]
theorem rowsIn_nil : rowsIn key op [] = 0 := rfl

@[simp]
theorem rowsIn_cons (w : WindowState) (windows : List WindowState) :
    rowsIn key op (w :: windows) = w.weight key op + rowsIn key op windows := by
  simp [rowsIn]

@[simp]
theorem rowsIn_append (first second : List WindowState) :
    rowsIn key op (first ++ second) = rowsIn key op first + rowsIn key op second := by
  simp [rowsIn]

theorem rowsIn_perm {first second : List WindowState} (perm : first.Perm second) :
    rowsIn key op first = rowsIn key op second :=
  (perm.map _).sum_eq

/-- A window grows by the rows of the write. -/
theorem weight_add {w : WindowState} {write : Write} (same : w.key = write.key) :
    (w.add write).weight key op = w.weight key op + write.weight key op := by
  simp only [weight, Write.weight, WindowState.key_add, WindowState.rows_add, same]
  by_cases isKey : write.key = key <;> simp [isKey]

@[simp]
theorem weight_opens (write : Write) (now : Int) : (write.opens now).weight key op = 0 := by
  simp [weight]

/-- The envelope carries all the rows of the window. -/
theorem weight_flushSnapshot {setting : Setting} {w : WindowState} {windowMs : Option Nat}
    {result : Except NotifyError Unit} {env : Envelope}
    (flushed : flushSnapshot setting w windowMs result = .ok env) :
    env.weight key op = w.weight key op := by
  simp only [flushSnapshot] at flushed
  split at flushed
  · cases result with
    | ok _ =>
      cases flushed
      rfl
    | error _ => cases flushed
  · cases flushed

theorem total_upsert_add (windows : WindowMap) (write : Write) (now : Int) :
    (windows.upsert (((windows.find? write.key).getD (write.opens now)).add write)).total
        (weight key op) =
      windows.total (weight key op) + write.weight key op := by
  cases found : windows.find? write.key with
  | none =>
    rw [Option.getD_none, Table.total_upsert, WindowState.key_add,
      weight_add (write.key_opens now), weight_opens, write.key_opens,
      Table.erase_of_find?_eq_none found]
    omega
  | some w =>
    have same := (Table.find?_eq_some.mp found).2
    rw [Option.getD_some, Table.total_upsert, WindowState.key_add, weight_add same, same,
      Table.total_erase found]
    omega

/-- Windows put back keep their rows. -/
theorem rowsIn_restore {drained : List WindowState} (unique : (drained.map WindowState.key).Nodup)
    (windows : WindowMap) (apart : ∀ w ∈ drained, windows.find? w.key = none) :
    (drained.foldl Table.upsert windows).total (weight key op) =
      windows.total (weight key op) + rowsIn key op drained := by
  induction drained generalizing windows with
  | nil => simp
  | cons w drained ih =>
    rcases nodup_cons.mp unique with ⟨fresh, rest⟩
    rw [foldl_cons, ih rest, Table.total_upsert,
      Table.erase_of_find?_eq_none (apart w mem_cons_self), rowsIn_cons]
    · omega
    · intro other mem
      have different : other.key ≠ w.key := fun same =>
        fresh (same ▸ mem_map_of_mem mem)
      rw [Table.find?_upsert_of_ne _ different]
      exact apart other (mem_cons_of_mem _ mem)

end Rows

namespace Shared

/-- The rows that are stored, emitted, discarded or lost. -/
def balance (key : WindowKey) (op : OpKind) (s : Shared) : Nat :=
  s.windows.total (weight key op) +
    s.scopes.total (fun scope => scope.buckets.total (weight key op)) +
    (s.emitted.map (Envelope.weight key op)).sum + rowsIn key op s.discarded +
    rowsIn key op s.failed

def acceptedRows (key : WindowKey) (op : OpKind) (s : Shared) : Nat :=
  (s.accepted.map (Write.weight key op)).sum

variable {key : WindowKey} {op : OpKind} (s : Shared) (write : Write) (now : Int)

/-- A recorded write is balanced by the rows accepted for it. -/
theorem recordWindow_balance (hasLoop : Bool) :
    (s.recordWindow write now hasLoop).balance key op + s.acceptedRows key op =
      s.balance key op + (s.recordWindow write now hasLoop).acceptedRows key op := by
  have counted := @total_upsert_add key op s.windows write now
  simp only [recordWindow]
  cases found : s.windows.find? write.key
  all_goals
    rw [found] at counted
    dsimp only [Option.getD] at counted ⊢
    split
    · rfl
    simp only [balance, acceptedRows, map_append, sum_append, map_cons, map_nil, sum_cons, sum_nil,
      counted]
    omega

theorem recordBucket_balance :
    (s.recordBucket write now).balance key op + s.acceptedRows key op =
      s.balance key op + (s.recordBucket write now).acceptedRows key op := by
  have counted := @total_upsert_add key op (s.bucketsOf write.batchScopeId) write now
  have stored : s.scopes.total (fun scope => scope.buckets.total (weight key op)) =
      (s.bucketsOf write.batchScopeId).total (weight key op) +
        (s.scopes.erase write.batchScopeId).total
          (fun scope => scope.buckets.total (weight key op)) := by
    cases isScope : s.scopes.find? write.batchScopeId with
    | none =>
      rw [Table.erase_of_find?_eq_none isScope]
      simp [bucketsOf, isScope, Table.empty, Table.total]
    | some scope =>
      rw [Table.total_erase isScope]
      simp only [bucketsOf, isScope]
  simp only [recordBucket, balance, acceptedRows, map_append, sum_append, map_cons,
    map_nil, sum_cons, sum_nil, Table.total_upsert, counted, stored]
  omega

structure Counts (s t : Shared) : Prop where
  running : t.running = s.running
  shuttingDown : t.shuttingDown = s.shuttingDown
  flag : t.discardedFlushFailed = s.discardedFlushFailed
  failed : t.failed = s.failed

theorem recordWindow_counts (hasLoop : Bool) : s.Counts (s.recordWindow write now hasLoop) := by
  simp only [recordWindow]
  split <;> split <;> exact ⟨rfl, rfl, rfl, rfl⟩

theorem recordBucket_counts : s.Counts (s.recordBucket write now) :=
  ⟨rfl, rfl, rfl, rfl⟩

theorem emit_balance (env : Envelope) :
    (s.emit env).balance key op = s.balance key op + env.weight key op := by
  simp [emit, balance]
  omega

theorem lose_balance (w : WindowState) :
    (s.lose w).balance key op = s.balance key op + w.weight key op := by
  simp [lose, balance]
  omega

end Shared

def heldAfter : Option Flusher → List WindowState
  | none => []
  | some flusher => flusher.held

variable {flusher : Flusher}

theorem Flusher.claimed_eq_nil (none : flusher.held = []) : flusher.claimed = [] := by
  induction flusher with
  | flushing w next => cases none
  | failing next ih => exact ih none
  | _ => rfl

structure Flusher.Effect (s t : Shared) (flusher : Flusher) (next : Option Flusher) : Prop where
  accepted : t.accepted = s.accepted
  balance : ∀ key op, t.balance key op + rowsIn key op (heldAfter next) =
    s.balance key op + rowsIn key op flusher.held
  running : t.running = s.running
  shuttingDown : t.shuttingDown = s.shuttingDown
  scopes : t.scopes = s.scopes
  flag : s.discardedFlushFailed = true → t.discardedFlushFailed = true
  recorded : flusher.isFailing = true → t.discardedFlushFailed = true
  lost : t.failed = s.failed ∨ ∃ after, next = some after ∧ after.isFailing = true
  empty : s.windows.rows = [] → t.windows.rows = []
  idle : s.windows.rows = [] → flusher.held = [] → heldAfter next = [] ∧ t.failed = s.failed

/-- What one turn of a flusher can do. -/
theorem Flusher.step_effect {setting : Setting} {choice : Choice} {s t : Shared}
    {next : Option Flusher}
    (step : flusher.step setting choice s = some (next, t)) :
    Flusher.Effect s t flusher next := by
  have same : ∀ {after}, flusher.isFailing = false → flusher.held = [] → heldAfter after = [] →
      Flusher.Effect s s flusher after := by
    intro after notFailing held holdsNone
    exact ⟨rfl, by simp [held, holdsNone], rfl, rfl, rfl, id, by simp [notFailing], .inl rfl, id,
      fun _ _ => ⟨holdsNone, rfl⟩⟩
  have flushed : ∀ {w env rest after windowMs}, flusher.isFailing = false →
      flusher.held = w :: rest →
      heldAfter after = rest → flushSnapshot setting w windowMs choice.result = .ok env →
      Flusher.Effect s (s.emit env) flusher after := by
    intro w env rest after windowMs notFailing held holds isFlushed
    refine ⟨rfl, fun key op => ?_, rfl, rfl, rfl, id, by simp [notFailing], .inl rfl, id,
      by simp [held]⟩
    rw [Shared.emit_balance, weight_flushSnapshot isFlushed, held, rowsIn_cons, holds]
    omega
  have lost : ∀ {w rest after}, flusher.isFailing = false → flusher.held = w :: rest →
      after.held = rest → after.isFailing = true →
      Flusher.Effect s (s.lose w) flusher (some after) := by
    intro w rest after notFailing held holds fails
    refine ⟨rfl, fun key op => ?_, rfl, rfl, rfl, id, by simp [notFailing],
      .inr ⟨_, rfl, fails⟩, id, by simp [held]⟩
    rw [Shared.lose_balance, held, rowsIn_cons, heldAfter, holds]
    omega
  cases flusher with
  | listing name =>
    simp only [Flusher.step] at step
    split at step <;> cases step
    exact same rfl rfl rfl
  | claiming keys =>
    cases keys with
    | nil =>
      cases step
      exact same rfl rfl rfl
    | cons first keys =>
      simp only [Flusher.step, Shared.claimWindow] at step
      cases found : s.windows.find? first with
      | none =>
        rw [found] at step
        cases step
        exact same rfl rfl rfl
      | some w =>
        rw [found] at step
        cases step
        have nonempty : s.windows.rows ≠ [] :=
          ne_nil_of_mem (Table.find?_eq_some.mp found).1
        refine ⟨rfl, fun key op => ?_, rfl, rfl, rfl, id, by simp [isFailing], .inl rfl,
          fun empty => absurd empty nonempty, fun empty => absurd empty nonempty⟩
        simp only [Shared.balance, heldAfter, Flusher.held, rowsIn_cons, rowsIn_nil,
          Table.total_erase found]
        omega
  | flushing w rest =>
    simp only [Flusher.step] at step
    split at step <;> cases step
    · rename_i env isFlushed
      exact flushed rfl rfl rfl isFlushed
    · exact lost rfl rfl rfl rfl
  | emitting buckets =>
    cases buckets with
    | nil =>
      cases step
      exact same rfl rfl rfl
    | cons w buckets =>
      simp only [Flusher.step] at step
      split at step <;> cases step
      · rename_i env isFlushed
        exact flushed rfl rfl rfl isFlushed
      · exact lost rfl rfl rfl rfl
  | failing rest =>
    cases step
    exact ⟨rfl, fun _ _ => rfl, rfl, rfl, rfl, fun _ => rfl, fun _ => rfl, .inl rfl, id,
      fun _ none => ⟨none, rfl⟩⟩

namespace Registry

variable {setting : Setting} {s t : Registry} {label : Label}

inductive Steps (setting : Setting) (s : Registry) : Label → Registry → Prop where
  | skips {label : Label} : Steps setting s label s
  | admits {write : Write} (enabled : setting.enabled = true)
      (admitted : s.shared.shuttingDown = false) :
      Steps setting s (.recordWrite write) { s with writes := s.writes ++ [write] }
  | countsBucket {index : Nat} {now : Int} {write : Write} (found : s.writes[index]? = some write)
      (inBatch : write.batchScopeId ≠ 0) :
      Steps setting s (.lockWrite index now)
        { s with
          writes := s.writes.eraseIdx index
          shared := s.shared.recordBucket write now }
  | countsWindow {index : Nat} {now : Int} {write : Write} {hasLoop : Bool}
      (found : s.writes[index]? = some write) (plain : write.batchScopeId = 0) :
      Steps setting s (.lockWrite index now)
        { s with
          writes := s.writes.eraseIdx index
          shared := s.shared.recordWindow write now hasLoop }
  | fires {index : Nat} {key : WindowKey} {timers : List WindowKey} (idle : s.loop = .idle) :
      Steps setting s (.fireTimer index)
        { s with loop := .runs (.claiming [key]), shared := { s.shared with timers } }
  | flushes {label : Label} {choice : Choice} {flusher : Flusher} {next : Option Flusher}
      {flushers : List Flusher} {loop : LoopThread} {shared : Shared} (rest : List Flusher)
      (before : s.calls.Perm (flusher :: rest))
      (after : (loop.callbacks ++ flushers).Perm (next.toList ++ rest))
      (step : flusher.step setting choice s.shared = some (next, shared))
      (stopped : s.loop = .stopped → loop = .stopped) :
      Steps setting s label { s with loop, flushers, shared }
  | lists {name : String} :
      Steps setting s (.drainExtension name) { s with flushers := s.flushers ++ [.listing name] }
  | takesScope {id : Nat} {order : List WindowState} {scope : Scope}
      (found : s.shared.scopes.find? id = some scope) (perm : order.Perm scope.buckets.rows) :
      Steps setting s (.flushBatchScope id order)
        { s with
          flushers := s.flushers ++ [.emitting order]
          shared := { s.shared with scopes := s.shared.scopes.erase id } }
  | discards {id : Nat} {scope : Scope} (found : s.shared.scopes.find? id = some scope) :
      Steps setting s (.discardBatchScope id)
        { s with
          shared := { s.shared with
            scopes := s.shared.scopes.erase id
            discarded := s.shared.discarded ++ scope.buckets.rows } }
  | shutsDown (free : s.shutdown = none) :
      Steps setting s .shutdown { s with shutdown := some .begins }
  | goes {choice : Choice} {phase next : ShutdownPhase} {loop : LoopThread} {shared : Shared}
      (held : s.shutdown = some phase)
      (step : phase.step setting choice s.loop s.shared = some (.goes next, loop, shared)) :
      Steps setting s (.shutdownStep choice) { s with loop, shared, shutdown := some next }
  | returns {choice : Choice} {phase : ShutdownPhase} {value : Bool} {loop : LoopThread}
      {shared : Shared} (held : s.shutdown = some phase)
      (step : phase.step setting choice s.loop s.shared = some (.returns value, loop, shared)) :
      Steps setting s (.shutdownStep choice)
        { s with
          loop
          shared
          shutdown := none
          returns := s.returns ++ [⟨value, shared.failed,
            Registry.openWindows { s with loop, shared }⟩] }

theorem exec_steps (step : s.exec setting label = some t) : Steps setting s label t := by
  cases label with
  | recordWrite write =>
    simp only [exec] at step
    split at step
    · cases step
      exact .skips
    rename_i admitted
    simp only [Bool.or_eq_true, Bool.not_eq_true', not_or, Bool.not_eq_false,
      Bool.not_eq_true] at admitted
    split at step <;> cases step
    · exact .skips
    · exact .admits admitted.1 admitted.2
  | lockWrite index now =>
    rcases Option.map_eq_some_iff.mp step with ⟨write, found, rfl⟩
    by_cases inBatch : write.batchScopeId ≠ 0
    · simp only [if_pos inBatch]
      exact .countsBucket found inBatch
    · simp only [if_neg inBatch]
      exact .countsWindow found (not_not.mp inBatch)
  | fireTimer index =>
    simp only [exec] at step
    split at step
    · rename_i key idle _
      cases step
      exact .fires idle
    · cases step
  | loopStep choice =>
    simp only [exec] at step
    split at step
    · rename_i callback running
      rcases Option.map_eq_some_iff.mp step with ⟨⟨next, shared⟩, isStep, rfl⟩
      refine .flushes s.flushers ?_ ?_ isStep (by simp [running])
      · simp [running, LoopThread.callbacks]
      · cases next <;> simp [LoopThread.callbacks]
    · cases step
  | drainExtension name =>
    simp only [exec] at step
    split at step <;> cases step
    · exact .lists
    · exact .skips
  | flushBatchScope id order =>
    simp only [exec] at step
    split at step
    · cases step
      exact .skips
    split at step
    · cases step
      exact .skips
    · rename_i scope found
      rcases of_guard step with ⟨perm, rfl⟩
      exact .takesScope found perm
  | discardBatchScope id =>
    simp only [exec] at step
    split at step
    · cases step
      exact .skips
    split at step <;> cases step
    · exact .skips
    · rename_i scope found
      exact .discards found
  | flusherStep index choice =>
    simp only [exec] at step
    split at step
    · cases step
    rename_i flusher found
    rcases Option.map_eq_some_iff.mp step with ⟨⟨next, shared⟩, isStep, rfl⟩
    rcases List.getElem?_eq_some_iff.mp found with ⟨bound, rfl⟩
    refine .flushes (s.loop.callbacks ++ s.flushers.eraseIdx index) ?_ ?_ isStep id
    · exact (List.Perm.append_left _ (getElem_cons_eraseIdx_perm bound).symm).trans
        perm_middle
    · cases next with
      | none => exact .refl _
      | some next =>
        exact (List.Perm.append_left _ (set_perm_cons_eraseIdx bound next)).trans
          perm_middle
  | shutdown =>
    rcases of_guard step with ⟨free, rfl⟩
    exact .shutsDown (Option.isNone_iff_eq_none.mp free)
  | shutdownStep choice =>
    simp only [exec] at step
    split at step
    · cases step
    rename_i phase held
    rcases Option.map_eq_some_iff.mp step with ⟨⟨next, loop, shared⟩, isStep, rfl⟩
    cases next with
    | goes next => exact .goes held isStep
    | returns value => exact .returns held isStep

def drained (s : Registry) : List WindowState :=
  match s.shutdown with
  | none => []
  | some phase => phase.held

def inFlight (s : Registry) : List WindowState := s.calls.flatMap Flusher.held ++ s.drained

/-- The rows in open windows and in the buckets of scopes, those that a call has taken and not
yet flushed included. -/
def openRows (key : WindowKey) (op : OpKind) (s : Registry) : Nat :=
  s.shared.windows.total (weight key op) +
    s.shared.scopes.total (fun scope => scope.buckets.total (weight key op)) +
    rowsIn key op s.inFlight

/-- No row is lost unnoticed, and a shutdown certifies only that nothing was lost and that no
window is open. -/
structure Sound (s : Registry) : Prop where
  conserves : ∀ key op, (s.shared.accepted.map (Write.weight key op)).sum =
    s.openRows key op + (s.shared.emitted.map (Envelope.weight key op)).sum +
      rowsIn key op s.shared.discarded + rowsIn key op s.shared.failed
  certified : ∀ ret ∈ s.returns, ret.value = true → ret.failed = [] ∧ ret.windows = []

/-- A write of no batch is counted before the shutdown sets its flag, and the shutdown reads
whether a flush has failed when no other call holds a window of the map or has a failure to
record. -/
def Careful (s : Registry) : Label → Prop
  | .lockWrite index _ =>
    ∀ write, s.writes[index]? = some write → write.batchScopeId = 0 → s.shared.shuttingDown = false
  | .shutdownStep _ =>
    s.shutdown = some .readsFlag →
      ∀ flusher ∈ s.flushers, flusher.claimed = [] ∧ flusher.isFailing = false
  | _ => True

structure Closed (loop : LoopThread) (s : Shared) : Prop where
  shuttingDown : s.shuttingDown = true
  loop : loop = .stopped
  windows : s.windows.rows = []

/-- A shutdown that has set its flag and has not succeeded. -/
structure Underway (setting : Setting) (s : Shared) : Prop where
  enabled : setting.enabled = true
  running : s.running = true
  shuttingDown : s.shuttingDown = true

def Fits (setting : Setting) (loop : LoopThread) (s : Shared) : ShutdownPhase → Prop
  | .begins => True
  | .setsFlag => s.running = true
  | .disables => s.shuttingDown = true ∧ setting.enabled = false
  | .joins => Underway setting s
  | .checksDeadline => Underway setting s ∧ loop = .stopped
  | .drains => Underway setting s ∧ loop = .stopped
  | .flushing drained =>
    Underway setting s ∧ Closed loop s ∧ (drained.map WindowState.key).Nodup
  | .restoring drained =>
    Underway setting s ∧ Closed loop s ∧ (drained.map WindowState.key).Nodup
  | .readsFlag => s.running = false

structure Inert (s : Registry) : Prop where
  writes : s.writes = []
  windows : s.shared.windows.rows = []
  scopes : s.shared.scopes.rows = []
  failed : s.shared.failed = []
  loop : s.loop = .stopped
  calls : ∀ flusher ∈ s.calls, flusher.held = []

structure Guarded (setting : Setting) (s : Registry) : Prop where
  conserves : ∀ key op, s.shared.acceptedRows key op =
    s.shared.balance key op + rowsIn key op s.inFlight
  recorded : s.shared.failed = [] ∨ s.shared.discardedFlushFailed = true ∨
    ∃ flusher ∈ s.calls, flusher.isFailing = true
  closed : s.shared.running = false → Closed s.loop s.shared
  fits : ∀ phase, s.shutdown = some phase → Fits setting s.loop s.shared phase
  inert : setting.enabled = false → s.Inert
  certified : ∀ ret ∈ s.returns, ret.value = true → ret.failed = [] ∧ ret.windows = []

theorem IsStarted.guarded (started : s.IsStarted setting) : s.Guarded setting where
  conserves key op := by
    have callbacks : s.loop.callbacks = [] := by
      rw [started.loop]
      split <;> rfl
    simp [Shared.acceptedRows, Shared.balance, Table.total, inFlight, drained, started.accepted,
      started.windows, started.scopes, started.emitted, started.discarded, started.failed,
      started.flushers, started.shutdown, callbacks]
  recorded := .inl started.failed
  closed stopped := by
    rw [started.running] at stopped
    cases stopped
  fits := by simp [started.shutdown]
  inert disabled := by
    have loop : s.loop = .stopped := by simp [started.loop, disabled]
    exact ⟨started.writes, started.windows, started.scopes, started.failed, loop,
      by simp [loop, LoopThread.callbacks, started.flushers]⟩
  certified := by simp [started.returns]

/-- A guarded registry has lost no row without counting it. -/
theorem Guarded.sound (guarded : s.Guarded setting) : s.Sound where
  conserves key op := by
    have conserved := guarded.conserves key op
    simp only [Shared.acceptedRows, Shared.balance] at conserved
    simp only [openRows]
    omega
  certified := guarded.certified

def heldNext : ShutdownNext → List WindowState
  | .goes phase => phase.held
  | .returns _ => []

structure PhaseEffect (setting : Setting) (loop : LoopThread) (s : Shared) (phase : ShutdownPhase)
    (next : ShutdownNext) (loopAfter : LoopThread) (t : Shared) : Prop where
  callbacks : loopAfter.callbacks = loop.callbacks
  stopped : loop = .stopped → loopAfter = .stopped
  accepted : t.accepted = s.accepted
  failed : t.failed = s.failed
  flag : t.discardedFlushFailed = s.discardedFlushFailed
  scopes : t.scopes = s.scopes
  balance : ∀ key op, t.balance key op + rowsIn key op (heldNext next) =
    s.balance key op + rowsIn key op phase.held
  closed : t.running = false → Closed loopAfter t
  fits : ∀ after, next = .goes after → Fits setting loopAfter t after
  empty : setting.enabled = false → s.windows.rows = [] → t.windows.rows = []

variable {choice : Choice} {loop : LoopThread} {shared : Shared} {phase : ShutdownPhase}

/-- What one turn of the shutdown can do. -/
theorem phase_effect {loopAfter : LoopThread} {after : Shared} {next : ShutdownNext}
    (fits : Fits setting loop shared phase) (closed : shared.running = false → Closed loop shared)
    (inert : setting.enabled = false → loop = .stopped ∧ shared.windows.rows = [])
    (step : phase.step setting choice loop shared = some (next, loopAfter, after)) :
    PhaseEffect setting loop shared phase next loopAfter after := by
  cases phase with
  | begins =>
    cases step
    refine ⟨rfl, id, rfl, rfl, rfl, rfl, ?_, closed, ?_, fun _ empty => empty⟩
    · intro key op
      cases shared.running <;> rfl
    · rintro _ ⟨⟩
      cases isRunning : shared.running with
      | true | false => exact isRunning
  | setsFlag =>
    cases step
    refine ⟨rfl, id, rfl, rfl, rfl, rfl, ?_, ?_, ?_, fun _ empty => empty⟩
    · intro key op
      cases setting.enabled <;> rfl
    · exact fun stopped => ⟨rfl, (closed stopped).loop, (closed stopped).windows⟩
    · rintro _ ⟨⟩
      cases isEnabled : setting.enabled with
      | true => exact ⟨isEnabled, fits, rfl⟩
      | false => exact ⟨rfl, isEnabled⟩
  | disables =>
    cases step
    exact ⟨rfl, id, rfl, rfl, rfl, rfl, fun _ _ => rfl,
      fun _ => ⟨fits.1, (inert fits.2).1, (inert fits.2).2⟩, fun _ isNext => (by cases isNext),
      fun _ empty => empty⟩
  | joins =>
    simp only [ShutdownPhase.step] at step
    split at step
    · cases step
    rename_i waits
    cases step
    refine ⟨?_, fun _ => rfl, rfl, rfl, rfl, rfl, fun _ _ => rfl, ?_, ?_, fun _ empty => empty⟩
    · cases loop with
      | runs callback => exact absurd rfl (waits callback)
      | _ => rfl
    · exact fun stopped => ⟨fits.shuttingDown, rfl, (closed stopped).windows⟩
    · rintro _ ⟨⟩
      exact ⟨fits, rfl⟩
  | checksDeadline =>
    cases step
    refine ⟨rfl, id, rfl, rfl, rfl, rfl, ?_, closed, ?_, fun _ empty => empty⟩
    · intro key op
      cases choice.expired <;> rfl
    · intro after isNext
      split at isNext
      · cases isNext
      · rcases isNext with ⟨⟩
        exact fits
  | drains =>
    simp only [ShutdownPhase.step] at step
    split at step
    · rename_i perm
      cases step
      have nowClosed : Closed loop { shared with windows := .empty } :=
        ⟨fits.1.shuttingDown, fits.2, rfl⟩
      refine ⟨rfl, id, rfl, rfl, rfl, rfl, ?_, fun _ => nowClosed, ?_, fun _ _ => rfl⟩
      · intro key op
        have same : rowsIn key op choice.order = rowsIn key op shared.windows.rows :=
          rowsIn_perm perm
        simp only [Shared.balance, heldNext, ShutdownPhase.held, Table.total,
          Table.empty, rowsIn_nil, same]
        simp only [rowsIn, map_nil, sum_nil]
        omega
      · rintro _ ⟨⟩
        exact ⟨⟨fits.1.enabled, fits.1.running, fits.1.shuttingDown⟩, nowClosed,
          (perm.map _).nodup_iff.mpr shared.windows.unique⟩
    · cases step
  | flushing drained =>
    rcases fits with ⟨underway, isClosed, unique⟩
    cases drained with
    | nil =>
      cases step
      refine ⟨rfl, id, rfl, rfl, rfl, rfl, fun _ _ => rfl, ?_, ?_, fun _ empty => empty⟩
      · exact fun _ => ⟨isClosed.shuttingDown, isClosed.loop, isClosed.windows⟩
      · rintro _ ⟨⟩
        rfl
    | cons w drained =>
      simp only [ShutdownPhase.step] at step
      split at step
      · cases step
        refine ⟨rfl, id, rfl, rfl, rfl, rfl, fun _ _ => rfl, closed, ?_, fun _ empty => empty⟩
        rintro _ ⟨⟩
        exact ⟨underway, isClosed, unique⟩
      · split at step <;> cases step
        · rename_i env flushed
          have stillClosed : Closed loop (shared.emit env) :=
            ⟨isClosed.shuttingDown, isClosed.loop, isClosed.windows⟩
          refine ⟨rfl, id, rfl, rfl, rfl, rfl, ?_, fun _ => stillClosed, ?_, fun _ empty => empty⟩
          · intro key op
            rw [Shared.emit_balance, weight_flushSnapshot flushed, heldNext,
              ShutdownPhase.held, ShutdownPhase.held, rowsIn_cons]
            omega
          · rintro _ ⟨⟩
            exact ⟨⟨underway.enabled, underway.running, underway.shuttingDown⟩, stillClosed,
              (nodup_cons.mp unique).2⟩
        · refine ⟨rfl, id, rfl, rfl, rfl, rfl, fun _ _ => rfl, closed, ?_, fun _ empty => empty⟩
          rintro _ ⟨⟩
          exact ⟨underway, isClosed, unique⟩
  | restoring drained =>
    rcases fits with ⟨underway, isClosed, unique⟩
    cases step
    refine ⟨rfl, id, rfl, rfl, rfl, rfl, ?_, ?_, fun _ isNext => (by cases isNext), ?_⟩
    · intro key op
      have free : ∀ w ∈ drained, shared.windows.find? w.key = none := fun w _ =>
        Table.find?_eq_none.mpr (by simp [Table.mem_rows, isClosed.windows])
      simp only [Shared.balance, rowsIn_restore unique shared.windows free, heldNext,
        ShutdownPhase.held, rowsIn_nil]
      omega
    · intro stopped
      rw [underway.running] at stopped
      cases stopped
    · intro disabled
      rw [underway.enabled] at disabled
      cases disabled
  | readsFlag =>
    cases step
    exact ⟨rfl, id, rfl, rfl, rfl, rfl, fun _ _ => rfl, closed, fun _ isNext => (by cases isNext),
      fun _ empty => empty⟩

structure Keeps (s t : Registry) : Prop where
  shutdown : t.shutdown = s.shutdown
  returns : t.returns = s.returns
  running : t.shared.running = s.shared.running
  shuttingDown : t.shared.shuttingDown = s.shared.shuttingDown
  stopped : s.loop = .stopped → t.loop = .stopped
  empty : s.shared.shuttingDown = true → s.shared.windows.rows = [] → t.shared.windows.rows = []

theorem Closed.keep (closed : Closed s.loop s.shared) (keeps : s.Keeps t) :
    Closed t.loop t.shared :=
  ⟨keeps.shuttingDown.trans closed.shuttingDown, keeps.stopped closed.loop,
    keeps.empty closed.shuttingDown closed.windows⟩

theorem Underway.keep (underway : Underway setting s.shared) (keeps : s.Keeps t) :
    Underway setting t.shared :=
  ⟨underway.enabled, keeps.running.trans underway.running,
    keeps.shuttingDown.trans underway.shuttingDown⟩

theorem Fits.keep (fits : Fits setting s.loop s.shared phase) (keeps : s.Keeps t) :
    Fits setting t.loop t.shared phase := by
  cases phase with
  | begins => trivial
  | setsFlag | readsFlag => exact keeps.running.trans fits
  | disables => exact ⟨keeps.shuttingDown.trans fits.1, fits.2⟩
  | joins => exact Underway.keep fits keeps
  | checksDeadline | drains => exact ⟨fits.1.keep keeps, keeps.stopped fits.2⟩
  | flushing | restoring => exact ⟨fits.1.keep keeps, fits.2.1.keep keeps, fits.2.2⟩

section

variable (guarded : s.Guarded setting)
include guarded

theorem Guarded.keep {old new rest : List Flusher} (before : s.calls.Perm (old ++ rest))
    (after : t.calls.Perm (new ++ rest)) (keeps : s.Keeps t)
    (conserves : ∀ key op, t.shared.acceptedRows key op + s.shared.balance key op +
      rowsIn key op (old.flatMap Flusher.held) = s.shared.acceptedRows key op +
        t.shared.balance key op + rowsIn key op (new.flatMap Flusher.held))
    (lost : t.shared.failed = s.shared.failed ∨ ∃ flusher ∈ new, flusher.isFailing)
    (flag : (s.shared.discardedFlushFailed ∨ ∃ flusher ∈ old, flusher.isFailing) →
      t.shared.discardedFlushFailed)
    (inert : s.Inert → setting.enabled = false → t.writes = [] ∧ t.shared.windows.rows = [] ∧
      t.shared.scopes.rows = [] ∧ t.shared.failed = [] ∧ ∀ flusher ∈ new, flusher.held = []) :
    t.Guarded setting where
  conserves key op := by
    have was := guarded.conserves key op
    have change := conserves key op
    have drained : t.drained = s.drained := by simp only [Registry.drained, keeps.shutdown]
    simp only [inFlight, rowsIn_append, rowsIn_perm (before.flatMap_right Flusher.held),
      rowsIn_perm (after.flatMap_right Flusher.held), flatMap_append, drained] at was ⊢
    omega
  recorded := by
    rcases lost with same | ⟨flusher, mem, isFailing⟩
    · rcases guarded.recorded with none | isSet | ⟨flusher, mem, isFailing⟩
      · exact .inl (same.trans none)
      · exact .inr (.inl (flag (.inl isSet)))
      · rcases mem_append.mp (before.mem_iff.mp mem) with gone | stays
        · exact .inr (.inl (flag (.inr ⟨flusher, gone, isFailing⟩)))
        · exact .inr (.inr ⟨flusher, after.mem_iff.mpr (mem_append_right _ stays), isFailing⟩)
    · exact .inr (.inr ⟨flusher, after.mem_iff.mpr (mem_append_left _ mem), isFailing⟩)
  closed stopped := (guarded.closed (keeps.running.symm.trans stopped)).keep keeps
  fits phase held := (guarded.fits phase (keeps.shutdown.symm.trans held)).keep keeps
  inert disabled := by
    have was := guarded.inert disabled
    rcases inert was disabled with ⟨writes, windows, scopes, failed, idle⟩
    refine ⟨writes, windows, scopes, failed, keeps.stopped was.loop, fun flusher mem => ?_⟩
    rcases mem_append.mp (after.mem_iff.mp mem) with isNew | stays
    · exact idle flusher isNew
    · exact was.calls flusher (before.mem_iff.mpr (mem_append_right _ stays))
  certified := by
    rw [keeps.returns]
    exact guarded.certified

/-- A recorded write keeps the registry guarded. -/
theorem Guarded.count {writes : List Write} {index : Nat}
    {write : Write} (found : s.writes[index]? = some write) (counts : s.shared.Counts shared)
    (empty : s.shared.shuttingDown → s.shared.windows.rows = [] → shared.windows.rows = [])
    (balance : ∀ key op, shared.balance key op + s.shared.acceptedRows key op =
      s.shared.balance key op + shared.acceptedRows key op) :
    Guarded setting { s with writes, shared } := by
  refine guarded.keep (.refl ([] ++ s.calls)) (.refl ([] ++ s.calls))
    ⟨rfl, rfl, counts.running, counts.shuttingDown, id, empty⟩ ?_ (.inl counts.failed) ?_ ?_
  · intro key op
    have change := balance key op
    simp only
    omega
  · simp [counts.flag]
  · intro inert
    simp [inert.writes] at found

/-- So does a turn of a flusher. -/
theorem Guarded.flush {next : Option Flusher}
    {flushers : List Flusher} {rest : List Flusher} (before : s.calls.Perm (flusher :: rest))
    (after : (loop.callbacks ++ flushers).Perm (next.toList ++ rest))
    (step : flusher.step setting choice s.shared = some (next, shared))
    (stopped : s.loop = .stopped → loop = .stopped) :
    Guarded setting { s with loop, flushers, shared } := by
  have effect := Flusher.step_effect step
  have nextHeld : next.toList.flatMap Flusher.held = heldAfter next := by
    cases next <;> simp [heldAfter]
  refine guarded.keep (show s.calls.Perm ([flusher] ++ rest) from before) after ⟨rfl, rfl,
    effect.running, effect.shuttingDown, stopped, fun _ empty => effect.empty empty⟩ ?_ ?_ ?_ ?_
  · intro key op
    have balance := effect.balance key op
    simp only [Shared.acceptedRows, effect.accepted, nextHeld, flatMap_singleton]
    omega
  · exact effect.lost.imp_right fun ⟨failing, isNext, isFailing⟩ =>
      ⟨failing, by simp [isNext], isFailing⟩
  · rintro (flag | ⟨other, mem, isFailing⟩)
    · exact effect.flag flag
    · rcases mem_singleton.mp mem with rfl
      exact effect.recorded isFailing
  · intro inert _
    have holdsNone := inert.calls flusher (before.mem_iff.mpr mem_cons_self)
    rcases effect.idle inert.windows holdsNone with ⟨nextNone, sameFailed⟩
    refine ⟨inert.writes, effect.empty inert.windows, effect.scopes ▸ inert.scopes,
      sameFailed.trans inert.failed, ?_⟩
    rw [← nextHeld] at nextNone
    exact flatMap_eq_nil_iff.mp nextNone

theorem Guarded.begin
    (counts : s.shared.Counts shared) (windows : shared.windows = s.shared.windows)
    (accepted : shared.accepted = s.shared.accepted)
    (balance : ∀ key op, shared.balance key op + rowsIn key op flusher.held =
      s.shared.balance key op)
    (inert : s.Inert → flusher.held = [] ∧ shared.scopes.rows = []) :
    Guarded setting { s with flushers := s.flushers ++ [flusher], shared } := by
  refine guarded.keep (.refl ([] ++ s.calls)) (?_ : List.Perm _ ([flusher] ++ s.calls))
    ⟨rfl, rfl, counts.running, counts.shuttingDown, id, fun _ empty => windows ▸ empty⟩ ?_
    (.inl counts.failed) ?_ ?_
  · simp only [calls, ← append_assoc]
    exact perm_append_singleton _ _
  · intro key op
    have taken := balance key op
    simp only [Shared.acceptedRows, accepted, flatMap_singleton, flatMap_nil, rowsIn_nil]
    omega
  · simp [counts.flag]
  · intro isInert _
    exact ⟨isInert.writes, windows ▸ isInert.windows, (inert isInert).2,
      counts.failed.trans isInert.failed, by simpa using (inert isInert).1⟩

theorem Guarded.certifies (held : s.shutdown = some phase)
    (careful : s.Careful (.shutdownStep choice))
    (step : phase.step setting choice s.loop s.shared = some (.returns true, loop, shared)) :
    shared.failed = [] ∧ openWindows { s with loop, shared } = [] := by
  cases phase with
  | disables =>
    cases step
    have inert := guarded.inert (guarded.fits _ held).2
    refine ⟨inert.failed, ?_⟩
    simp only [openWindows, inert.windows, nil_append, flatMap_eq_nil_iff]
    exact fun flusher mem => Flusher.claimed_eq_nil (inert.calls flusher mem)
  | readsFlag =>
    simp only [ShutdownPhase.step, Option.some.injEq, Prod.mk.injEq, ShutdownNext.returns.injEq,
      Bool.not_eq_eq_eq_not, Bool.not_true] at step
    rcases step with ⟨noFlag, rfl, rfl⟩
    have closed := guarded.closed (guarded.fits _ held)
    have calls : s.calls = s.flushers := by simp [closed.loop, LoopThread.callbacks]
    have quiet := careful held
    constructor
    · rcases guarded.recorded with none | flag | ⟨flusher, mem, isFailing⟩
      · exact none
      · rw [noFlag] at flag
        cases flag
      · rw [(quiet flusher (calls ▸ mem)).2] at isFailing
        cases isFailing
    · have noClaims : s.calls.flatMap Flusher.claimed = [] := by
        rw [calls]
        exact flatMap_eq_nil_iff.mpr fun flusher mem => (quiet flusher mem).1
      simp only [openWindows, closed.windows, nil_append]
      exact noClaims
  | begins | setsFlag | restoring => simp [ShutdownPhase.step] at step
  | joins | checksDeadline | drains =>
    simp only [ShutdownPhase.step] at step
    split at step <;> simp at step
  | flushing drained =>
    cases drained with
    | nil => simp [ShutdownPhase.step] at step
    | cons w drained =>
      simp only [ShutdownPhase.step] at step
      split at step
      · simp at step
      · split at step <;> simp at step

theorem Guarded.advance {next : ShutdownNext} (held : s.shutdown = some phase)
    (step : phase.step setting choice s.loop s.shared = some (next, loop, shared))
    {shutdown : Option ShutdownPhase} {returns : List Return}
    (goes : ∀ after, shutdown = some after → next = .goes after)
    (isHeld : heldNext next = (shutdown.map ShutdownPhase.held).getD [])
    (certified : ∀ ret ∈ returns, ret.value → ret.failed = [] ∧ ret.windows = []) :
    Guarded setting { s with loop, shared, shutdown, returns } := by
  have effect := phase_effect (guarded.fits phase held) guarded.closed
    (fun disabled => ⟨(guarded.inert disabled).loop, (guarded.inert disabled).windows⟩) step
  have calls : loop.callbacks ++ s.flushers = s.calls := by
    rw [effect.callbacks]
    rfl
  refine ⟨?_, ?_, effect.closed, ?_, ?_, certified⟩
  · intro key op
    have before := guarded.conserves key op
    have change := effect.balance key op
    have isDrained : drained { s with loop, shared, shutdown, returns } = heldNext next := by
      rw [isHeld]
      cases shutdown <;> rfl
    have wasDrained : s.drained = phase.held := by simp [drained, held]
    simp only [inFlight, rowsIn_append, wasDrained] at before
    simp only [inFlight, rowsIn_append, isDrained, Registry.calls, calls]
    simp only [Shared.acceptedRows, effect.accepted] at before ⊢
    simp only [Registry.calls] at before
    omega
  · simp only [Registry.calls, calls, effect.failed, effect.flag]
    exact guarded.recorded
  · exact fun after isNext => effect.fits after (goes after isNext)
  · intro disabled
    have inert := guarded.inert disabled
    refine ⟨inert.writes, effect.empty disabled inert.windows, effect.scopes ▸ inert.scopes,
      effect.failed.trans inert.failed, effect.stopped inert.loop, ?_⟩
    simp only [Registry.calls, calls]
    exact inert.calls

/-- Every careful step keeps the registry guarded. -/
theorem Guarded.step (careful : s.Careful label)
    (steps : Steps setting s label t) : t.Guarded setting := by
  cases steps with
  | skips => exact guarded
  | admits enabled =>
    refine guarded.keep (.refl ([] ++ s.calls)) (.refl ([] ++ s.calls))
      ⟨rfl, rfl, rfl, rfl, id, fun _ empty => empty⟩ (fun _ _ => rfl) (.inl rfl) (by simp)
      fun _ disabled => ?_
    rw [enabled] at disabled
    cases disabled
  | countsBucket found inBatch =>
    exact guarded.count found (s.shared.recordBucket_counts _ _) (fun _ empty => empty)
      fun key op => s.shared.recordBucket_balance _ _
  | countsWindow found plain =>
    refine guarded.count found (s.shared.recordWindow_counts _ _ _) ?_
      fun key op => s.shared.recordWindow_balance _ _ _
    intro shuttingDown
    rw [careful _ found plain] at shuttingDown
    cases shuttingDown
  | @fires index key timers idle =>
    refine guarded.keep (.refl ([] ++ s.calls)) (?_ : List.Perm _ ([.claiming [key]] ++ s.calls))
      ⟨rfl, rfl, rfl, rfl, by simp [idle], fun _ empty => empty⟩ ?_ (.inl rfl) (by simp) ?_
    · simp [idle, LoopThread.callbacks]
    · exact fun _ _ => rfl
    · intro inert
      rw [inert.loop] at idle
      cases idle
  | flushes rest before after step stopped => exact guarded.flush before after step stopped
  | lists =>
    exact guarded.begin ⟨rfl, rfl, rfl, rfl⟩ rfl rfl (fun _ _ => rfl)
      fun inert => ⟨rfl, inert.scopes⟩
  | takesScope found perm =>
    refine guarded.begin ⟨rfl, rfl, rfl, rfl⟩ rfl rfl ?_ ?_
    · intro key op
      have same : rowsIn key op _ = rowsIn key op _ := rowsIn_perm perm
      simp only [Shared.balance, Flusher.held, same, Table.total_erase found]
      simp only [rowsIn, Table.total]
      omega
    · intro inert
      have mem := (Table.find?_eq_some.mp found).1
      rw [Table.mem_rows, inert.scopes] at mem
      cases mem
  | discards found =>
    refine guarded.keep (.refl ([] ++ s.calls)) (.refl ([] ++ s.calls))
      ⟨rfl, rfl, rfl, rfl, id, fun _ empty => empty⟩ ?_ (.inl rfl) (by simp) ?_
    · intro key op
      simp only [Shared.acceptedRows, Shared.balance, Table.total_erase found, rowsIn_append]
      simp only [rowsIn, Table.total]
      omega
    · intro inert
      have mem := (Table.find?_eq_some.mp found).1
      rw [Table.mem_rows, inert.scopes] at mem
      cases mem
  | shutsDown free =>
    refine ⟨?_, guarded.recorded, guarded.closed, ?_, ?_, guarded.certified⟩
    · intro key op
      have before := guarded.conserves key op
      simpa [inFlight, drained, free, ShutdownPhase.held] using before
    · rintro phase ⟨⟩
      trivial
    · intro disabled
      have inert := guarded.inert disabled
      exact ⟨inert.writes, inert.windows, inert.scopes, inert.failed, inert.loop, inert.calls⟩
  | goes held step =>
    exact guarded.advance held step (fun _ isNext => by rw [Option.some.inj isNext]) rfl
      guarded.certified
  | returns held step =>
    refine guarded.advance held step (fun _ isNone => by cases isNone) rfl ?_
    intro ret mem value
    rcases mem_append.mp mem with old | new
    · exact guarded.certified ret old value
    · rcases mem_singleton.mp new with rfl
      rcases value with rfl
      exact guarded.certifies held careful step

end

end Registry

def carefulRegistry (setting : Setting) : TransitionSystem Registry Label where
  initial s := s.IsStarted setting
  step s label next := s.exec setting label = some next ∧ s.Careful label

/-- In every run with careful steps no row is lost unnoticed, and a shutdown that returns true
leaves nothing open and nothing lost. -/
theorem careful_runs_sound (setting : Setting) {s : Registry}
    (reachable : (carefulRegistry setting).Reachable s) : s.Sound := by
  have guarded : s.Guarded setting := by
    refine TransitionSystem.Reachable.invariant (Registry.Guarded setting) ?_ ?_ reachable
    · exact fun started => started.guarded
    · exact fun kept step => kept.step step.2 (Registry.exec_steps step.1)
  exact guarded.sound

def defaultSetting : Setting where
  enabled := true
  windowMs := 50
  emitSupersededSeqs := false
  sizeOf := fun _ => 200
  maxPayloadBytes := 7800

def startedRegistry : Registry where
  shared := {
    windows := .empty
    scopes := .empty
    running := true
    shuttingDown := false
    discardedFlushFailed := false
    timers := []
    accepted := []
    emitted := []
    discarded := []
    failed := [] }
  loop := .idle
  writes := []
  flushers := []
  shutdown := none
  returns := []

theorem startedRegistry_isStarted : startedRegistry.IsStarted defaultSetting :=
  ⟨rfl, rfl, rfl, rfl, rfl, rfl, rfl, rfl, rfl, rfl, rfl, rfl, rfl, rfl⟩

def inserts (rowCount batchScopeId : Nat) : Write :=
  ⟨"ext_crm", "contacts", .insert, rowCount, "crm", batchScopeId⟩

def insertWindow (rowCount batchScopeId : Nat) : WindowState :=
  ((inserts rowCount batchScopeId).opens 0).add (inserts rowCount batchScopeId)

def play (labels : List Label) : Option Registry :=
  TransitionSystem.replay (fun s label => s.exec defaultSetting label) startedRegistry labels

/-- The shutdown up to the section that drains the map. -/
def untilDrained (order : List WindowState) : List Label :=
  [.shutdown, .shutdownStep {}, .shutdownStep {}, .shutdownStep {}, .shutdownStep {},
    .shutdownStep { order }]

/-- A write is counted while the shutdown holds the window of its table, which it restores. -/
def overwritten : List Label :=
  [.recordWrite (inserts 1 0), .lockWrite 0 0, .recordWrite (inserts 2 0)] ++
    untilDrained [insertWindow 1 0] ++
    [.lockWrite 0 0, .shutdownStep { result := .error .pgFailure }, .shutdownStep {}]

def countedLate : List Label :=
  .recordWrite (inserts 1 0) :: untilDrained [] ++
    [.shutdownStep {}, .lockWrite 0 0, .shutdownStep {}]

def recordedLate : List Label :=
  [.recordWrite (inserts 1 7), .lockWrite 0 0, .flushBatchScope 7 [insertWindow 1 7],
    .flusherStep 0 { result := .error .pgFailure }] ++
    untilDrained [] ++ [.shutdownStep {}, .shutdownStep {}]

theorem reachable_of_play {labels : List Label} {s : Registry} (played : play labels = some s) :
    (registry defaultSetting).Reachable s :=
  ⟨startedRegistry, labels, startedRegistry_isStarted, .of_replay (fun step => step) played⟩

/-- Without that care rows are lost, or left by a shutdown that reports success. -/
theorem uncareful_runs_unsound :
    (∃ s, (registry defaultSetting).Reachable s ∧
      s.shared.accepted = [inserts 1 0, inserts 2 0] ∧
      s.shared.windows.rows = [insertWindow 1 0] ∧ s.inFlight = [] ∧ s.shared.failed = [] ∧
      ¬ s.Sound) ∧
    (∃ s, (registry defaultSetting).Reachable s ∧
      s.returns = [⟨true, [], [insertWindow 1 0]⟩] ∧ ¬ s.Sound) ∧
    ∃ s, (registry defaultSetting).Reachable s ∧
      s.returns = [⟨true, [insertWindow 1 7], []⟩] ∧ ¬ s.Sound := by
  refine ⟨?_, ?_, ?_⟩
  · have played : ∃ s, play overwritten = some s ∧
        s.shared.accepted = [inserts 1 0, inserts 2 0] ∧
        s.shared.windows.rows = [insertWindow 1 0] ∧ s.inFlight = [] ∧ s.shared.failed = [] ∧
        s.shared.scopes.rows = [] ∧ s.shared.emitted = [] ∧ s.shared.discarded = [] :=
      ⟨_, rfl, rfl, rfl, rfl, rfl, rfl, rfl, rfl⟩
    rcases played with ⟨s, isPlayed, accepted, windows, inFlight, failed, scopes, emitted,
      discarded⟩
    refine ⟨s, reachable_of_play isPlayed, accepted, windows, inFlight, failed, ?_⟩
    intro sound
    have conserved := sound.conserves ⟨"ext_crm", "contacts"⟩ .insert
    simp only [Registry.openRows, Table.total, accepted, windows, inFlight, failed, scopes,
      emitted, discarded] at conserved
    revert conserved
    decide
  · have played : ∃ s, play countedLate = some s ∧
        s.returns = [⟨true, [], [insertWindow 1 0]⟩] := ⟨_, rfl, rfl⟩
    rcases played with ⟨s, isPlayed, returns⟩
    refine ⟨s, reachable_of_play isPlayed, returns, ?_⟩
    intro sound
    have certified := sound.certified ⟨true, [], [insertWindow 1 0]⟩ (by simp [returns]) rfl
    cases certified.2
  · have played : ∃ s, play recordedLate = some s ∧
        s.returns = [⟨true, [insertWindow 1 7], []⟩] := ⟨_, rfl, rfl⟩
    rcases played with ⟨s, isPlayed, returns⟩
    refine ⟨s, reachable_of_play isPlayed, returns, ?_⟩
    intro sound
    have certified := sound.certified ⟨true, [insertWindow 1 7], []⟩ (by simp [returns]) rfl
    cases certified.1

def isCareful (s : Registry) : Label → Bool
  | .lockWrite index _ =>
    s.writes[index]?.all fun write => write.batchScopeId ≠ 0 || !s.shared.shuttingDown
  | .shutdownStep _ =>
    s.shutdown ≠ some .readsFlag ||
      s.flushers.all fun flusher => flusher.claimed.isEmpty && !flusher.isFailing
  | _ => true

theorem careful_of_isCareful {s : Registry} {label : Label} (holds : isCareful s label) :
    s.Careful label := by
  cases label with
  | lockWrite index now =>
    intro write found plain
    simpa [isCareful, found, plain] using holds
  | shutdownStep choice =>
    intro reads
    simpa [isCareful, reads] using holds
  | _ => trivial

def calmShutdown : List Label :=
  [.recordWrite (inserts 1 0), .lockWrite 0 0] ++ untilDrained [insertWindow 1 0] ++
    [.shutdownStep {}, .shutdownStep {}, .shutdownStep {}]

theorem calmShutdown_sound :
    ∃ s, (carefulRegistry defaultSetting).Reachable s ∧ s.returns = [⟨true, [], []⟩] ∧
      s.shared.accepted = [inserts 1 0] ∧ s.Sound := by
  have played : ∃ s, TransitionSystem.replay
      (fun s label => if isCareful s label then s.exec defaultSetting label else none)
      startedRegistry calmShutdown = some s ∧ s.returns = [⟨true, [], []⟩] ∧
      s.shared.accepted = [inserts 1 0] := ⟨_, rfl, rfl, rfl⟩
  rcases played with ⟨s, isPlayed, returns, accepted⟩
  have reachable : (carefulRegistry defaultSetting).Reachable s := by
    refine ⟨startedRegistry, calmShutdown, startedRegistry_isStarted, .of_replay ?_ isPlayed⟩
    intro state label next step
    split at step
    · rename_i holds
      exact ⟨step, careful_of_isCareful holds⟩
    · cases step
  exact ⟨s, reachable, returns, accepted, careful_runs_sound defaultSetting reachable⟩

end Plinth.Realtime.Coalescer
