import Plinth.Core.Cursor
import Plinth.Core.Transition

/-!
# The realtime outbox and its listener

Model of `plinth.enqueue_realtime_event` in `migrations/extension_database.sql` and of the listener
thread in `realtime/listener.cpp`.

Producers are transactions that take the transaction-level advisory lock, allocate ids from the
sequence, insert rows and end. The database makes a commit visible before it releases the lock, and
other transactions, the listener and pruning may come in between. The listener reads rows past its
cursor in batches and passes them one by one; notifications only make it look earlier than its next
poll tick.
-/

namespace Plinth.Realtime

structure OutboxRow (Payload : Type) where
  id : Nat
  payload : Payload

namespace Outbox

variable {Payload : Type}

abbrev TxId := Nat

abbrev rowId (row : OutboxRow Payload) : Nat := row.id

/-- An open producer transaction: an id taken from the sequence by an `INSERT` that has not
finished, and the rows inserted so far. -/
structure Producer (Payload : Type) where
  allocated : Option Nat := none
  pending : List (OutboxRow Payload) := []

/-- Where the listener thread is in its loop. `processing` holds the rows of the result that are
still to be looked at, and whether it was a full batch. -/
inductive Phase (Payload : Type) where
  | idle
  | scanning
  | processing (rows : List (OutboxRow Payload)) (full : Bool)

/-- The database, the listener and the notifications on their way to it. `table` holds the visible
rows; `commitLog` records every committed row in commit order, and `passed` those that the cursor
has moved over. -/
structure State (Payload Event : Type) where
  sequence : Nat
  lockHolder : Option TxId
  producers : TxId → Producer Payload
  table : List (OutboxRow Payload)
  commitLog : List (OutboxRow Payload)
  connected : Bool
  outboxCursor : Option Nat
  baseline : Option Nat
  phase : Phase Payload
  passed : List (OutboxRow Payload)
  dispatched : List (Nat × Event)
  deliveryFailed : Bool
  hints : List String

inductive Step (Payload : Type) where
  /-- `pg_advisory_xact_lock`; taking it again in the same transaction succeeds. -/
  | takeLock (tx : TxId)
  /-- The `INSERT` draws its id from the sequence. -/
  | allocate (tx : TxId)
  | insert (tx : TxId) (payload : Payload)
  /-- The commit becomes visible and its notifications are sent. -/
  | commit (tx : TxId)
  | rollback (tx : TxId)
  /-- The lock goes after the transaction has ended. -/
  | releaseLock (tx : TxId)
  | prune (id : Nat)
  | forgeHint (payload : String)
  | loseHint (payload : String)
  | duplicateHint (payload : String)
  /-- The queued notifications are consumed, whatever they say. -/
  | drainNotifications
  | connect (listens : Bool)
  | loseConnection
  | startScan
  | readBatch (limit : Nat)
  | readFails
  | passRow (handlersThrow : Bool)
  | finishBatch

variable {Event : Type}

@[simp]
def State.initial : State Payload Event where
  sequence := 0
  lockHolder := none
  producers _ := {}
  table := []
  commitLog := []
  connected := false
  outboxCursor := none
  baseline := none
  phase := .idle
  passed := []
  dispatched := []
  deliveryFailed := false
  hints := []

namespace State

variable (s : State Payload Event)

@[simp]
def setProducer (tx : TxId) (producer : Producer Payload) : State Payload Event :=
  { s with producers := Function.update s.producers tx producer }

/-- A commit becomes visible: its rows join the table and its notifications are sent. -/
def commit (tx : TxId) : State Payload Event :=
  { s.setProducer tx {} with
    table := s.table ++ (s.producers tx).pending
    commitLog := s.commitLog ++ (s.producers tx).pending
    hints := s.hints ++ (s.producers tx).pending.map fun row => toString row.id }

/-- `SELECT COALESCE(MAX(id), 0)`. -/
def readLatestOutboxId : Nat :=
  (s.table.map rowId).max?.getD 0

/-- `SELECT … WHERE id > cursor ORDER BY id LIMIT limit`. -/
def selectBatch (cursor limit : Nat) : List (OutboxRow Payload) :=
  ((Core.Cursor.after rowId s.table cursor).insertionSort fun first second =>
    first.id ≤ second.id).take limit

/-- Rows may be pruned once no scan needs them: those the cursor has passed, and before the
baseline is read those below a row that stays. -/
@[simp]
def Prunable (id : Nat) : Prop :=
  match s.outboxCursor with
  | some cursor => id ≤ cursor
  | none => ∃ row ∈ s.table, id < row.id

instance (s : State Payload Event) (id : Nat) : Decidable (s.Prunable id) :=
  match h : s.outboxCursor with
  | some cursor => decidable_of_iff (id ≤ cursor) (by simp [h])
  | none => decidable_of_iff (∃ row ∈ s.table, id < row.id) (by simp [h])

/-- Connecting reads the baseline unless a cursor is kept from before, and only then issues
`LISTEN`. A connection that listens is scanned at once. -/
@[simp]
def connect (listens : Bool) : State Payload Event :=
  let cursor := s.outboxCursor.getD s.readLatestOutboxId
  { s with
    outboxCursor := some cursor
    baseline := some (s.baseline.getD cursor)
    connected := listens
    phase := if listens then .scanning else .idle }

end State

variable (parseEnvelope : Payload → Option Event)

/-- One row of a result: parsed, dispatched if it is an event, and passed in any case. -/
def passRow (s : State Payload Event) (row : OutboxRow Payload) (rest : List (OutboxRow Payload))
    (full handlersThrow : Bool) : State Payload Event :=
  { s with
    phase := .processing rest full
    outboxCursor := some row.id
    passed := s.passed ++ [row]
    dispatched := match parseEnvelope row.payload with
      | some event => s.dispatched ++ [(row.id, event)]
      | none => s.dispatched
    deliveryFailed := s.deliveryFailed || (parseEnvelope row.payload).isNone || handlersThrow }

def apply (s : State Payload Event) : Step Payload → Option (State Payload Event)
  | .takeLock tx =>
    if s.lockHolder = none ∨ s.lockHolder = some tx then
      some { s with lockHolder := some tx }
    else none
  | .allocate tx =>
    if s.lockHolder = some tx ∧ (s.producers tx).allocated = none then
      some { s.setProducer tx { s.producers tx with allocated := some (s.sequence + 1) } with
        sequence := s.sequence + 1 }
    else none
  | .insert tx payload =>
    match (s.producers tx).allocated with
    | some id =>
      some (s.setProducer tx
        { allocated := none, pending := (s.producers tx).pending ++ [⟨id, payload⟩] })
    | none => none
  | .commit tx =>
    if (s.producers tx).allocated = none then some (s.commit tx) else none
  | .rollback tx => some (s.setProducer tx {})
  | .releaseLock tx =>
    if s.lockHolder = some tx ∧ (s.producers tx).allocated = none ∧
        (s.producers tx).pending = [] then
      some { s with lockHolder := none }
    else none
  | .prune id =>
    if s.Prunable id then some { s with table := s.table.filter fun row => row.id ≠ id }
    else none
  | .forgeHint payload => some { s with hints := s.hints ++ [payload] }
  | .loseHint payload => some { s with hints := s.hints.erase payload }
  | .duplicateHint payload =>
    if payload ∈ s.hints then some { s with hints := payload :: s.hints } else none
  | .drainNotifications => if s.connected then some { s with hints := [] } else none
  | .connect listens =>
    match s.phase with
    | .idle => if s.connected then none else some (s.connect listens)
    | _ => none
  | .loseConnection => some { s with connected := false }
  | .startScan =>
    match s.phase with
    | .idle => if s.connected then some { s with phase := .scanning } else none
    | _ => none
  | .readBatch limit =>
    match s.phase, s.outboxCursor with
    | .scanning, some cursor =>
      if s.connected then
        let rows := s.selectBatch cursor limit
        some { s with phase := .processing rows (decide (limit ≤ rows.length)) }
      else none
    | _, _ => none
  | .readFails =>
    match s.phase with
    | .scanning => some { s with connected := false, phase := .idle }
    | _ => none
  | .passRow handlersThrow =>
    match s.phase with
    | .processing (row :: rest) full =>
      some (Outbox.passRow parseEnvelope s row rest full handlersThrow)
    | _ => none
  | .finishBatch =>
    match s.phase with
    | .processing [] full => some { s with phase := if full then .scanning else .idle }
    | _ => none

def system : Core.TransitionSystem (State Payload Event) (Step Payload) where
  initial s := s = .initial
  step s label next := apply parseEnvelope s label = some next

end Outbox

end Plinth.Realtime
