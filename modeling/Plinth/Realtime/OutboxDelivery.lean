import Plinth.Realtime.Outbox

/-!
# Exactly-once delivery of the outbox in commit order

The producers' side (`Serialized`) shows that ids are allocated in the order in which commits
become visible: while a transaction has rows that are not committed it holds the lock, so
those rows lie behind everything committed and behind the listener's cursor. The listener's
side (`Tracking`) shows that under this discipline a cursor over ids is a position in the
commit log, whatever is pruned before it and however often the connection is lost.
-/

namespace Plinth.Realtime.Outbox

open Core.Cursor Core.TransitionSystem List Function Core

variable {Payload Event : Type} {parseEnvelope : Payload → Option Event}
  {s next : State Payload Event}

namespace State

/-- An id lies behind every row of a log and behind a cursor. -/
structure Behind (log : List (OutboxRow Payload)) (cursor : Option Nat) (id : Nat) : Prop where
  positive : 0 < id
  log : ∀ old ∈ log, old.id < id
  cursor : ∀ {position}, cursor = some position → position < id

structure Serialized (s : State Payload Event) : Prop where
  ordered : Ordered rowId s.commitLog
  settled : Behind s.commitLog s.outboxCursor (s.sequence + 1)
  onlyHolder : ∀ {tx}, s.lockHolder ≠ some tx →
    (s.producers tx).allocated = none ∧ (s.producers tx).pending = []
  pendingOrdered : ∀ tx, Ordered rowId (s.producers tx).pending
  pendingBehind : ∀ {tx row}, row ∈ (s.producers tx).pending →
    Behind s.commitLog s.outboxCursor row.id ∧ row.id ≤ s.sequence
  allocatedBehind : ∀ {tx id}, (s.producers tx).allocated = some id →
    Behind s.commitLog s.outboxCursor id ∧ id ≤ s.sequence ∧ ∀ row ∈ (s.producers tx).pending,
      row.id < id

end State

open State

theorem initial_serialized : (State.initial : State Payload Event).Serialized where
  ordered := List.Pairwise.nil
  settled := ⟨Nat.succ_pos _, by simp, by simp⟩
  onlyHolder := by simp
  pendingOrdered := by simp [Ordered]
  pendingBehind := by simp
  allocatedBehind := by simp

variable {tx : TxId}

section

variable (serialized : s.Serialized)
include serialized

theorem takeLock_serialized (free : s.lockHolder = none ∨ s.lockHolder = some tx) :
    Serialized { s with lockHolder := some tx } := by
  refine { serialized with onlyHolder := ?_ }
  intro other notHolder
  apply serialized.onlyHolder
  rcases free with none | same
  · simp [none]
  · rw [same]
    exact notHolder

/-- The holder of the lock may change its rows, behind all committed ones. -/
theorem setProducer_serialized
    (holder : s.lockHolder = some tx) (producer : Producer Payload) (sequence : Nat)
    (grows : s.sequence ≤ sequence) (ordered : Ordered rowId producer.pending)
    (pending : ∀ {row}, row ∈ producer.pending →
      Behind s.commitLog s.outboxCursor row.id ∧ row.id ≤ sequence)
    (allocated : ∀ {id}, producer.allocated = some id →
      Behind s.commitLog s.outboxCursor id ∧ id ≤ sequence ∧
        ∀ row ∈ producer.pending, row.id < id) :
    Serialized { s.setProducer tx producer with sequence := sequence } where
  ordered := serialized.ordered
  settled := by
    refine ⟨Nat.succ_pos _, ?_, ?_⟩
    · intro old mem
      have below := serialized.settled.log old mem
      exact Nat.lt_of_lt_of_le below (Nat.succ_le_succ grows)
    · intro position cursor
      have below := serialized.settled.cursor cursor
      exact Nat.lt_of_lt_of_le below (Nat.succ_le_succ grows)
  onlyHolder := by
    intro other notHolder
    have apart : other ≠ tx := by
      rintro rfl
      exact notHolder holder
    simpa [apart] using serialized.onlyHolder notHolder
  pendingOrdered := by
    intro other
    by_cases same : other = tx
    · subst other
      simpa using ordered
    · simpa [same] using serialized.pendingOrdered other
  pendingBehind := by
    intro other row mem
    by_cases same : other = tx
    · subst other
      simp only [setProducer, update_self] at mem
      exact pending mem
    · simp only [setProducer, update_of_ne same] at mem
      rcases serialized.pendingBehind mem with ⟨behind, below⟩
      exact ⟨behind, below.trans grows⟩
  allocatedBehind := by
    intro other id taken
    by_cases same : other = tx
    · subst other
      simp only [setProducer, update_self] at taken ⊢
      exact allocated taken
    · simp only [setProducer, update_of_ne same] at taken ⊢
      rcases serialized.allocatedBehind taken with ⟨behind, below, above⟩
      exact ⟨behind, below.trans grows, above⟩

theorem allocate_serialized (holder : s.lockHolder = some tx) :
    Serialized { s.setProducer tx { s.producers tx with allocated := some (s.sequence + 1) } with
      sequence := s.sequence + 1 } := by
  apply setProducer_serialized serialized holder
    { s.producers tx with allocated := some (s.sequence + 1) } (s.sequence + 1)
    (Nat.le_succ _) (serialized.pendingOrdered tx)
  · intro row mem
    rcases serialized.pendingBehind mem with ⟨behind, below⟩
    exact ⟨behind, Nat.le_succ_of_le below⟩
  · intro id taken
    simp only [Option.some.injEq] at taken
    subst id
    refine ⟨serialized.settled, le_rfl, ?_⟩
    intro row mem
    exact Nat.lt_succ_of_le (serialized.pendingBehind mem).2

theorem insert_serialized {id : Nat}
    (allocated : (s.producers tx).allocated = some id) (payload : Payload) :
    Serialized (s.setProducer tx
      { allocated := none, pending := (s.producers tx).pending ++ [⟨id, payload⟩] }) := by
  rcases serialized.allocatedBehind allocated with ⟨behind, below, above⟩
  have holder : s.lockHolder = some tx := by
    by_contra notHolder
    have idle := (serialized.onlyHolder notHolder).1
    simp [allocated] at idle
  apply setProducer_serialized serialized holder
    { allocated := none, pending := (s.producers tx).pending ++ [⟨id, payload⟩] } s.sequence le_rfl
  · apply ordered_append (serialized.pendingOrdered tx) (pairwise_singleton _ _)
    intro old oldMem new newMem
    rw [mem_singleton.mp newMem]
    exact above old oldMem
  · intro row mem
    rcases mem_append.mp mem with old | new
    · exact serialized.pendingBehind old
    · rw [mem_singleton.mp new]
      exact ⟨behind, below⟩
  · intro other taken
    simp at taken

theorem setProducer_of_notHolder
    (notHolder : s.lockHolder ≠ some tx) : s.setProducer tx {} = s := by
  rcases serialized.onlyHolder notHolder with ⟨allocated, pending⟩
  have idle : s.producers tx = {} := by
    cases producer : s.producers tx
    simp_all
  rw [setProducer, ← idle, update_eq_self]

theorem rollback_serialized (tx : TxId) : Serialized (s.setProducer tx {}) := by
  by_cases holder : s.lockHolder = some tx
  · exact setProducer_serialized serialized holder {} s.sequence le_rfl List.Pairwise.nil (by simp)
      (by simp)
  · rw [setProducer_of_notHolder serialized holder]
    exact serialized

theorem releaseLock_serialized
    (ended : (s.producers tx).allocated = none ∧ (s.producers tx).pending = [])
    (holder : s.lockHolder = some tx) : Serialized { s with lockHolder := none } := by
  refine { serialized with onlyHolder := ?_ }
  intro other _
  by_cases same : other = tx
  · subst other
    exact ended
  apply serialized.onlyHolder
  rw [holder]
  intro equal
  exact same (Option.some.inj equal).symm

theorem commit_producers_idle (pending : (s.producers tx).pending ≠ []) (other : TxId) :
    (s.commit tx).producers other = {} := by
  by_cases same : other = tx
  · subst other
    simp [State.commit]
  have holder : s.lockHolder = some tx := by
    by_contra notHolder
    exact pending (serialized.onlyHolder notHolder).2
  have notHolder : s.lockHolder ≠ some other := by simp [holder, Ne.symm same]
  have otherIdle := serialized.onlyHolder notHolder
  cases producer : s.producers other
  simp_all [State.commit]

/-- A commit keeps the transactions serialized. -/
theorem commit_serialized (tx : TxId) : (s.commit tx).Serialized := by
  by_cases empty : (s.producers tx).pending = []
  · have rolledBack := rollback_serialized serialized tx
    have logEq : (s.commit tx).commitLog = s.commitLog := by simp [State.commit, empty]
    exact {
      ordered := logEq ▸ rolledBack.ordered
      settled := logEq ▸ rolledBack.settled
      onlyHolder := rolledBack.onlyHolder
      pendingOrdered := rolledBack.pendingOrdered
      pendingBehind := fun mem => logEq ▸ rolledBack.pendingBehind mem
      allocatedBehind := fun taken => logEq ▸ rolledBack.allocatedBehind taken }
  · have idle := commit_producers_idle serialized empty
    exact {
      ordered := by
        apply ordered_append serialized.ordered (serialized.pendingOrdered tx)
        intro old oldMem new newMem
        exact (serialized.pendingBehind newMem).1.log old oldMem
      settled := by
        refine ⟨Nat.succ_pos _, ?_, serialized.settled.cursor⟩
        · intro row mem
          rcases mem_append.mp mem with old | new
          · exact serialized.settled.log row old
          · exact Nat.lt_succ_of_le (serialized.pendingBehind new).2
      onlyHolder := by
        intro other _
        simp [idle other]
      pendingOrdered := by
        intro other
        rw [idle other]
        exact List.Pairwise.nil
      pendingBehind := by
        intro other row mem
        simp [idle other] at mem
      allocatedBehind := by
        intro other id taken
        simp [idle other] at taken }

theorem moveCursor_serialized (next : State Payload Event) {position : Nat}
    (reached : ∀ {id}, Behind s.commitLog s.outboxCursor id → position < id)
    (same : next.sequence = s.sequence ∧ next.lockHolder = s.lockHolder ∧
      next.producers = s.producers ∧ next.commitLog = s.commitLog)
    (moved : next.outboxCursor = some position) : next.Serialized := by
  rcases same with ⟨sequence, holder, producers, log⟩
  have behind : ∀ {id}, Behind s.commitLog s.outboxCursor id →
      Behind next.commitLog next.outboxCursor id := by
    intro id old
    refine ⟨old.positive, log ▸ old.log, ?_⟩
    intro position' found
    rw [moved] at found
    exact Option.some.inj found ▸ reached old
  refine ⟨log ▸ serialized.ordered, sequence ▸ behind serialized.settled, ?_, ?_, ?_, ?_⟩
  · rw [holder, producers]
    exact serialized.onlyHolder
  · rw [producers]
    exact serialized.pendingOrdered
  · intro tx row mem
    rw [producers] at mem
    rcases serialized.pendingBehind mem with ⟨old, below⟩
    exact ⟨behind old, sequence ▸ below⟩
  · intro tx id taken
    rw [producers] at taken ⊢
    rcases serialized.allocatedBehind taken with ⟨old, below, above⟩
    exact ⟨behind old, sequence ▸ below, above⟩

end

def eventsOf (parseEnvelope : Payload → Option Event) (rows : List (OutboxRow Payload)) :
    List (Nat × Event) :=
  rows.filterMap fun row => (parseEnvelope row.payload).map fun event => (row.id, event)

structure State.Tracking (parseEnvelope : Payload → Option Event) (s : State Payload Event) :
    Prop where
  tableSub : s.table.Sublist s.commitLog
  unscanned : ∀ {cursor}, s.outboxCursor = some cursor →
    after rowId s.table cursor = after rowId s.commitLog cursor
  covered : s.outboxCursor = none → ∀ row ∈ s.commitLog, ∃ kept ∈ s.table, row.id ≤ kept.id
  notStarted : s.outboxCursor = none → s.passed = [] ∧ s.baseline = none
  passed : ∀ {cursor}, s.outboxCursor = some cursor → ∃ baseline,
    s.baseline = some baseline ∧ baseline ≤ cursor ∧
      s.passed = between rowId s.commitLog baseline cursor
  batch : ∀ {rows full}, s.phase = .processing rows full → ∃ cursor,
    s.outboxCursor = some cursor ∧ rows <+: after rowId s.commitLog cursor
  dispatched : s.dispatched = eventsOf parseEnvelope s.passed

theorem initial_tracking : (State.initial : State Payload Event).Tracking parseEnvelope where
  tableSub := List.Sublist.refl _
  unscanned := by simp
  covered := by simp
  notStarted := by simp
  passed := by simp
  batch := by simp
  dispatched := rfl

/-- Committed rows are still to be scanned. -/
theorem commit_tracking (serialized : s.Serialized) (tracking : s.Tracking parseEnvelope)
    (tx : TxId) : (s.commit tx).Tracking parseEnvelope where
  tableSub := tracking.tableSub.append (List.Sublist.refl _)
  unscanned := by
    intro cursor found
    simp only [State.commit, after_append, tracking.unscanned found]
  covered := by
    intro none row mem
    rcases mem_append.mp mem with old | new
    · rcases tracking.covered none row old with ⟨kept, keptMem, below⟩
      exact ⟨kept, mem_append_left _ keptMem, below⟩
    · exact ⟨row, mem_append_right _ new, le_rfl⟩
  notStarted := tracking.notStarted
  passed := by
    intro cursor found
    rcases tracking.passed found with ⟨baseline, started, below, passed⟩
    refine ⟨baseline, started, below, ?_⟩
    have later : ∀ row ∈ (s.producers tx).pending, cursor < rowId row := by
      intro row mem
      exact (serialized.pendingBehind mem).1.cursor found
    exact passed.trans (between_append later baseline).symm
  batch := by
    intro rows full processing
    rcases tracking.batch processing with ⟨cursor, found, isPrefix⟩
    refine ⟨cursor, found, ?_⟩
    simp only [State.commit, after_append]
    exact isPrefix.trans (prefix_append _ _)
  dispatched := tracking.dispatched

/-- Pruning loses no row that is still to be scanned. -/
theorem prune_tracking (tracking : s.Tracking parseEnvelope) {id : Nat} (prunable : s.Prunable id) :
    Tracking parseEnvelope { s with table := s.table.filter fun row => row.id ≠ id } := by
  refine { tracking with tableSub := ?_, unscanned := ?_, covered := ?_ }
  · exact filter_sublist.trans tracking.tableSub
  · intro cursor found
    change s.outboxCursor = some cursor at found
    rw [← tracking.unscanned found]
    have below : id ≤ cursor := by simpa [found] using prunable
    simp only [Cursor.after, filter_filter]
    apply filter_congr
    intro row _
    simp only [rowId, Bool.and_eq_left_iff_imp, decide_eq_true_eq]
    omega
  · intro none row mem
    change s.outboxCursor = Option.none at none
    have higher : ∃ row ∈ s.table, id < row.id := by simpa [none] using prunable
    rcases higher with ⟨other, otherMem, above⟩
    rcases tracking.covered none row mem with ⟨kept, keptMem, below⟩
    by_cases same : kept.id = id
    · refine ⟨other, List.mem_filter.mpr ⟨otherMem, ?_⟩, ?_⟩
      · simp
        omega
      · omega
    · exact ⟨kept, List.mem_filter.mpr ⟨keptMem, by simpa using same⟩, below⟩

theorem le_readLatestOutboxId {row : OutboxRow Payload} (mem : row ∈ s.table) :
    row.id ≤ s.readLatestOutboxId := by
  have idMem : row.id ∈ s.table.map rowId := mem_map_of_mem mem
  cases latest : (s.table.map rowId).max? with
  | none =>
    rw [max?_eq_none_iff] at latest
    simp [latest] at idMem
  | some top =>
    have bound := (max?_eq_some_iff.mp latest).2 row.id idMem
    simpa [readLatestOutboxId, latest] using bound

theorem readLatestOutboxId_cases (s : State Payload Event) :
    s.readLatestOutboxId = 0 ∨ ∃ row ∈ s.table, row.id = s.readLatestOutboxId := by
  cases latest : (s.table.map rowId).max? with
  | none => simp [readLatestOutboxId, latest]
  | some top =>
    right
    rcases mem_map.mp (max?_eq_some_iff.mp latest).1 with ⟨row, mem, same⟩
    exact ⟨row, mem, by simpa [readLatestOutboxId, latest] using same⟩

theorem connect_serialized (serialized : s.Serialized) (tracking : s.Tracking parseEnvelope)
    (listens : Bool) : (s.connect listens).Serialized := by
  apply moveCursor_serialized serialized (s.connect listens) ?_ ⟨rfl, rfl, rfl, rfl⟩ rfl
  intro id behind
  cases found : s.outboxCursor with
  | some cursor => exact behind.cursor found
  | none =>
    rcases readLatestOutboxId_cases s with zero | ⟨row, mem, same⟩
    · simpa [zero] using behind.positive
    · rw [Option.getD_none, ← same]
      exact behind.log row (tracking.tableSub.subset mem)

/-- A connection keeps track of what was passed. -/
theorem connect_tracking (tracking : s.Tracking parseEnvelope) (listens : Bool) :
    (s.connect listens).Tracking parseEnvelope := by
  have connected : ∃ cursor baseline, (s.connect listens).outboxCursor = some cursor ∧
      (s.connect listens).baseline = some baseline ∧
      after rowId s.table cursor = after rowId s.commitLog cursor ∧ baseline ≤ cursor ∧
      s.passed = between rowId s.commitLog baseline cursor := by
    cases found : s.outboxCursor with
    | some cursor =>
      -- the cursor and the baseline are kept from before
      rcases tracking.passed found with ⟨baseline, started, below, passed⟩
      exact ⟨cursor, baseline, by simp [found], by simp [started], tracking.unscanned found, below,
        passed⟩
    | none =>
      -- the baseline is the last committed id, so nothing is left to scan
      rcases tracking.notStarted found with ⟨passed, baseline⟩
      have tableBelow : ∀ row ∈ s.table, rowId row ≤ s.readLatestOutboxId := by
        intro row mem
        exact le_readLatestOutboxId mem
      have logBelow : ∀ row ∈ s.commitLog, rowId row ≤ s.readLatestOutboxId := by
        intro row mem
        rcases tracking.covered found row mem with ⟨kept, keptMem, below⟩
        exact below.trans (le_readLatestOutboxId keptMem)
      exact ⟨_, _, by simp [found], by simp [found, baseline],
        (after_eq_nil tableBelow).trans (after_eq_nil logBelow).symm, le_rfl,
        passed.trans (between_self _ _).symm⟩
  rcases connected with ⟨cursor, baseline, cursorEq, baselineEq, unscanned, below, passed⟩
  refine ⟨tracking.tableSub, ?_, by simp, by simp, ?_, ?_,
    tracking.dispatched⟩
  · intro position same
    rw [cursorEq, Option.some.injEq] at same
    exact same ▸ unscanned
  · intro position same
    rw [cursorEq, Option.some.injEq] at same
    exact ⟨baseline, baselineEq, same ▸ below, same ▸ passed⟩
  · cases listens <;> simp

section

variable (serialized : s.Serialized) (tracking : s.Tracking parseEnvelope) {cursor : Nat}
  (found : s.outboxCursor = some cursor) (limit : Nat)
include serialized tracking found limit

theorem selectBatch_prefix : s.selectBatch cursor limit <+: after rowId s.commitLog cursor := by
  have sorted : (after rowId s.commitLog cursor).Pairwise fun first second =>
      first.id ≤ second.id := by
    apply List.Pairwise.imp _ (serialized.ordered.filter _)
    intro first second less
    exact less.le
  rw [selectBatch, tracking.unscanned found, sorted.insertionSort_eq]
  exact take_prefix _ _

theorem readBatch_tracking (full : Bool) : Tracking parseEnvelope
      { s with phase := .processing (s.selectBatch cursor limit) full } := by
  refine { tracking with batch := ?_ }
  intro rows full' processing
  simp only [Phase.processing.injEq] at processing
  rw [← processing.1]
  exact ⟨cursor, found, selectBatch_prefix serialized tracking found limit⟩

end

section PassRow

variable {row : OutboxRow Payload} {rest : List (OutboxRow Payload)} {full : Bool}
  (processing : s.phase = .processing (row :: rest) full) (handlersThrow : Bool)

include processing

theorem passRow_serialized (serialized : s.Serialized) (tracking : s.Tracking parseEnvelope) :
    (passRow parseEnvelope s row rest full handlersThrow).Serialized := by
  apply moveCursor_serialized serialized
    (passRow parseEnvelope s row rest full handlersThrow) ?_ ⟨rfl, rfl, rfl, rfl⟩ rfl
  intro id behind
  rcases tracking.batch processing with ⟨cursor, found, isPrefix⟩
  have committed := isPrefix.subset (mem_cons_self (a := row))
  exact behind.log row (mem_after.mp committed).1

/-- A row that is passed is noted. -/
theorem passRow_tracking (serialized : s.Serialized) (tracking : s.Tracking parseEnvelope) :
    (passRow parseEnvelope s row rest full handlersThrow).Tracking parseEnvelope := by
  rcases tracking.batch processing with ⟨cursor, found, more, left⟩
  rcases tracking.passed found with ⟨baseline, started, below, passed⟩
  have moved := advance serialized.ordered below left.symm
  have past : cursor < row.id := by
    have committed : row ∈ after rowId s.commitLog cursor := left ▸ mem_cons_self
    exact (mem_after.mp committed).2
  refine ⟨tracking.tableSub, ?_, ?_, ?_, ?_, ?_, ?_⟩
  · intro position same
    simp only [passRow, Option.some.injEq] at same
    subst position
    have tableMoved := advance (serialized.ordered.sublist tracking.tableSub) below
      ((tracking.unscanned found).trans left.symm)
    exact tableMoved.1.trans moved.1.symm
  · simp [passRow]
  · simp [passRow]
  · intro position same
    simp only [passRow, Option.some.injEq] at same
    subst position
    refine ⟨baseline, started, below.trans past.le, ?_⟩
    simp only [passRow, passed, moved.2]
  · intro rows full' next
    simp only [passRow, Phase.processing.injEq] at next
    refine ⟨row.id, rfl, ?_⟩
    rw [← next.1]
    exact moved.1 ▸ prefix_append rest more
  · cases parsed : parseEnvelope row.payload <;>
      simp [passRow, eventsOf, parsed, tracking.dispatched]

end PassRow

structure State.Delivering (parseEnvelope : Payload → Option Event) (s : State Payload Event) :
    Prop where
  serialized : s.Serialized
  tracking : s.Tracking parseEnvelope

/-- What a run never takes back: the baseline and the rows passed. -/
structure State.Extends (s next : State Payload Event) : Prop where
  baseline : ∀ {position}, s.baseline = some position → next.baseline = some position
  passed : s.passed <+: next.passed

theorem State.Extends.of_eq (baseline : next.baseline = s.baseline)
    (passed : next.passed = s.passed) : s.Extends next :=
  ⟨fun found => baseline.trans found, passed ▸ prefix_refl _⟩

/-- Every step keeps the invariants and only adds to what was passed. -/
theorem step_delivering {label : Step Payload} (delivering : s.Delivering parseEnvelope)
    (step : (system parseEnvelope).step s label next) :
    next.Delivering parseEnvelope ∧ s.Extends next := by
  rcases delivering with ⟨serialized, tracking⟩
  simp only [system] at step
  cases label with
  | takeLock tx =>
    rcases of_guard step with ⟨free, rfl⟩
    exact ⟨⟨takeLock_serialized serialized free, { tracking with }⟩, .of_eq rfl rfl⟩
  | allocate tx =>
    rcases of_guard step with ⟨⟨holder, -⟩, rfl⟩
    exact ⟨⟨allocate_serialized serialized holder, { tracking with }⟩, .of_eq rfl rfl⟩
  | insert tx payload =>
    simp only [apply] at step
    split at step <;> cases step
    rename_i id allocated
    exact ⟨⟨insert_serialized serialized allocated payload, { tracking with }⟩, .of_eq rfl rfl⟩
  | commit tx =>
    rcases of_guard step with ⟨-, rfl⟩
    exact ⟨⟨commit_serialized serialized tx, commit_tracking serialized tracking tx⟩,
      .of_eq rfl rfl⟩
  | rollback tx =>
    cases step
    exact ⟨⟨rollback_serialized serialized tx, { tracking with }⟩, .of_eq rfl rfl⟩
  | releaseLock tx =>
    rcases of_guard step with ⟨⟨holder, ended⟩, rfl⟩
    exact ⟨⟨releaseLock_serialized serialized ended holder, { tracking with }⟩, .of_eq rfl rfl⟩
  | prune id =>
    rcases of_guard step with ⟨prunable, rfl⟩
    exact ⟨⟨{ serialized with }, prune_tracking tracking prunable⟩, .of_eq rfl rfl⟩
  | forgeHint payload | loseHint payload | loseConnection =>
    cases step
    exact ⟨⟨{ serialized with }, { tracking with }⟩, .of_eq rfl rfl⟩
  | duplicateHint | drainNotifications =>
    rcases of_guard step with ⟨-, rfl⟩
    exact ⟨⟨{ serialized with }, { tracking with }⟩, .of_eq rfl rfl⟩
  | connect listens =>
    simp only [apply] at step
    split at step
    case h_1 =>
      rcases of_guard_not step with ⟨-, rfl⟩
      exact ⟨⟨connect_serialized serialized tracking listens,
        connect_tracking tracking listens⟩, fun found => by simp [found],
        prefix_refl _⟩
    case h_2 => simp at step
  | startScan =>
    simp only [apply] at step
    split at step
    case h_1 =>
      rcases of_guard step with ⟨-, rfl⟩
      exact ⟨⟨{ serialized with }, { tracking with batch := by simp }⟩, .of_eq rfl rfl⟩
    case h_2 => simp at step
  | readBatch limit =>
    simp only [apply] at step
    split at step
    case h_1 cursor _ found =>
      rcases of_guard step with ⟨-, rfl⟩
      exact ⟨⟨{ serialized with }, readBatch_tracking serialized tracking found limit _⟩,
        .of_eq rfl rfl⟩
    case h_2 => simp at step
  | readFails =>
    simp only [apply] at step
    split at step <;> cases step
    exact ⟨⟨{ serialized with }, { tracking with batch := by simp }⟩, .of_eq rfl rfl⟩
  | passRow handlersThrow =>
    simp only [apply] at step
    split at step <;> cases step
    rename_i row rest full processing
    exact ⟨⟨passRow_serialized processing handlersThrow serialized tracking,
      passRow_tracking processing handlersThrow serialized tracking⟩, id, prefix_append _ _⟩
  | finishBatch =>
    simp only [apply] at step
    split at step <;> cases step
    rename_i full _
    exact ⟨⟨{ serialized with }, { tracking with batch := by cases full <;> simp }⟩, .of_eq rfl rfl⟩

theorem reachable_delivering (reachable : (system parseEnvelope).Reachable s) :
    s.Delivering parseEnvelope := by
  refine reachable.invariant (State.Delivering parseEnvelope) ?_ fun before step =>
    (step_delivering before step).1
  rintro _ rfl
  exact ⟨initial_serialized, initial_tracking⟩

theorem run_extends {labels : List (Step Payload)} {t : State Payload Event}
    (delivering : s.Delivering parseEnvelope) (run : (system parseEnvelope).Run s labels t) :
    s.Extends t := by
  refine (run.preserves (fun t => t.Delivering parseEnvelope ∧ s.Extends t) ?_
    ⟨delivering, .of_eq rfl rfl⟩).2
  rintro middle label after ⟨inner, before⟩ step
  rcases step_delivering inner step with ⟨kept, extended⟩
  exact ⟨kept, extended.baseline ∘ before.baseline, before.passed.trans extended.passed⟩

/-- The rows that the listener has passed are exactly the committed rows past its baseline and up to
its cursor, in commit order and with increasing ids. It has dispatched the events among them once
each, in that order, and later steps only add to them. -/
theorem outbox_exactly_once (reachable : (system parseEnvelope).Reachable s) :
    (s.outboxCursor = none → s.passed = []) ∧
      (∀ cursor, s.outboxCursor = some cursor → ∃ baseline, s.baseline = some baseline ∧
        s.passed = between rowId s.commitLog baseline cursor ∧
        ∀ id, id ∈ s.passed.map rowId ↔
          id ∈ s.commitLog.map rowId ∧ baseline < id ∧ id ≤ cursor) ∧
      (s.passed.map rowId).Pairwise (· < ·) ∧
      s.dispatched = eventsOf parseEnvelope s.passed ∧
      (s.dispatched.map Prod.fst).Pairwise (· < ·) ∧
      ∀ labels t, (system parseEnvelope).Run s labels t →
        s.passed <+: t.passed ∧ ∀ baseline, s.baseline = some baseline →
          t.baseline = some baseline := by
  rcases reachable_delivering reachable with ⟨serialized, tracking⟩
  have increasing : s.passed.Pairwise fun first second => first.id < second.id := by
    cases found : s.outboxCursor with
    | none => simp [(tracking.notStarted found).1]
    | some cursor =>
      rcases tracking.passed found with ⟨baseline, -, -, passed⟩
      rw [passed]
      exact serialized.ordered.filter _
  refine ⟨fun none => (tracking.notStarted none).1, ?_, ?_, tracking.dispatched, ?_, ?_⟩
  · intro cursor found
    rcases tracking.passed found with ⟨baseline, started, -, passed⟩
    refine ⟨baseline, started, passed, ?_⟩
    intro id
    simp only [passed, mem_map, mem_between]
    constructor
    · rintro ⟨row, ⟨mem, above, below⟩, rfl⟩
      exact ⟨⟨row, mem, rfl⟩, above, below⟩
    · rintro ⟨⟨row, mem, rfl⟩, above, below⟩
      exact ⟨row, ⟨mem, above, below⟩, rfl⟩
  · exact pairwise_map.mpr increasing
  · rw [tracking.dispatched, eventsOf, map_filterMap, pairwise_filterMap]
    apply increasing.imp
    intro first second less firstId firstEvent secondId secondEvent
    simp only [Option.map_map, Option.map_eq_some_iff] at firstEvent secondEvent
    rcases firstEvent with ⟨event, -, rfl⟩
    rcases secondEvent with ⟨event', -, rfl⟩
    exact less
  · intro labels t run
    have extended := run_extends ⟨serialized, tracking⟩ run
    exact ⟨extended.passed, fun baseline => extended.baseline⟩

/-- Two rows are committed while the listener is disconnected; a rolled-back id leaves a gap. -/
theorem outbox_exactly_once_reconnected :
    ∃ s : State String String, (system some).Reachable s ∧ s.outboxCursor = some 4 ∧
      s.passed.map rowId = [3, 4] ∧
      ∃ baseline, s.baseline = some baseline ∧ s.passed = between rowId s.commitLog baseline 4 := by
  let labels : List (Step String) :=
    [.takeLock 0, .allocate 0, .insert 0 "a", .commit 0, .releaseLock 0,
      .connect true, .readBatch 256, .finishBatch, .loseConnection,
      .takeLock 1, .allocate 1, .insert 1 "b", .rollback 1, .releaseLock 1,
      .takeLock 2, .allocate 2, .insert 2 "c", .allocate 2, .insert 2 "d", .commit 2,
      .forgeHint "9", .connect true, .readBatch 1, .passRow false, .finishBatch,
      .readBatch 1, .passRow false, .releaseLock 2]
  have played : ((replay (apply some) .initial labels).map fun s =>
      (s.outboxCursor, s.passed.map rowId)) = some (some 4, [3, 4]) := by decide
  rcases Option.map_eq_some_iff.mp played with ⟨s, replayed, observed⟩
  rcases Prod.mk.inj observed with ⟨cursor, passed⟩
  have reachable : (system some).Reachable s :=
    ⟨.initial, labels, rfl, .of_replay id replayed⟩
  rcases (outbox_exactly_once reachable).2.1 4 cursor with ⟨baseline, started, exact_, -⟩
  exact ⟨s, reachable, cursor, passed, baseline, started, exact_⟩

end Plinth.Realtime.Outbox
