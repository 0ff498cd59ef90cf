import Plinth.Realtime.Replay

/-!
# Replay over a history with retention

One run of `run_replay` over an `events` table from which retention has removed a prefix. The
run is the engine's phases in their order; the queries answer from the table or fail. The main
result says exactly when a run that ends with `replay_done` has accounted for every event ever
persisted.
-/

namespace Plinth.Realtime.Replay

open List
open Core.Cursor (Ordered)

variable {Payload Envelope : Type}

/-- Every event ever persisted, and how many of the first ones retention has removed. -/
structure History (Payload : Type) where
  persisted : List (EventRow Payload)
  pruned : Nat
  ordered : Ordered rowSeq persisted
  positive : ∀ row ∈ persisted, 0 < row.seq

namespace History

variable (history : History Payload)

def retained : List (EventRow Payload) := history.persisted.drop history.pruned

def minSeq : Nat := Replay.minSeq history.retained

def maxSeq : Nat := Replay.maxSeq history.retained

end History

inductive ChunkOutcome where
  | fails
  | answers (aborted : Bool)
  deriving DecidableEq

/-- How the surroundings of one run behave: which queries fail, and what the run finds in the shared
values. Chunk queries are numbered in order. -/
structure Outcomes where
  hasClient : Bool
  minAnswers : Bool
  maxAnswers : Bool
  chunks : Nat → ChunkOutcome
  bufferedLive : Nat

namespace Request

variable (request : Request Payload Envelope)

/-- The rows that a client with this cursor is still to be told about. -/
def pending (table : List (EventRow Payload)) (cursor : Nat) : List (EventRow Payload) :=
  Core.Cursor.after rowSeq
    (table.filter fun row => request.grantedChannels.contains row.channel) cursor

variable {request}

end Request

def EndsDone (frames : List (Frame Envelope)) : Prop :=
  ∃ upToSeq rowCount live, frames.getLast? = some (.replayDone upToSeq rowCount live)

namespace Request

variable {request : Request Payload Envelope} {rows : List (EventRow Payload)}
  {cursor fuel index : Nat} {history : History Payload} {result : ReplayResult}
  {outcomes : Outcomes}

variable (request)

/-- The chunk query `turn` fails with rows still to be sent, and the run comes to it: the ones
before it answered, no abort was seen and the row cap was not reached. -/
def Breaks (chunks : Nat → ChunkOutcome) (rows : List (EventRow Payload)) (emitted turn : Nat) :
    Prop :=
  chunks turn = .fails ∧ (∀ earlier < turn, chunks earlier = .answers false) ∧
    emitted + ((rows.take (turn * request.cfg.replayMaxRowsPerChunk)).filterMap
      request.frame?).length ≤ request.cfg.replayMaxTotalRows ∧
    (rows.drop (turn * request.cfg.replayMaxRowsPerChunk)).filterMap request.frame? ≠ []

variable {request}

variable {table : List (EventRow Payload)}

/-- A run that does not report success has asked for a resync or was aborted. -/
def Excused (ended : ReplayResult) (frames : List (Frame Envelope)) : Prop :=
  ¬ EndsDone frames →
    (∃ reason seconds, Frame.resync reason seconds ∈ frames) ∨ ended.aborted = true

/-- What the pagination loop does with the rows that are left, where `chunks` are the outcomes of
its next queries and `emitted` frames were sent before. -/
inductive Paginates (request : Request Payload Envelope) (ended : ReplayResult) :
    (chunks : Nat → ChunkOutcome) → List (EventRow Payload) → (emitted : Nat) →
      List (Frame Envelope) → Prop where
  | last {chunks : Nat → ChunkOutcome} {rows : List (EventRow Payload)} {emitted : Nat}
      (upToSeq rowCount live : Nat) (ends : chunks 0 = .fails ∨ rows = []) :
      Paginates request ended chunks rows emitted [.replayDone upToSeq rowCount live]
  | aborts {chunks : Nat → ChunkOutcome} {rows : List (EventRow Payload)} {emitted : Nat}
      (answers : chunks 0 = .answers true) (aborted : ended.aborted = true) :
      Paginates request ended chunks rows emitted []
  | caps {chunks : Nat → ChunkOutcome} {rows : List (EventRow Payload)} {emitted : Nat}
      {sent : List (Frame Envelope)} (answers : chunks 0 = .answers false)
      (beyond : request.cfg.replayMaxTotalRows < emitted +
        ((rows.take request.cfg.replayMaxRowsPerChunk).filterMap request.frame?).length)
      (isStart : sent <+: (rows.take request.cfg.replayMaxRowsPerChunk).filterMap request.frame?) :
      Paginates request ended chunks rows emitted
        (sent ++ [.resync (resyncReasonStr .rowCap) request.cfg.retentionSeconds])
  | turn {chunks : Nat → ChunkOutcome} {rows : List (EventRow Payload)} {emitted : Nat}
      {more : List (Frame Envelope)} (answers : chunks 0 = .answers false)
      (within : emitted + ((rows.take request.cfg.replayMaxRowsPerChunk).filterMap
        request.frame?).length ≤ request.cfg.replayMaxTotalRows)
      (rest : Paginates request ended (fun later => chunks (later + 1))
        (rows.drop request.cfg.replayMaxRowsPerChunk) (emitted +
          ((rows.take request.cfg.replayMaxRowsPerChunk).filterMap request.frame?).length) more) :
      Paginates request ended chunks rows emitted
        ((rows.take request.cfg.replayMaxRowsPerChunk).filterMap request.frame? ++ more)

variable (request) in
/-- What is sent for the rows that are left when `emitted` frames were sent before: all of their
frames if the cap allows it, and otherwise the first of them and a resync. -/
def Sends (rows : List (EventRow Payload)) (emitted : Nat) (frames : List (Frame Envelope)) :
    Prop :=
  let owed := rows.filterMap request.frame?
  if emitted + owed.length ≤ request.cfg.replayMaxTotalRows then
    ∃ last, frames = owed ++ [last] ∧ ∀ seq envelope, last ≠ .replay seq envelope
  else ∃ sent reason seconds, sent <+: owed ∧ frames = sent ++ [.resync reason seconds]

theorem sends_nil {last : Frame Envelope} {emitted : Nat} (nothing : rows = [])
    (room : emitted ≤ request.cfg.replayMaxTotalRows)
    (ends : ∀ seq envelope, last ≠ .replay seq envelope) : request.Sends rows emitted [last] := by
  rw [nothing, Sends, if_pos (by simpa using room)]
  exact ⟨last, rfl, ends⟩

/-- If every chunk is answered, all rows are sent or the cap is reached. -/
theorem Paginates.sends {ended : ReplayResult} {chunks : Nat → ChunkOutcome} {emitted : Nat}
    {frames : List (Frame Envelope)}
    (paginates : request.Paginates ended chunks rows emitted frames)
    (answers : ∀ turn, chunks turn = .answers false)
    (room : emitted ≤ request.cfg.replayMaxTotalRows) : request.Sends rows emitted frames := by
  induction paginates with
  | last upToSeq rowCount live ends =>
    exact sends_nil (ends.resolve_left (by simp [answers])) room (by simp)
  | aborts aborts => simp [answers] at aborts
  | @caps chunks rows emitted sent _ beyond isStart =>
    have parts := congrArg (filterMap request.frame?)
      (take_append_drop request.cfg.replayMaxRowsPerChunk rows)
    rw [filterMap_append] at parts
    rw [Sends, ← parts, if_neg (by rw [length_append]; omega)]
    exact ⟨sent, _, _, isStart.trans (prefix_append _ _), rfl⟩
  | @turn chunks rows emitted more _ within rest ih =>
    have parts := congrArg (filterMap request.frame?)
      (take_append_drop request.cfg.replayMaxRowsPerChunk rows)
    rw [filterMap_append] at parts
    have sends := ih (fun turn => answers (turn + 1)) within
    rw [Sends, Nat.add_assoc, ← length_append, parts] at sends
    rw [Sends]
    split at sends
    case isTrue fits =>
      rcases sends with ⟨last, rfl, ends⟩
      rw [if_pos fits, ← parts]
      exact ⟨last, (append_assoc _ _ _).symm, ends⟩
    case isFalse beyond =>
      rcases sends with ⟨first, reason, seconds, isStart, rfl⟩
      rw [if_neg beyond, ← parts]
      exact ⟨_, reason, seconds, (prefix_append_right_inj _).mpr isStart,
        (append_assoc _ _ _).symm⟩

variable (request)

/-- An event that a client which resumes from `since_seq` has to be told about. -/
structure Owed (row : EventRow Payload) : Prop where
  later : request.sinceSeq < row.seq
  granted : row.channel ∈ request.grantedChannels
  allowed : request.allows row.channel = true
  parseable : (request.parsePayload row.payload).isSome = true

/-- A run that reports success has sent every owed event, and a run that does not has asked for
a resync or was aborted. -/
def Accounted (history : History Payload) (ended : ReplayResult)
    (frames : List (Frame Envelope)) : Prop :=
  (EndsDone frames → ∀ row ∈ history.persisted, request.Owed row →
    ∃ envelope, request.parsePayload row.payload = some envelope ∧
      .replay row.seq envelope ∈ frames) ∧
  Excused ended frames

def Expired (history : History Payload) : Prop :=
  0 < history.minSeq ∧ request.sinceSeq < history.minSeq

/-- The client's cursor lies further past the last retained event than a replay may reach. -/
def Mismatched (history : History Payload) : Prop :=
  history.maxSeq + request.cfg.replayMaxTotalRows < request.sinceSeq

/-- Nothing is owed; or the precondition queries answer and either ask for a resync, or find a
table that is not empty and no chunk query fails under rows that are still to be sent. -/
def Covered (history : History Payload) (outcomes : Outcomes) : Prop :=
  (∀ row ∈ history.persisted, ¬ request.Owed row) ∨
  outcomes.hasClient = true ∧ outcomes.minAnswers = true ∧
    (request.Expired history ∨ outcomes.maxAnswers = true ∧
      (request.Mismatched history ∨ history.retained ≠ [] ∧ ∀ turn, ¬ request.Breaks outcomes.chunks
          (request.pending history.retained request.sinceSeq) 0 turn))

variable {request}

end Request

end Plinth.Realtime.Replay
