import Plinth.Realtime.Replay

/-!
# What a phase of the replay engine can do

`Resumes` lists the ways in which a replay coroutine goes on; each invariant of the engine is
then a short case analysis over it.
-/

namespace Plinth.Realtime.Replay

open List Core.Cursor

variable {Payload Envelope : Type}

def Frame.seq? : Frame Envelope → Option Nat
  | .replay seq _ => some seq
  | _ => none

@[simp]
theorem Frame.seq?_replay (seq : Nat) (envelope : Envelope) :
    (Frame.replay seq envelope).seq? = some seq := rfl

@[simp]
theorem Frame.seq?_replayDone (upToSeq rowCount live : Nat) :
    (Frame.replayDone upToSeq rowCount live : Frame Envelope).seq? = none := rfl

@[simp]
theorem Frame.seq?_resync (reason : String) (seconds : Nat) :
    (Frame.resync reason seconds : Frame Envelope).seq? = none := rfl

/-- A frame that ends a replay; if a resync was called for, only a resync frame does. -/
def Frame.ends (resyncFired : Bool) : Frame Envelope → Bool
  | .replay _ _ => false
  | .replayDone _ _ _ => !resyncFired
  | .resync _ _ => true

/-- Whether `fire_replay` discards the buffered frames. -/
def ReplayResult.fired (result : ReplayResult) : Bool := result.aborted || result.resync.isSome

/-- The ways in which a replay goes on from a phase, and the frames it sends. -/
inductive Resumes (request : Request Payload Envelope) (table : List (EventRow Payload))
    (answers aborted : Bool) : Phase Payload → Phase Payload → List (Frame Envelope) → Prop where
  | preconditionFails {phase : Phase Payload} (fails : answers = false) :
      Resumes request table answers aborted phase
        (.returned ⟨request.sinceSeq, 0, false, none, false⟩) [.replayDone request.sinceSeq 0 0]
  | preconditionResync {phase : Phase Payload} (reason : ResyncReason) :
      Resumes request table answers aborted phase
        (.returned ⟨request.sinceSeq, 0, false, some reason, false⟩)
        [.resync (resyncReasonStr reason) request.cfg.retentionSeconds]
  | toMax : Resumes request table answers aborted .minQuery .maxQuery []
  | toChunks : Resumes request table answers aborted .maxQuery
      (.chunkQuery request.sinceSeq ⟨request.sinceSeq, 0, false, none, false⟩) []
  | lastChunk {cursor : Nat} {result : ReplayResult}
      (nothing : answers = false ∨ request.chunk table cursor = []) :
      Resumes request table answers aborted (.chunkQuery cursor result) (.finishing result) []
  | rows {cursor : Nat} {result : ReplayResult} (more : request.chunk table cursor ≠ []) :
      Resumes request table answers aborted (.chunkQuery cursor result)
        (.received cursor result (request.chunk table cursor)) []
  | aborts {cursor : Nat} {result : ReplayResult} {rows : List (EventRow Payload)}
      (flag : aborted = true) :
      Resumes request table answers aborted (.received cursor result rows)
        (.returned { result with aborted := true, resync := some .liveBufferOverflow }) []
  | begins {cursor : Nat} {result : ReplayResult} {rows : List (EventRow Payload)} :
      Resumes request table answers aborted (.received cursor result rows)
        (.sending cursor result rows (rows.length < request.cfg.replayMaxRowsPerChunk)) []
  | skips {cursor : Nat} {result : ReplayResult} {row : EventRow Payload}
      {rest : List (EventRow Payload)} {short : Bool} (skipped : request.frame? row = none) :
      Resumes request table answers aborted (.sending cursor result (row :: rest) short)
        (.sending row.seq result rest short) []
  | sends {cursor : Nat} {result : ReplayResult} {row : EventRow Payload}
      {rest : List (EventRow Payload)} {short : Bool} {frame : Frame Envelope}
      (found : request.frame? row = some frame) :
      Resumes request table answers aborted (.sending cursor result (row :: rest) short)
        (.sending row.seq { result with emitted := result.emitted + 1, upToSeq := row.seq } rest
          short) [frame]
  | caps {cursor : Nat} {result : ReplayResult} {row : EventRow Payload}
      {rest : List (EventRow Payload)} {short : Bool} {frame : Frame Envelope}
      (found : request.frame? row = some frame) :
      Resumes request table answers aborted (.sending cursor result (row :: rest) short)
        (.returned ⟨row.seq, result.emitted + 1, true, some .rowCap, result.aborted⟩)
        [frame, .resync (resyncReasonStr .rowCap) request.cfg.retentionSeconds]
  | lastRow {cursor : Nat} {result : ReplayResult} :
      Resumes request table answers aborted (.sending cursor result [] true) (.finishing result) []
  | nextChunk {cursor : Nat} {result : ReplayResult} :
      Resumes request table answers aborted (.sending cursor result [] false)
        (.chunkQuery cursor result) []
  | finishes {result : ReplayResult} (live : Nat) :
      Resumes request table answers aborted (.finishing result) (.returned result)
        [.replayDone result.upToSeq result.emitted live]

/-- A running phase resumes in one of the listed ways. -/
theorem Request.resumes (request : Request Payload Envelope) (table : List (EventRow Payload))
    (answers aborted : Bool) (live : Nat) {phase : Phase Payload}
    (running : ∀ result, phase ≠ .returned result) :
    Resumes request table answers aborted phase
      (request.resume table answers aborted live phase).1
      (request.resume table answers aborted live phase).2 := by
  cases phase with
  | minQuery =>
    cases answers with
    | false => exact .preconditionFails rfl
    | true =>
      simp only [Request.resume, answer, if_true, Request.onMin]
      split
      · exact .preconditionResync .cursorExpired
      · exact .toMax
  | maxQuery =>
    cases answers with
    | false => exact .preconditionFails rfl
    | true =>
      simp only [Request.resume, answer, if_true, Request.onMax]
      split
      · exact .preconditionResync .mismatch
      · exact .toChunks
  | chunkQuery cursor result =>
    cases answers with
    | false => exact .lastChunk (.inl rfl)
    | true =>
      simp only [Request.resume, answer, if_true]
      cases isChunk : request.chunk table cursor with
      | nil => exact .lastChunk (.inr isChunk)
      | cons row rest =>
        have more : request.chunk table cursor ≠ [] := by simp [isChunk]
        simpa only [Request.onChunk, isChunk] using Resumes.rows more
  | received cursor result rows =>
    cases aborted with
    | false => exact .begins
    | true => exact .aborts rfl
  | sending cursor result rows short =>
    cases rows with
    | nil =>
      cases short with
      | false => exact .nextChunk
      | true => exact .lastRow
    | cons row rest =>
      simp only [Request.resume]
      cases found : request.frame? row with
      | none =>
        rw [Request.onRow_skips found]
        exact .skips found
      | some frame =>
        rw [Request.onRow_sends found]
        dsimp only
        split
        · exact .caps found
        · exact .sends found
  | finishing result => exact .finishes live
  | returned result => exact absurd rfl (running result)

/-- A replay ends at once or starts to read. -/
theorem Request.start_cases (request : Request Payload Envelope) (hasClient : Bool) :
    (request.start hasClient : Phase Payload × _) =
        (.returned ⟨request.sinceSeq, 0, false, none, false⟩,
          [.replayDone request.sinceSeq 0 0]) ∧
        (request.grantedChannels = [] ∨ hasClient = false) ∨
      request.start hasClient = (.minQuery, []) := by
  simp only [Request.start]
  split
  · rename_i atOnce
    exact .inl ⟨rfl, by simpa using atOnce⟩
  · exact .inr rfl

def Phase.held : Phase Payload → List (EventRow Payload)
  | .received _ _ rows => rows
  | .sending _ _ rows _ => rows
  | _ => []

def ReplayResult.Clean (result : ReplayResult) : Prop :=
  result.resync = none ∧ result.aborted = false

def Phase.Fits (seqs : List Nat) : Phase Payload → Prop
  | .minQuery => seqs = []
  | .maxQuery => seqs = []
  | .chunkQuery cursor result => result.Clean ∧ ∀ seq ∈ seqs, seq ≤ cursor
  | .received cursor result rows =>
    result.Clean ∧ (∀ seq ∈ seqs, seq ≤ cursor) ∧
      Ordered rowSeq rows ∧ ∀ row ∈ rows, cursor < row.seq
  | .sending cursor result rows _ =>
    result.Clean ∧ (∀ seq ∈ seqs, seq ≤ cursor) ∧
      Ordered rowSeq rows ∧ ∀ row ∈ rows, cursor < row.seq
  | .finishing result => result.Clean
  | .returned _ => True

def Frame.isResync : Frame Envelope → Bool
  | .resync _ _ => true
  | _ => false

/-- The replay will still come to a row of the table. -/
def Phase.Ahead (request : Request Payload Envelope) (row : EventRow Payload) : Phase Payload → Prop
  | .minQuery => True
  | .maxQuery => True
  | .chunkQuery cursor _ => cursor < row.seq
  | .received cursor _ rows => row ∈ rows ∨
      ¬ rows.length < request.cfg.replayMaxRowsPerChunk ∧ cursor < row.seq ∧
        ∀ other ∈ rows, other.seq < row.seq
  | .sending cursor _ rows short => row ∈ rows ∨
      short = false ∧ cursor < row.seq ∧ ∀ other ∈ rows, other.seq < row.seq
  | .finishing _ => False
  | .returned _ => False

section Resumes

variable {request : Request Payload Envelope} {table : List (EventRow Payload)}
  {answers aborted : Bool} {phase next : Phase Payload} {frames : List (Frame Envelope)}
  {row : EventRow Payload}

theorem Request.mem_chunk {cursor : Nat} (mem : row ∈ request.chunk table cursor) :
    row ∈ table ∧ cursor < row.seq := by
  have inLog := mem_of_mem_take mem
  simp only [List.mem_filter, mem_after] at inLog
  exact inLog.1

theorem Request.frame?_seq? {frame : Frame Envelope}
    (found : request.frame? row = some frame) : frame.seq? = some row.seq := by
  rcases Request.frame?_seq found with ⟨_, rfl⟩
  rfl

/-- What is sent or held was held before or read from the table. -/
theorem Resumes.reads (resumes : Resumes request table answers aborted phase next frames)
    {seq : Nat} (mem : seq ∈ frames.filterMap Frame.seq? ∨ ∃ row ∈ next.held, row.seq = seq) :
    (∃ row ∈ phase.held, row.seq = seq) ∨
      ∃ cursor result, phase = .chunkQuery cursor result ∧
        ∃ row ∈ request.chunk table cursor, row.seq = seq := by
  cases resumes with
  | rows more =>
    right
    simpa [Phase.held] using mem
  | begins => exact .inl (by simpa [Phase.held] using mem)
  | skips skipped =>
    left
    simp only [filterMap_nil, not_mem_nil, false_or, Phase.held] at mem ⊢
    rcases mem with ⟨row, inRest, isSeq⟩
    exact ⟨row, mem_cons_of_mem _ inRest, isSeq⟩
  | sends found =>
    left
    simp only [filterMap_cons, Request.frame?_seq? found, filterMap_nil,
      mem_singleton, Phase.held] at mem ⊢
    rcases mem with rfl | ⟨row, inRest, isSeq⟩
    · exact ⟨_, mem_cons_self, rfl⟩
    · exact ⟨row, mem_cons_of_mem _ inRest, isSeq⟩
  | caps found =>
    left
    simp only [filterMap_cons, Request.frame?_seq? found, Frame.seq?_resync,
      filterMap_nil, mem_singleton, Phase.held, not_mem_nil, false_and,
      exists_false, or_false] at mem
    exact ⟨_, mem_cons_self, mem.symm⟩
  | _ => simp [Phase.held] at mem

/-- A turn keeps the sent numbers ascending. -/
theorem Resumes.fits (resumes : Resumes request table answers aborted phase next frames)
    (ordered : Ordered rowSeq table) {seqs : List Nat}
    (ascending : seqs.Pairwise (· < ·)) (fits : phase.Fits seqs) :
    (seqs ++ frames.filterMap Frame.seq?).Pairwise (· < ·) ∧
      next.Fits (seqs ++ frames.filterMap Frame.seq?) := by
  cases resumes with
  | preconditionFails | preconditionResync | aborts | finishes =>
    simpa [Phase.Fits, filterMap_cons] using ascending
  | toMax | begins => simpa [Phase.Fits] using And.intro ascending fits
  | toChunks =>
    rcases fits with rfl
    simp [Phase.Fits, ReplayResult.Clean]
  | lastChunk | lastRow => simpa [Phase.Fits] using And.intro ascending fits.1
  | rows more =>
    rw [filterMap_nil, append_nil]
    exact ⟨ascending, fits.1, fits.2, ((ordered.filter _).filter _).sublist (take_sublist _ _),
      fun row mem => (Request.mem_chunk mem).2⟩
  | @skips cursor result row rest short skipped =>
    rw [filterMap_nil, append_nil]
    rcases fits with ⟨clean, below, rowsOrdered, above⟩
    rcases pairwise_cons.mp rowsOrdered with ⟨first, restOrdered⟩
    refine ⟨ascending, clean, ?_, restOrdered, first⟩
    intro seq mem
    exact (below seq mem).trans (above row mem_cons_self).le
  | @sends cursor result row rest short frame found =>
    rcases fits with ⟨clean, below, rowsOrdered, above⟩
    rcases pairwise_cons.mp rowsOrdered with ⟨first, restOrdered⟩
    have before : ∀ seq ∈ seqs, seq < row.seq := fun seq mem =>
      lt_of_le_of_lt (below seq mem) (above row mem_cons_self)
    simp only [filterMap_cons, Request.frame?_seq? found, filterMap_nil]
    refine ⟨pairwise_append.mpr ⟨ascending, by simp, ?_⟩, clean, ?_, restOrdered, first⟩
    · simpa using before
    · intro seq mem
      rcases mem_append.mp mem with old | new
      · exact (before seq old).le
      · exact (mem_singleton.mp new).le
  | @caps cursor result row rest short frame found =>
    rcases fits with ⟨clean, below, _, above⟩
    have before : ∀ seq ∈ seqs, seq < row.seq := fun seq mem =>
      lt_of_le_of_lt (below seq mem) (above row mem_cons_self)
    simp only [filterMap_cons, Request.frame?_seq? found, Frame.seq?_resync, filterMap_nil]
    refine ⟨pairwise_append.mpr ⟨ascending, by simp, ?_⟩, trivial⟩
    simpa using before
  | nextChunk => simpa [Phase.Fits] using And.intro ascending (And.intro fits.1 fits.2.1)

/-- A replay that returns was aborted or has sent its last frame. -/
theorem Resumes.ends {result : ReplayResult}
    (resumes : Resumes request table answers aborted phase (.returned result) frames)
    {seqs : List Nat} (fits : phase.Fits seqs) :
    aborted ∨ ∃ frame ∈ frames, frame.ends result.fired := by
  cases resumes with
  | preconditionFails | preconditionResync => exact .inr ⟨_, mem_cons_self, rfl⟩
  | aborts flag => exact .inl flag
  | caps => exact .inr ⟨_, mem_cons_of_mem _ mem_cons_self, rfl⟩
  | finishes live =>
    right
    refine ⟨_, mem_cons_self, ?_⟩
    simp [Frame.ends, ReplayResult.fired, fits.1, fits.2]

theorem Request.chunk_cases (ordered : Ordered rowSeq table) {cursor : Nat}
    (inTable : row ∈ table) (past : cursor < row.seq)
    (read : row.channel ∈ queriedChannels request.grantedChannels) :
    row ∈ request.chunk table cursor ∨
      ¬ (request.chunk table cursor).length < request.cfg.replayMaxRowsPerChunk ∧
        ∀ other ∈ request.chunk table cursor, other.seq < row.seq := by
  have left : row ∈ (after rowSeq table cursor).filter fun other =>
      (queriedChannels request.grantedChannels).contains other.channel := by
    simpa [mem_after] using And.intro (And.intro inTable past) read
  rcases mem_take_or ((ordered.filter _).filter _) left request.cfg.replayMaxRowsPerChunk with
    early | ⟨full, before⟩
  · exact .inl early
  · exact .inr ⟨not_lt.mpr full, before⟩

/-- An answered turn sends a row ahead or keeps it so, resyncs, or was aborted. -/
theorem Resumes.ahead (resumes : Resumes request table true aborted phase next frames)
    (ordered : Ordered rowSeq table)
    (inTable : row ∈ table) (since : request.sinceSeq < row.seq)
    (read : row.channel ∈ queriedChannels request.grantedChannels) {frame : Frame Envelope}
    (sendable : request.frame? row = some frame) (ahead : phase.Ahead request row) :
    next.Ahead request row ∨ frame ∈ frames ∨ (∃ sent ∈ frames, sent.isResync) ∨ aborted := by
  cases resumes with
  | preconditionFails fails => cases fails
  | preconditionResync => exact .inr (.inr (.inl ⟨_, mem_cons_self, rfl⟩))
  | toMax => exact .inl trivial
  | toChunks => exact .inl since
  | lastChunk nothing =>
    rcases nothing with fails | isEmpty
    · cases fails
    · rcases Request.chunk_cases ordered inTable ahead read with inChunk | ⟨full, _⟩
      · simp [isEmpty] at inChunk
      · simp [isEmpty, request.cfg.chunkPositive] at full
  | rows more =>
    left
    rcases Request.chunk_cases ordered inTable ahead read with inChunk | ⟨full, before⟩
    · exact .inl inChunk
    · exact .inr ⟨full, ahead, before⟩
  | aborts flag => exact .inr (.inr (.inr flag))
  | begins =>
    left
    rcases ahead with held | ⟨full, past, before⟩
    · exact .inl held
    · exact .inr ⟨by simpa using full, past, before⟩
  | skips skipped =>
    left
    rcases ahead with held | ⟨full, past, before⟩
    · rcases mem_cons.mp held with rfl | later
      · rw [skipped] at sendable
        cases sendable
      · exact .inl later
    · exact .inr ⟨full, before _ mem_cons_self, fun other mem =>
        before other (mem_cons_of_mem _ mem)⟩
  | sends found =>
    rcases ahead with held | ⟨full, past, before⟩
    · rcases mem_cons.mp held with rfl | later
      · rw [found] at sendable
        cases sendable
        exact .inr (.inl mem_cons_self)
      · exact .inl (.inl later)
    · exact .inl (.inr ⟨full, before _ mem_cons_self, fun other mem =>
        before other (mem_cons_of_mem _ mem)⟩)
  | caps =>
    exact .inr (.inr (.inl ⟨_, mem_cons_of_mem _ mem_cons_self, rfl⟩))
  | lastRow =>
    rcases ahead with held | ⟨full, _⟩
    · simp at held
    · cases full
  | nextChunk =>
    rcases ahead with held | ⟨_, past, _⟩
    · simp at held
    · exact .inl past
  | finishes => exact ahead.elim

end Resumes

end Plinth.Realtime.Replay
