import Plinth.Core.ArrayLiteral
import Plinth.Core.Cursor
import Plinth.Core.Json
import Plinth.Rbac.SubscribeRule

/-!
# The replay engine

Model of `realtime/replay.cpp`. `run_replay` is a coroutine: it runs until it waits for a
query or looks at a value that other threads write, so it is given here as the phases between
those points, with one function for what happens when each of them is left. Whoever runs the
coroutine decides what the queries answer and what is found in the shared flags.
-/

namespace Plinth.Realtime.Replay

variable {Payload Envelope : Type}

structure EventRow (Payload : Type) where
  seq : Nat
  channel : String
  payload : Payload
  deriving DecidableEq

abbrev rowSeq (row : EventRow Payload) : Nat := row.seq

inductive ResyncReason where
  | cursorExpired
  | rowCap
  | mismatch
  | liveBufferOverflow

def resyncReasonStr : ResyncReason → String
  | .cursorExpired => "cursor_expired"
  | .rowCap => "row_cap"
  | .mismatch => "mismatch"
  | .liveBufferOverflow => "live_buffer_overflow"

/-- The frames of the engine. A replay frame carries the stored envelope with `seq` put into
its sequence slot. -/
inductive Frame (Envelope : Type) where
  | replay (seq : Nat) (envelope : Envelope)
  | replayDone (upToSeq rowCount bufferedLiveCount : Nat)
  | resync (reason : String) (retentionSeconds : Nat)
  deriving DecidableEq

/-- The part of `Config::Realtime::Events` that the engine reads. The configuration loader
refuses a chunk size below ten. -/
structure EventsConfig where
  retentionSeconds : Nat
  replayMaxRowsPerChunk : Nat
  replayMaxTotalRows : Nat
  chunkPositive : 0 < replayMaxRowsPerChunk

structure ReplayResult where
  upToSeq : Nat
  emitted : Nat := 0
  truncated : Bool := false
  resync : Option ResyncReason := none
  aborted : Bool := false

/-- What the engine reads of a connection: rules and identity do not change after
authentication. -/
structure Identity where
  isAdmin : Bool
  effectiveRules : List String

def rbacAllows (rbacEnforced : Bool) (state : Identity) (channel : String) : Bool :=
  if state.isAdmin then true
  else if !rbacEnforced then false
  else
    let rule := Rbac.deriveSubscribeRule channel
    if rule.isEmpty then false else state.effectiveRules.contains rule

/-- The arguments of `run_replay` and what it finds in the process: whether rules are enforced
and how the JSON library reads a stored payload. -/
structure Request (Payload Envelope : Type) where
  state : Identity
  rbacEnforced : Bool
  sinceSeq : Nat
  grantedChannels : List String
  cfg : EventsConfig
  parsePayload : Payload → Option Envelope

/-- Where the coroutine is. `sending` holds the rows of the result that are still to be looked at
and whether they were fewer than the chunk size. -/
inductive Phase (Payload : Type) where
  | minQuery
  | maxQuery
  | chunkQuery (cursor : Nat) (result : ReplayResult)
  | received (cursor : Nat) (result : ReplayResult) (rows : List (EventRow Payload))
  | sending (cursor : Nat) (result : ReplayResult) (rows : List (EventRow Payload)) (short : Bool)
  | finishing (result : ReplayResult)
  | returned (result : ReplayResult)

/-- `COALESCE(MIN(seq), 0)` over a table in ascending order. -/
def minSeq (table : List (EventRow Payload)) : Nat := (table.head?.map rowSeq).getD 0

/-- `COALESCE(MAX(seq), 0)` over a table in ascending order. -/
def maxSeq (table : List (EventRow Payload)) : Nat := (table.getLast?.map rowSeq).getD 0

def answer {Value : Type} (answers : Bool) (value : Value) : Option Value :=
  if answers then some value else none

section ChannelArray

open Core.ArrayLiteral

/-- The loop of `build_text_array_literal`, which quotes the names and escapes nothing. -/
def literalElements (first : Bool) : List String → List Char
  | [] => ['}']
  | name :: names =>
    (if first then [] else [',']) ++ '"' :: name.toList ++ '"' :: literalElements false names

def buildTextArrayLiteral (names : List String) : String :=
  String.ofList ('{' :: literalElements true names)

/-- The channels that `channel = ANY($2::text[])` compares with. The literal is sent as a C string,
so that it ends at the first NUL character. One that the database cannot read makes the query
throw, which ends the loop of the engine as an answer without rows does. -/
@[irreducible]
def queriedChannels (names : List String) : List String :=
  ((readArray (Core.cString (buildTextArrayLiteral names)).toList).getD []).reduceOption

/-- A name that the literal hands on to the database as it is. -/
def isPlainName (name : String) : Bool := name.toList.all fun c => isPlain c && c != '\x00'

variable {name : String} {names : List String}

theorem isPlain_of_mem (plain : isPlainName name = true) {c : Char} (mem : c ∈ name.toList) :
    isPlain c = true ∧ c ≠ '\x00' := by
  simpa using List.all_eq_true.mp plain c mem

/-- A plain name is read back from its quotes. -/
theorem readElement_name (plain : isPlainName name = true) (rest : List Char) :
    readElement ('"' :: name.toList ++ '"' :: rest) = some (some name, rest) := by
  rw [readElement_plain fun c mem => (isPlain_of_mem plain mem).1, String.ofList_toList]

theorem readElements_literalElements (plain : ∀ other ∈ name :: names, isPlainName other = true)
    {fuel : ℕ} (enough : names.length ≤ fuel) :
    readElements (fuel + 1) ('"' :: name.toList ++ '"' :: literalElements false names) =
      some ((name :: names).map some) := by
  have readName := readElement_name (plain name List.mem_cons_self)
  induction names generalizing name fuel with
  | nil => exact readElements_last (readName _)
  | cons next names ih =>
    rcases Nat.exists_eq_add_of_le' enough with ⟨more, rfl⟩
    have later := fun other mem => plain other (List.mem_cons_of_mem name mem)
    have isRest := @ih next later (more + names.length) (Nat.le_add_left _ _)
      (readElement_name (later next List.mem_cons_self))
    exact (readElements_comma (readName _)).trans (isRest ▸ rfl)

theorem length_le_literalElements (first : Bool) :
    names.length ≤ (literalElements first names).length := by
  induction names generalizing first with
  | nil => simp
  | cons name names ih =>
    have rest := ih false
    simp only [literalElements, List.length_append, List.length_cons]
    omega

theorem ne_nul_of_mem_literalElements (plain : ∀ name ∈ names, isPlainName name = true)
    {first : Bool} {c : Char} (mem : c ∈ literalElements first names) : c ≠ '\x00' := by
  induction names generalizing first with
  | nil => simp_all [literalElements]
  | cons name names ih =>
    have later := @ih (fun other mem => plain other (List.mem_cons_of_mem _ mem)) false
    have head := @isPlain_of_mem name (plain name List.mem_cons_self) c
    cases first <;> simp only [literalElements] at mem <;> aesop

/-- Plain names are read back, so that the query compares with just the granted channels. -/
theorem queriedChannels_eq (plain : ∀ name ∈ names, isPlainName name = true) :
    queriedChannels names = names := by
  have whole : (Core.cString (buildTextArrayLiteral names)).toList =
      '{' :: literalElements true names := by
    rw [Core.cString, buildTextArrayLiteral, String.toList_ofList, String.toList_ofList]
    apply List.takeWhile_eq_self_iff.mpr
    intro c mem
    rcases List.mem_cons.mp mem with rfl | inside
    · rfl
    · simpa using ne_nul_of_mem_literalElements plain inside
  rw [queriedChannels, whole]
  cases names with
  | nil => decide
  | cons name names =>
    have enough : names.length ≤ (name.toList ++ '"' :: literalElements false names).length := by
      have rest := @length_le_literalElements names false
      simp only [List.length_append, List.length_cons]
      omega
    have read : readArray ('{' :: literalElements true (name :: names)) =
        some ((name :: names).map some) :=
      (readArray_quoted _).trans (readElements_literalElements plain enough)
    simp [read, List.reduceOption]

end ChannelArray

namespace Request

variable (request : Request Payload Envelope)

def allows (channel : String) : Bool := rbacAllows request.rbacEnforced request.state channel

/-- An early end without rows, `send(build_replay_done_frame(since_seq, 0))`. -/
def doneAtOnce : Phase Payload × List (Frame Envelope) :=
  (.returned ⟨request.sinceSeq, 0, false, none, false⟩, [.replayDone request.sinceSeq 0 0])

def resyncAtOnce (reason : ResyncReason) : Phase Payload × List (Frame Envelope) :=
  (.returned ⟨request.sinceSeq, 0, false, some reason, false⟩,
    [.resync (resyncReasonStr reason) request.cfg.retentionSeconds])

def start (hasClient : Bool) : Phase Payload × List (Frame Envelope) :=
  if request.grantedChannels.isEmpty || !hasClient then request.doneAtOnce
  else (.minQuery, [])

/-- `none` is the exception of a failed query; an empty table has the minimum `0`. -/
def onMin : Option Nat → Phase Payload × List (Frame Envelope)
  | none => request.doneAtOnce
  | some minSeq =>
    if 0 < request.sinceSeq && 0 < minSeq && request.sinceSeq < minSeq then
      request.resyncAtOnce .cursorExpired
    else (.maxQuery, [])

def onMax : Option Nat → Phase Payload × List (Frame Envelope)
  | none => request.doneAtOnce
  | some maxSeq =>
    if maxSeq + request.cfg.replayMaxTotalRows < request.sinceSeq then
      request.resyncAtOnce .mismatch
    else (.chunkQuery request.sinceSeq ⟨request.sinceSeq, 0, false, none, false⟩, [])

/-- The rows a chunk query answers with, from a table in ascending order. -/
def chunk (table : List (EventRow Payload)) (cursor : Nat) : List (EventRow Payload) :=
  ((Core.Cursor.after rowSeq table cursor).filter fun row =>
    (queriedChannels request.grantedChannels).contains row.channel).take
      request.cfg.replayMaxRowsPerChunk

def onChunk (cursor : Nat) (result : ReplayResult) :
    Option (List (EventRow Payload)) → Phase Payload
  | none => .finishing result
  | some [] => .finishing result
  | some (row :: rows) => .received cursor result (row :: rows)

/-- The abort flag is looked at once per chunk, after its rows have come. -/
def onReceived (cursor : Nat) (result : ReplayResult) (rows : List (EventRow Payload))
    (aborted : Bool) : Phase Payload :=
  if aborted then
    .returned { result with aborted := true, resync := some .liveBufferOverflow }
  else .sending cursor result rows (rows.length < request.cfg.replayMaxRowsPerChunk)

def onRow (result : ReplayResult) (row : EventRow Payload) (rest : List (EventRow Payload))
    (short : Bool) : Phase Payload × List (Frame Envelope) :=
  if !request.allows row.channel then (.sending row.seq result rest short, [])
  else
    match request.parsePayload row.payload with
    | none => (.sending row.seq result rest short, [])
    | some envelope =>
      let sent := { result with emitted := result.emitted + 1, upToSeq := row.seq }
      if request.cfg.replayMaxTotalRows < sent.emitted then
        (.returned { sent with truncated := true, resync := some .rowCap },
          [.replay row.seq envelope,
            .resync (resyncReasonStr .rowCap) request.cfg.retentionSeconds])
      else (.sending row.seq sent rest short, [.replay row.seq envelope])

def onChunkEnd (cursor : Nat) (result : ReplayResult) (short : Bool) : Phase Payload :=
  if short then .finishing result else .chunkQuery cursor result

def onFinish (result : ReplayResult) (bufferedLive : Nat) : Phase Payload × List (Frame Envelope) :=
  (.returned result, [.replayDone result.upToSeq result.emitted bufferedLive])

/-- The coroutine goes on to its next phase: the table it queries, whether the query answers,
and what it finds in the abort flag and the count of buffered frames. -/
def resume (table : List (EventRow Payload)) (answers aborted : Bool) (bufferedLive : Nat) :
    Phase Payload → Phase Payload × List (Frame Envelope)
  | .minQuery => request.onMin (answer answers (minSeq table))
  | .maxQuery => request.onMax (answer answers (maxSeq table))
  | .chunkQuery cursor result =>
    (onChunk cursor result (answer answers (request.chunk table cursor)), [])
  | .received cursor result rows => (request.onReceived cursor result rows aborted, [])
  | .sending cursor result [] short => (onChunkEnd cursor result short, [])
  | .sending _ result (row :: rest) short => request.onRow result row rest short
  | .finishing result => onFinish result bufferedLive
  | .returned result => (.returned result, [])

def frame? (row : EventRow Payload) : Option (Frame Envelope) :=
  if request.allows row.channel then
    (request.parsePayload row.payload).map (Frame.replay row.seq)
  else none

variable {request} {row : EventRow Payload}

/-- A row is sent if its channel is allowed and its payload parses. -/
theorem frame?_eq_some {sent : Frame Envelope} :
    request.frame? row = some sent ↔ request.allows row.channel ∧
      ∃ envelope, request.parsePayload row.payload = some envelope ∧
        sent = .replay row.seq envelope := by
  simp only [frame?]
  cases allowed : request.allows row.channel with
  | false => simp
  | true => simp [eq_comm]

theorem frame?_seq {sent : Frame Envelope}
    (found : request.frame? row = some sent) : ∃ envelope, sent = .replay row.seq envelope := by
  rcases frame?_eq_some.mp found with ⟨_, envelope, _, isFrame⟩
  exact ⟨envelope, isFrame⟩

section

variable {result : ReplayResult} {rest : List (EventRow Payload)} {short : Bool}

theorem onRow_skips (skipped : request.frame? row = none) :
    request.onRow result row rest short = (.sending row.seq result rest short, []) := by
  simp only [frame?] at skipped
  simp only [onRow]
  cases allowed : request.allows row.channel with
  | false => rfl
  | true =>
    rw [allowed, if_pos rfl, Option.map_eq_none_iff] at skipped
    simp [skipped]

theorem onRow_sends {sent : Frame Envelope} (found : request.frame? row = some sent) :
    request.onRow result row rest short =
      let after := { result with emitted := result.emitted + 1, upToSeq := row.seq }
      if request.cfg.replayMaxTotalRows < after.emitted then
        (.returned { after with truncated := true, resync := some .rowCap },
          [sent, .resync (resyncReasonStr .rowCap) request.cfg.retentionSeconds])
      else (.sending row.seq after rest short, [sent]) := by
  simp only [frame?] at found
  simp only [onRow]
  cases allowed : request.allows row.channel with
  | false => simp [allowed] at found
  | true =>
    rw [allowed, if_pos rfl] at found
    rcases Option.map_eq_some_iff.mp found with ⟨envelope, parsed, rfl⟩
    simp [parsed]

end

end Request

end Plinth.Realtime.Replay
