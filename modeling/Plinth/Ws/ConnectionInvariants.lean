import Plinth.Core.Fifo
import Plinth.Realtime.ReplayPhases
import Plinth.Ws.Connection

/-!
# What holds of a connection in every run

For each replay: what the client got and what is queued is part of what the coroutine sent, in
the same order; the sequence numbers ascend; and the cleanup comes after the frame that ends
the replay, unless nothing reaches the client any more.
-/

namespace Plinth.Ws

open Realtime Realtime.Replay List Function

variable {Payload Envelope : Type}

namespace Wire

@[simp]
def ack? : Wire Payload Envelope → Option (ReplayId × List String)
  | .subscribed (some replay) channels => some (replay, channels)
  | _ => none

/-- The replay that sent a frame, or that a resync frame ends. -/
@[simp]
def replay? : Wire Payload Envelope → Option ReplayId
  | .replayed replay _ => some replay
  | .resync replay _ _ => replay
  | _ => none

@[simp]
def frameOf (id : ReplayId) : Wire Payload Envelope → Option (Frame Envelope)
  | .replayed replay frame => if replay = id then some frame else none
  | _ => none

@[simp]
def ends (id : ReplayId) (resyncFired : Bool) : Wire Payload Envelope → Bool
  | .replayed replay frame => replay = id && frame.ends resyncFired
  | .resync replay _ _ => replay = some id
  | _ => false

/-- No frame of a replay and no acknowledgement of one; a resync frame only for the given one. -/
@[simp]
def Plain (shared : Option ReplayId) (wire : Wire Payload Envelope) : Prop :=
  (∀ id, wire.frameOf id = none) ∧ wire.ack? = none ∧
    (wire.replay? = none ∨ wire.replay? = shared)

end Wire

variable {task : Task Payload Envelope} {wire : Wire Payload Envelope} {id : ReplayId}

theorem Wire.frameOf_eq_none (other : wire.replay? ≠ some id) : wire.frameOf id = none := by
  cases wire with
  | replayed replay sent =>
    have different : replay ≠ id := by simpa using other
    simp [different]
  | _ => rfl

theorem Wire.replay?_of_ends {fired : Bool} (ends : wire.ends id fired) :
    wire.replay? = some id := by
  cases wire with
  | replayed | resync => simp_all
  | _ => cases ends

namespace Task

@[simp]
def replay? : Task Payload Envelope → Option ReplayId
  | .setup replay _ => some replay
  | .frame replay _ => some replay
  | .cleanup replay _ _ => some replay
  | _ => none

@[simp]
def frameOf (id : ReplayId) : Task Payload Envelope → Option (Frame Envelope)
  | .frame replay sent => if replay = id then some sent else none
  | _ => none

def ends (id : ReplayId) (resyncFired : Bool) (task : Task Payload Envelope) : Prop :=
  ∃ sent, task = .frame id sent ∧ sent.ends resyncFired = true

def IsCleanup (id : ReplayId) (resyncFired : Bool) (task : Task Payload Envelope) : Prop :=
  ∃ granted, task = .cleanup id granted resyncFired

theorem frameOf_eq_none (other : task.replay? ≠ some id) : task.frameOf id = none := by
  cases task with
  | frame replay sent =>
    have different : replay ≠ id := by simpa using other
    simp [frameOf, different]
  | _ => rfl

theorem filterMap_frameOf (id : ReplayId) (frames : List (Frame Envelope)) :
    (frames.map (.frame id) : List (Task Payload Envelope)).filterMap (frameOf id) = frames := by
  induction frames with
  | nil => rfl
  | cons sent rest ih => simp [frameOf, ih]

end Task

@[simp]
def Loop.Dead (loop : Loop Payload Envelope) : Prop :=
  (loop.conn.connected && loop.conn.authorityCurrent) = false

/-- The replay has ended for the client, or the client gets nothing any more. -/
def Loop.Over (loop : Loop Payload Envelope) (id : ReplayId) (resyncFired : Bool) : Prop :=
  loop.Dead ∨ ∃ wire ∈ loop.sent, wire.ends id resyncFired = true

/-- A change of the loop's state that sends no engine frame of a replay, and sets its abort
flag only if it ends it. -/
structure Loop.Leaves (id : ReplayId) (loop next : Loop Payload Envelope) : Prop where
  sent : ∃ more, next.sent = loop.sent ++ more ∧ ∀ wire ∈ more, wire.frameOf id = none
  dead : loop.Dead → next.Dead
  abort : next.abortFlag id = true → loop.abortFlag id = true ∨ next.Over id true

/-- A change of the loop's state that leaves every replay and starts none. -/
structure Loop.Quiet (loop next : Loop Payload Envelope) : Prop where
  sent : ∃ more, next.sent = loop.sent ++ more ∧ ∀ wire ∈ more, wire.Plain loop.conn.replayShared
  dead : loop.Dead → next.Dead
  abort : ∀ id, next.abortFlag id = true → loop.abortFlag id = true ∨ next.Over id true

/-- A change of the loop that sends no live frame, buffers nothing and unshelters nothing. -/
structure Loop.Keeps (loop next : Loop Payload Envelope) : Prop where
  sent : ∃ more, next.sent = loop.sent ++ more ∧ ∀ row, .live row ∉ more
  dead : loop.Dead → next.Dead
  closed : loop.conn.connected = false → next.conn.connected = false
  buffers : ∀ channel, ∀ row ∈ next.conn.liveBuffer channel, row ∈ loop.conn.liveBuffer channel
  retains : next.Dead ∨ next.conn.liveBuffer = loop.conn.liveBuffer
  inFlight : next.conn.replayInFlight = loop.conn.replayInFlight
  shared : next.conn.replayShared = loop.conn.replayShared

/-- A quiet change touches no replay. -/
theorem Loop.Quiet.leaves {loop next : Loop Payload Envelope} (quiet : loop.Quiet next)
    (id : ReplayId) : Loop.Leaves id loop next where
  sent := by
    rcases quiet.sent with ⟨more, isSent, silent⟩
    exact ⟨more, isSent, fun wire mem => (silent wire mem).1 id⟩
  dead := quiet.dead
  abort := quiet.abort id

namespace Loop

variable {loop next : Loop Payload Envelope} {setting : Setting Payload Envelope}

theorem Quiet.refl_of {loop next : Loop Payload Envelope} (sent : next.sent = loop.sent)
    (abort : next.abortFlag = loop.abortFlag) (dead : loop.Dead → next.Dead) :
    loop.Quiet next where
  sent := ⟨[], by simp [sent], by simp⟩
  dead := dead
  abort := fun id flag => .inl (abort ▸ flag)

theorem Keeps.of_conn (sent : ∃ more, next.sent = loop.sent ++ more ∧ ∀ row, .live row ∉ more)
    (connected : next.conn.connected = loop.conn.connected)
    (authority : next.conn.authorityCurrent = loop.conn.authorityCurrent ∨
      next.conn.authorityCurrent = false)
    (buffer : next.conn.liveBuffer = loop.conn.liveBuffer)
    (inFlight : next.conn.replayInFlight = loop.conn.replayInFlight)
    (shared : next.conn.replayShared = loop.conn.replayShared) : loop.Keeps next where
  sent := sent
  dead := by rcases authority with same | lapsed <;> simp_all
  closed := connected.trans
  buffers := by simp [buffer]
  retains := .inr buffer
  inFlight := inFlight
  shared := shared

theorem calm_refl (loop : Loop Payload Envelope) : loop.Quiet loop ∧ loop.Keeps loop :=
  ⟨.refl_of rfl rfl id, .of_conn ⟨[], by simp, by simp⟩ rfl (.inl rfl) rfl rfl rfl⟩

theorem quiet_send {wires : List (Wire Payload Envelope)}
    (silent : ∀ wire ∈ wires, wire.Plain loop.conn.replayShared) :
    loop.Quiet (loop.send wires) where
  sent := ⟨wires, rfl, silent⟩
  dead := id
  abort := fun _ flag => .inl flag

/-- What is over stays so. -/
theorem Over.mono {fired : Bool} (isOver : loop.Over id fired)
    (longer : ∃ more, next.sent = loop.sent ++ more) (dead : loop.Dead → next.Dead) :
    next.Over id fired := by
  rcases isOver with isDead | ⟨wire, mem, ends⟩
  · exact .inl (dead isDead)
  · rcases longer with ⟨more, isSent⟩
    exact .inr ⟨wire, isSent ▸ mem_append_left _ mem, ends⟩

section

variable (loop : Loop Payload Envelope)

@[simp]
theorem storeAbort_frame : loop.storeAbort.sent = loop.sent ∧ loop.storeAbort.conn = loop.conn := by
  simp only [storeAbort]
  split <;> exact ⟨rfl, rfl⟩

@[simp]
theorem storeBufferedLive_frame (count : Nat → Nat) :
    (loop.storeBufferedLive count).sent = loop.sent ∧
      (loop.storeBufferedLive count).conn = loop.conn ∧
      (loop.storeBufferedLive count).abortFlag = loop.abortFlag := by
  simp only [storeBufferedLive]
  split <;> exact ⟨rfl, rfl, rfl⟩

end

theorem storeAbort_abortFlag (flag : loop.storeAbort.abortFlag id) :
    loop.abortFlag id ∨ loop.conn.replayShared = some id := by
  simp only [storeAbort] at flag
  split at flag
  · exact .inl flag
  rename_i shared isShared
  by_cases same : id = shared
  · exact .inr (same ▸ isShared)
  · exact .inl (by simpa [update_of_ne same] using flag)

/-- What the cleanup's loop over the channels does: it sends buffered frames and empties the
buffers, and sends all of them if no resync was called for. -/
structure Flushed (setting : Setting Payload Envelope) (granted : List String) (fired : Bool)
    (loop next : Loop Payload Envelope) (rows : List (EventRow Payload)) : Prop where
  sent : next.sent = loop.sent ++ rows.map .live
  abortFlag : next.abortFlag = loop.abortFlag
  connected : next.conn.connected = loop.conn.connected
  authorityCurrent : next.conn.authorityCurrent = loop.conn.authorityCurrent
  channels : next.conn.channels = loop.conn.channels
  replayInFlight : next.conn.replayInFlight = loop.conn.replayInFlight
  replayShared : next.conn.replayShared = loop.conn.replayShared
  liveBuffer : ∀ channel, next.conn.liveBuffer channel =
    if channel ∈ granted then [] else loop.conn.liveBuffer channel
  buffered : ∀ row ∈ rows, ¬ loop.Dead ∧ ∃ channel ∈ granted, row ∈ loop.conn.liveBuffer channel
  all : fired = false → ¬ loop.Dead → ∀ channel ∈ granted,
    setting.subscribeAllowed channel = true → ∀ row ∈ loop.conn.liveBuffer channel, row ∈ rows

/-- A flush empties the buffer of its channel. -/
theorem flushBuffer_flushed (setting : Setting Payload Envelope) (fired : Bool)
    (channel : String) (loop : Loop Payload Envelope) :
    ∃ rows, Flushed setting [channel] fired loop (loop.flushBuffer setting fired channel) rows := by
  simp only [flushBuffer]
  split
  · rename_i flushes
    simp only [Bool.and_eq_true, Bool.not_eq_true'] at flushes
    refine ⟨loop.conn.liveBuffer channel, ⟨rfl, rfl, rfl, rfl, rfl, rfl, rfl, ?_, ?_, ?_⟩⟩
    · intro other
      simp [update_apply]
    · intro row mem
      exact ⟨by simp [flushes], channel, mem_cons_self, mem⟩
    · intro _ _ other mem _ row inBuffer
      rcases mem_singleton.mp mem with rfl
      exact inBuffer
  · rename_i stays
    refine ⟨[], ⟨by simp, rfl, rfl, rfl, rfl, rfl, rfl, ?_, by simp, ?_⟩⟩
    · intro other
      simp [update_apply]
    · intro unfired alive other mem allowed
      rcases mem_singleton.mp mem with rfl
      simp only [Dead, Bool.not_eq_false, Bool.and_eq_true] at alive
      simp [unfired, alive.1, alive.2, allowed] at stays

theorem Flushed.trans {first : String} {rest : List String} {fired : Bool}
    {middle : Loop Payload Envelope} {rows more : List (EventRow Payload)}
    (start : Flushed setting [first] fired loop middle rows)
    (finish : Flushed setting rest fired middle next more) :
    Flushed setting (first :: rest) fired loop next (rows ++ more) := by
  have alive : middle.Dead ↔ loop.Dead := by
    simp only [Dead, start.connected, start.authorityCurrent]
  constructor
  · rw [finish.sent, start.sent, map_append, append_assoc]
  · rw [finish.abortFlag, start.abortFlag]
  · rw [finish.connected, start.connected]
  · rw [finish.authorityCurrent, start.authorityCurrent]
  · rw [finish.channels, start.channels]
  · rw [finish.replayInFlight, start.replayInFlight]
  · rw [finish.replayShared, start.replayShared]
  · intro channel
    rw [finish.liveBuffer, start.liveBuffer]
    by_cases inRest : channel ∈ rest <;> simp [inRest]
  · intro row mem
    rcases mem_append.mp mem with early | late
    · rcases start.buffered row early with ⟨isAlive, channel, inFirst, inBuffer⟩
      exact ⟨isAlive, channel, by simp_all, inBuffer⟩
    rcases finish.buffered row late with ⟨isAlive, channel, inRest, inBuffer⟩
    rw [start.liveBuffer] at inBuffer
    split at inBuffer
    · simp at inBuffer
    · exact ⟨alive.not.mp isAlive, channel, mem_cons_of_mem _ inRest, inBuffer⟩
  · intro unfired isAlive channel granted allowed row inBuffer
    rw [mem_append]
    by_cases isFirst : channel = first
    · exact .inl (start.all unfired isAlive channel (by simp [isFirst]) allowed row inBuffer)
    right
    apply finish.all unfired (alive.not.mpr isAlive) channel _ allowed row
    · simpa [start.liveBuffer, isFirst] using inBuffer
    · simpa [isFirst] using granted

theorem foldl_flushed (setting : Setting Payload Envelope) (fired : Bool)
    (granted : List String) (loop : Loop Payload Envelope) :
    ∃ rows, Flushed setting granted fired loop
      (granted.foldl (fun loop channel => loop.flushBuffer setting fired channel) loop) rows := by
  induction granted generalizing loop with
  | nil => exact ⟨[], by constructor <;> simp⟩
  | cons first rest ih =>
    rcases flushBuffer_flushed setting fired first loop with ⟨rows, start⟩
    rcases ih (loop.flushBuffer setting fired first) with ⟨more, finish⟩
    exact ⟨rows ++ more, start.trans finish⟩

theorem handleBufferOverflow_sent (loop : Loop Payload Envelope) (channel : String) :
    (loop.handleBufferOverflow channel).sent =
      loop.sent ++ [.resync loop.conn.replayShared "live_buffer_overflow" (some 0)] := by
  simp

theorem handleBufferOverflow_liveBuffer (loop : Loop Payload Envelope) (channel : String) :
    (loop.handleBufferOverflow channel).conn.liveBuffer =
      update loop.conn.liveBuffer channel [] := by
  simp

theorem handleBufferOverflow_quiet (channel : String) :
    loop.Quiet (loop.handleBufferOverflow channel) where
  sent := ⟨_, handleBufferOverflow_sent loop channel, by simp⟩
  dead := by simp
  abort := by
    intro id flag
    have stored : loop.storeAbort.abortFlag id := by
      simpa using flag
    rcases storeAbort_abortFlag stored with old | shared
    · exact .inl old
    right
    right
    refine ⟨.resync loop.conn.replayShared "live_buffer_overflow" (some 0), ?_, ?_⟩
    · simp
    · simp [shared]

inductive Delivers (setting : Setting Payload Envelope) (loop : Loop Payload Envelope)
    (row : EventRow Payload) : Loop Payload Envelope → Prop where
  | ignores (reason : loop.Dead ∨ row.channel ∉ loop.conn.channels ∨
      rbacAllows setting.rbacEnforced setting.identity row.channel = false) :
      Delivers setting loop row loop
  | sends (alive : ¬ loop.Dead) (through : loop.conn.replayInFlight row.channel = false) :
      Delivers setting loop row (loop.send [.live row])
  | overflows (inFlight : loop.conn.replayInFlight row.channel = true) :
      Delivers setting loop row (loop.handleBufferOverflow row.channel)
  | buffers (inFlight : loop.conn.replayInFlight row.channel = true) :
      Delivers setting loop row ((loop.setBuffer row.channel
        (loop.conn.liveBuffer row.channel ++ [row])).storeBufferedLive (· + 1))

/-- The cases of a delivery. -/
theorem deliverToConn_delivers (setting : Setting Payload Envelope)
    (loop : Loop Payload Envelope) (row : EventRow Payload) :
    Delivers setting loop row (loop.deliverToConn setting row) := by
  simp only [deliverToConn]
  split
  · rename_i closed
    exact .ignores (.inl (by simp_all))
  rename_i isOpen
  split
  · rename_i absent
    exact .ignores (.inr (.inl (by simpa using absent)))
  split
  · rename_i denied
    simp only [Setting.deliveryRbacAllows] at denied
    cases current : loop.conn.authorityCurrent with
    | false => exact .ignores (.inl (by simp [current]))
    | true => exact .ignores (.inr (.inr (by simpa [current] using denied)))
  · rename_i allowed
    have alive : ¬ loop.Dead := by
      simp only [Setting.deliveryRbacAllows] at allowed
      cases current : loop.conn.authorityCurrent with
      | false => simp [current] at allowed
      | true => simpa [current] using isOpen
    split
    · rename_i through
      exact .sends alive (by simpa using through)
    rename_i inFlight
    split
    · exact .overflows (by simpa using inFlight)
    · exact .buffers (by simpa using inFlight)

theorem Delivers.quiet {row : EventRow Payload} (delivers : Delivers setting loop row next) :
    loop.Quiet next := by
  cases delivers with
  | ignores => exact .refl_of rfl rfl id
  | sends => exact quiet_send (by simp)
  | overflows => exact handleBufferOverflow_quiet row.channel
  | buffers =>
    exact .refl_of (by simp) (by simp) (by simp)

theorem replayCleanup_quiet (granted : List String) (fired : Bool) :
    loop.Quiet (loop.replayCleanup setting granted fired) := by
  rcases foldl_flushed setting fired granted loop with ⟨rows, flushed⟩
  constructor
  · refine ⟨rows.map .live, flushed.sent, ?_⟩
    intro wire mem
    rcases mem_map.mp mem with ⟨row, _, rfl⟩
    exact ⟨fun _ => rfl, rfl, .inl rfl⟩
  · simp only [Dead]
    intro dead
    rw [← flushed.connected, ← flushed.authorityCurrent] at dead
    exact dead
  · intro id flag
    left
    rw [← flushed.abortFlag]
    exact flag

/-- The cases of a task that runs. -/
theorem run_cases (loop : Loop Payload Envelope) (setting : Setting Payload Envelope)
    (task : Task Payload Envelope) :
    (∃ id frame, task = .frame id frame ∧ (loop.Dead ∧ loop.run setting task = loop ∨
      loop.run setting task = loop.send [.replayed id frame])) ∨
    loop.Quiet (loop.run setting task) ∧ ∀ id, task.frameOf id = none := by
  cases task with
  | deliver row => exact .inr ⟨(deliverToConn_delivers setting loop row).quiet, fun _ => rfl⟩
  | setup | drainExtension => exact .inr ⟨.refl_of rfl rfl id, fun _ => rfl⟩
  | frame replay frame =>
    refine .inl ⟨replay, frame, rfl, ?_⟩
    simp only [run, sendFrame]
    split
    · exact .inr rfl
    · rename_i dead
      exact .inl ⟨by simpa using dead, rfl⟩
  | cleanup id granted fired => exact .inr ⟨replayCleanup_quiet granted fired, fun _ => rfl⟩

theorem rejectAuthority_dead (loop : Loop Payload Envelope) : loop.rejectAuthority.Dead := by
  simp only [rejectAuthority, Dead]
  split <;> simp

theorem disconnect_dead (loop : Loop Payload Envelope) : loop.disconnect.Dead := by
  simp

theorem rejectAuthority_calm : loop.Quiet loop.rejectAuthority ∧
    loop.Keeps loop.rejectAuthority := by
  have dead := rejectAuthority_dead loop
  have sent : ∃ more, loop.rejectAuthority.sent = loop.sent ++ more ∧
      ∀ wire ∈ more, wire = .error "auth_failed" "Authentication must be renewed" := by
    simp only [rejectAuthority]
    split
    · exact ⟨[.error "auth_failed" "Authentication must be renewed"], by simp, by simp⟩
    · exact ⟨[], by simp, by simp⟩
  rcases sent with ⟨more, isSent, errors⟩
  refine ⟨⟨⟨more, isSent, fun wire mem => ?_⟩, fun _ => dead, fun _ _ => .inr (.inl dead)⟩,
    ⟨more, isSent, fun row mem => nomatch errors _ mem⟩, fun _ => dead, ?_, ?_, .inl dead, ?_, ?_⟩
  · simp [errors wire mem]
  all_goals
    simp only [rejectAuthority]
    split <;> simp

theorem disconnect_calm : loop.Quiet loop.disconnect ∧ loop.Keeps loop.disconnect := by
  have dead := disconnect_dead loop
  exact ⟨⟨⟨[], by simp, by simp⟩, fun _ => dead, fun _ _ => .inr (.inl dead)⟩,
    ⟨[], by simp, by simp⟩, fun _ => dead, by simp, by simp, .inl dead, by simp, by simp⟩

theorem onUnsubscribe_calm (requested : List String) :
    loop.Quiet (loop.onUnsubscribe requested) ∧ loop.Keeps (loop.onUnsubscribe requested) := by
  simp only [onUnsubscribe]
  split
  · exact calm_refl loop
  · exact ⟨⟨⟨_, rfl, by simp⟩, id, fun _ => .inl⟩,
      .of_conn ⟨_, rfl, by simp⟩ rfl (.inl rfl) rfl rfl rfl⟩

theorem lapseAuthority_calm (loop : Loop Payload Envelope) :
    loop.Quiet loop.lapseAuthority ∧ loop.Keeps loop.lapseAuthority :=
  ⟨.refl_of rfl rfl (by simp), .of_conn ⟨[], by simp, by simp⟩ rfl (.inr rfl) rfl rfl rfl⟩

theorem run_shared (shared : (loop.run setting task).conn.replayShared = some id) :
    loop.conn.replayShared = some id ∨ ∃ granted, task = .setup id granted := by
  cases task with
  | deliver row =>
    have delivers := deliverToConn_delivers setting loop row
    simp only [run] at shared
    generalize loop.deliverToConn setting row = next at delivers shared
    cases delivers with
    | overflows =>
      exact .inl (by
        simpa using shared)
    | buffers => exact .inl (by simpa using shared)
    | _ => exact .inl shared
  | setup replay granted =>
    cases shared
    exact .inr ⟨granted, rfl⟩
  | frame replay sent =>
    simp only [run, sendFrame] at shared
    split at shared <;> exact .inl shared
  | cleanup replay granted fired => cases shared
  | drainExtension name => exact .inl shared

/-- Nothing is sent on a dead connection. -/
theorem run_sent_of_dead (dead : loop.Dead) (task : Task Payload Envelope) :
    (loop.run setting task).sent = loop.sent := by
  cases task with
  | deliver row =>
    simp only [run, deliverToConn]
    split
    · rfl
    case isFalse isConnected =>
    split
    · rfl
    have lapsed : loop.conn.authorityCurrent = false := by
      simpa [show loop.conn.connected = true by simpa using isConnected] using dead
    rw [if_pos (by simp [Setting.deliveryRbacAllows, lapsed])]
  | setup | drainExtension => rfl
  | frame id frame => rw [run, sendFrame, if_neg (by rw [dead]; decide)]
  | cleanup id granted fired =>
    rcases foldl_flushed setting fired granted loop with ⟨rows, flushed⟩
    have nothing : rows = [] :=
      eq_nil_iff_forall_not_mem.mpr fun row mem => (flushed.buffered row mem).1 dead
    have sent := flushed.sent
    rw [nothing, map_nil, append_nil] at sent
    exact sent

theorem run_connected (task : Task Payload Envelope) :
    (loop.run setting task).conn.connected = loop.conn.connected := by
  cases task with
  | deliver row =>
    simp only [run, deliverToConn]
    split
    · rfl
    split
    · rfl
    split
    · rfl
    split
    · rfl
    split <;> simp
  | setup | drainExtension => rfl
  | frame id frame =>
    rw [run, sendFrame]
    split <;> rfl
  | cleanup id granted fired =>
    rcases foldl_flushed setting fired granted loop with ⟨rows, flushed⟩
    exact flushed.connected

theorem Over.of_resync (isOver : loop.Over id true) (fired : Bool) : loop.Over id fired := by
  rcases isOver with dead | ⟨wire, mem, ends⟩
  · exact .inl dead
  refine .inr ⟨wire, mem, ?_⟩
  cases wire with
  | replayed replay frame =>
    cases frame with
    | resync => simpa [Frame.ends] using ends
    | _ => simp [Frame.ends] at ends
  | resync => exact ends
  | _ => cases ends

theorem Over.of_fired {fired : Bool} (isOver : loop.Over id fired) : loop.Over id false := by
  cases fired with
  | false => exact isOver
  | true => exact isOver.of_resync false

end Loop

namespace State

variable {s t : State Payload Envelope} {setting : Setting Payload Envelope} {id : ReplayId}
  {r : Replay Payload Envelope} {label : Label Payload}

def Active (s : State Payload Envelope) (id : ReplayId) : Prop :=
  (∃ r, s.replays id = some r ∧ r.phase ≠ none) ∨ ∃ task ∈ s.queue, task.replay? = some id

/-- A queued task, a frame that was sent or the connection names the replay. -/
def Names (s : State Payload Envelope) (id : ReplayId) : Prop :=
  (∃ task ∈ s.queue, task.replay? = some id) ∨ (∃ wire ∈ s.loop.sent, wire.replay? = some id) ∨
    s.loop.conn.replayShared = some id

/-- The channels that a replay was started for. -/
def granted (s : State Payload Envelope) (id : ReplayId) : Option (List String) :=
  (s.replays id).map fun r => r.request.grantedChannels

/-- The frames of a replay that the client got or that are queued for it. -/
def framesOf (s : State Payload Envelope) (id : ReplayId) : List (Frame Envelope) :=
  s.loop.sent.filterMap (Wire.frameOf id) ++ s.queue.filterMap (Task.frameOf id)

/-- Tasks put behind the queue add their frames. -/
theorem framesOf_append {tasks : List (Task Payload Envelope)}
    (sent : ∃ more, t.loop.sent = s.loop.sent ++ more ∧ ∀ wire ∈ more, wire.frameOf id = none)
    (queue : t.queue = s.queue ++ tasks) :
    t.framesOf id = s.framesOf id ++ tasks.filterMap (Task.frameOf id) := by
  rcases sent with ⟨wires, isSent, silent⟩
  simp [framesOf, isSent, queue, filterMap_eq_nil_iff.mpr silent]

/-- A queue that grows by no task of a replay brings it no frame. -/
theorem framesOf_grow {tasks : List (Task Payload Envelope)}
    (sent : ∃ more, t.loop.sent = s.loop.sent ++ more ∧ ∀ wire ∈ more, wire.frameOf id = none)
    (queue : t.queue = s.queue ++ tasks) (other : ∀ task ∈ tasks, task.replay? ≠ some id) :
    t.framesOf id = s.framesOf id := by
  rw [framesOf_append sent queue, append_right_eq_self, filterMap_eq_nil_iff]
  exact fun task mem => Task.frameOf_eq_none (other task mem)

structure Tracks (s : State Payload Envelope) (id : ReplayId) (r : Replay Payload Envelope) :
    Prop where
  frames : (s.framesOf id).Sublist r.emitted
  ascending : (r.emitted.filterMap Frame.seq?).Pairwise (· < ·)
  fits : ∀ phase, r.phase = some phase → phase.Fits (r.emitted.filterMap Frame.seq?)
  aborted : s.loop.abortFlag id = true → s.loop.Over id true
  returned : ∀ result, r.phase = some (.returned result) →
    s.loop.Over id result.fired ∨ ∃ task ∈ s.queue, task.ends id result.fired
  cleanup : ∀ fired, s.loop.Over id fired ∨
    Core.Fifo.Preceded (Task.ends id fired) (Task.IsCleanup id fired) s.queue

section

variable (tracks : s.Tracks id r)
include tracks

theorem Tracks.carry (stay : ∀ {fired}, s.loop.Over id fired → t.loop.Over id fired)
    (frames : (t.framesOf id).Sublist (s.framesOf id))
    (abort : t.loop.abortFlag id = true → s.loop.abortFlag id = true ∨ t.loop.Over id true)
    (ends : ∀ fired, ∀ task ∈ s.queue, task.ends id fired → t.loop.Over id fired ∨ task ∈ t.queue)
    (cleanup : ∀ fired,
      Core.Fifo.Preceded (Task.ends id fired) (Task.IsCleanup id fired) s.queue →
      t.loop.Over id fired ∨
        Core.Fifo.Preceded (Task.ends id fired) (Task.IsCleanup id fired) t.queue) :
    t.Tracks id r := by
  refine ⟨frames.trans tracks.frames, tracks.ascending, tracks.fits, ?_, ?_, ?_⟩
  · intro flag
    exact (abort flag).elim (fun old => stay (tracks.aborted old)) fun isOver => isOver
  · intro result isReturned
    rcases tracks.returned result isReturned with isOver | ⟨task, mem, isEnd⟩
    · exact .inl (stay isOver)
    · exact (ends _ task mem isEnd).imp_right fun stays => ⟨task, stays, isEnd⟩
  · intro fired
    exact (tracks.cleanup fired).elim (fun isOver => .inl (stay isOver)) (cleanup fired)

/-- Tasks of others keep a replay tracked. -/
theorem Tracks.grow (leaves : Loop.Leaves id s.loop t.loop)
    {more : List (Task Payload Envelope)} (queue : t.queue = s.queue ++ more)
    (other : ∀ task ∈ more, task.replay? ≠ some id) : t.Tracks id r := by
  rcases leaves.sent with ⟨wires, isSent, silent⟩
  refine tracks.carry (fun isOver => isOver.mono ⟨wires, isSent⟩ leaves.dead) ?_ leaves.abort
    ?_ ?_
  · rw [framesOf_grow leaves.sent queue other]
  · intro fired task mem _
    exact .inr (queue ▸ mem_append_left _ mem)
  · intro fired preceded
    right
    rw [queue]
    apply preceded.append
    right
    rintro task mem ⟨granted, rfl⟩
    exact other _ mem rfl

theorem Tracks.next (queue : s.queue = task :: t.queue)
    (stay : ∀ {fired}, s.loop.Over id fired → t.loop.Over id fired)
    (frames : (t.loop.sent.filterMap (Wire.frameOf id)).Sublist
      (s.loop.sent.filterMap (Wire.frameOf id) ++ [task].filterMap (Task.frameOf id)))
    (abort : t.loop.abortFlag id = true → s.loop.abortFlag id = true ∨ t.loop.Over id true)
    (ended : ∀ {fired}, task.ends id fired → t.loop.Over id fired) : t.Tracks id r := by
  refine tracks.carry stay ?_ abort ?_ ?_
  · rw [framesOf, framesOf, queue, ← singleton_append, filterMap_append, ← append_assoc]
    exact frames.append_right _
  · intro fired ender mem isEnd
    rw [queue] at mem
    rcases mem_cons.mp mem with rfl | inRest
    · exact .inl (ended isEnd)
    · exact .inr inRest
  · intro fired preceded
    rw [queue] at preceded
    exact preceded.2.imp_left ended

theorem Tracks.pop (leaves : Loop.Leaves id s.loop t.loop) (queue : s.queue = task :: t.queue)
    (other : task.frameOf id = none) : t.Tracks id r := by
  rcases leaves.sent with ⟨wires, isSent, silent⟩
  have noWires : wires.filterMap (Wire.frameOf id) = [] := filterMap_eq_nil_iff.mpr silent
  refine tracks.next queue (fun isOver => isOver.mono ⟨wires, isSent⟩ leaves.dead) ?_
    leaves.abort ?_
  · simp [isSent, noWires]
  · rintro fired ⟨sent, rfl, _⟩
    simp at other

/-- Sending a queued frame keeps its replay tracked. -/
theorem Tracks.popFrame {frame : Frame Envelope} (queue : s.queue = .frame id frame :: t.queue)
    (runs : s.loop.Dead ∧ t.loop = s.loop ∨ t.loop = s.loop.send [.replayed id frame]) :
    t.Tracks id r := by
  rcases runs with ⟨dead, same⟩ | sent
  · exact tracks.next queue (fun isOver => same ▸ isOver) (by simp [same])
      (fun flag => .inl (same ▸ flag)) fun _ => same ▸ .inl dead
  refine tracks.next queue ?_ ?_ ?_ ?_
  · intro fired isOver
    rw [sent]
    exact isOver.mono ⟨_, rfl⟩ fun dead => dead
  · simp [sent]
  · intro flag
    exact .inl (by simpa [sent] using flag)
  · rintro fired ⟨_, same, isEnd⟩
    cases same
    rw [sent]
    exact .inr ⟨.replayed id frame, by simp, by simp [isEnd]⟩

end

/-- How a replay goes on, and the tasks that it queues. -/
inductive Moves (s : State Payload Envelope) (id : ReplayId) (label : Label Payload)
    (r : Replay Payload Envelope) :
    Replay Payload Envelope → List (Task Payload Envelope) → Prop where
  | returns {result : ReplayResult} (isReturned : r.phase = some (.returned result)) :
      Moves s id label r { r with phase := none }
        [.cleanup id r.request.grantedChannels result.fired]
  | resumes {answers : Bool} {phase next : Phase Payload} {frames : List (Frame Envelope)}
      (isLabel : label = .resume id answers) (isPhase : r.phase = some phase)
      (resumes : Resumes r.request s.table answers (s.loop.abortFlag id) phase next frames) :
      Moves s id label r ⟨r.request, some next, r.emitted ++ frames⟩ (frames.map (.frame id))

section

variable {after : Replay Payload Envelope} {tasks : List (Task Payload Envelope)}
  (moves : Moves s id label r after tasks)
include moves

theorem Moves.request : after.request = r.request := by
  cases moves <;> rfl

theorem Moves.running : r.phase ≠ none := by
  cases moves with
  | returns isPhase | resumes _ isPhase => simp [isPhase]

theorem Moves.ofReplay : ∀ task ∈ tasks, task.replay? = some id := by
  cases moves <;> simp

theorem Moves.emitted : after.emitted = r.emitted ++ tasks.filterMap (Task.frameOf id) := by
  cases moves with
  | returns => simp
  | resumes => rw [Task.filterMap_frameOf]

theorem Moves.pending :
    after.phase ≠ none ∨ ∃ fired, .cleanup id r.request.grantedChannels fired ∈ tasks := by
  cases moves with
  | returns => exact .inr ⟨_, mem_cons_self⟩
  | resumes => exact .inl (by simp)

/-- A turn of the replay keeps it tracked. -/
theorem Moves.tracks (tracks : s.Tracks id r) (ordered : Core.Cursor.Ordered rowSeq s.table)
    (loop : t.loop = s.loop) (queue : t.queue = s.queue ++ tasks) : t.Tracks id after := by
  have frames : (t.framesOf id).Sublist after.emitted := by
    rw [framesOf_append ⟨[], by simp [loop]⟩ queue, moves.emitted]
    exact tracks.frames.append (Sublist.refl _)
  have cleanup : ∀ fired, (∀ task ∈ tasks, ¬ task.IsCleanup id fired) ∨
      (∃ task ∈ s.queue, task.ends id fired) → t.loop.Over id fired ∨
        Core.Fifo.Preceded (Task.ends id fired) (Task.IsCleanup id fired) t.queue := by
    intro fired later
    rw [loop, queue]
    exact (tracks.cleanup fired).imp_right fun preceded => preceded.append later.symm
  cases moves with
  | @returns result isReturned =>
    refine ⟨frames, tracks.ascending, by simp, loop ▸ tracks.aborted, by simp, fun fired => ?_⟩
    rcases eq_or_ne fired result.fired with rfl | same
    · rcases tracks.returned result isReturned with isOver | ender
      · exact .inl (loop ▸ isOver)
      · exact cleanup _ (.inr ender)
    · refine cleanup fired (.inl ?_)
      rintro task mem ⟨_, isCleanup⟩
      rcases mem_singleton.mp mem with rfl
      exact same (Task.cleanup.inj isCleanup).2.2.symm
  | @resumes answers phase next frames isLabel isPhase resumes =>
    have fits := resumes.fits ordered tracks.ascending (tracks.fits phase isPhase)
    refine ⟨‹_›, by simpa using fits.1, ?_, loop ▸ tracks.aborted, ?_, fun fired => ?_⟩
    · intro other isNext
      cases isNext
      simpa using fits.2
    · intro result isNext
      cases isNext
      rw [loop, queue]
      rcases resumes.ends (tracks.fits phase isPhase) with flag | ⟨frame, mem, ends⟩
      · exact .inl ((tracks.aborted flag).of_resync _)
      · exact .inr ⟨.frame id frame, by simp [mem], frame, rfl, ends⟩
    · refine cleanup fired (.inl ?_)
      rintro task mem ⟨_, rfl⟩
      simp at mem

end

/-- A subscribe with `since_seq` that is acknowledged, with the frames after the acknowledgement
and the tasks that are queued. -/
structure Opens (s t : State Payload Envelope) (replay : Replay Payload Envelope)
    (wires : List (Wire Payload Envelope)) (tasks : List (Task Payload Envelope)) : Prop where
  table : t.table = s.table
  lastSeq : t.lastSeq = s.lastSeq
  unpublished : t.unpublished = s.unpublished
  started : t.started = s.started + 1
  replays : t.replays = update s.replays s.started (some replay)
  queue : t.queue = s.queue ++ tasks
  ofReplay : ∀ task ∈ tasks, task.replay? = some s.started
  sent : t.loop.sent =
    s.loop.sent ++ .subscribed (some s.started) replay.request.grantedChannels :: wires
  plain : ∀ wire ∈ wires, wire.Plain (some s.started)
  keeps : s.loop.Keeps t.loop
  abort : ∀ id ≠ s.started, t.loop.abortFlag id = s.loop.abortFlag id

section

variable {replay : Replay Payload Envelope} {wires : List (Wire Payload Envelope)}
  {tasks : List (Task Payload Envelope)} (opens : Opens s t replay wires tasks)
include opens

theorem Opens.silent : ∃ more, t.loop.sent = s.loop.sent ++ more ∧
    ∀ wire ∈ more, wire.frameOf id = none :=
  ⟨_, opens.sent, forall_mem_cons.mpr ⟨rfl, fun wire mem => (opens.plain wire mem).1 id⟩⟩

theorem Opens.replays_of_ne (old : id ≠ s.started) : t.replays id = s.replays id := by
  rw [opens.replays, update_of_ne old]

theorem Opens.ofOther (old : id ≠ s.started) : ∀ task ∈ tasks, task.replay? ≠ some id := by
  intro task mem isOf
  rw [opens.ofReplay task mem] at isOf
  exact old (Option.some.inj isOf).symm

/-- Opening makes at most the new replay active. -/
theorem Opens.active (active : t.Active id) :
    s.Active id ∨ id = s.started ∧ (replay.phase ≠ none ∨ tasks ≠ []) := by
  rcases active with ⟨r, found, running⟩ | ⟨task, mem, isOf⟩
  · rcases eq_or_ne id s.started with rfl | old
    · rw [opens.replays, update_self] at found
      exact .inr ⟨rfl, .inl (Option.some.inj found ▸ running)⟩
    · exact .inl (.inl ⟨r, opens.replays_of_ne old ▸ found, running⟩)
  · rw [opens.queue] at mem
    rcases mem_append.mp mem with old | new
    · exact .inl (.inr ⟨task, old, isOf⟩)
    · rw [opens.ofReplay task new] at isOf
      exact .inr ⟨(Option.some.inj isOf).symm, .inr (ne_nil_of_mem new)⟩

end

/-- A subscribe that starts a replay. -/
structure Starts (setting : Setting Payload Envelope) (s t : State Payload Envelope)
    (requested : List String) (claim : SinceClaim) (process : Process) (since : Nat)
    (granted : List String) (phase : Phase Payload) (frames : List (Frame Envelope)) : Prop
    extends Opens s t ⟨setting.request since granted, some phase, frames⟩ []
      (.setup s.started granted :: frames.map (.frame s.started)) where
  claims : extractSinceSeq claim = .ok (some since)
  enabled : process.eventsEnabled = true
  takes : process.takesTasks = true
  grants : setting.grant s.loop.conn.channels requested = (granted, t.loop.conn.channels)
  begins : (setting.request since granted).start process.hasClient = (phase, frames)
  unset : t.loop.abortFlag s.started = false

inductive Subscribes (setting : Setting Payload Envelope) (s : State Payload Envelope)
    (requested : List String) (claim : SinceClaim) (process : Process) :
    State Payload Envelope → Prop where
  /-- Without `since_seq`, or not at all. -/
  | plain {loop : Loop Payload Envelope} (calm : s.loop.Quiet loop ∧ s.loop.Keeps loop)
      (reason : loop.Dead ∨ ∀ since, extractSinceSeq claim ≠ .ok (some since)) :
      Subscribes setting s requested claim process { s with loop := loop }
  /-- Events are disabled, or the process is shutting down. -/
  | refused {t : State Payload Envelope} {since : Nat} {granted : List String} (reason : String)
      (seconds : Option Nat) (opens : Opens s t ⟨setting.request since granted, none, []⟩
        [.resync (some s.started) reason seconds] []) :
      Subscribes setting s requested claim process t
  | starts {t : State Payload Envelope} {since : Nat} {granted : List String}
      {phase : Phase Payload} {frames : List (Frame Envelope)}
      (starts : Starts setting s t requested claim process since granted phase frames) :
      Subscribes setting s requested claim process t

/-- The cases of a subscription. -/
theorem onSubscribe_subscribes (requested : List String) (claim : SinceClaim) (process : Process) :
    Subscribes setting s requested claim process
      (s.onSubscribe setting requested claim process) := by
  simp only [onSubscribe]
  split
  · rename_i lapsed
    exact .plain (Loop.calm_refl _) (.inl (by simpa using fun _ => by simpa using lapsed))
  cases claims : extractSinceSeq claim with
  | error code =>
    exact .plain ⟨Loop.quiet_send (by simp),
      .of_conn ⟨_, rfl, by simp⟩ rfl (.inl rfl) rfl rfl rfl⟩ (.inr (by simp [claims]))
  | ok since =>
    cases since with
    | none =>
      exact .plain ⟨⟨⟨_, rfl, by simp⟩, id, fun _ => .inl⟩,
        .of_conn ⟨_, rfl, by simp⟩ rfl (.inl rfl) rfl rfl rfl⟩ (.inr (by simp [claims]))
    | some since =>
      have keeps : ∀ {next : Loop Payload Envelope} {more : List (Wire Payload Envelope)},
          next.sent = s.loop.sent ++ more → (∀ row, .live row ∉ more) → next.conn =
            { s.loop.conn with channels := (setting.grant s.loop.conn.channels requested).2 } →
          s.loop.Keeps next := fun sent silent conn => .of_conn ⟨_, sent, silent⟩
        (by rw [conn]) (.inl (by rw [conn])) (by rw [conn]) (by rw [conn]) (by rw [conn])
      simp only [fireReplay]
      split
      · exact .refused "events_disabled" (some setting.cfg.retentionSeconds)
          ⟨rfl, rfl, rfl, rfl, rfl, by simp, by simp, by simp; rfl, by simp,
            keeps (append_assoc ..) (by simp) rfl, fun _ _ => rfl⟩
      rename_i disabled
      split
      · exact .refused "server_shutting_down" none
          ⟨rfl, rfl, rfl, rfl, rfl, by simp, by simp, by simp; rfl, by simp,
            keeps (append_assoc ..) (by simp) rfl, fun _ _ => rfl⟩
      · rename_i full
        refine .starts ⟨⟨rfl, rfl, rfl, rfl, rfl, rfl, by simp, rfl, by simp,
          keeps rfl (by simp) rfl, ?_⟩, claims, by simpa using disabled, by simpa using full, rfl,
          rfl, by simp⟩
        intro id old
        simp [update_of_ne old]

theorem resumeReplay_cases {answers : Bool} (step : s.resumeReplay id answers = some t) :
    ∃ r after tasks, s.replays id = some r ∧ Moves s id (.resume id answers) r after tasks ∧
      t = (s.setReplay id after).queueInLoop tasks := by
  simp only [resumeReplay] at step
  split at step
  · cases step
  rename_i r found
  split at step
  · cases step
  · rename_i result isReturned
    exact ⟨r, _, _, found, .returns isReturned, (Option.some.inj step).symm⟩
  · rename_i phase running isPhase
    have resumes := r.request.resumes s.table answers (s.loop.abortFlag id)
      (s.loop.bufferedLiveCount id) running
    exact ⟨r, _, _, found, .resumes rfl isPhase resumes, (Option.some.inj step).symm⟩

inductive Steps (setting : Setting Payload Envelope) (s : State Payload Envelope) :
    Label Payload → State Payload Envelope → Prop where
  | commit {row : EventRow Payload} (idle : s.unpublished = none) (later : s.lastSeq < row.seq) :
      Steps setting s (.commit row)
        { s with table := s.table ++ [row], lastSeq := row.seq, unpublished := some row }
  | publish {row : EventRow Payload} (committed : s.unpublished = some row) :
      Steps setting s .publish
        { s with queue := s.queue ++ [.deliver row], unpublished := none }
  | prune (count : Nat) : Steps setting s (.prune count) { s with table := s.table.drop count }
  | subscribe {requested : List String} {claim : SinceClaim} {process : Process}
      {t : State Payload Envelope}
      (subscribes : Subscribes setting s requested claim process t) :
      Steps setting s (.subscribe requested claim process) t
  | unsubscribe (requested : List String) :
      Steps setting s (.unsubscribe requested) { s with loop := s.loop.onUnsubscribe requested }
  | drain (name : String) :
      Steps setting s (.drain name) { s with queue := s.queue ++ [.drainExtension name] }
  | runTask {task : Task Payload Envelope} {rest : List (Task Payload Envelope)}
      (queue : s.queue = task :: rest) :
      Steps setting s .runTask { s with queue := rest, loop := s.loop.run setting task }
  | resume {id : ReplayId} {answers : Bool} {r after : Replay Payload Envelope}
      {tasks : List (Task Payload Envelope)} (found : s.replays id = some r)
      (moves : Moves s id (.resume id answers) r after tasks) :
      Steps setting s (.resume id answers) ((s.setReplay id after).queueInLoop tasks)
  | lapseAuthority : Steps setting s .lapseAuthority { s with loop := s.loop.lapseAuthority }
  | rejectAuthority : Steps setting s .rejectAuthority { s with loop := s.loop.rejectAuthority }
  | disconnect : Steps setting s .disconnect { s with loop := s.loop.disconnect }

/-- A step is one of the listed ones. -/
theorem exec_steps (step : s.exec setting label = some t) : Steps setting s label t := by
  cases label with
  | commit row =>
    simp only [exec] at step
    split at step
    · rename_i allowed
      simp only [Bool.and_eq_true, Option.isNone_iff_eq_none, decide_eq_true_eq] at allowed
      cases step
      exact .commit allowed.1 allowed.2
    · cases step
  | publish =>
    rcases Option.map_eq_some_iff.mp step with ⟨row, committed, rfl⟩
    exact .publish committed
  | prune count =>
    cases step
    exact .prune count
  | subscribe requested claim process =>
    rcases Core.of_guard step with ⟨-, rfl⟩
    exact .subscribe (onSubscribe_subscribes requested claim process)
  | unsubscribe requested =>
    rcases Core.of_guard step with ⟨-, rfl⟩
    exact .unsubscribe requested
  | drain name =>
    cases step
    exact .drain name
  | runTask =>
    simp only [exec] at step
    split at step
    · cases step
    · rename_i task rest queue
      cases step
      exact .runTask queue
  | resume id answers =>
    rcases resumeReplay_cases step with ⟨r, after, tasks, found, moves, rfl⟩
    exact .resume found moves
  | lapseAuthority =>
    cases step
    exact .lapseAuthority
  | rejectAuthority =>
    cases step
    exact .rejectAuthority
  | disconnect =>
    cases step
    exact .disconnect

/-- What a step does to the events table, to the event that is still to be published and to the
queued deliveries. -/
structure Writes (s t : State Payload Envelope) : Prop where
  lastSeq : s.lastSeq ≤ t.lastSeq
  ordered : Core.Cursor.Ordered rowSeq s.table → (∀ row ∈ s.table, row.seq ≤ s.lastSeq) →
    Core.Cursor.Ordered rowSeq t.table
  table : ∀ row ∈ t.table, row ∈ s.table ∨ t.unpublished = some row ∧ row.seq ≤ t.lastSeq
  unpublished : ∀ row, t.unpublished = some row →
    s.unpublished = some row ∨ s.lastSeq < row.seq ∧ row.seq ≤ t.lastSeq
  deliveries : ∀ row, .deliver row ∈ t.queue → .deliver row ∈ s.queue ∨ s.unpublished = some row
  published : ∀ row, s.unpublished = some row →
    t.unpublished = some row ∨ .deliver row ∈ t.queue

theorem Writes.refl_of (table : t.table = s.table) (lastSeq : t.lastSeq = s.lastSeq)
    (unpublished : t.unpublished = s.unpublished)
    (deliveries : ∀ row, .deliver row ∈ t.queue → .deliver row ∈ s.queue) : s.Writes t where
  lastSeq := lastSeq.ge
  ordered isOrdered _ := table ▸ isOrdered
  table _ mem := .inl (table ▸ mem)
  unpublished _ isNew := .inl (unpublished ▸ isNew)
  deliveries row queued := .inl (deliveries row queued)
  published _ isOld := .inl (unpublished.trans isOld)

theorem Opens.writes {replay : Replay Payload Envelope} {wires : List (Wire Payload Envelope)}
    {tasks : List (Task Payload Envelope)} (opens : Opens s t replay wires tasks) :
    s.Writes t := by
  refine .refl_of opens.table opens.lastSeq opens.unpublished fun row queued => ?_
  rw [opens.queue] at queued
  rcases mem_append.mp queued with old | new
  · exact old
  · exact absurd (opens.ofReplay _ new) (by simp)

/-- What a step does to the table and the deliveries. -/
theorem Steps.writes (steps : Steps setting s label t) : s.Writes t := by
  cases steps with
  | @commit row idle later =>
    refine ⟨later.le, fun ordered bounded => ?_, ?_, ?_, fun _ => .inl, by simp [idle]⟩
    · apply Core.Cursor.ordered_append ordered (by simp [Core.Cursor.Ordered])
      intro old mem new isNew
      rcases mem_singleton.mp isNew with rfl
      exact lt_of_le_of_lt (bounded old mem) later
    · intro other mem
      refine (mem_append.mp mem).imp_right fun new => ?_
      rcases mem_singleton.mp new with rfl
      exact ⟨rfl, le_rfl⟩
    · intro other isNew
      cases isNew
      exact .inr ⟨later, le_rfl⟩
  | @publish row committed =>
    refine ⟨le_rfl, fun ordered _ => ordered, fun _ => .inl, by simp, ?_, ?_⟩
    · intro other queued
      refine (mem_append.mp queued).imp_right fun new => ?_
      rwa [Task.deliver.inj (mem_singleton.mp new)]
    · intro other isUnpublished
      rw [committed] at isUnpublished
      cases isUnpublished
      exact .inr (mem_append_right _ mem_cons_self)
  | prune count =>
    exact ⟨le_rfl, fun ordered _ => ordered.sublist (drop_sublist _ _),
      fun row mem => .inl (mem_of_mem_drop mem), fun _ => .inl, fun _ => .inl, fun _ => .inl⟩
  | subscribe subscribes =>
    cases subscribes with
    | plain => exact .refl_of rfl rfl rfl fun _ => id
    | refused _ _ opens => exact opens.writes
    | starts starts => exact starts.writes
  | runTask queue =>
    refine .refl_of rfl rfl rfl fun row queued => ?_
    rw [queue]
    exact mem_cons_of_mem _ queued
  | resume found moves =>
    refine .refl_of rfl rfl rfl fun row queued => ?_
    rcases mem_append.mp queued with old | new
    · exact old
    · exact absurd (moves.ofReplay _ new) (by simp)
  | drain => exact .refl_of rfl rfl rfl (by simp)
  | _ => exact .refl_of rfl rfl rfl fun _ => id

/-- What a step does to the replays and to what the client gets. -/
inductive Effect (setting : Setting Payload Envelope) (s t : State Payload Envelope) :
    Label Payload → Prop where
  /-- Neither a replay nor a task of one is touched. -/
  | calm {label : Label Payload} {more : List (Task Payload Envelope)}
      (calm : s.loop.Quiet t.loop ∧ s.loop.Keeps t.loop) (queue : t.queue = s.queue ++ more)
      (plain : ∀ task ∈ more, task.replay? = none) (started : t.started = s.started)
      (replays : t.replays = s.replays) : Effect setting s t label
  | runs {task : Task Payload Envelope} (queue : s.queue = task :: t.queue)
      (loop : t.loop = s.loop.run setting task) (started : t.started = s.started)
      (replays : t.replays = s.replays) : Effect setting s t .runTask
  | refused {label : Label Payload} {since : Nat} {granted : List String} {reason : String}
      {seconds : Option Nat} (opens : Opens s t ⟨setting.request since granted, none, []⟩
        [.resync (some s.started) reason seconds] []) : Effect setting s t label
  | starts {requested : List String} {claim : SinceClaim} {process : Process} {since : Nat}
      {granted : List String} {phase : Phase Payload} {frames : List (Frame Envelope)}
      (starts : Starts setting s t requested claim process since granted phase frames) :
      Effect setting s t (.subscribe requested claim process)
  | moves {label : Label Payload} {id : ReplayId} {r after : Replay Payload Envelope}
      {tasks : List (Task Payload Envelope)} (found : s.replays id = some r)
      (moves : Moves s id label r after tasks)
      (isNext : t = (s.setReplay id after).queueInLoop tasks) : Effect setting s t label

/-- What a step does to the loop and the replays. -/
theorem Steps.effect (steps : Steps setting s label t) : Effect setting s t label := by
  have same : t.loop = s.loop → s.loop.Quiet t.loop ∧ s.loop.Keeps t.loop := fun loop =>
    loop ▸ Loop.calm_refl s.loop
  cases steps with
  | commit | prune => exact .calm (same rfl) (append_nil _).symm (by simp) rfl rfl
  | publish | drain => exact .calm (same rfl) rfl (by simp) rfl rfl
  | subscribe subscribes =>
    cases subscribes with
    | plain calm => exact .calm calm (append_nil _).symm (by simp) rfl rfl
    | refused reason seconds opens => exact .refused opens
    | starts starts => exact .starts starts
  | unsubscribe requested =>
    exact .calm (Loop.onUnsubscribe_calm requested) (append_nil _).symm (by simp) rfl rfl
  | runTask queue => exact .runs queue rfl rfl rfl
  | resume found moves => exact .moves found moves rfl
  | lapseAuthority =>
    exact .calm (Loop.lapseAuthority_calm s.loop) (append_nil _).symm (by simp) rfl rfl
  | rejectAuthority =>
    exact .calm Loop.rejectAuthority_calm (append_nil _).symm (by simp) rfl rfl
  | disconnect => exact .calm Loop.disconnect_calm (append_nil _).symm (by simp) rfl rfl

/-- Only a new replay becomes active. -/
theorem Effect.active (effect : Effect setting s t label) (active : t.Active id) :
    s.Active id ∨ id = s.started := by
  cases effect with
  | calm _ queue plain _ replays =>
    left
    refine active.imp (fun running => replays ▸ running) ?_
    rintro ⟨task, mem, isOf⟩
    rw [queue] at mem
    rcases mem_append.mp mem with old | new
    · exact ⟨task, old, isOf⟩
    · rw [plain task new] at isOf
      cases isOf
  | runs queue _ _ replays =>
    left
    refine active.imp (fun running => replays ▸ running) ?_
    rintro ⟨task, mem, isOf⟩
    exact ⟨task, by rw [queue]; exact mem_cons_of_mem _ mem, isOf⟩
  | refused opens => exact (opens.active active).imp_right And.left
  | starts starts => exact (starts.active active).imp_right And.left
  | @moves _ other r after tasks found moves isNext =>
    left
    rcases eq_or_ne id other with rfl | isOther
    · exact .inl ⟨r, found, moves.running⟩
    subst isNext
    refine active.imp (by simp [update_of_ne isOther]) ?_
    rintro ⟨task, mem, isOf⟩
    rcases mem_append.mp mem with old | new
    · exact ⟨task, old, isOf⟩
    · rw [moves.ofReplay task new] at isOf
      exact absurd (Option.some.inj isOf).symm isOther

structure Base (s : State Payload Envelope) : Prop where
  ordered : Core.Cursor.Ordered rowSeq s.table
  bounded : ∀ row ∈ s.table, row.seq ≤ s.lastSeq
  known : ∀ id, (s.granted id).isSome ↔ id < s.started
  named : ∀ id, s.Names id → id < s.started
  tracks : ∀ id r, s.replays id = some r → s.Tracks id r
  acks : ∀ id channels, (id, channels) ∈ s.loop.sent.filterMap Wire.ack? →
    s.granted id = some channels

theorem IsNew.base (new : s.IsNew) : s.Base where
  ordered := new.ordered
  bounded := new.bounded
  known := by simp [granted, new.replays, new.started]
  named := by simp [Names, new.queue, new.sent, new.replayShared]
  tracks := by simp [new.replays]
  acks := by simp [new.sent]

section

variable (base : s.Base)
include base

theorem Base.started_of_replay (found : s.replays id = some r) : id < s.started :=
  (base.known id).mp (by simp [granted, found])

/-- Every number given out belongs to a replay. -/
theorem Base.exists_replay (isStarted : id < s.started) : ∃ r, s.replays id = some r := by
  simpa [granted, Option.isSome_iff_exists] using (base.known id).mpr isStarted

theorem Base.started_of_active (active : s.Active id) : id < s.started := by
  rcases active with ⟨r, found, _⟩ | ofTask
  · exact base.started_of_replay found
  · exact base.named id (.inl ofTask)

theorem Base.not_names (fresh : s.started ≤ id) : ¬ s.Names id := fun names =>
  absurd (base.named id names) fresh.not_gt

theorem Base.framesOf_fresh (fresh : s.started ≤ id) : s.framesOf id = [] := by
  have unnamed := base.not_names fresh
  simp only [framesOf, append_eq_nil_iff, filterMap_eq_nil_iff]
  constructor
  · intro wire mem
    exact Wire.frameOf_eq_none fun isOf => unnamed (.inr (.inl ⟨wire, mem, isOf⟩))
  · intro task mem
    exact Task.frameOf_eq_none fun isOf => unnamed (.inl ⟨task, mem, isOf⟩)

/-- What the base invariant needs of a step. -/
theorem Base.keep (writes : s.Writes t) (started : t.started = s.started)
    (granted : t.granted = s.granted)
    (queue : ∀ task ∈ t.queue, ∀ id, task.replay? = some id → id < s.started)
    (shared : ∀ id, t.loop.conn.replayShared = some id → id < s.started)
    (sent : ∃ more, t.loop.sent = s.loop.sent ++ more ∧ ∀ wire ∈ more, wire.ack? = none ∧
      ∀ id, wire.replay? = some id → id < s.started)
    (tracks : ∀ id r, t.replays id = some r → t.Tracks id r) : t.Base := by
  rcases sent with ⟨wires, isSent, silent⟩
  refine ⟨writes.ordered base.ordered base.bounded, ?_, ?_, ?_, tracks, ?_⟩
  · intro row mem
    rcases writes.table row mem with old | new
    · exact (base.bounded row old).trans writes.lastSeq
    · exact new.2
  · rw [granted, started]
    exact base.known
  · rintro id (⟨task, mem, isOf⟩ | ⟨wire, mem, isOf⟩ | isShared) <;> rw [started]
    · exact queue task mem id isOf
    · rw [isSent] at mem
      rcases mem_append.mp mem with old | new
      · exact base.named id (.inr (.inl ⟨wire, old, isOf⟩))
      · exact (silent wire new).2 id isOf
    · exact shared id isShared
  · have noAcks : wires.filterMap Wire.ack? = [] :=
      filterMap_eq_nil_iff.mpr fun wire inWires => (silent wire inWires).1
    rw [isSent, filterMap_append, noAcks, append_nil, granted]
    exact base.acks

theorem Base.sent_of_quiet {loop : Loop Payload Envelope} (quiet : s.loop.Quiet loop) :
    ∃ more, loop.sent = s.loop.sent ++ more ∧ ∀ wire ∈ more, wire.ack? = none ∧
      ∀ id, wire.replay? = some id → id < s.started := by
  rcases quiet.sent with ⟨wires, isSent, plain⟩
  refine ⟨wires, isSent, fun wire mem => ⟨(plain wire mem).2.1, fun id isOf => ?_⟩⟩
  rcases (plain wire mem).2.2 with none | isShared
  · rw [none] at isOf
    cases isOf
  · exact base.named id (.inr (.inr (isShared ▸ isOf)))

/-- A task that runs keeps the base invariant. -/
theorem Base.runs (writes : s.Writes t) (queue : s.queue = task :: t.queue)
    (loop : t.loop = s.loop.run setting task) (started : t.started = s.started)
    (replays : t.replays = s.replays) : t.Base := by
  have named : ∀ other ∈ s.queue, ∀ id, other.replay? = some id → id < s.started :=
    fun other mem id isOf => base.named id (.inl ⟨other, mem, isOf⟩)
  have atFront : task ∈ s.queue := by simp [queue]
  have keep := base.keep writes started (funext fun id => by rw [State.granted, replays]; rfl)
    (fun other mem => named other (by rw [queue]; exact mem_cons_of_mem _ mem))
    (by
      intro id shared
      rw [loop] at shared
      rcases Loop.run_shared shared with old | ⟨granted, rfl⟩
      · exact base.named id (.inr (.inr old))
      · exact named _ atFront id rfl)
  rcases s.loop.run_cases setting task with ⟨id, frame, rfl, runs⟩ | ⟨quiet, silent⟩
  · rw [← loop] at runs
    have sent : ∃ more, t.loop.sent = s.loop.sent ++ more ∧
        ∀ wire ∈ more, wire = .replayed id frame := by
      rcases runs with ⟨-, same⟩ | sent
      · exact ⟨[], by simp [same], by simp⟩
      · exact ⟨_, by rw [sent]; rfl, by simp⟩
    rcases sent with ⟨more, isSent, isReplayed⟩
    apply keep
    · refine ⟨more, isSent, fun wire mem => ?_⟩
      rw [isReplayed wire mem]
      exact ⟨rfl, named _ atFront⟩
    · intro other r found
      have tracks := base.tracks other r (replays ▸ found)
      rcases eq_or_ne other id with rfl | isOther
      · exact tracks.popFrame queue runs
      refine tracks.pop ⟨⟨more, isSent, ?_⟩, ?_, ?_⟩ queue (if_neg isOther.symm)
      · intro wire mem
        rw [isReplayed wire mem]
        exact if_neg isOther.symm
      · rcases runs with ⟨-, same⟩ | same <;> exact same ▸ fun dead => dead
      · rcases runs with ⟨-, same⟩ | same <;> exact same ▸ fun flag => .inl flag
  · rw [← loop] at quiet
    apply keep (base.sent_of_quiet quiet)
    intro id r found
    exact (base.tracks id r (replays ▸ found)).pop (quiet.leaves id) queue (silent id)

/-- A new replay keeps it. -/
theorem Base.opens {replay : Replay Payload Envelope} {wires : List (Wire Payload Envelope)}
    {tasks : List (Task Payload Envelope)} (opens : Opens s t replay wires tasks)
    (tracks : t.Tracks s.started replay) : t.Base := by
  have granted : t.granted = update s.granted s.started (some replay.request.grantedChannels) := by
    funext id
    rcases eq_or_ne id s.started with rfl | old
    · simp [State.granted, opens.replays]
    · rw [update_of_ne old, State.granted, opens.replays_of_ne old]
      rfl
  refine ⟨opens.table ▸ base.ordered, ?_, ?_, ?_, ?_, ?_⟩
  · rw [opens.table, opens.lastSeq]
    exact base.bounded
  · intro id
    rw [granted, opens.started]
    rcases eq_or_ne id s.started with rfl | old
    · simp
    · rw [update_of_ne old, base.known]
      exact ⟨Nat.lt_succ_of_lt, fun lt => lt_of_le_of_ne (Nat.le_of_lt_succ lt) old⟩
  · rintro id (⟨task, mem, isOf⟩ | ⟨wire, mem, isOf⟩ | isShared) <;> rw [opens.started]
    · rw [opens.queue] at mem
      rcases mem_append.mp mem with old | new
      · exact Nat.lt_succ_of_lt (base.named id (.inl ⟨task, old, isOf⟩))
      · rw [opens.ofReplay task new] at isOf
        exact Nat.lt_succ_of_le (Option.some.inj isOf).ge
    · rw [opens.sent] at mem
      rcases mem_append.mp mem with old | new
      · exact Nat.lt_succ_of_lt (base.named id (.inr (.inl ⟨wire, old, isOf⟩)))
      rcases mem_cons.mp new with rfl | inWires
      · cases isOf
      rcases (opens.plain wire inWires).2.2 with none | isNew
      · rw [none] at isOf
        cases isOf
      · rw [isNew] at isOf
        exact Nat.lt_succ_of_le (Option.some.inj isOf).ge
    · rw [opens.keeps.shared] at isShared
      exact Nat.lt_succ_of_lt (base.named id (.inr (.inr isShared)))
  · intro id r found
    rcases eq_or_ne id s.started with rfl | old
    · rw [opens.replays, update_self] at found
      exact Option.some.inj found ▸ tracks
    · refine (base.tracks id r (opens.replays_of_ne old ▸ found)).grow
        ⟨opens.silent, opens.keeps.dead, ?_⟩ opens.queue (opens.ofOther old)
      rw [opens.abort id old]
      exact .inl
  · intro id channels mem
    have noAcks : wires.filterMap Wire.ack? = [] :=
      filterMap_eq_nil_iff.mpr fun wire inWires => (opens.plain wire inWires).2.1
    rw [opens.sent, filterMap_append, filterMap_cons] at mem
    simp only [Wire.ack?, noAcks, mem_append, mem_singleton, Prod.mk.injEq] at mem
    rw [granted]
    rcases mem with old | ⟨rfl, rfl⟩
    · have isGranted := base.acks id channels old
      have isStarted := (base.known id).mp (by simp [isGranted])
      rwa [update_of_ne isStarted.ne]
    · rw [update_self]

theorem Base.starts {requested : List String} {claim : SinceClaim} {process : Process}
    {since : Nat} {granted : List String} {phase : Phase Payload} {frames : List (Frame Envelope)}
    (starts : Starts setting s t requested claim process since granted phase frames) :
    t.Base := by
  have notSent : frames.filterMap Frame.seq? = [] ∧ phase.Fits [] ∧
      ∀ result, phase = .returned result → ∃ frame ∈ frames, frame.ends result.fired := by
    rcases Request.start_cases _ process.hasClient with ⟨atOnce, _⟩ | queries
    · rcases Prod.mk.inj (starts.begins.symm.trans atOnce) with ⟨rfl, rfl⟩
      refine ⟨rfl, trivial, ?_⟩
      rintro result same
      cases same
      exact ⟨_, mem_cons_self, rfl⟩
    · rcases Prod.mk.inj (starts.begins.symm.trans queries) with ⟨rfl, rfl⟩
      exact ⟨rfl, rfl, fun result same => by cases same⟩
  refine base.opens starts.toOpens
    ⟨?_, by simp [notSent.1], ?_, by simp [starts.unset], ?_, fun fired => ?_⟩
  · simp only [framesOf_append starts.silent starts.queue, base.framesOf_fresh le_rfl, nil_append,
      filterMap_cons, Task.frameOf, Task.filterMap_frameOf]
    exact Sublist.refl _
  · intro other isPhase
    cases isPhase
    simpa [notSent.1] using notSent.2.1
  · intro result isPhase
    rcases notSent.2.2 result (Option.some.inj isPhase) with ⟨frame, mem, ends⟩
    exact .inr ⟨.frame s.started frame, by simp [starts.queue, mem], frame, rfl, ends⟩
  · right
    apply Core.Fifo.preceded_of_forall
    rw [starts.queue]
    rintro task mem ⟨channels, rfl⟩
    rcases mem_append.mp mem with old | new
    · exact base.not_names le_rfl (.inl ⟨_, old, rfl⟩)
    · simp at new

/-- Every step keeps it. -/
theorem Base.step (steps : Steps setting s label t) : t.Base := by
  have writes := steps.writes
  cases steps.effect with
  | calm calm queue plain started replays =>
    refine base.keep writes started (funext fun id => by rw [granted, replays]; rfl) ?_ ?_
      (base.sent_of_quiet calm.1) ?_
    · intro task mem id isOf
      rw [queue] at mem
      rcases mem_append.mp mem with old | new
      · exact base.named id (.inl ⟨task, old, isOf⟩)
      · rw [plain task new] at isOf
        cases isOf
    · rw [calm.2.shared]
      exact fun id shared => base.named id (.inr (.inr shared))
    · intro id r found
      refine (base.tracks id r (replays ▸ found)).grow (calm.1.leaves id) queue fun task mem => ?_
      rw [plain task mem]
      simp
  | runs queue loop started replays => exact base.runs writes queue loop started replays
  | @refused _ since granted reason seconds opens =>
    have isOver : ∀ fired, t.loop.Over s.started fired := fun fired =>
      .inr ⟨.resync (some s.started) reason seconds, by simp [opens.sent], by simp⟩
    refine base.opens opens ⟨?_, by simp, by simp, fun _ => isOver true, by simp,
      fun fired => .inl (isOver fired)⟩
    simp [framesOf_append opens.silent opens.queue, base.framesOf_fresh le_rfl]
  | starts starts => exact base.starts starts
  | @moves _ id r after tasks found moves isNext =>
    have isStarted := base.started_of_replay found
    subst isNext
    refine base.keep writes rfl ?_ ?_ (fun other shared => base.named other (.inr (.inr shared)))
      ⟨[], by simp⟩ ?_
    · funext other
      rcases eq_or_ne other id with rfl | isOther
      · simp [granted, found, moves.request]
      · simp [granted, update_of_ne isOther]
    · intro task mem other isOf
      rcases mem_append.mp mem with old | new
      · exact base.named other (.inl ⟨task, old, isOf⟩)
      · rw [moves.ofReplay task new] at isOf
        exact Option.some.inj isOf ▸ isStarted
    · intro other replay isReplay
      rcases eq_or_ne other id with rfl | isOther
      · simp only [setReplay, queueInLoop, update_self] at isReplay
        exact Option.some.inj isReplay ▸
          moves.tracks (base.tracks other r found) base.ordered rfl rfl
      · simp only [setReplay, queueInLoop, update_of_ne isOther] at isReplay
        refine (base.tracks other replay isReplay).grow ((Loop.calm_refl s.loop).1.leaves other)
          rfl fun task mem isOf => ?_
        rw [moves.ofReplay task mem] at isOf
        exact isOther (Option.some.inj isOf).symm

end

end State

end Plinth.Ws
