import Plinth.Ws.ConnectionInvariants

/-!
# No event is lost across a reconnect

A subscribe with `since_seq` registers its channels before the replay reads the table, so every
event of a granted channel is read by the replay or published to a connection that is already
subscribed. The invariant says where such an event is at each moment: still ahead of the
replay, sent by it, sent as a live frame, or on its way to the client.
-/

namespace Plinth.Ws

open Realtime Realtime.Replay List Function

variable {Payload Envelope : Type}

def Wire.isResync : Wire Payload Envelope → Bool
  | .resync _ _ _ => true
  | .replayed _ frame => frame.isResync
  | _ => false

variable {wire : Wire Payload Envelope}

theorem Wire.isResync_of_ends {id : ReplayId} (ends : wire.ends id true) : wire.isResync := by
  cases wire with
  | replayed replay frame =>
    cases frame with
    | resync => rfl
    | _ => simp [Frame.ends] at ends
  | resync => rfl
  | _ => cases ends

theorem Task.map_frame_ne {id other : ReplayId} {frames : List (Frame Envelope)}
    {granted : List String} {before after : List (Task Payload Envelope)} :
    frames.map (Task.frame other) ≠ before ++ .setup id granted :: after := by
  intro split
  have mem : Task.setup id granted ∈
      (frames.map (Task.frame other) : List (Task Payload Envelope)) := by
    rw [split]
    exact mem_append_right _ mem_cons_self
  simp at mem

theorem Setting.subscribeAllowed_eq (setting : Setting Payload Envelope) (channel : String) :
    setting.subscribeAllowed channel =
      rbacAllows setting.rbacEnforced setting.identity channel := by
  simp only [Setting.subscribeAllowed, rbacAllows]
  cases valid : validateChannel channel with
  | true => simp
  | false => simp [Rbac.deriveSubscribeRule, valid]

namespace State

variable {s t : State Payload Envelope} {setting : Setting Payload Envelope} {id : ReplayId}
  {r : Replay Payload Envelope} {row : EventRow Payload} {label : Label Payload}

/-- The delivery of an event has not run, or its frame is held until a replay is over. -/
def Awaiting (s : State Payload Envelope) (row : EventRow Payload) : Prop :=
  s.unpublished = some row ∨ .deliver row ∈ s.queue ∨
    s.loop.conn.replayInFlight row.channel = true ∧ row ∈ s.loop.conn.liveBuffer row.channel

def LiveCovered (s : State Payload Envelope) (row : EventRow Payload) : Prop :=
  .live row ∈ s.loop.sent ∨ s.Awaiting row

def Resynced (count : Nat) (s : State Payload Envelope) : Prop :=
  ∃ wire ∈ s.loop.sent.drop count, wire.isResync = true

/-- A step after which the channel is still subscribed and the connection alive, with a query
that answers and without pruning. -/
structure Steady (setting : Setting Payload Envelope) (channel : String)
    (s : State Payload Envelope) (label : Label Payload) (t : State Payload Envelope) : Prop where
  step : s.exec setting label = some t
  subscribed : channel ∈ t.loop.conn.channels
  alive : ¬ t.loop.Dead
  answers : ∀ id, label ≠ .resume id false
  unpruned : ∀ count, label ≠ .prune count

theorem sent_step (steps : Steps setting s label t) :
    ∃ more, t.loop.sent = s.loop.sent ++ more := by
  cases steps.effect with
  | calm calm =>
    rcases calm.2.sent with ⟨more, isSent, _⟩
    exact ⟨more, isSent⟩
  | @runs task queue loop =>
    rcases s.loop.run_cases setting task with ⟨id, frame, rfl, ⟨-, same⟩ | sent⟩ | ⟨quiet, -⟩
    · exact ⟨[], by simp [loop, same]⟩
    · exact ⟨_, by rw [loop, sent]; rfl⟩
    · rcases quiet.sent with ⟨more, isSent, _⟩
      exact ⟨more, loop ▸ isSent⟩
  | refused opens => exact ⟨_, opens.sent⟩
  | starts starts => exact ⟨_, starts.sent⟩
  | moves found moves isNext => exact ⟨[], by simp [isNext]⟩

/-- A covered row stays covered where deliveries and buffers stay. -/
theorem LiveCovered.keep (covered : s.LiveCovered row) (writes : s.Writes t)
    (sent : ∃ more, t.loop.sent = s.loop.sent ++ more)
    (queue : .deliver row ∈ s.queue → .deliver row ∈ t.queue)
    (inFlight : s.loop.conn.replayInFlight row.channel → t.loop.conn.replayInFlight row.channel)
    (buffer : row ∈ s.loop.conn.liveBuffer row.channel →
      row ∈ t.loop.conn.liveBuffer row.channel) : t.LiveCovered row := by
  rcases covered with isSent | isUnpublished | queued | ⟨flying, buffered⟩
  · rcases sent with ⟨more, isMore⟩
    exact .inl (isMore ▸ mem_append_left _ isSent)
  · exact .inr ((writes.published row isUnpublished).imp_right .inl)
  · exact .inr (.inr (.inl (queue queued)))
  · exact .inr (.inr (.inr ⟨inFlight flying, buffer buffered⟩))

/-- A change of the loop that keeps the buffers and leaves the queued deliveries. -/
theorem LiveCovered.keeps (covered : s.LiveCovered row) (writes : s.Writes t)
    (keeps : s.loop.Keeps t.loop) (stays : ¬ t.loop.Dead)
    (queue : .deliver row ∈ s.queue → .deliver row ∈ t.queue) : t.LiveCovered row := by
  rcases keeps.sent with ⟨more, isSent, _⟩
  refine covered.keep writes ⟨more, isSent⟩ queue ?_ ?_
  · simp [keeps.inFlight]
  · simp [keeps.retains.resolve_left stays]

theorem Resynced.of_append {count : Nat} (long : count ≤ s.loop.sent.length)
    {more : List (Wire Payload Envelope)} (sent : t.loop.sent = s.loop.sent ++ more)
    (mem : wire ∈ more) (resync : wire.isResync) :
    t.Resynced count := by
  refine ⟨wire, ?_, resync⟩
  rw [sent, drop_append_of_le_length long]
  exact mem_append_right _ mem

/-- A delivery keeps a row covered or overflows into a resync. -/
theorem LiveCovered.runDeliver {count : Nat} {delivered : EventRow Payload}
    (covered : s.LiveCovered row) (alive : ¬ s.loop.Dead)
    (subscribed : row.channel ∈ s.loop.conn.channels)
    (allowed : rbacAllows setting.rbacEnforced setting.identity row.channel)
    (long : count ≤ s.loop.sent.length) (queue : s.queue = .deliver delivered :: t.queue)
    (writes : s.Writes t) (delivers : Loop.Delivers setting s.loop delivered t.loop) :
    t.LiveCovered row ∨ t.Resynced count := by
  generalize isLoop : t.loop = next at delivers
  have others : .deliver row ∈ s.queue → row ≠ delivered → .deliver row ∈ t.queue := by
    intro queued different
    rw [queue] at queued
    rcases mem_cons.mp queued with same | inRest
    · exact absurd (Task.deliver.inj same) different
    · exact inRest
  rcases eq_or_ne row delivered with rfl | same
  · cases delivers with
    | ignores reason =>
      rcases reason with dead | absent | denied
      · exact absurd dead alive
      · exact absurd subscribed absent
      · rw [denied] at allowed
        cases allowed
    | sends => exact .inl (.inl (by simp [isLoop]))
    | overflows =>
      exact .inr (.of_append long
        (by rw [isLoop, Loop.handleBufferOverflow_sent]) mem_cons_self rfl)
    | buffers inFlight =>
      exact .inl (.inr (.inr (.inr (by simp [isLoop, inFlight]))))
  · cases delivers with
    | ignores =>
      exact .inl (covered.keep writes ⟨[], by simp [isLoop]⟩ (fun queued => others queued same)
        (by simp [isLoop]) (by simp [isLoop]))
    | sends =>
      exact .inl (covered.keep writes ⟨[.live delivered], by simp [isLoop]⟩
        (fun queued => others queued same) (by simp [isLoop]) (by simp [isLoop]))
    | overflows =>
      exact .inr (.of_append long
        (by rw [isLoop, Loop.handleBufferOverflow_sent]) mem_cons_self rfl)
    | buffers =>
      refine .inl (covered.keep writes ⟨[], by simp [isLoop]⟩ (fun queued => others queued same)
        (by simp [isLoop]) ?_)
      intro buffered
      simp only [isLoop, Loop.storeBufferedLive_frame, Loop.setBuffer, update_apply]
      split
      · rename_i sameChannel
        exact mem_append_left _ (sameChannel ▸ buffered)
      · exact buffered

/-- So does a cleanup, unless its replay ended in a resync. -/
theorem LiveCovered.runCleanup {count first : Nat} {granted : List String} {fired : Bool}
    (covered : s.LiveCovered row) (base : s.Base) (alive : ¬ s.loop.Dead)
    (allowed : rbacAllows setting.rbacEnforced setting.identity row.channel)
    (settled : ∀ id < first, ¬ s.Active id)
    (early : ∀ wire ∈ s.loop.sent.take count, ∀ id, first ≤ id → wire.ends id true = false)
    (queue : s.queue = .cleanup id granted fired :: t.queue) (writes : s.Writes t)
    (loop : t.loop = s.loop.replayCleanup setting granted fired) :
    t.LiveCovered row ∨ t.Resynced count := by
  rcases Loop.foldl_flushed setting fired granted s.loop with ⟨rows, flushed⟩
  have sent : t.loop.sent = s.loop.sent ++ rows.map .live := by
    rw [loop]
    exact flushed.sent
  have atFront : Task.cleanup id granted fired ∈ s.queue := by
    rw [queue]
    exact mem_cons_self
  cases fired with
  | true =>
    right
    rcases base.exists_replay (base.named id (.inl ⟨_, atFront, rfl⟩)) with ⟨r, found⟩
    have ended : ∃ wire ∈ s.loop.sent, wire.ends id true := by
      rcases (base.tracks id r found).cleanup true with isOver | preceded
      · exact isOver.resolve_left alive
      · rw [queue] at preceded
        exact absurd ⟨granted, rfl⟩ preceded.1
    rcases ended with ⟨wire, mem, ends⟩
    have later : first ≤ id := by
      by_contra old
      exact settled id (not_le.mp old) (.inr ⟨_, atFront, rfl⟩)
    refine ⟨wire, ?_, Wire.isResync_of_ends ends⟩
    rw [← take_append_drop count s.loop.sent] at mem
    rcases mem_append.mp mem with inTake | inDrop
    · rw [early wire inTake id later] at ends
      cases ends
    · rw [sent, drop_append]
      exact mem_append_left _ inDrop
  | false =>
    left
    rcases covered with isSent | isUnpublished | queued | ⟨flying, buffered⟩
    · exact .inl (sent ▸ mem_append_left _ isSent)
    · exact .inr ((writes.published row isUnpublished).imp_right .inl)
    · rw [queue] at queued
      rcases mem_cons.mp queued with isCleanup | inRest
      · cases isCleanup
      · exact .inr (.inr (.inl inRest))
    · by_cases isGranted : row.channel ∈ granted
      · left
        rw [sent]
        apply mem_append_right
        apply mem_map_of_mem
        exact flushed.all rfl alive row.channel isGranted
          (by rw [Setting.subscribeAllowed_eq]; exact allowed) row buffered
      · refine .inr (.inr (.inr ⟨?_, ?_⟩))
        · rw [loop]
          simpa [Loop.replayCleanup, Loop.resetShared, isGranted,
            flushed.replayInFlight] using flying
        · rw [loop]
          simpa [Loop.replayCleanup, Loop.resetShared, isGranted, flushed.liveBuffer] using buffered

/-- A live frame of the channel that is on its way is sent or stays on its way, or the client
is told to resync. -/
theorem LiveCovered.step {count first : Nat} (covered : s.LiveCovered row) (base : s.Base)
    (alive : ¬ s.loop.Dead) (subscribed : row.channel ∈ s.loop.conn.channels)
    (allowed : rbacAllows setting.rbacEnforced setting.identity row.channel)
    (settled : ∀ id < first, ¬ s.Active id)
    (early : ∀ wire ∈ s.loop.sent.take count, ∀ id, first ≤ id → wire.ends id true = false)
    (long : count ≤ s.loop.sent.length) (stays : ¬ t.loop.Dead)
    (steps : Steps setting s label t) : t.LiveCovered row ∨ t.Resynced count := by
  have writes := steps.writes
  cases steps.effect with
  | calm calm queue =>
    exact .inl (covered.keeps writes calm.2 stays fun queued => queue ▸ mem_append_left _ queued)
  | @runs task queue loop started replays =>
    have others : (∀ other, task ≠ .deliver other) → .deliver row ∈ s.queue →
        .deliver row ∈ t.queue := by
      intro notDelivery queued
      rw [queue] at queued
      rcases mem_cons.mp queued with same | inRest
      · exact absurd same.symm (notDelivery row)
      · exact inRest
    cases task with
    | deliver delivered =>
      exact covered.runDeliver alive subscribed allowed long queue writes
        (loop ▸ Loop.deliverToConn_delivers setting s.loop delivered)
    | setup replay granted =>
      refine .inl (covered.keep writes (sent_step steps) (others (by simp)) ?_
        (by rw [loop]; exact id))
      intro flying
      simp only [loop, Loop.run, Loop.replaySetup, Loop.setInFlight]
      split
      · rfl
      · exact flying
    | frame replay frame =>
      refine .inl (covered.keep writes (sent_step steps) (others (by simp)) ?_ ?_) <;>
        simp only [loop, Loop.run, Loop.sendFrame] <;> split <;> exact id
    | cleanup replay granted fired =>
      exact covered.runCleanup base alive allowed settled early queue writes loop
    | drainExtension name =>
      exact .inl (covered.keep writes (sent_step steps) (others (by simp)) (by rw [loop]; exact id)
        (by rw [loop]; exact id))
  | refused opens =>
    exact .inl (covered.keeps writes opens.keeps stays fun queued =>
      opens.queue ▸ mem_append_left _ queued)
  | starts starts =>
    exact .inl (covered.keeps writes starts.keeps stays fun queued =>
      starts.queue ▸ mem_append_left _ queued)
  | moves found moves isNext =>
    subst isNext
    exact .inl (covered.keep writes ⟨[], by simp⟩ (fun queued => mem_append_left _ queued) id id)

theorem framesOf_runTask (alive : ¬ s.loop.Dead) {task : Task Payload Envelope}
    (queue : s.queue = task :: t.queue) (loop : t.loop = s.loop.run setting task) :
    t.framesOf id = s.framesOf id := by
  rcases s.loop.run_cases setting task with ⟨other, frame, rfl, ⟨dead, -⟩ | sent⟩ | ⟨quiet, silent⟩
  · exact absurd dead alive
  · rw [sent] at loop
    by_cases isOther : other = id <;>
      simp [framesOf, loop, queue, isOther]
  · rw [← loop] at quiet
    rcases (quiet.leaves id).sent with ⟨wires, isSent, noFrames⟩
    simp only [framesOf, isSent, queue, filterMap_append, filterMap_eq_nil_iff.mpr noFrames,
      append_nil, filterMap_cons, silent]

/-- As long as the connection lives, every frame that a replay sends gets to the client or is
queued for it. -/
theorem framesOf_step (base : s.Base) (alive : ¬ s.loop.Dead) (steps : Steps setting s label t)
    (found : s.replays id = some r) (whole : s.framesOf id = r.emitted) :
    ∃ after, t.replays id = some after ∧ (after = r ∨ ∃ tasks, Moves s id label r after tasks) ∧
      t.framesOf id = after.emitted := by
  have old : id ≠ s.started := (base.started_of_replay found).ne
  have stays : t.replays id = s.replays id → t.framesOf id = s.framesOf id →
      ∃ after, t.replays id = some after ∧
        (after = r ∨ ∃ tasks, Moves s id label r after tasks) ∧ t.framesOf id = after.emitted :=
    fun kept same => ⟨r, kept.trans found, .inl rfl, same.trans whole⟩
  cases steps.effect with
  | calm calm queue plain _ replays =>
    refine stays (by rw [replays]) (framesOf_grow (calm.1.leaves id).sent queue ?_)
    intro task mem
    rw [plain task mem]
    simp
  | runs queue loop _ replays => exact stays (by rw [replays]) (framesOf_runTask alive queue loop)
  | refused opens =>
    exact stays (opens.replays_of_ne old) (framesOf_grow opens.silent opens.queue
      (opens.ofOther old))
  | starts starts =>
    exact stays (starts.replays_of_ne old) (framesOf_grow starts.silent starts.queue
      (starts.ofOther old))
  | @moves _ other changed after tasks isFound moves isNext =>
    subst isNext
    rcases eq_or_ne id other with rfl | isOther
    · rcases Option.some.inj (isFound.symm.trans found) with rfl
      refine ⟨after, by simp, .inr ⟨tasks, moves⟩, ?_⟩
      rw [framesOf_append ⟨[], by simp⟩ rfl, moves.emitted]
      exact congrArg (· ++ _) whole
    · refine stays (by simp [update_of_ne isOther]) (framesOf_grow ⟨[], by simp⟩ rfl ?_)
      intro task mem isOf
      rw [moves.ofReplay task mem] at isOf
      exact isOther (Option.some.inj isOf).symm

/-- Where an event that the replay owes is: sent by the replay, on its way as a live frame, or
still to be read; otherwise the replay asked for a resync. -/
def Covered (s : State Payload Envelope) (r : Replay Payload Envelope) (row : EventRow Payload)
    (frame : Frame Envelope) : Prop :=
  frame ∈ r.emitted ∨ (∃ sent ∈ r.emitted, sent.isResync = true) ∨ s.LiveCovered row ∨
    ∃ phase, r.phase = some phase ∧ phase.Ahead r.request row

/-- What holds from a subscribe on, as long as the client gets no resync frame: `first` is its
replay, and `count` frames were sent before it. -/
structure Segment (channel : String) (request : Request Payload Envelope) (first count : Nat)
    (s : State Payload Envelope) : Prop where
  base : s.Base
  alive : ¬ s.loop.Dead
  subscribed : channel ∈ s.loop.conn.channels
  settled : ∀ id < first, ¬ s.Active id
  early : ∀ wire ∈ s.loop.sent.take count, ∀ id, first ≤ id → wire.ends id true = false
  long : count ≤ s.loop.sent.length
  covers : ∃ r, s.replays first = some r ∧ r.request = request ∧ s.framesOf first = r.emitted ∧
    ∀ row ∈ s.table, row.channel = channel → request.sinceSeq < row.seq → ∀ frame,
      request.frame? row = some frame → s.Covered r row frame

section Segment

variable {channel : String} {request : Request Payload Envelope} {first count : Nat}

theorem Resynced.mono (resynced : s.Resynced count)
    (sent : ∃ more, t.loop.sent = s.loop.sent ++ more) : t.Resynced count := by
  rcases resynced with ⟨wire, mem, isResync⟩
  rcases sent with ⟨more, isSent⟩
  refine ⟨wire, ?_, isResync⟩
  rw [isSent, drop_append]
  exact mem_append_left _ mem

/-- A replay of the segment that ends in a resync resyncs it. -/
theorem Segment.resynced (segment : Segment channel request first count s) (later : first ≤ id)
    (ended : ∃ wire ∈ s.loop.sent, wire.ends id true) : s.Resynced count := by
  rcases ended with ⟨wire, mem, ends⟩
  refine ⟨wire, ?_, Wire.isResync_of_ends ends⟩
  rw [← take_append_drop count s.loop.sent] at mem
  rcases mem_append.mp mem with inTake | inDrop
  · rw [segment.early wire inTake id later] at ends
    cases ends
  · exact inDrop

/-- A step keeps the rows of the segment covered. -/
theorem Covered.step (segment : Segment channel request first count s)
    (steps : Steps setting s label t) (stays : ¬ t.loop.Dead)
    (answers : ∀ id, label ≠ .resume id false) {after : Replay Payload Envelope}
    (isRequest : r.request = request)
    (read : channel ∈ queriedChannels request.grantedChannels)
    (goes : after = r ∨ ∃ tasks, Moves s first label r after tasks)
    (tracks : s.Tracks first r) (calm : ¬ t.Resynced count)
    (inTable : row ∈ s.table) (isChannel : row.channel = channel)
    (allowed : rbacAllows setting.rbacEnforced setting.identity row.channel)
    (since : request.sinceSeq < row.seq) {frame : Frame Envelope}
    (sendable : request.frame? row = some frame) (covered : s.Covered r row frame) :
    t.Covered after row frame := by
  rcases isRequest with rfl
  rcases isChannel with rfl
  have grows : ∃ more, after.emitted = r.emitted ++ more := by
    rcases goes with rfl | ⟨tasks, moves⟩
    · exact ⟨[], by simp⟩
    · exact ⟨_, moves.emitted⟩
  rcases grows with ⟨more, emitted⟩
  rcases covered with sent | ⟨resync, mem, isResync⟩ | live | ⟨phase, isPhase, ahead⟩
  · exact .inl (emitted ▸ mem_append_left _ sent)
  · exact .inr (.inl ⟨resync, emitted ▸ mem_append_left _ mem, isResync⟩)
  · rcases live.step segment.base segment.alive segment.subscribed allowed segment.settled
      segment.early segment.long stays steps with isLive | resynced
    · exact .inr (.inr (.inl isLive))
    · exact absurd resynced calm
  · rcases goes with rfl | ⟨tasks, moves⟩
    · exact .inr (.inr (.inr ⟨phase, isPhase, ahead⟩))
    cases moves with
    | returns isReturned =>
      rcases Option.some.inj (isPhase.symm.trans isReturned) with rfl
      exact ahead.elim
    | @resumes answered _ next frames isLabel wasPhase resumes =>
      rcases Option.some.inj (isPhase.symm.trans wasPhase) with rfl
      have isAnswer : answered := by
        by_contra fails
        exact answers first (by simpa [Bool.not_eq_true _ ▸ fails] using isLabel)
      rcases isAnswer with rfl
      rcases resumes.ahead segment.base.ordered inTable since read sendable ahead with
        still | sent | ⟨resync, mem, isResync⟩ | aborted
      · exact .inr (.inr (.inr ⟨next, rfl, still⟩))
      · exact .inl (mem_append_right _ sent)
      · exact .inr (.inl ⟨resync, mem_append_right _ mem, isResync⟩)
      · have isOver := (tracks.aborted aborted).resolve_left segment.alive
        exact absurd ((segment.resynced le_rfl isOver).mono (sent_step steps)) calm

/-- A step keeps the segment. -/
theorem Segment.step (segment : Segment channel request first count s)
    (read : channel ∈ queriedChannels request.grantedChannels)
    (isRequest : ∃ since channels, request = setting.request since channels)
    (steady : Steady setting channel s label t) :
    t.Resynced count ∨ Segment channel request first count t := by
  by_cases calm : t.Resynced count
  · exact .inl calm
  have steps := exec_steps steady.step
  rcases sent_step steps with ⟨more, sent⟩
  rcases segment.covers with ⟨r, found, ofRequest, whole, covers⟩
  rcases framesOf_step segment.base segment.alive steps found whole with
    ⟨after, isAfter, moves, wholeAfter⟩
  refine .inr ⟨segment.base.step steps, steady.alive, steady.subscribed, ?_, ?_, ?_, after,
    isAfter, ?_, wholeAfter, ?_⟩
  · intro id isEarlier active
    rcases steps.effect.active active with old | rfl
    · exact segment.settled id isEarlier old
    · exact absurd (segment.base.started_of_replay found) isEarlier.not_gt
  · intro wire mem
    rw [sent, take_append_of_le_length segment.long] at mem
    exact segment.early wire mem
  · rw [sent, length_append]
    exact segment.long.trans (Nat.le_add_right _ _)
  · rcases moves with rfl | ⟨tasks, moves⟩
    · exact ofRequest
    · exact moves.request.trans ofRequest
  · intro row mem isChannel since frame sendable
    rcases steps.writes.table row mem with old | ⟨new, -⟩
    · have allowed : rbacAllows setting.rbacEnforced setting.identity row.channel := by
        rcases isRequest with ⟨_, _, rfl⟩
        exact (Request.frame?_eq_some.mp sendable).1
      exact Covered.step segment steps steady.alive steady.answers ofRequest read moves
        (segment.base.tracks first r found) calm old isChannel allowed since sendable
        (covers row old isChannel since frame sendable)
    · exact .inr (.inr (.inl (.inr (.inl new))))

end Segment

def Unfinished (replays : ReplayId → Option (Replay Payload Envelope))
    (queue : List (Task Payload Envelope)) (id : ReplayId) (granted : List String) : Prop :=
  ∃ r, replays id = some r ∧ r.request.grantedChannels = granted ∧
    (r.phase ≠ none ∨ ∃ fired, .cleanup id granted fired ∈ queue)

/-- A channel is in flight only for a replay that has its cleanup still before it. -/
structure Held (s : State Payload Envelope) : Prop where
  setups : ∀ before id granted after, s.queue = before ++ .setup id granted :: after →
    Unfinished s.replays after id granted
  flying : ∀ channel, s.loop.conn.replayInFlight channel = true →
    ∃ id granted, channel ∈ granted ∧ Unfinished s.replays s.queue id granted

theorem IsNew.held (new : s.IsNew) : s.Held where
  setups := by simp [new.queue]
  flying := by simp [new.replayInFlight]

theorem Unfinished.mono {queue more : List (Task Payload Envelope)} {granted : List String}
    {replays changed : ReplayId → Option (Replay Payload Envelope)}
    (unfinished : Unfinished replays queue id granted)
    (moves : ∀ r, replays id = some r → ∃ after, changed id = some after ∧
      after.request = r.request ∧ (r.phase ≠ none → after.phase ≠ none ∨
        ∃ fired, .cleanup id r.request.grantedChannels fired ∈ more)) :
    Unfinished changed (queue ++ more) id granted := by
  rcases unfinished with ⟨r, found, isGranted, pending⟩
  rcases moves r found with ⟨after, isAfter, sameRequest, phase⟩
  refine ⟨after, isAfter, sameRequest ▸ isGranted, ?_⟩
  rcases pending with running | ⟨fired, mem⟩
  · rcases phase running with still | ⟨fired, mem⟩
    · exact .inl still
    · exact .inr ⟨fired, mem_append_right _ (isGranted ▸ mem)⟩
  · exact .inr ⟨fired, mem_append_left _ mem⟩

theorem Held.grow (held : s.Held) (more : List (Task Payload Envelope))
    (queue : t.queue = s.queue ++ more)
    (moves : ∀ id r, s.replays id = some r → ∃ after, t.replays id = some after ∧
      after.request = r.request ∧ (r.phase ≠ none → after.phase ≠ none ∨
        ∃ fired, .cleanup id r.request.grantedChannels fired ∈ more))
    (setups : ∀ before id granted after, more = before ++ .setup id granted :: after →
      Unfinished t.replays after id granted)
    (inFlight : t.loop.conn.replayInFlight = s.loop.conn.replayInFlight) : t.Held := by
  constructor
  · intro before id granted after split
    rw [queue] at split
    rcases append_eq_append_iff.mp split with ⟨between, _, isMore⟩ | ⟨between, isQueue, isRest⟩
    · exact setups between id granted after isMore
    rcases between with _ | ⟨task, between⟩
    · exact setups [] id granted after isRest.symm
    · cases isRest
      exact (held.setups before id granted between isQueue).mono (moves id)
  · intro channel flying
    rw [inFlight] at flying
    rcases held.flying channel flying with ⟨id, granted, mem, unfinished⟩
    exact ⟨id, granted, mem, queue ▸ unfinished.mono (moves id)⟩

theorem Held.runTask (held : s.Held) {task : Task Payload Envelope}
    (queue : s.queue = task :: t.queue) (replays : t.replays = s.replays)
    (loop : t.loop = s.loop.run setting task) : t.Held := by
  -- Running a task keeps a replay unfinished, unless it is its cleanup.
  have rest : ∀ {id granted}, Unfinished s.replays s.queue id granted →
      (∀ fired, task ≠ .cleanup id granted fired) → Unfinished t.replays t.queue id granted := by
    rintro id granted ⟨r, found, isGranted, pending⟩ other
    refine ⟨r, replays ▸ found, isGranted, ?_⟩
    rcases pending with running | ⟨fired, mem⟩
    · exact .inl running
    rw [queue] at mem
    rcases mem_cons.mp mem with isTask | inRest
    · exact absurd isTask.symm (other fired)
    · exact .inr ⟨fired, inRest⟩
  have lands : ∀ {channel}, s.loop.conn.replayInFlight channel →
      (∀ id granted fired, task = .cleanup id granted fired → channel ∉ granted) →
      ∃ id granted, channel ∈ granted ∧ Unfinished t.replays t.queue id granted := by
    intro channel flying other
    rcases held.flying channel flying with ⟨id, granted, mem, unfinished⟩
    exact ⟨id, granted, mem, rest unfinished fun fired isTask => other id granted fired isTask mem⟩
  constructor
  · intro before id granted after split
    rw [replays]
    exact held.setups (task :: before) id granted after (by rw [queue, split]; rfl)
  · intro channel flying
    rw [loop] at flying
    cases task with
    | deliver row =>
      refine lands ?_ (by simp)
      have delivers := Loop.deliverToConn_delivers setting s.loop row
      rw [Loop.run] at flying
      generalize s.loop.deliverToConn setting row = next at delivers flying
      cases delivers with
      | ignores | sends => exact flying
      | overflows =>
        simp only [Loop.handleBufferOverflow, Loop.setInFlight] at flying
        split at flying
        · cases flying
        · simpa using flying
      | buffers => simpa using flying
    | setup id granted =>
      by_cases isGranted : channel ∈ granted
      · exact ⟨id, granted, isGranted, replays ▸ held.setups [] id granted t.queue queue⟩
      · refine lands ?_ (by simp)
        simpa [Loop.run, Loop.replaySetup, isGranted] using flying
    | frame id frame =>
      refine lands ?_ (by simp)
      simp only [Loop.run, Loop.sendFrame] at flying
      split at flying <;> exact flying
    | cleanup id granted fired =>
      rcases Loop.foldl_flushed setting fired granted s.loop with ⟨rows, flushed⟩
      simp only [Loop.run, Loop.replayCleanup, Loop.resetShared, Loop.setInFlight,
        contains_iff_mem, flushed.replayInFlight] at flying
      split at flying
      · cases flying
      rename_i absent
      refine lands flying ?_
      rintro other _ _ isTask
      cases isTask
      exact absent
    | drainExtension name => exact lands flying (by simp)

/-- Every step keeps what is in flight held by a replay. -/
theorem Held.step (held : s.Held) (base : s.Base) (steps : Steps setting s label t) : t.Held := by
  cases steps.effect with
  | @calm _ more calm queue plain _ replays =>
    refine held.grow more queue (fun id r found => ⟨r, replays ▸ found, rfl, .inl⟩) ?_
      calm.2.inFlight
    rintro before id granted after rfl
    cases plain (.setup id granted) (by simp)
  | runs queue loop _ replays => exact held.runTask queue replays loop
  | refused opens =>
    refine held.grow [] opens.queue (fun id r found => ⟨r, ?_, rfl, .inl⟩) (by simp)
      opens.keeps.inFlight
    exact (opens.replays_of_ne (base.started_of_replay found).ne).trans found
  | starts starts =>
    refine held.grow _ starts.queue (fun id r found => ⟨r, ?_, rfl, .inl⟩) ?_
      starts.keeps.inFlight
    · exact (starts.replays_of_ne (base.started_of_replay found).ne).trans found
    intro before id granted after split
    rcases before with _ | ⟨task, before⟩
    · rcases List.cons.inj split with ⟨⟨⟩, _⟩
      exact ⟨_, by rw [starts.replays, update_self], rfl, .inl (by simp)⟩
    · exact absurd (List.cons.inj split).2 Task.map_frame_ne
  | @moves _ other changed after tasks found moves isNext =>
    subst isNext
    refine held.grow tasks rfl ?_ ?_ rfl
    · intro id r isFound
      rcases eq_or_ne id other with rfl | isOther
      · rcases Option.some.inj (found.symm.trans isFound) with rfl
        exact ⟨after, by simp, moves.request, fun _ => moves.pending⟩
      · exact ⟨r, by simpa [update_of_ne isOther] using isFound, rfl, .inl⟩
    · intro before id granted after isTasks
      have queued : .setup id granted ∈ tasks := by simp [isTasks]
      cases moves <;> simp at queued

theorem Held.not_inFlight (held : s.Held) (idle : ∀ id, ¬ s.Active id) (channel : String) :
    s.loop.conn.replayInFlight channel = false := by
  by_contra isFlying
  rcases held.flying channel (by simpa using isFlying) with
    ⟨id, granted, _, r, found, _, running | ⟨fired, mem⟩⟩
  · exact idle id (.inl ⟨r, found, running⟩)
  · exact idle id (.inr ⟨_, mem, rfl⟩)

end State

def steadyConnection (setting : Setting Payload Envelope) (channel : String) :
    Core.TransitionSystem (State Payload Envelope) (Label Payload) where
  initial := State.IsNew
  step := State.Steady setting channel

theorem Setting.grant_subset (setting : Setting Payload Envelope) (channels : List String)
    (requested : List String) :
    channels ⊆ (setting.grant channels requested).2 ∧
      (setting.grant channels requested).1 ⊆ (setting.grant channels requested).2 := by
  induction requested generalizing channels with
  | nil => simp [Setting.grant]
  | cons channel requested ih =>
    simp only [Setting.grant]
    split
    · rename_i already
      exact ⟨(ih channels).1, cons_subset.mpr
        ⟨(ih channels).1 (contains_iff_mem.mp already), (ih channels).2⟩⟩
    · split
      · exact ih channels
      · split
        · exact ih channels
        · rcases ih (channels ++ [channel]) with ⟨keeps, grants⟩
          exact ⟨fun other mem => keeps (mem_append_left _ mem), cons_subset.mpr
            ⟨keeps (mem_append_right _ mem_cons_self), grants⟩⟩

namespace State

variable {s t : State Payload Envelope} {setting : Setting Payload Envelope}

theorem Base.not_ends (base : s.Base) {id : ReplayId} {fired : Bool} (fresh : s.started ≤ id)
    (mem : wire ∈ s.loop.sent) : wire.ends id fired = false := by
  by_contra ends
  have isOf := Wire.replay?_of_ends (by simpa using ends)
  exact base.not_names fresh (.inr (.inl ⟨wire, mem, isOf⟩))

variable {channel : String}

/-- An idle connection that subscribes begins a segment or resyncs. -/
theorem Segment.begin {requested : List String} {claim : SinceClaim} {process : Process}
    {since : Nat} (base : s.Base) (idle : ∀ id, ¬ s.Active id)
    (step : s.exec setting (.subscribe requested claim process) = some t)
    (alive : ¬ t.loop.Dead) (claims : extractSinceSeq claim = .ok (some since))
    (hasClient : process.hasClient)
    (granted : channel ∈ (setting.grant s.loop.conn.channels requested).1) :
    t.Resynced s.loop.sent.length ∨
      Segment channel (setting.request since (setting.grant s.loop.conn.channels requested).1)
        s.started s.loop.sent.length t := by
  have steps := exec_steps step
  have nextBase := base.step steps
  have active := fun {id} => @Effect.active _ _ _ _ _ id _ steps.effect
  cases steps with
  | subscribe subscribes =>
    cases subscribes with
    | plain _ reason =>
      rcases reason with dead | none
      · exact absurd dead alive
      · exact absurd claims (none since)
    | refused reason seconds opens =>
      left
      refine ⟨.resync (some s.started) reason seconds, ?_, rfl⟩
      simp [opens.sent]
    | @starts _ other channels phase frames starts =>
      have grants := starts.grants
      rw [grants] at granted ⊢
      rcases Option.some.inj (Except.ok.inj (starts.claims.symm.trans claims)) with rfl
      rcases Request.start_cases (setting.request other channels) process.hasClient with
        ⟨_, isEmpty | noClient⟩ | isStart
      · exact absurd isEmpty (ne_nil_of_mem granted)
      · rw [hasClient] at noClient
        cases noClient
      rcases Prod.mk.inj (isStart.symm.trans starts.begins) with ⟨rfl, rfl⟩
      refine .inr ⟨nextBase, alive, ?_, ?_, ?_, ?_, _, by rw [starts.replays, update_self], rfl,
        ?_, ?_⟩
      · have subset := (setting.grant_subset s.loop.conn.channels requested).2
        rw [grants] at subset
        exact subset granted
      · intro id earlier isActive
        rcases active isActive with old | rfl
        · exact idle id old
        · exact lt_irrefl _ earlier
      · intro wire mem id fresh
        refine base.not_ends fresh ?_
        simpa [starts.sent] using mem
      · simp [starts.sent]
      · simp [framesOf_append starts.silent starts.queue, base.framesOf_fresh le_rfl]
      · intro row _ _ _ frame _
        exact .inr (.inr (.inr ⟨.minQuery, rfl, trivial⟩))

/-- A steady run keeps the segment. -/
theorem Segment.run {request : Request Payload Envelope} {first count : Nat}
    {finish : State Payload Envelope} {labels : List (Label Payload)}
    (read : channel ∈ queriedChannels request.grantedChannels)
    (isRequest : ∃ since channels, request = setting.request since channels)
    (run : (steadyConnection setting channel).Run s labels finish)
    (begins : s.Resynced count ∨ Segment channel request first count s) :
    finish.Resynced count ∨ Segment channel request first count finish := by
  refine run.preserves
    (fun state => state.Resynced count ∨ Segment channel request first count state) ?_ begins
  rintro state label next (resynced | segment) steady
  · exact .inl (resynced.mono (sent_step (exec_steps steady.step)))
  · exact segment.step read isRequest steady

/-- At its end every row is sent or about to be. -/
theorem Segment.sent {request : Request Payload Envelope} {first count : Nat}
    (segment : Segment channel request first count s) (held : s.Held)
    (idle : ∀ id, ¬ s.Active id) (calm : ¬ s.Resynced count) {row : EventRow Payload}
    (inTable : row ∈ s.table) (isChannel : row.channel = channel)
    (since : request.sinceSeq < row.seq) {frame : Frame Envelope}
    (sendable : request.frame? row = some frame) :
    .replayed first frame ∈ s.loop.sent ∨ .live row ∈ s.loop.sent ∨
      s.unpublished = some row ∨ .deliver row ∈ s.queue := by
  rcases segment.covers with ⟨r, found, _, whole, covers⟩
  have emitted : ∀ {sent}, sent ∈ r.emitted → .replayed first sent ∈ s.loop.sent := by
    intro sent mem
    have noTasks : s.queue.filterMap (Task.frameOf first) = [] :=
      filterMap_eq_nil_iff.mpr fun task inQueue =>
        Task.frameOf_eq_none fun isOf => idle first (.inr ⟨task, inQueue, isOf⟩)
    rw [← whole, framesOf, noTasks, append_nil] at mem
    rcases mem_filterMap.mp mem with ⟨wire, inSent, isFrame⟩
    cases wire with
    | replayed replay other =>
      simp only [Wire.frameOf] at isFrame
      split at isFrame
      · rename_i isFirst
        rcases isFirst with rfl
        cases isFrame
        exact inSent
      · cases isFrame
    | _ => cases isFrame
  rcases covers row inTable isChannel since frame sendable with
    sent | ⟨resync, mem, isResync⟩ | live | ⟨phase, isPhase, _⟩
  · exact .inl (emitted sent)
  · refine absurd (segment.resynced le_rfl ⟨_, emitted mem, ?_⟩) calm
    cases resync with
    | resync reason seconds => simp [Frame.ends]
    | _ => cases isResync
  · rcases live with sent | unpublished | queued | ⟨flying, _⟩
    · exact .inr (.inl sent)
    · exact .inr (.inr (.inl unpublished))
    · exact .inr (.inr (.inr queued))
    · rw [held.not_inFlight idle] at flying
      cases flying
  · exact absurd (.inl ⟨r, found, by simp [isPhase]⟩) (idle first)

end State

/-- A subscribe with `since_seq` on a connection without a replay in flight loses no event, if the
channel stays subscribed, the authority current, the queries answer and compare with the channel,
and no resync is sent: once no replay is in flight, each event of the channel past the cursor was
sent or its delivery has not run. -/
theorem reconnect_loses_nothing (setting : Setting Payload Envelope)
    {s begun finish : State Payload Envelope} {requested : List String} {claim : SinceClaim}
    {process : Process} {since : Nat} {channel : String} {labels : List (Label Payload)}
    (reachable : (connection setting).Reachable s) (idle : ∀ id, ¬ s.Active id)
    (subscribe : s.exec setting (.subscribe requested claim process) = some begun)
    (claims : extractSinceSeq claim = .ok (some since)) (hasClient : process.hasClient = true)
    (granted : channel ∈ (setting.grant s.loop.conn.channels requested).1)
    (read : channel ∈ queriedChannels (setting.grant s.loop.conn.channels requested).1)
    (alive : ¬ begun.loop.Dead)
    (run : (steadyConnection setting channel).Run begun labels finish)
    (idleAfter : ∀ id, ¬ finish.Active id)
    (calm : ∀ wire ∈ finish.loop.sent.drop s.loop.sent.length, wire.isResync = false)
    {row : EventRow Payload} (retained : row ∈ finish.table) (isChannel : row.channel = channel)
    (newer : since < row.seq) (allowed : setting.deliveryRbacAllows true channel = true)
    {envelope : Envelope} (parses : setting.parsePayload row.payload = some envelope) :
    .replayed s.started (.replay row.seq envelope) ∈ finish.loop.sent ∨
      .live row ∈ finish.loop.sent ∨
      finish.unpublished = some row ∨ .deliver row ∈ finish.queue := by
  have kept : ∀ {state}, (connection setting).Reachable state → state.Base ∧ state.Held := by
    intro state isReachable
    refine isReachable.invariant (fun state => state.Base ∧ state.Held) ?_ ?_
    · exact fun new => ⟨new.base, new.held⟩
    · exact fun holds step => ⟨holds.1.step (State.exec_steps step),
        holds.2.step holds.1 (State.exec_steps step)⟩
  have finishReachable : (connection setting).Reachable finish := by
    rcases reachable with ⟨start, before, isNew, toSubscribe⟩
    have steps : (connection setting).Run begun labels finish :=
      Core.TransitionSystem.Run.map (fun state => state) State.Steady.step run
    exact ⟨start, _, isNew, (toSubscribe.step subscribe).trans steps⟩
  have begins := State.Segment.begin (kept reachable).1 idle subscribe alive claims hasClient
    granted
  rcases State.Segment.run read ⟨since, _, rfl⟩ run begins with ⟨wire, mem, isResync⟩ | segment
  · rw [calm wire mem] at isResync
    cases isResync
  apply segment.sent (kept finishReachable).2 idleAfter ?_ retained isChannel newer
  · rcases isChannel with rfl
    exact Request.frame?_eq_some.mpr ⟨allowed, envelope, parses, rfl⟩
  · rintro ⟨wire, mem, isResync⟩
    rw [calm wire mem] at isResync
    cases isResync

def beforeReconnect : List (Label String) := [.commit ⟨1, contacts, "a"⟩, .publish, .runTask]

/-- Another event is committed after the last chunk of the replay was read. -/
def duringReconnect : List (Label String) :=
  [.runTask, .resume 0 true, .resume 0 true, .resume 0 true, .resume 0 true,
    .commit ⟨2, contacts, "b"⟩, .publish, .resume 0 true, .runTask, .resume 0 true,
    .resume 0 true, .resume 0 true, .runTask, .runTask, .runTask]

/-- A step of the administrator's connection, if it is steady. -/
def execSteady (s : State String String) (label : Label String) : Option (State String String) :=
  (s.exec adminSetting label).filter fun t =>
    t.loop.conn.channels.contains contacts && (t.loop.conn.connected &&
      t.loop.conn.authorityCurrent) && match label with
        | .resume _ answers => answers
        | .prune _ => false
        | _ => true

theorem execSteady_steady {s t : State String String} {label : Label String}
    (step : execSteady s label = some t) : State.Steady adminSetting contacts s label t := by
  rcases Option.filter_eq_some_iff.mp step with ⟨isStep, checks⟩
  simp only [Bool.and_eq_true, contains_iff_mem] at checks
  refine ⟨isStep, checks.1.1, ?_, ?_, ?_⟩
  · simp [checks.1.2]
  · rintro id rfl
    cases checks.2
  · rintro count rfl
    cases checks.2

theorem idle_of_reachable {s : State String String}
    (reachable : (connection adminSetting).Reachable s) (queue : s.queue = [])
    (phases : ∀ id < s.started, ∀ r, s.replays id = some r → r.phase = none) (id : ReplayId) :
    ¬ s.Active id := by
  have base : s.Base := reachable.invariant State.Base State.IsNew.base
    fun base step => State.Base.step base (State.exec_steps step)
  rintro (⟨r, found, running⟩ | ⟨task, mem, _⟩)
  · exact running (phases id (base.started_of_replay found) r found)
  · rw [queue] at mem
    cases mem

/-- A run of the administrator's connection that subscribes to the given channels after the first
event was delivered, and ends with its replay returned and no task queued. -/
structure Reconnects (requested : List String) (during : List (Label String))
    (s begun finish : State String String) : Prop where
  before : play beforeReconnect = some s
  subscribe : s.exec adminSetting (.subscribe requested (.integral 0) ⟨true, true, true⟩) =
    some begun
  steady : Core.TransitionSystem.replay execSteady begun during = some finish
  fresh : s.started = 0 ∧ s.queue = [] ∧ s.loop.conn.channels = [] ∧ s.loop.sent = []
  alive : (begun.loop.conn.connected && begun.loop.conn.authorityCurrent) = true
  ended : finish.started = 1 ∧ finish.queue = [] ∧ (finish.replays 0).bind Replay.phase = none

namespace Reconnects

variable {requested : List String} {during : List (Label String)}
  {s begun finish : State String String} (reconnects : Reconnects requested during s begun finish)
include reconnects

theorem run : (steadyConnection adminSetting contacts).Run begun during finish :=
  .of_replay execSteady_steady reconnects.steady

theorem idle (id : ReplayId) : ¬ s.Active id :=
  idle_of_reachable (reachable_of_play reconnects.before) reconnects.fresh.2.1
    (by simp [reconnects.fresh.1]) id

theorem idleAfter (id : ReplayId) : ¬ finish.Active id := by
  have reachable : (connection adminSetting).Reachable finish := by
    rcases reachable_of_play reconnects.before with ⟨start, labels, isNew, toS⟩
    exact ⟨start, _, isNew, (toS.step reconnects.subscribe).trans
      (reconnects.run.map (fun state => state) State.Steady.step)⟩
  refine idle_of_reachable reachable reconnects.ended.2.1 ?_ id
  intro other early r found
  rcases Nat.lt_one_iff.mp (reconnects.ended.1 ▸ early) with rfl
  simpa [found] using reconnects.ended.2.2

end Reconnects

theorem duringReconnect_loses_nothing :
    ∃ s begun finish, Reconnects [contacts] duringReconnect s begun finish ∧
      (.replayed s.started (.replay 2 "b") ∈ finish.loop.sent ∨
        .live ⟨2, contacts, "b"⟩ ∈ finish.loop.sent ∨
        finish.unpublished = some ⟨2, contacts, "b"⟩ ∨
        .deliver ⟨2, contacts, "b"⟩ ∈ finish.queue) := by
  have played : ∃ s begun finish, Reconnects [contacts] duringReconnect s begun finish ∧
      finish.table = [⟨1, contacts, "a"⟩, ⟨2, contacts, "b"⟩] ∧
      finish.loop.sent.all (fun wire => !wire.isResync) = true := by
    with_unfolding_all exact ⟨_, _, _, ⟨rfl, rfl, rfl, ⟨rfl, rfl, rfl, rfl⟩, rfl, rfl, rfl, rfl⟩,
      rfl, rfl⟩
  rcases played with ⟨s, begun, finish, reconnects, table, calm⟩
  refine ⟨s, begun, finish, reconnects, ?_⟩
  rcases reconnects.fresh with ⟨started, queue, channels, sent⟩
  have isGranted : (adminSetting.grant s.loop.conn.channels [contacts]).1 = [contacts] := by
    rw [channels]
    decide
  have read : queriedChannels [contacts] = [contacts] := queriedChannels_eq (by decide)
  have quiet : ∀ wire ∈ finish.loop.sent.drop s.loop.sent.length, wire.isResync = false := by
    simpa [sent] using calm
  exact reconnect_loses_nothing adminSetting (reachable_of_play reconnects.before) reconnects.idle
    reconnects.subscribe rfl rfl (by simp [isGranted]) (by simp [isGranted, read])
    (by simp [reconnects.alive]) reconnects.run reconnects.idleAfter quiet
    (show ⟨2, contacts, "b"⟩ ∈ finish.table by simp [table]) rfl (by decide) rfl rfl

/-- The first of these names ends the literal of the chunk query with a quote and a brace, and cuts
off the rest. -/
def cuttingNames : List String := ["x\"\x7d\x00", contacts]

/-- The replay then reads no row, says that it is done, and the event is never sent although every
query answers. -/
theorem cuttingNames_lose_event :
    ∃ s begun finish labels, (connection adminSetting).Reachable s ∧ (∀ id, ¬ s.Active id) ∧
      s.exec adminSetting (.subscribe cuttingNames (.integral 0) ⟨true, true, true⟩) = some begun ∧
      (adminSetting.grant s.loop.conn.channels cuttingNames).1 = cuttingNames ∧
      ¬ begun.loop.Dead ∧ (steadyConnection adminSetting contacts).Run begun labels finish ∧
      (∀ id, ¬ finish.Active id) ∧ finish.table = [⟨1, contacts, "a"⟩] ∧
      adminSetting.deliveryRbacAllows true contacts = true ∧
      finish.loop.sent = [.subscribed (some 0) cuttingNames, .replayed 0 (.replayDone 0 0 0)] ∧
      finish.unpublished = none ∧ finish.queue = [] := by
  have played : ∃ s begun finish, Reconnects cuttingNames
      [.runTask, .resume 0 true, .resume 0 true, .resume 0 true, .resume 0 true, .resume 0 true,
        .runTask, .runTask] s begun finish ∧ finish.table = [⟨1, contacts, "a"⟩] ∧
      finish.loop.sent = [.subscribed (some 0) cuttingNames, .replayed 0 (.replayDone 0 0 0)] ∧
      finish.unpublished = none := by
    with_unfolding_all exact ⟨_, _, _, ⟨rfl, rfl, rfl, ⟨rfl, rfl, rfl, rfl⟩, rfl, rfl, rfl, rfl⟩,
      rfl, rfl, rfl⟩
  rcases played with ⟨s, begun, finish, reconnects, table, sent, published⟩
  refine ⟨s, begun, finish, _, reachable_of_play reconnects.before, reconnects.idle,
    reconnects.subscribe, ?_, by simp [reconnects.alive], reconnects.run, reconnects.idleAfter,
    table, by decide, sent, published, reconnects.ended.2.1⟩
  rw [reconnects.fresh.2.2.1]
  decide

end Plinth.Ws
