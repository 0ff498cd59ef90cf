import Plinth.Ws.ConnectionInvariants

/-!
# The order of replayed and live frames

The ordering invariant for reconnecting subscribers: replay frames ascend, no live frame of a
granted channel comes between the acknowledgement and the end of the replay, and the live frames
that follow are newer than what was replayed. It holds in every run in which no delivery for a
granted channel is queued when the replay starts, and in which no chunk query reads up to an event
that is still to be delivered.
-/

namespace Plinth.Ws

open Realtime Realtime.Replay List Function

variable {Payload Envelope : Type}

def replaySeqs (id : ReplayId) (sent : List (Wire Payload Envelope)) : List Nat :=
  (sent.filterMap (Wire.frameOf id)).filterMap Frame.seq?

/-- What has to be sent before a live frame of a granted channel: the end of the replay, and
only older replay frames. -/
structure LiveFits (before : List (Wire Payload Envelope)) (row : EventRow Payload)
    (id : ReplayId) : Prop where
  ended : ∃ wire ∈ before, wire.ends id false = true
  newer : ∀ seq ∈ replaySeqs id before, seq < row.seq

/-- Each live frame of a channel that a subscribe with `since_seq` was granted fits. -/
def LiveInOrder (sent : List (Wire Payload Envelope)) : Prop :=
  ∀ before row after, sent = before ++ .live row :: after → ∀ id channels,
    .subscribed (some id) channels ∈ before → row.channel ∈ channels → LiveFits before row id

structure OrderingInvariant (sent : List (Wire Payload Envelope)) : Prop where
  ascending : ∀ id, (replaySeqs id sent).Pairwise (· < ·)
  quiet : ∀ before row after, sent = before ++ .live row :: after → ∀ id channels,
    .subscribed (some id) channels ∈ before → row.channel ∈ channels →
      ∃ wire ∈ before, wire.ends id false = true
  newer : ∀ before row after, sent = before ++ .live row :: after → ∀ id channels,
    .subscribed (some id) channels ∈ before → row.channel ∈ channels →
      (∃ upToSeq rowCount live, .replayed id (.replayDone upToSeq rowCount live) ∈ before) →
        ∀ seq ∈ replaySeqs id before, seq < row.seq

variable {sent : List (Wire Payload Envelope)}

theorem mem_acks {id : ReplayId} {channels : List String} :
    (id, channels) ∈ sent.filterMap Wire.ack? ↔ .subscribed (some id) channels ∈ sent := by
  constructor
  · intro mem
    rcases mem_filterMap.mp mem with ⟨wire, inSent, isAck⟩
    cases wire with
    | subscribed replay granted =>
      cases replay with
      | none => cases isAck
      | some replay =>
        rcases Prod.mk.inj (Option.some.inj isAck) with ⟨rfl, rfl⟩
        exact inSent
    | _ => cases isAck
  · intro mem
    exact mem_filterMap.mpr ⟨_, mem, rfl⟩

theorem LiveInOrder.nil : LiveInOrder ([] : List (Wire Payload Envelope)) := by
  intro before row after split
  simp at split

/-- One more wire is in order if a live row fits. -/
theorem LiveInOrder.concat (inOrder : LiveInOrder sent) {wire : Wire Payload Envelope}
    (fits : ∀ row, wire = .live row → ∀ id channels, .subscribed (some id) channels ∈ sent →
      row.channel ∈ channels → LiveFits sent row id) : LiveInOrder (sent ++ [wire]) := by
  intro before row after split
  rcases eq_nil_or_concat after with rfl | ⟨init, last, rfl⟩
  · rcases append_inj' split rfl with ⟨rfl, same⟩
    exact fits row (singleton_inj.mp same)
  · rw [concat_eq_append, ← cons_append, ← append_assoc] at split
    exact inOrder before row init (append_inj' split rfl).1

theorem LiveInOrder.append {more : List (Wire Payload Envelope)} (inOrder : LiveInOrder sent)
    (other : ∀ row, .live row ∉ more) : LiveInOrder (sent ++ more) := by
  induction more generalizing sent with
  | nil => simpa using inOrder
  | cons wire rest ih =>
    rw [← singleton_append, ← append_assoc]
    apply ih
    · apply inOrder.concat
      rintro row rfl
      exact absurd mem_cons_self (other row)
    · intro row mem
      exact other row (mem_cons_of_mem _ mem)

theorem LiveInOrder.keep {loop next : Loop Payload Envelope} (inOrder : LiveInOrder loop.sent)
    (keeps : loop.Keeps next) : LiveInOrder next.sent := by
  rcases keeps.sent with ⟨wires, isSent, noLive⟩
  rw [isSent]
  exact inOrder.append noLive

theorem LiveFits.append_live {row other : EventRow Payload} {id : ReplayId}
    (fits : LiveFits sent row id) : LiveFits (sent ++ [.live other]) row id where
  ended := by
    rcases fits.ended with ⟨wire, mem, ends⟩
    exact ⟨wire, mem_append_left _ mem, ends⟩
  newer := by simpa [replaySeqs] using fits.newer

theorem LiveInOrder.append_live {rows : List (EventRow Payload)} (inOrder : LiveInOrder sent)
    (fits : ∀ row ∈ rows, ∀ id channels, .subscribed (some id) channels ∈ sent →
      row.channel ∈ channels → LiveFits sent row id) : LiveInOrder (sent ++ rows.map .live) := by
  induction rows generalizing sent with
  | nil => simpa using inOrder
  | cons row rest ih =>
    rw [map_cons, ← singleton_append, ← append_assoc]
    apply ih
    · apply inOrder.concat
      intro other isLive
      cases isLive
      exact fits row mem_cons_self
    · intro other mem id channels acked inChannels
      have old : .subscribed (some id) channels ∈ sent := by simpa using acked
      exact (fits other (mem_cons_of_mem _ mem) id channels old inChannels).append_live

/-- The sequence numbers that a replay has read: those it has sent and those it holds. -/
def Replay.Reads (r : Replay Payload Envelope) (seq : Nat) : Prop :=
  seq ∈ r.emitted.filterMap Frame.seq? ∨
    ∃ phase, r.phase = some phase ∧ ∃ row ∈ phase.held, row.seq = seq

namespace State

variable {s t : State Payload Envelope} {setting : Setting Payload Envelope} {id : ReplayId}
  {r : Replay Payload Envelope} {label : Label Payload}

/-- A committed event that the client may still get as a live frame. -/
def Undelivered (s : State Payload Envelope) (row : EventRow Payload) : Prop :=
  s.unpublished = some row ∨ .deliver row ∈ s.queue ∨
    ∃ channel, row ∈ s.loop.conn.liveBuffer channel

def Pending (s : State Payload Envelope) (id : ReplayId) : Prop :=
  (∃ r, s.replays id = some r ∧ r.phase ≠ none) ∨
    ∃ granted fired, .cleanup id granted fired ∈ s.queue

/-- The steps after which the order is kept. A subscribe that starts a replay finds no replay
in flight and no queued delivery for a channel it is granted; a chunk query reads only events
older than those of its channels that are still to be delivered. -/
def Careful (setting : Setting Payload Envelope) (s : State Payload Envelope) : Label Payload → Prop
  | .subscribe requested claim process =>
    (∃ since, extractSinceSeq claim = .ok (some since)) → process.eventsEnabled = true →
      process.takesTasks = true → (∀ id < s.started, ¬ s.Active id) ∧
        ∀ row, .deliver row ∈ s.queue →
          row.channel ∉ (setting.grant s.loop.conn.channels requested).1
  | .resume id _ => ∀ r cursor result, s.replays id = some r →
      r.phase = some (.chunkQuery cursor result) →
        ∀ row ∈ r.request.chunk s.table cursor, ∀ later, s.Undelivered later →
          later.channel ∈ r.request.grantedChannels → row.seq < later.seq
  | _ => True

/-- No live frame of a granted channel can overtake the end of a replay: it has ended; or its
setup is queued in front of every delivery for its channels; or its channels are buffered. -/
def ShelteredReplay (s : State Payload Envelope) (id : ReplayId) (granted : List String) : Prop :=
  s.loop.Over id false ∨ s.Pending id ∧
    (Core.Fifo.Barred (fun task => task = .setup id granted)
        (fun task => ∃ row, task = .deliver row ∧ row.channel ∈ granted) s.queue ∨
      (∀ channel ∈ granted, s.loop.conn.replayInFlight channel = true) ∧
        s.loop.conn.replayShared = some id)

structure Sheltered (s : State Payload Envelope) : Prop where
  base : s.Base
  exclusive : ∀ id other, s.Active id → s.Active other → id = other
  buffers : ∀ channel, ∀ row ∈ s.loop.conn.liveBuffer channel, row.channel = channel
  undelivered : ∀ row, s.Undelivered row → row.seq ≤ s.lastSeq
  reads : ∀ id r, s.replays id = some r → ∀ seq, r.Reads seq → seq ≤ s.lastSeq
  separate : ∀ id r, s.replays id = some r → ∀ seq, r.Reads seq → ∀ row, s.Undelivered row →
    row.channel ∈ r.request.grantedChannels → seq < row.seq
  replays : ∀ id r, s.replays id = some r → s.ShelteredReplay id r.request.grantedChannels
  live : LiveInOrder s.loop.sent

theorem Pending.active (pending : s.Pending id) : s.Active id := by
  rcases pending with running | ⟨granted, fired, mem⟩
  · exact .inl running
  · exact .inr ⟨_, mem, rfl⟩

theorem IsNew.sheltered (new : s.IsNew) : s.Sheltered where
  base := new.base
  exclusive := by
    rintro id other (⟨r, found, _⟩ | ⟨task, mem, _⟩)
    · simp [new.replays] at found
    · simp [new.queue] at mem
  buffers := by simp [new.liveBuffer]
  undelivered := by simp [Undelivered, new.unpublished, new.queue, new.liveBuffer]
  reads := by simp [new.replays]
  separate := by simp [new.replays]
  replays := by simp [new.replays]
  live := by
    rw [new.sent]
    exact .nil

/-- What a replay has read is behind every undelivered row of its channels. -/
theorem Sheltered.read (sheltered : s.Sheltered) (found : s.replays id = some r) {seq : Nat}
    (isRead : r.Reads seq) : seq ≤ s.lastSeq ∧ ∀ row, s.Undelivered row →
      row.channel ∈ r.request.grantedChannels → seq < row.seq :=
  ⟨sheltered.reads id r found seq isRead, sheltered.separate id r found seq isRead⟩

/-- Events become undelivered only when they are new, and what the replays have read was read
before or is older than everything that is still to be delivered. -/
theorem Sheltered.carry (sheltered : s.Sheltered) (base : t.Base) (writes : s.Writes t)
    (buffers : ∀ channel, ∀ row ∈ t.loop.conn.liveBuffer channel,
      row ∈ s.loop.conn.liveBuffer channel ∨ s.Undelivered row ∧ row.channel = channel)
    (read : ∀ id r, t.replays id = some r → ∀ seq, r.Reads seq → seq ≤ s.lastSeq ∧
      ∀ row, s.Undelivered row → row.channel ∈ r.request.grantedChannels → seq < row.seq)
    (active : ∀ id, t.Active id → s.Active id ∨ id = s.started ∧ ∀ id, ¬ s.Active id)
    (replays : ∀ id r, t.replays id = some r → t.ShelteredReplay id r.request.grantedChannels)
    (live : LiveInOrder t.loop.sent) : t.Sheltered := by
  have undelivered : ∀ row, t.Undelivered row → s.Undelivered row ∨
      s.lastSeq < row.seq ∧ row.seq ≤ t.lastSeq := by
    rintro row (unpublished | queued | ⟨channel, mem⟩)
    · exact (writes.unpublished row unpublished).imp_left .inl
    · rcases writes.deliveries row queued with old | committed
      · exact .inl (.inr (.inl old))
      · exact .inl (.inl committed)
    · rcases buffers channel row mem with old | new
      · exact .inl (.inr (.inr ⟨channel, old⟩))
      · exact .inl new.1
  refine ⟨base, ?_, ?_, ?_, ?_, ?_, replays, live⟩
  · intro id other isActive otherActive
    rcases active id isActive with old | ⟨rfl, settled⟩
    · rcases active other otherActive with otherOld | ⟨-, settled⟩
      · exact sheltered.exclusive id other old otherOld
      · exact absurd old (settled id)
    · rcases active other otherActive with old | ⟨rfl, -⟩
      · exact absurd old (settled other)
      · rfl
  · intro channel row mem
    rcases buffers channel row mem with old | new
    · exact sheltered.buffers channel row old
    · exact new.2
  · intro row isUndelivered
    rcases undelivered row isUndelivered with old | new
    · exact (sheltered.undelivered row old).trans writes.lastSeq
    · exact new.2
  · exact fun id r found seq isRead => (read id r found seq isRead).1.trans writes.lastSeq
  · intro id r found seq isRead row isUndelivered granted
    rcases undelivered row isUndelivered with old | new
    · exact (read id r found seq isRead).2 row old granted
    · exact lt_of_le_of_lt (read id r found seq isRead).1 new.1

theorem ShelteredReplay.keep {channels : List String} {more : List (Task Payload Envelope)}
    (sheltered : s.ShelteredReplay id channels) (keeps : s.loop.Keeps t.loop)
    (queue : t.queue = s.queue ++ more)
    (pending : s.Pending id → t.Pending id) : t.ShelteredReplay id channels := by
  rcases sheltered with isOver | ⟨isPending, shelter⟩
  · rcases keeps.sent with ⟨wires, isSent, _⟩
    exact .inl (isOver.mono ⟨wires, isSent⟩ keeps.dead)
  refine .inr ⟨pending isPending, ?_⟩
  rw [queue, keeps.inFlight, keeps.shared]
  exact shelter.imp_left fun barred => barred.append more

theorem Pending.keep {more : List (Task Payload Envelope)} (pending : s.Pending id)
    (queue : t.queue = s.queue ++ more) (replays : t.replays id = s.replays id) :
    t.Pending id := by
  rcases pending with running | ⟨granted, fired, mem⟩
  · exact .inl (replays.symm ▸ running)
  · exact .inr ⟨granted, fired, by rw [queue]; exact mem_append_left _ mem⟩

/-- A change that sends no live row keeps the shelter. -/
theorem Sheltered.calm (sheltered : s.Sheltered) (base : t.Base) (writes : s.Writes t)
    (keeps : s.loop.Keeps t.loop) {more : List (Task Payload Envelope)}
    (queue : t.queue = s.queue ++ more) (replays : t.replays = s.replays)
    (active : ∀ id, t.Active id → s.Active id) : t.Sheltered := by
  refine sheltered.carry base writes (fun channel row mem => .inl (keeps.buffers channel row mem))
    ?_ (fun id here => .inl (active id here)) ?_ (.keep sheltered.live keeps)
  · intro id r found seq isRead
    exact sheltered.read (replays ▸ found) isRead
  · intro id r found
    exact (sheltered.replays id r (replays ▸ found)).keep keeps queue fun pending =>
      pending.keep queue (by rw [replays])

theorem Sheltered.opens (sheltered : s.Sheltered) (base : t.Base)
    {replay : Replay Payload Envelope} {wires : List (Wire Payload Envelope)}
    {tasks : List (Task Payload Envelope)} (opens : Opens s t replay wires tasks)
    (unread : replay.emitted.filterMap Frame.seq? = [] ∧
      ∀ phase, replay.phase = some phase → phase.held = [])
    (alone : (∀ id, ¬ s.Active id) ∨ replay.phase = none ∧ tasks = [])
    (shelter : t.ShelteredReplay s.started replay.request.grantedChannels) : t.Sheltered := by
  have isNew : ∀ {r}, t.replays s.started = some r → r = replay := by
    intro r found
    rw [opens.replays, update_self] at found
    exact (Option.some.inj found).symm
  refine sheltered.carry base opens.writes
    (fun channel row mem => .inl (opens.keeps.buffers channel row mem)) ?_ ?_ ?_
    (.keep sheltered.live opens.keeps)
  · intro id r found seq isRead
    rcases eq_or_ne id s.started with rfl | old
    · rw [isNew found] at isRead
      rcases isRead with inEmitted | ⟨phase, isPhase, row, held, _⟩
      · simp [unread.1] at inEmitted
      · simp [unread.2 phase isPhase] at held
    · exact sheltered.read (opens.replays_of_ne old ▸ found) isRead
  · intro id isActive
    rcases opens.active isActive with old | ⟨rfl, running⟩
    · exact .inl old
    · rcases alone with settled | ⟨none, noTasks⟩
      · exact .inr ⟨rfl, settled⟩
      · simp [none, noTasks] at running
  · intro id r found
    rcases eq_or_ne id s.started with rfl | old
    · rw [isNew found]
      exact shelter
    · exact (sheltered.replays id r (opens.replays_of_ne old ▸ found)).keep opens.keeps opens.queue
        fun pending => pending.keep opens.queue (opens.replays_of_ne old)

theorem Sheltered.starts (sheltered : s.Sheltered) (base : t.Base) {requested : List String}
    {claim : SinceClaim} {process : Process} {since : Nat} {granted : List String}
    {phase : Phase Payload} {frames : List (Frame Envelope)}
    (careful : s.Careful setting (.subscribe requested claim process))
    (starts : Starts setting s t requested claim process since granted phase frames) :
    t.Sheltered := by
  rcases careful ⟨since, starts.claims⟩ starts.enabled starts.takes with
    ⟨noneActive, undeliverable⟩
  rw [starts.grants] at undeliverable
  have settled : ∀ id, ¬ s.Active id := fun id isActive =>
    noneActive id (sheltered.base.started_of_active isActive) isActive
  have nothing : frames.filterMap Frame.seq? = [] ∧ phase.held = [] := by
    rcases Request.start_cases _ process.hasClient with ⟨atOnce, _⟩ | queries
    · rcases Prod.mk.inj (starts.begins.symm.trans atOnce) with ⟨rfl, rfl⟩
      exact ⟨rfl, rfl⟩
    · rcases Prod.mk.inj (starts.begins.symm.trans queries) with ⟨rfl, rfl⟩
      exact ⟨rfl, rfl⟩
  refine sheltered.opens base starts.toOpens ⟨nothing.1, ?_⟩ (.inl settled) ?_
  · intro other isPhase
    cases isPhase
    exact nothing.2
  · refine .inr ⟨.inl ⟨_, by rw [starts.replays, update_self], by simp⟩, .inl ?_⟩
    rw [starts.queue]
    refine Core.Fifo.barred_append_barrier (by rfl) ?_ _
    rintro task mem ⟨row, rfl, isGranted⟩
    exact undeliverable row mem isGranted

/-- An undelivered row fits once the replays of its channel are over. -/
theorem Sheltered.liveFits (sheltered : s.Sheltered) {row : EventRow Payload}
    (alive : ¬ s.loop.Dead) (isUndelivered : s.Undelivered row)
    (allOver : ∀ id r, s.replays id = some r → row.channel ∈ r.request.grantedChannels →
      s.loop.Over id false) :
    ∀ id channels, .subscribed (some id) channels ∈ s.loop.sent → row.channel ∈ channels →
      LiveFits s.loop.sent row id := by
  intro id channels acked inChannels
  rcases Option.map_eq_some_iff.mp (sheltered.base.acks id channels (mem_acks.mpr acked)) with
    ⟨r, found, rfl⟩
  constructor
  · rcases allOver id r found inChannels with dead | ended
    · exact absurd dead alive
    · exact ended
  · intro seq mem
    have sublist : (s.loop.sent.filterMap (Wire.frameOf id)).Sublist r.emitted :=
      (sublist_append_left _ _).trans (sheltered.base.tracks id r found).frames
    exact sheltered.separate id r found seq (.inl ((sublist.filterMap _).subset mem)) row
      isUndelivered inChannels

structure Pops (s t : State Payload Envelope) (task : Task Payload Envelope) : Prop where
  base : t.Base
  writes : s.Writes t
  queue : s.queue = task :: t.queue
  replays : t.replays = s.replays

variable {task : Task Payload Envelope}

theorem Pops.mem (pops : s.Pops t task) {other : Task Payload Envelope} (mem : other ∈ t.queue) :
    other ∈ s.queue := by
  rw [pops.queue]
  exact mem_cons_of_mem _ mem

theorem Sheltered.pop (sheltered : s.Sheltered) (pops : s.Pops t task)
    (buffers : ∀ channel, ∀ row ∈ t.loop.conn.liveBuffer channel,
      row ∈ s.loop.conn.liveBuffer channel ∨ s.Undelivered row ∧ row.channel = channel)
    (shelter : ∀ id r, s.replays id = some r →
      s.ShelteredReplay id r.request.grantedChannels →
      t.ShelteredReplay id r.request.grantedChannels)
    (live : LiveInOrder t.loop.sent) : t.Sheltered := by
  refine sheltered.carry pops.base pops.writes buffers ?_ ?_ ?_ live
  · intro id r found seq isRead
    exact sheltered.read (pops.replays ▸ found) isRead
  · rintro id (running | ⟨other, mem, isOf⟩)
    · exact .inl (.inl (pops.replays ▸ running))
    · exact .inl (.inr ⟨other, pops.mem mem, isOf⟩)
  · intro id r found
    rw [pops.replays] at found
    exact shelter id r found (sheltered.replays id r found)

theorem Pending.pop (pending : s.Pending id) (pops : s.Pops t task)
    (notCleanup : ∀ other channels fired, task ≠ .cleanup other channels fired) : t.Pending id := by
  rcases pending with running | ⟨channels, fired, mem⟩
  · exact .inl (pops.replays.symm ▸ running)
  rw [pops.queue] at mem
  rcases mem_cons.mp mem with same | inRest
  · exact absurd same.symm (notCleanup _ _ _)
  · exact .inr ⟨channels, fired, inRest⟩

theorem ShelteredReplay.pop {granted : List String} (shelter : s.ShelteredReplay id granted)
    (pops : s.Pops t task) (staysOver : s.loop.Over id false → t.loop.Over id false)
    (notSetup : ∀ other channels, task ≠ .setup other channels)
    (notCleanup : ∀ other channels fired, task ≠ .cleanup other channels fired)
    (inFlight : (∀ channel ∈ granted, s.loop.conn.replayInFlight channel) →
      s.loop.conn.replayShared = some id →
      t.loop.Over id false ∨ (∀ channel ∈ granted, t.loop.conn.replayInFlight channel) ∧
        t.loop.conn.replayShared = some id) :
    t.ShelteredReplay id granted := by
  rcases shelter with isOver | ⟨pending, how⟩
  · exact .inl (staysOver isOver)
  have stays := pending.pop pops notCleanup
  rcases how with barred | ⟨flying, shared⟩
  · rw [pops.queue] at barred
    rcases barred with atFront | ⟨_, rest⟩
    · exact absurd atFront (notSetup _ _)
    · exact .inr ⟨stays, .inl rest⟩
  · rcases inFlight flying shared with isOver | still
    · exact .inl isOver
    · exact .inr ⟨stays, .inr still⟩

section

variable (sheltered : s.Sheltered)
include sheltered

theorem Sheltered.popSame (pops : s.Pops t task)
    (notSetup : ∀ other channels, task ≠ .setup other channels)
    (notCleanup : ∀ other channels fired, task ≠ .cleanup other channels fired)
    (conn : t.loop.conn = s.loop.conn) (sent : ∃ more, t.loop.sent = s.loop.sent ++ more)
    (live : LiveInOrder t.loop.sent) : t.Sheltered := by
  refine sheltered.pop pops (fun _ _ mem => .inl (conn ▸ mem)) ?_ live
  intro id r _ shelter
  refine shelter.pop pops (fun isOver => isOver.mono sent ?_) notSetup notCleanup
    fun flying shared => .inr (by rw [conn]; exact ⟨flying, shared⟩)
  simp [conn]

/-- A delivery keeps the shelter. -/
theorem Sheltered.runDeliver {row : EventRow Payload}
    (pops : s.Pops t (.deliver row)) (delivers : Loop.Delivers setting s.loop row t.loop) :
    t.Sheltered := by
  have queued : s.Undelivered row := .inr (.inl (by simp [pops.queue]))
  rcases delivers.quiet.sent with ⟨wires, isSent, _⟩
  have staysOver : ∀ id, s.loop.Over id false → t.loop.Over id false := fun id isOver =>
    isOver.mono ⟨wires, isSent⟩ delivers.quiet.dead
  generalize isLoop : t.loop = next at delivers
  cases delivers with
  | ignores =>
    exact sheltered.popSame pops (by simp) (by simp) (by rw [isLoop]) ⟨_, isSent⟩
      (by simpa [isLoop] using sheltered.live)
  | sends alive through =>
    have fits := sheltered.liveFits alive queued ?_
    · refine sheltered.popSame pops (by simp) (by simp) (by simp [isLoop]) ⟨_, isSent⟩ ?_
      rw [isLoop]
      apply sheltered.live.concat
      intro other isLive
      cases isLive
      exact fits
    · intro id r found granted
      rcases sheltered.replays id r found with isOver | ⟨_, barred | ⟨flying, _⟩⟩
      · exact isOver
      · rw [pops.queue] at barred
        rcases barred with atFront | ⟨free, _⟩
        · cases atFront
        · exact absurd ⟨row, rfl, granted⟩ free
      · rw [flying _ granted] at through
        cases through
  | overflows inFlight =>
    refine sheltered.pop pops ?_ ?_ ?_
    · intro channel other mem
      rw [isLoop, Loop.handleBufferOverflow_liveBuffer, update_apply] at mem
      split at mem
      · simp at mem
      · exact .inl mem
    · intro id r _ shelter
      refine shelter.pop pops (staysOver id) (by simp) (by simp) fun _ shared => .inl ?_
      refine .inr ⟨.resync s.loop.conn.replayShared "live_buffer_overflow" (some 0), ?_, ?_⟩
      · simp [isLoop]
      · simp [shared]
    · rw [isLoop, Loop.handleBufferOverflow_sent]
      exact sheltered.live.append (by simp)
  | buffers inFlight =>
    refine sheltered.pop pops ?_ ?_ ?_
    · intro channel other mem
      simp only [isLoop, Loop.storeBufferedLive_frame, Loop.setBuffer, update_apply] at mem
      split at mem
      · rename_i same
        rw [same]
        rcases mem_append.mp mem with old | new
        · exact .inl old
        · rcases mem_singleton.mp new with rfl
          exact .inr ⟨queued, rfl⟩
      · exact .inl mem
    · intro id r _ shelter
      exact shelter.pop pops (staysOver id) (by simp) (by simp) fun flying shared =>
        .inr (by simpa [isLoop] using And.intro flying shared)
    · simpa [isLoop] using sheltered.live

theorem Sheltered.runSetup {replay : ReplayId} {granted : List String}
    (pops : s.Pops t (.setup replay granted))
    (loop : t.loop = s.loop.replaySetup setting replay granted) : t.Sheltered := by
  have active : s.Active replay := .inr ⟨_, by rw [pops.queue]; exact mem_cons_self, rfl⟩
  have sent : t.loop.sent = s.loop.sent := by rw [loop]; rfl
  have buffer : t.loop.conn.liveBuffer = s.loop.conn.liveBuffer := by rw [loop]; rfl
  refine sheltered.pop pops (fun _ _ mem => .inl (buffer ▸ mem)) ?_ ?_
  · rintro id r found (isOver | ⟨pending, how⟩)
    · refine .inl (isOver.mono ⟨[], by simp [sent]⟩ ?_)
      rw [loop]
      exact fun dead => dead
    · have same : id = replay := sheltered.exclusive id replay pending.active active
      rcases same with rfl
      refine .inr ⟨pending.pop pops (by simp), ?_⟩
      rcases how with barred | ⟨flying, _⟩
      · rw [pops.queue] at barred
        rcases barred with atFront | ⟨_, later⟩
        · cases atFront
          right
          rw [loop]
          refine ⟨?_, rfl⟩
          intro channel mem
          simp [Loop.replaySetup, mem]
        · exact .inl later
      · right
        rw [loop]
        refine ⟨?_, rfl⟩
        intro channel mem
        simp only [Loop.replaySetup, Loop.setInFlight]
        split
        · rfl
        · exact flying channel mem
  · rw [sent]
    exact sheltered.live

/-- So does the cleanup of a replay. -/
theorem Sheltered.runCleanup {replay : ReplayId}
    {granted : List String} {fired : Bool} (pops : s.Pops t (.cleanup replay granted fired))
    (loop : t.loop = s.loop.replayCleanup setting granted fired) : t.Sheltered := by
  have active : s.Active replay := .inr ⟨_, by rw [pops.queue]; exact mem_cons_self, rfl⟩
  have allOver : ∀ id r, s.replays id = some r → s.loop.Over id false := by
    intro id r found
    rcases sheltered.replays id r found with isOver | ⟨pending, _⟩
    · exact isOver
    rcases sheltered.exclusive id replay pending.active active with rfl
    rcases (sheltered.base.tracks id r found).cleanup fired with isOver | preceded
    · exact isOver.of_fired
    · rw [pops.queue] at preceded
      exact absurd ⟨granted, rfl⟩ preceded.1
  rcases Loop.foldl_flushed setting fired granted s.loop with ⟨rows, flushed⟩
  have sent : t.loop.sent = s.loop.sent ++ rows.map .live := by
    rw [loop]
    exact flushed.sent
  refine sheltered.pop pops ?_ ?_ ?_
  · intro channel row mem
    rw [loop] at mem
    have inFlushed : row ∈ if channel ∈ granted then [] else s.loop.conn.liveBuffer channel := by
      rw [← flushed.liveBuffer]
      exact mem
    split at inFlushed
    · simp at inFlushed
    · exact .inl inFlushed
  · intro id r found _
    refine .inl ((allOver id r found).mono ⟨_, sent⟩ ?_)
    rw [loop]
    exact (Loop.replayCleanup_quiet granted fired).dead
  · rw [sent]
    apply sheltered.live.append_live
    intro row mem
    rcases flushed.buffered row mem with ⟨alive, channel, _, inBuffer⟩
    exact sheltered.liveFits alive (.inr (.inr ⟨channel, inBuffer⟩)) fun id r found _ =>
      allOver id r found

theorem Sheltered.runFrame {replay : ReplayId} {frame : Frame Envelope}
    (pops : s.Pops t (.frame replay frame)) (loop : t.loop = s.loop.sendFrame replay frame) :
    t.Sheltered := by
  have sends : t.loop.conn = s.loop.conn ∧
      ∃ more, t.loop.sent = s.loop.sent ++ more ∧ ∀ row, .live row ∉ more := by
    rw [loop, Loop.sendFrame]
    split
    · exact ⟨rfl, _, rfl, by simp⟩
    · exact ⟨rfl, [], by simp, by simp⟩
  rcases sends with ⟨conn, wires, isSent, noLive⟩
  refine sheltered.popSame pops (by simp) (by simp) conn ⟨wires, isSent⟩ ?_
  rw [isSent]
  exact sheltered.live.append noLive

/-- What a replay has read after it went on is as old as what it had read, or the chunk query was
careful about it. -/
theorem Sheltered.reads_moves (careful : s.Careful setting label) (found : s.replays id = some r)
    {after : Replay Payload Envelope} {tasks : List (Task Payload Envelope)}
    (moves : Moves s id label r after tasks) {seq : Nat} (isRead : after.Reads seq) :
    seq ≤ s.lastSeq ∧ ∀ row, s.Undelivered row →
      row.channel ∈ r.request.grantedChannels → seq < row.seq := by
  cases moves with
  | returns =>
    rcases isRead with emitted | ⟨phase, isPhase, _⟩
    · exact sheltered.read found (.inl emitted)
    · cases isPhase
  | @resumes answers phase next frames isLabel isPhase resumes =>
    have read : seq ∈ r.emitted.filterMap Frame.seq? ∨ seq ∈ frames.filterMap Frame.seq? ∨
        ∃ row ∈ next.held, row.seq = seq := by
      rcases isRead with emitted | ⟨other, isNext, held⟩
      · rw [filterMap_append, mem_append] at emitted
        exact emitted.imp_right .inl
      · cases isNext
        exact .inr (.inr held)
    rcases read with old | new
    · exact sheltered.read found (.inl old)
    rcases isLabel with rfl
    rcases resumes.reads new with held | ⟨cursor, result, rfl, row, inChunk, rfl⟩
    · exact sheltered.read found (.inr ⟨phase, isPhase, held⟩)
    · exact ⟨sheltered.base.bounded row (Request.mem_chunk inChunk).1,
        careful r cursor result found isPhase row inChunk⟩

theorem Sheltered.moves (base : t.Base) (writes : s.Writes t)
    (active : ∀ id, t.Active id → s.Active id) (careful : s.Careful setting label)
    (found : s.replays id = some r) {after : Replay Payload Envelope}
    {tasks : List (Task Payload Envelope)} (moves : Moves s id label r after tasks)
    (isNext : t = (s.setReplay id after).queueInLoop tasks) : t.Sheltered := by
  have cases : ∀ {other replay}, t.replays other = some replay →
      other = id ∧ replay = after ∨ other ≠ id ∧ s.replays other = some replay := by
    intro other replay isReplay
    rw [isNext] at isReplay
    rcases eq_or_ne other id with rfl | isOther
    · exact .inl ⟨rfl, by simpa [eq_comm] using isReplay⟩
    · exact .inr ⟨isOther, by simpa [update_of_ne isOther] using isReplay⟩
  have loop : t.loop = s.loop := by rw [isNext]; rfl
  have keeps : s.loop.Keeps t.loop := loop ▸ (Loop.calm_refl s.loop).2
  have queue : t.queue = s.queue ++ tasks := by rw [isNext]; rfl
  refine sheltered.carry base writes (fun channel row mem => .inl (keeps.buffers channel row mem))
    ?_ (fun id here => .inl (active id here)) ?_ (.keep sheltered.live keeps)
  · intro other replay isReplay seq isRead
    rcases cases isReplay with ⟨rfl, rfl⟩ | ⟨-, old⟩
    · rw [moves.request]
      exact sheltered.reads_moves careful found moves isRead
    · exact sheltered.read old isRead
  · intro other replay isReplay
    rcases cases isReplay with ⟨rfl, rfl⟩ | ⟨isOther, old⟩
    · rw [moves.request]
      refine (sheltered.replays other r found).keep keeps queue fun _ => ?_
      rcases moves.pending with goesOn | ⟨fired, mem⟩
      · exact .inl ⟨replay, isReplay, goesOn⟩
      · exact .inr ⟨_, fired, by rw [queue]; exact mem_append_right _ mem⟩
    · exact (sheltered.replays other replay old).keep keeps queue fun pending =>
        pending.keep queue (isReplay.trans old.symm)

/-- Every careful step keeps the shelter. -/
theorem Sheltered.step (careful : s.Careful setting label) (steps : Steps setting s label t) :
    t.Sheltered := by
  have base := sheltered.base.step steps
  have writes := steps.writes
  have active : t.started = s.started → ∀ id, t.Active id → s.Active id := by
    intro started id isActive
    have isStarted := base.started_of_active isActive
    exact (steps.effect.active isActive).resolve_right (started ▸ isStarted).ne
  cases steps.effect with
  | calm calm queue _ started replays =>
    exact sheltered.calm base writes calm.2 queue replays (active started)
  | @runs task queue loop _ replays =>
    have pops : s.Pops t task := ⟨base, writes, queue, replays⟩
    cases task with
    | deliver row =>
      exact sheltered.runDeliver pops
        (by rw [loop]; exact Loop.deliverToConn_delivers setting _ row)
    | setup replay granted => exact sheltered.runSetup pops loop
    | frame replay frame => exact sheltered.runFrame pops loop
    | cleanup replay granted fired => exact sheltered.runCleanup pops loop
    | drainExtension name =>
      refine sheltered.pop pops ?_ ?_ ?_
      · rw [loop]
        exact fun _ _ mem => .inl mem
      · intro id r _ shelter
        refine shelter.pop pops ?_ (by simp) (by simp) ?_ <;> rw [loop]
        · exact fun isOver => isOver
        · exact fun flying shared => .inr ⟨flying, shared⟩
      · rw [loop]
        exact sheltered.live
  | @refused _ since granted reason seconds opens =>
    exact sheltered.opens base opens ⟨rfl, by simp⟩ (.inr ⟨rfl, rfl⟩)
      (.inl (.inr ⟨.resync (some s.started) reason seconds, by simp [opens.sent], by simp⟩))
  | starts starts => exact sheltered.starts base careful starts
  | moves found moves isNext =>
    exact sheltered.moves base writes (active (by rw [isNext]; rfl)) careful found moves isNext

end

theorem Base.replaySeqs_ascending (base : s.Base) (id : ReplayId) :
    (replaySeqs id s.loop.sent).Pairwise (· < ·) := by
  cases found : s.replays id with
  | none =>
    have fresh : s.started ≤ id := by
      by_contra started
      rcases base.exists_replay (not_le.mp started) with ⟨r, isFound⟩
      simp [found] at isFound
    have noFrames := base.framesOf_fresh fresh
    rw [framesOf, append_eq_nil_iff] at noFrames
    simp [replaySeqs, noFrames.1]
  | some r =>
    have tracks := base.tracks id r found
    have sublist : (s.loop.sent.filterMap (Wire.frameOf id)).Sublist r.emitted :=
      (sublist_append_left _ _).trans tracks.frames
    exact tracks.ascending.sublist (sublist.filterMap _)

end State

def carefulConnection (setting : Setting Payload Envelope) :
    Core.TransitionSystem (State Payload Envelope) (Label Payload) where
  initial := State.IsNew
  step s label next := s.exec setting label = some next ∧ s.Careful setting label

theorem sheltered_of_reachable {setting : Setting Payload Envelope} {s : State Payload Envelope}
    (reachable : (carefulConnection setting).Reachable s) : s.Sheltered := by
  refine reachable.invariant State.Sheltered ?_ ?_
  · exact fun new => new.sheltered
  · exact fun kept step => kept.step step.2 (State.exec_steps step.1)

/-- In every run with careful steps the client sees replayed and live frames in order. -/
theorem careful_runs_in_order (setting : Setting Payload Envelope)
    {s : State Payload Envelope} (reachable : (carefulConnection setting).Reachable s) :
    OrderingInvariant s.loop.sent := by
  have sheltered := sheltered_of_reachable reachable
  refine ⟨sheltered.base.replaySeqs_ascending, ?_, ?_⟩
  · intro before row after split id channels acked inChannels
    exact (sheltered.live before row after split id channels acked inChannels).ended
  · intro before row after split id channels acked inChannels _
    exact (sheltered.live before row after split id channels acked inChannels).newer

/-- A delivery is queued when the client subscribes. -/
def queuedDelivery : List (Label String) :=
  [.commit ⟨1, contacts, "a"⟩, .publish, resubscribe, .runTask]

/-- An event is committed and buffered before the chunk query reads it. -/
def bufferedEvent : List (Label String) :=
  [resubscribe, .runTask, .commit ⟨1, contacts, "a"⟩, .publish, .runTask, .resume 0 true,
    .resume 0 true, .resume 0 true, .resume 0 true, .resume 0 true, .resume 0 true,
    .resume 0 true, .resume 0 true, .runTask, .runTask, .runTask]

/-- The live frame comes before the end of the replay in the first run, and is as old as the
last replay frame in the second. -/
theorem uncareful_runs_out_of_order :
    (∃ s, (connection adminSetting).Reachable s ∧
      s.loop.sent = [.subscribed (some 0) [contacts], .live ⟨1, contacts, "a"⟩] ∧
      ¬ OrderingInvariant s.loop.sent) ∧
    ∃ s, (connection adminSetting).Reachable s ∧
      s.loop.sent = [.subscribed (some 0) [contacts], .replayed 0 (.replay 1 "a"),
        .replayed 0 (.replayDone 1 1 1), .live ⟨1, contacts, "a"⟩] ∧
      ¬ OrderingInvariant s.loop.sent := by
  constructor
  · have played : ∃ s, play queuedDelivery = some s ∧
        s.loop.sent = [.subscribed (some 0) [contacts], .live ⟨1, contacts, "a"⟩] := ⟨_, rfl, rfl⟩
    rcases played with ⟨s, isPlayed, sent⟩
    refine ⟨s, reachable_of_play isPlayed, sent, ?_⟩
    intro ordered
    rcases ordered.quiet [.subscribed (some 0) [contacts]] ⟨1, contacts, "a"⟩ [] sent 0
      [contacts] mem_cons_self mem_cons_self with ⟨wire, mem, ends⟩
    rcases mem_singleton.mp mem with rfl
    cases ends
  · have played : ∃ s, play bufferedEvent = some s ∧
        s.loop.sent = [.subscribed (some 0) [contacts], .replayed 0 (.replay 1 "a"),
          .replayed 0 (.replayDone 1 1 1), .live ⟨1, contacts, "a"⟩] := by
      with_unfolding_all exact ⟨_, rfl, rfl⟩
    rcases played with ⟨s, isPlayed, sent⟩
    refine ⟨s, reachable_of_play isPlayed, sent, ?_⟩
    intro ordered
    have newer := ordered.newer [.subscribed (some 0) [contacts], .replayed 0 (.replay 1 "a"),
      .replayed 0 (.replayDone 1 1 1)] ⟨1, contacts, "a"⟩ [] sent 0 [contacts]
      mem_cons_self mem_cons_self ⟨1, 1, 1, by simp⟩ 1 (by decide)
    exact absurd newer (lt_irrefl 1)

/-- Two events are delivered before the client subscribes, and one after their replay. -/
def calmReplay : List (Label String) :=
  [.commit ⟨1, contacts, "a"⟩, .publish, .runTask, .commit ⟨2, contacts, "b"⟩, .publish, .runTask,
    resubscribe, .runTask, .resume 0 true, .resume 0 true, .resume 0 true, .resume 0 true,
    .resume 0 true, .resume 0 true, .resume 0 true, .resume 0 true, .resume 0 true, .runTask,
    .runTask, .runTask, .runTask, .commit ⟨3, contacts, "c"⟩, .publish, .runTask]

/-- The first subscribe of an idle connection, and queries while no event of the granted channels
is on its way. -/
def isCareful (s : State String String) : Label String → Bool
  | .subscribe _ _ _ => s.started == 0 && s.queue.isEmpty
  | .resume id _ =>
    match s.replays id with
    | some ⟨request, some (.chunkQuery _ _), _⟩ => s.unpublished.isNone && s.queue.isEmpty &&
      request.grantedChannels.all fun channel => (s.loop.conn.liveBuffer channel).isEmpty
    | _ => true
  | _ => true

theorem careful_of_isCareful {s : State String String} {label : Label String}
    (sheltered : s.Sheltered) (holds : isCareful s label) : s.Careful adminSetting label := by
  cases label with
  | subscribe requested claim process =>
    simp only [isCareful, Bool.and_eq_true, beq_iff_eq, List.isEmpty_iff] at holds
    intro _ _ _
    exact ⟨by simp [holds.1], by simp [holds.2]⟩
  | resume id answers =>
    rintro ⟨request, phase, emitted⟩ cursor result found isPhase row _ later undelivered granted
    simp only at isPhase
    simp only [isCareful, found, isPhase, Bool.and_eq_true, Option.isNone_iff_eq_none,
      List.isEmpty_iff, all_eq_true] at holds
    rcases undelivered with unpublished | queued | ⟨channel, buffered⟩
    · simp [holds.1.1] at unpublished
    · simp [holds.1.2] at queued
    · rcases sheltered.buffers channel later buffered with rfl
      simp [holds.2 _ granted] at buffered
  | _ => trivial

theorem calmReplay_in_order :
    ∃ s, (carefulConnection adminSetting).Reachable s ∧
      s.loop.sent = [.subscribed (some 0) [contacts], .replayed 0 (.replay 1 "a"),
        .replayed 0 (.replay 2 "b"), .replayed 0 (.replayDone 2 2 0),
        .live ⟨3, contacts, "c"⟩] ∧ OrderingInvariant s.loop.sent := by
  have played : ∃ s, Core.TransitionSystem.replay
      (fun s label => if isCareful s label then State.exec s adminSetting label else none)
      emptyConnection calmReplay = some s ∧
      s.loop.sent = [.subscribed (some 0) [contacts], .replayed 0 (.replay 1 "a"),
        .replayed 0 (.replay 2 "b"), .replayed 0 (.replayDone 2 2 0),
        .live ⟨3, contacts, "c"⟩] := by
    with_unfolding_all exact ⟨_, rfl, rfl⟩
  rcases played with ⟨s, isPlayed, sent⟩
  have reachable : (carefulConnection adminSetting).Reachable s := by
    refine Core.TransitionSystem.Reachable.of_replay ?_
      ⟨emptyConnection, [], emptyConnection_isNew, .refl _⟩ isPlayed
    intro state label next reachable step
    split at step
    · rename_i careful
      exact ⟨step, careful_of_isCareful (sheltered_of_reachable reachable) careful⟩
    · cases step
  exact ⟨s, reachable, sent, careful_runs_in_order adminSetting reachable⟩

end Plinth.Ws
