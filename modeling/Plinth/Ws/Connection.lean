import Plinth.Core.Transition
import Plinth.Realtime.Replay

/-!
# One WebSocket connection

Model of `ws/subscriptions.cpp`, `ws/publish.cpp` and the parts of `ws/authority.cpp` that touch
subscriptions, for one authenticated connection.

The connection's state belongs to its event loop, whose tasks run one after the other in the order
in which they were queued. The events writer commits an event and then queues its delivery; a
subscribe that carries `since_seq` starts a replay coroutine, which runs on other threads and queues
its frames on the loop. Every access to something that the others can see is a step of its own.
-/

namespace Plinth.Ws

open Realtime Realtime.Replay Function

variable {Payload Envelope : Type}

abbrev ReplayId := Nat

/-- What does not change while the connection lives: rules and identity are fixed at
authentication, and the configuration is read once. -/
structure Setting (Payload Envelope : Type) where
  identity : Identity
  rbacEnforced : Bool
  maxSubscriptionsPerConn : Nat
  cfg : EventsConfig
  liveBufferCap : Nat
  parsePayload : Payload → Option Envelope

/-- Frames in the order in which the client gets them. Those of a subscribe with `since_seq` are
marked with it, which the client does not see. -/
inductive Wire (Payload Envelope : Type) where
  | subscribed (replay : Option ReplayId) (channels : List String)
  | unsubscribed (channels : List String)
  | error (code message : String)
  | live (row : EventRow Payload)
  | replayed (replay : ReplayId) (frame : Frame Envelope)
  | resync (replay : Option ReplayId) (reason : String) (retentionSeconds : Option Nat)
  deriving DecidableEq

/-- The tasks that `queueInLoop` is called with. -/
inductive Task (Payload Envelope : Type) where
  | deliver (row : EventRow Payload)
  | setup (replay : ReplayId) (granted : List String)
  | frame (replay : ReplayId) (frame : Frame Envelope)
  | cleanup (replay : ReplayId) (granted : List String) (resyncFired : Bool)
  | drainExtension (name : String)

/-- `ConnState`. The abort flag and the count of buffered frames are set and reset together,
so one field says whose they are. -/
structure ConnState (Payload : Type) where
  connected : Bool
  authorityCurrent : Bool
  channels : List String
  replayInFlight : String → Bool
  liveBuffer : String → List (EventRow Payload)
  liveBufferCap : Nat
  replayShared : Option ReplayId

/-- A replay coroutine: its arguments, its phase until it is over, and a record of the frames it has
handed to `send`. -/
structure Replay (Payload Envelope : Type) where
  request : Request Payload Envelope
  phase : Option (Phase Payload)
  emitted : List (Frame Envelope)

/-- What the loop's tasks read and write: the connection, the values it shares with the
replays, and what has been sent to the client. -/
structure Loop (Payload Envelope : Type) where
  conn : ConnState Payload
  abortFlag : ReplayId → Bool
  bufferedLiveCount : ReplayId → Nat
  sent : List (Wire Payload Envelope)

/-- The events table and its writer, the queue of the loop, the replays and the loop. -/
structure State (Payload Envelope : Type) where
  table : List (EventRow Payload)
  lastSeq : Nat
  unpublished : Option (EventRow Payload)
  queue : List (Task Payload Envelope)
  started : Nat
  replays : ReplayId → Option (Replay Payload Envelope)
  loop : Loop Payload Envelope

/-- The `since_seq` member of a subscribe message. -/
inductive SinceClaim where
  | absent
  | notIntegral
  | integral (value : Int)
  deriving DecidableEq

def extractSinceSeq : SinceClaim → Except String (Option Nat)
  | .absent => .ok none
  | .notIntegral => .error "resubscribe.invalid_since_seq"
  | .integral value =>
    if value < 0 then .error "resubscribe.invalid_since_seq" else .ok (some value.toNat)

/-- What a subscribe finds: whether events are enabled, whether the process takes tasks and whether
there is a database client. -/
structure Process where
  eventsEnabled : Bool
  takesTasks : Bool
  hasClient : Bool
  deriving DecidableEq

inductive Label (Payload : Type) where
  /-- The events writer's transaction commits. -/
  | commit (row : EventRow Payload)
  /-- `publish_dispatched` for the event just committed. -/
  | publish
  | prune (count : Nat)
  | subscribe (requested : List String) (since : SinceClaim) (process : Process)
  | unsubscribe (requested : List String)
  | drain (name : String)
  | runTask
  /-- A replay goes on; its query, if it waits for one, answers or throws. -/
  | resume (replay : ReplayId) (answers : Bool)
  | lapseAuthority
  | rejectAuthority
  | disconnect
  deriving DecidableEq

def channelBelongsToExtension (channel name : String) : Bool :=
  channel.startsWith ("plinth:data:ext_" ++ name ++ ".") ||
    channel.startsWith ("plinth:ext:" ++ name ++ ":")

namespace Setting

variable (setting : Setting Payload Envelope)

def subscribeAllowed (channel : String) : Bool :=
  if setting.identity.isAdmin then true
  else if !setting.rbacEnforced then false
  else if !validateChannel channel then false
  else
    let rule := Rbac.deriveSubscribeRule channel
    if rule.isEmpty then false else setting.identity.effectiveRules.contains rule

def deliveryRbacAllows (authorityCurrent : Bool) (channel : String) : Bool :=
  if !authorityCurrent then false
  else rbacAllows setting.rbacEnforced setting.identity channel

/-- The loop of `on_subscribe` over the requested channels: the granted ones and the channels
of the connection after it. -/
def grant (channels : List String) : List String → List String × List String
  | [] => ([], channels)
  | channel :: requested =>
    if channels.contains channel then
      let (granted, after) := grant channels requested
      (channel :: granted, after)
    else if setting.maxSubscriptionsPerConn ≤ channels.length then grant channels requested
    else if !setting.subscribeAllowed channel then grant channels requested
    else
      let (granted, after) := grant (channels ++ [channel]) requested
      (channel :: granted, after)

def request (since : Nat) (granted : List String) : Request Payload Envelope where
  state := setting.identity
  rbacEnforced := setting.rbacEnforced
  sinceSeq := since
  grantedChannels := granted
  cfg := setting.cfg
  parsePayload := setting.parsePayload

end Setting

namespace Loop

variable (loop : Loop Payload Envelope)

@[simp]
def send (wires : List (Wire Payload Envelope)) : Loop Payload Envelope :=
  { loop with sent := loop.sent ++ wires }

@[simp]
def newShared (id : ReplayId) : Loop Payload Envelope :=
  { loop with
    abortFlag := update loop.abortFlag id false
    bufferedLiveCount := update loop.bufferedLiveCount id 0 }

/-- A store to the abort flag that the connection points to, if it points to one. -/
def storeAbort : Loop Payload Envelope :=
  match loop.conn.replayShared with
  | none => loop
  | some id => { loop with abortFlag := update loop.abortFlag id true }

def storeBufferedLive (count : Nat → Nat) : Loop Payload Envelope :=
  match loop.conn.replayShared with
  | none => loop
  | some id =>
    { loop with
      bufferedLiveCount :=
        update loop.bufferedLiveCount id (count (loop.bufferedLiveCount id)) }

@[simp]
def setBuffer (channel : String) (rows : List (EventRow Payload)) : Loop Payload Envelope :=
  { loop with
    conn := { loop.conn with liveBuffer := update loop.conn.liveBuffer channel rows } }

@[simp]
def setInFlight (channels : List String) (flag : Bool) : Loop Payload Envelope :=
  { loop with
    conn := { loop.conn with
      replayInFlight := fun channel =>
        if channels.contains channel then flag else loop.conn.replayInFlight channel } }

@[simp]
def handleBufferOverflow (channel : String) : Loop Payload Envelope :=
  (((loop.storeAbort.setBuffer channel []).storeBufferedLive fun _ => 0).send
    [.resync loop.conn.replayShared "live_buffer_overflow" (some 0)]).setInFlight [channel] false

def deliverToConn (setting : Setting Payload Envelope) (row : EventRow Payload) :
    Loop Payload Envelope :=
  if !loop.conn.connected then loop
  else if !loop.conn.channels.contains row.channel then loop
  else if !setting.deliveryRbacAllows loop.conn.authorityCurrent row.channel then loop
  else if !loop.conn.replayInFlight row.channel then loop.send [.live row]
  else if loop.conn.liveBufferCap ≤ (loop.conn.liveBuffer row.channel).length then
    loop.handleBufferOverflow row.channel
  else
    (loop.setBuffer row.channel (loop.conn.liveBuffer row.channel ++ [row])).storeBufferedLive
      (· + 1)

/-- The task of `post_replay_setup`. -/
def replaySetup (setting : Setting Payload Envelope) (id : ReplayId) (granted : List String) :
    Loop Payload Envelope :=
  Loop.setInFlight
    { loop with
      conn := { loop.conn with
        liveBufferCap := setting.liveBufferCap
        replayShared := some id } }
    granted true

def flushBuffer (setting : Setting Payload Envelope) (resyncFired : Bool) (channel : String) :
    Loop Payload Envelope :=
  if !resyncFired && loop.conn.authorityCurrent && setting.subscribeAllowed channel &&
      loop.conn.connected then
    (loop.send ((loop.conn.liveBuffer channel).map .live)).setBuffer channel []
  else loop.setBuffer channel []

def resetShared : Loop Payload Envelope :=
  { loop with conn := { loop.conn with replayShared := none } }

/-- The task of `post_replay_cleanup`. -/
def replayCleanup (setting : Setting Payload Envelope) (granted : List String)
    (resyncFired : Bool) : Loop Payload Envelope :=
  ((granted.foldl (fun loop channel => loop.flushBuffer setting resyncFired channel)
    loop).setInFlight granted false).resetShared

/-- The task of `build_send_fn`. -/
def sendFrame (id : ReplayId) (frame : Frame Envelope) : Loop Payload Envelope :=
  if loop.conn.connected && loop.conn.authorityCurrent then loop.send [.replayed id frame]
  else loop

@[simp]
def setChannels (channels : List String) : Loop Payload Envelope :=
  { loop with conn := { loop.conn with channels } }

/-- The task of `drain_ws_subscriptions_for_extension`. -/
def drainExtension (name : String) : Loop Payload Envelope :=
  loop.setChannels (loop.conn.channels.filter fun channel =>
    !channelBelongsToExtension channel name)

def run (setting : Setting Payload Envelope) : Task Payload Envelope → Loop Payload Envelope
  | .deliver row => loop.deliverToConn setting row
  | .setup id granted => loop.replaySetup setting id granted
  | .frame id frame => loop.sendFrame id frame
  | .cleanup _ granted resyncFired => loop.replayCleanup setting granted resyncFired
  | .drainExtension name => loop.drainExtension name

@[simp]
def onUnsubscribe (requested : List String) : Loop Payload Envelope :=
  if !loop.conn.authorityCurrent then loop
  else
    (loop.setChannels (loop.conn.channels.filter fun channel => !requested.contains channel)).send
      [.unsubscribed (requested.filter loop.conn.channels.contains).eraseDups]

@[simp]
def lapseAuthority : Loop Payload Envelope :=
  { loop with conn := { loop.conn with authorityCurrent := false } }

def rejectAuthority : Loop Payload Envelope :=
  let stopped := Loop.storeAbort
    { loop with conn := { loop.conn with authorityCurrent := false, liveBuffer := fun _ => [] } }
  if loop.conn.connected then
    stopped.send [.error "auth_failed" "Authentication must be renewed"]
  else stopped

@[simp]
def disconnect : Loop Payload Envelope :=
  Loop.storeAbort
    { loop with conn := { loop.conn with connected := false, authorityCurrent := false } }

end Loop

namespace State

variable (s : State Payload Envelope)

@[simp]
def queueInLoop (tasks : List (Task Payload Envelope)) : State Payload Envelope :=
  { s with queue := s.queue ++ tasks }

@[simp]
def setReplay (id : ReplayId) (replay : Replay Payload Envelope) : State Payload Envelope :=
  { s with replays := update s.replays id (some replay) }

/-- `fire_replay`. The coroutine runs up to its first query before `async_run` returns. -/
def fireReplay (setting : Setting Payload Envelope) (process : Process) (since : Nat)
    (granted : List String) : State Payload Envelope :=
  let id := s.started
  let request := setting.request since granted
  let next := { s with started := s.started + 1 }
  if !process.eventsEnabled then
    { next.setReplay id ⟨request, none, []⟩ with
      loop := s.loop.send
        [.resync (some id) "events_disabled" (some setting.cfg.retentionSeconds)] }
  else if !process.takesTasks then
    { next.setReplay id ⟨request, none, []⟩ with
      loop := s.loop.send [.resync (some id) "server_shutting_down" none] }
  else
    let (phase, frames) := request.start process.hasClient
    State.queueInLoop
      { next.setReplay id ⟨request, some phase, frames⟩ with loop := s.loop.newShared id }
      (.setup id granted :: frames.map (.frame id))

def onSubscribe (setting : Setting Payload Envelope) (requested : List String)
    (claim : SinceClaim) (process : Process) : State Payload Envelope :=
  if !s.loop.conn.authorityCurrent then s
  else
    match extractSinceSeq claim with
    | .error code =>
      { s with loop := s.loop.send [.error code "since_seq must be a non-negative integer"] }
    | .ok since =>
      let (granted, channels) := setting.grant s.loop.conn.channels requested
      let registered := s.loop.setChannels channels
      match since with
      | none => { s with loop := registered.send [.subscribed none granted] }
      | some since =>
        State.fireReplay
          { s with loop := registered.send [.subscribed (some s.started) granted] }
          setting process since granted

/-- A replay goes on by one phase, or posts its cleanup once `run_replay` has returned. -/
def resumeReplay (id : ReplayId) (answers : Bool) : Option (State Payload Envelope) :=
  match s.replays id with
  | none => none
  | some replay =>
    match replay.phase with
    | none => none
    | some (.returned result) =>
      some ((s.setReplay id { replay with phase := none }).queueInLoop
        [.cleanup id replay.request.grantedChannels (result.aborted || result.resync.isSome)])
    | some phase =>
      let (next, frames) := replay.request.resume s.table answers (s.loop.abortFlag id)
        (s.loop.bufferedLiveCount id) phase
      some ((s.setReplay id ⟨replay.request, some next, replay.emitted ++ frames⟩).queueInLoop
        (frames.map (.frame id)))

def exec (setting : Setting Payload Envelope) : Label Payload → Option (State Payload Envelope)
  | .commit row =>
    if s.unpublished.isNone && s.lastSeq < row.seq then
      some { s with
        table := s.table ++ [row]
        lastSeq := row.seq
        unpublished := some row }
    else none
  | .publish =>
    s.unpublished.map fun row => State.queueInLoop { s with unpublished := none } [.deliver row]
  | .prune count => some { s with table := s.table.drop count }
  | .subscribe requested claim process =>
    if s.loop.conn.connected then some (s.onSubscribe setting requested claim process) else none
  | .unsubscribe requested =>
    if s.loop.conn.connected then some { s with loop := s.loop.onUnsubscribe requested }
    else none
  | .drain name => some (s.queueInLoop [.drainExtension name])
  | .runTask =>
    match s.queue with
    | [] => none
    | task :: rest => some { s with queue := rest, loop := s.loop.run setting task }
  | .resume id answers => s.resumeReplay id answers
  | .lapseAuthority => some { s with loop := s.loop.lapseAuthority }
  | .rejectAuthority => some { s with loop := s.loop.rejectAuthority }
  | .disconnect => some { s with loop := s.loop.disconnect }

structure IsNew : Prop where
  ordered : Core.Cursor.Ordered rowSeq s.table
  bounded : ∀ row ∈ s.table, row.seq ≤ s.lastSeq
  unpublished : s.unpublished = none
  queue : s.queue = []
  started : s.started = 0
  replays : s.replays = fun _ => none
  sent : s.loop.sent = []
  channels : s.loop.conn.channels = []
  replayInFlight : s.loop.conn.replayInFlight = fun _ => false
  liveBuffer : s.loop.conn.liveBuffer = fun _ => []
  replayShared : s.loop.conn.replayShared = none

end State

def connection (setting : Setting Payload Envelope) :
    Core.TransitionSystem (State Payload Envelope) (Label Payload) where
  initial := State.IsNew
  step s label next := s.exec setting label = some next

def adminSetting : Setting String String where
  identity := ⟨true, []⟩
  rbacEnforced := true
  maxSubscriptionsPerConn := 100
  cfg := ⟨604800, 10, 100, Nat.succ_pos 9⟩
  liveBufferCap := 256
  parsePayload := some

def emptyConnection : State String String where
  table := []
  lastSeq := 0
  unpublished := none
  queue := []
  started := 0
  replays := fun _ => none
  loop := {
    conn := ⟨true, true, [], fun _ => false, fun _ => [], 256, none⟩
    abortFlag := fun _ => false
    bufferedLiveCount := fun _ => 0
    sent := [] }

theorem emptyConnection_isNew : emptyConnection.IsNew :=
  ⟨by simp [Core.Cursor.Ordered, emptyConnection], by simp [emptyConnection], rfl, rfl, rfl, rfl,
    rfl, rfl, rfl, rfl, rfl⟩

def contacts : String := "plinth:data:ext_crm.contacts"

def resubscribe : Label String := .subscribe [contacts] (.integral 0) ⟨true, true, true⟩

def play (labels : List (Label String)) : Option (State String String) :=
  Core.TransitionSystem.replay (fun s label => s.exec adminSetting label) emptyConnection labels

theorem reachable_of_play {labels : List (Label String)} {s : State String String}
    (played : play labels = some s) : (connection adminSetting).Reachable s :=
  ⟨emptyConnection, labels, emptyConnection_isNew, .of_replay (fun step => step) played⟩

end Plinth.Ws
