import Plinth.Ws.ConnectionInvariants

/-!
# Subscription accounting

Model of the counter `g_total_subscriptions` of `ws/publish.cpp` over any number of connections.
Each of them takes its own steps, in any order, and a step that inserts or erases channels notes
how many. A connection that opens later takes no step before.
-/

namespace Plinth.Ws

open Realtime Realtime.Replay List

variable {Payload Envelope : Type}

def Setting.added (setting : Setting Payload Envelope) (channels : List String) : List String → Nat
  | [] => 0
  | channel :: requested =>
    if channels.contains channel then setting.added channels requested
    else if setting.maxSubscriptionsPerConn ≤ channels.length then
      setting.added channels requested
    else if !setting.subscribeAllowed channel then setting.added channels requested
    else setting.added (channels ++ [channel]) requested + 1

structure Peer (Payload Envelope : Type) where
  setting : Setting Payload Envelope
  state : State Payload Envelope

namespace Peer

variable (peer : Peer Payload Envelope)

def live : Bool := peer.state.loop.conn.connected

def channels : List String := peer.state.loop.conn.channels

/-- What a step passes to `note_subscriptions_added`, or to `note_subscriptions_removed` with the
sign changed. -/
def noted : Label Payload → Int
  | .subscribe requested claim _ =>
    if !peer.state.loop.conn.authorityCurrent then 0
    else
      match extractSinceSeq claim with
      | .error _ => 0
      | .ok _ => peer.setting.added peer.channels requested
  | .unsubscribe requested =>
    if !peer.state.loop.conn.authorityCurrent then 0
    else -peer.channels.countP requested.contains
  | .runTask =>
    match peer.state.queue with
    | .drainExtension name :: _ =>
      -peer.channels.countP fun channel => channelBelongsToExtension channel name
    | _ => 0
  | .disconnect => -peer.channels.length
  | _ => 0

/-- `handleConnectionClosed` drops the context, and the channels go with it. -/
def exec : Label Payload → Option (Peer Payload Envelope)
  | .disconnect =>
    some { peer with
      state := { peer.state with loop := peer.state.loop.disconnect.setChannels [] } }
  | label => (peer.state.exec peer.setting label).map fun state => { peer with state }

def held : Nat := if peer.live then peer.channels.length else 0

def quota : Nat := if peer.live then peer.setting.maxSubscriptionsPerConn else 0

structure Sound : Prop where
  nodup : peer.channels.Nodup
  bounded : peer.channels.length ≤ peer.setting.maxSubscriptionsPerConn
  closed : peer.live = false → peer.channels = []

end Peer

structure Server (Payload Envelope : Type) where
  peers : List (Peer Payload Envelope)
  totalSubscriptions : Int

namespace Server

def exec (s : Server Payload Envelope) : Nat × Label Payload → Option (Server Payload Envelope)
  | (index, label) => s.peers[index]?.bind fun peer => (peer.exec label).map fun next =>
    ⟨s.peers.set index next, s.totalSubscriptions + peer.noted label⟩

structure IsNew (s : Server Payload Envelope) : Prop where
  peers : ∀ peer ∈ s.peers, peer.channels = []
  totalSubscriptions : s.totalSubscriptions = 0

end Server

def server : Core.TransitionSystem (Server Payload Envelope) (Nat × Label Payload) where
  initial := Server.IsNew
  step s label next := s.exec label = some next

theorem Setting.grant_added (setting : Setting Payload Envelope) {channels : List String}
    (requested : List String) (nodup : channels.Nodup)
    (bounded : channels.length ≤ setting.maxSubscriptionsPerConn) :
    (setting.grant channels requested).2.Nodup ∧
      (setting.grant channels requested).2.length ≤ setting.maxSubscriptionsPerConn ∧
      (setting.grant channels requested).2.length =
        channels.length + setting.added channels requested := by
  induction requested generalizing channels with
  | nil => exact ⟨nodup, bounded, rfl⟩
  | cons channel requested ih =>
    simp only [grant, added]
    split
    · exact ih nodup bounded
    rename_i absent
    split
    · exact ih nodup bounded
    rename_i below
    split
    · exact ih nodup bounded
    · have longer : (channels ++ [channel]).Nodup := by
        simpa [nodup_append, nodup] using fun a mem (same : a = channel) =>
          absent (by simpa [same] using mem)
      have fits := ih longer (by simp; omega)
      refine ⟨fits.1, fits.2.1, ?_⟩
      rw [fits.2.2, length_append, length_singleton]
      omega

namespace Loop

/-- A step that erases channels, and sends nothing if the connection is closed. -/
structure Erases (gone : String → Bool) (loop next : Loop Payload Envelope) : Prop where
  connected : next.conn.connected = loop.conn.connected
  channels : next.conn.channels = loop.conn.channels.filter fun channel => !gone channel
  sent : loop.conn.connected = false → next.sent = loop.sent

variable {loop next : Loop Payload Envelope} {setting : Setting Payload Envelope}

theorem Erases.none (connected : next.conn.connected = loop.conn.connected)
    (channels : next.conn.channels = loop.conn.channels)
    (sent : loop.conn.connected = false → next.sent = loop.sent) :
    Erases (fun _ => false) loop next :=
  ⟨connected, by simp [channels], sent⟩

/-- A task erases the channels of a drained extension only. -/
theorem run_erases (task : Task Payload Envelope) : Erases
      (match task with
        | .drainExtension name => fun channel => channelBelongsToExtension channel name
        | _ => fun _ => false)
      loop (loop.run setting task) := by
  have sent : loop.conn.connected = false → (loop.run setting task).sent = loop.sent :=
    fun closed => run_sent_of_dead (by simp [closed]) task
  cases task with
  | deliver row =>
    refine .none (run_connected _) ?_ sent
    have delivers := deliverToConn_delivers setting loop row
    simp only [run]
    generalize loop.deliverToConn setting row = next at delivers
    cases delivers <;> simp
  | frame id frame =>
    refine .none (run_connected _) ?_ sent
    simp only [run, sendFrame]
    split <;> rfl
  | cleanup id granted fired =>
    rcases foldl_flushed setting fired granted loop with ⟨rows, flushed⟩
    exact .none (run_connected _) flushed.channels sent
  | setup => exact .none rfl rfl sent
  | drainExtension => exact ⟨rfl, rfl, sent⟩

theorem rejectAuthority_erases : Erases (fun _ => false) loop loop.rejectAuthority := by
  simp only [rejectAuthority]
  split
  · rename_i connected
    exact .none (by simp) (by simp) (by simp [connected])
  · exact .none (by simp) (by simp) (by simp)

end Loop

theorem State.fireReplay_conn (s : State Payload Envelope) (setting : Setting Payload Envelope)
    (process : Process) (since : Nat) (granted : List String) :
    (s.fireReplay setting process since granted).loop.conn = s.loop.conn := by
  simp only [fireReplay]
  split
  · rfl
  split <;> rfl

theorem State.onSubscribe_conn {s : State Payload Envelope}
    (setting : Setting Payload Envelope) (requested : List String) {claim : SinceClaim}
    (process : Process) {since : Option Nat} (current : s.loop.conn.authorityCurrent = true)
    (claims : extractSinceSeq claim = .ok since) :
    (s.onSubscribe setting requested claim process).loop.conn = { s.loop.conn with
      channels := (setting.grant s.loop.conn.channels requested).2 } := by
  cases since with
  | none => simp [onSubscribe, current, claims]
  | some since =>
    simp [onSubscribe, current, claims, fireReplay_conn]

namespace Peer

variable {peer next : Peer Payload Envelope} {label : Label Payload}

/-- What a step does to the channels of a connection, and that a closed one stays as it is. -/
structure Moved (peer : Peer Payload Envelope) (label : Label Payload)
    (next : Peer Payload Envelope) : Prop where
  sound : next.Sound
  length : (next.channels.length : Int) = peer.channels.length + peer.noted label
  closed : peer.live = false → next.live = false ∧ next.state.loop.sent = peer.state.loop.sent

theorem Sound.held_eq (sound : peer.Sound) : peer.held = peer.channels.length := by
  rw [held]
  split
  · rfl
  · rename_i closed
    rw [sound.closed (by simpa using closed), length_nil]

/-- No peer holds more than its quota. -/
theorem Sound.held_le (sound : peer.Sound) : peer.held ≤ peer.quota := by
  rw [held, quota]
  split
  · exact sound.bounded
  · exact le_rfl

section

variable (sound : peer.Sound) {state : State Payload Envelope}
include sound

theorem Sound.erases {gone : String → Bool} (erases : peer.state.loop.Erases gone state.loop)
    (noted : peer.noted label = -peer.channels.countP gone) :
    Moved peer label { peer with state } := by
  have sublist : state.loop.conn.channels.Sublist peer.channels := by
    rw [erases.channels]
    exact filter_sublist
  refine ⟨⟨sound.nodup.sublist sublist, sublist.length_le.trans sound.bounded, ?_⟩, ?_, ?_⟩
  · intro closed
    rw [sound.closed (erases.connected.symm.trans closed)] at sublist
    exact sublist_nil.mp sublist
  · have count := @length_eq_countP_add_countP _ gone peer.channels
    simp only [noted, channels, erases.channels, ← countP_eq_length_filter, Bool.not_eq_true,
      Bool.decide_eq_false] at count ⊢
    omega
  · intro closed
    exact ⟨erases.connected.trans closed, erases.sent closed⟩

theorem Sound.same (loop : state.loop = peer.state.loop) (noted : peer.noted label = 0) :
    Moved peer label { peer with state } :=
  sound.erases (.none (by rw [loop]) (by rw [loop]) fun _ => by rw [loop]) (by simp [noted])

/-- A subscription notes the channels it adds. -/
theorem Sound.subscribe {requested : List String} {claim : SinceClaim} {process : Process}
    (live : peer.live = true) :
    Moved peer (.subscribe requested claim process)
      { peer with state := peer.state.onSubscribe peer.setting requested claim process } := by
  cases current : peer.state.loop.conn.authorityCurrent with
  | false => exact sound.same (by simp [State.onSubscribe, current]) (by simp [noted, current])
  | true =>
    cases claims : extractSinceSeq claim with
    | error code =>
      simp only [State.onSubscribe, current, claims]
      exact sound.erases (.none rfl rfl fun closed => absurd live (by simp [Peer.live, closed]))
        (by simp [noted, current, claims])
    | ok since =>
      have conn := State.onSubscribe_conn peer.setting requested process current claims
      rcases peer.setting.grant_added requested sound.nodup sound.bounded with
        ⟨nodup, bounded, length⟩
      refine ⟨⟨?_, ?_, ?_⟩, ?_, ?_⟩
      · simpa only [channels, conn] using nodup
      · simpa only [channels, conn] using bounded
      · simpa [Peer.live, conn] using fun closed => absurd live (by simpa [Peer.live] using closed)
      · have grown := congrArg (Nat.cast : Nat → Int) length
        simpa [channels, conn, noted, current, claims] using grown
      · simp [live]

theorem Sound.step (step : peer.exec label = some next) : Moved peer label next := by
  by_cases closes : label = .disconnect
  · subst closes
    cases step
    refine ⟨⟨nodup_nil, Nat.zero_le _, fun _ => rfl⟩, ?_, ?_⟩
    · simp [noted, channels]
    · simp [live]
  rw [exec.eq_2 _ _ closes] at step
  rcases Option.map_eq_some_iff.mp step with ⟨state, moved, rfl⟩
  cases State.exec_steps moved with
  | commit | publish | prune | drain | resume => exact sound.same rfl rfl
  | @subscribe requested claim process =>
    rcases Core.of_guard moved with ⟨connected, rfl⟩
    exact sound.subscribe connected
  | unsubscribe requested =>
    have connected := (Core.of_guard moved).1
    cases current : peer.state.loop.conn.authorityCurrent with
    | false => exact sound.same (by simp [current]) (by simp [noted, current])
    | true =>
      refine sound.erases ⟨?_, ?_, fun closed => ?_⟩ (by simp only [noted, current]; rfl)
      · simp [current]
      · simp [current]
      · rw [closed] at connected
        cases connected
  | @runTask task rest queue =>
    refine sound.erases (Loop.run_erases task) ?_
    cases task <;> simp [noted, queue]
  | rejectAuthority => exact sound.erases Loop.rejectAuthority_erases (by simp [noted])
  | lapseAuthority => exact sound.erases (.none rfl rfl fun _ => rfl) (by simp [noted])
  | disconnect => exact absurd rfl closes

end

end Peer

namespace Server

variable {s t : Server Payload Envelope} {index : Nat} {label : Label Payload}

structure Accounted (s : Server Payload Envelope) : Prop where
  peers : ∀ peer ∈ s.peers, peer.Sound
  total : s.totalSubscriptions = (s.peers.map Peer.held).sum

theorem IsNew.accounted (new : s.IsNew) : s.Accounted := by
  have none : ∀ peer ∈ s.peers, peer.held = 0 := by
    intro peer mem
    simp [Peer.held, new.peers peer mem]
  constructor
  · intro peer mem
    have empty := new.peers peer mem
    exact ⟨by simp [empty], by simp [empty], fun _ => empty⟩
  · rw [new.totalSubscriptions, map_congr_left none]
    simp

theorem Accounted.step (accounted : s.Accounted) (step : s.exec (index, label) = some t) :
    t.Accounted := by
  rcases Option.bind_eq_some_iff.mp step with ⟨peer, found, moves⟩
  rcases Option.map_eq_some_iff.mp moves with ⟨next, isNext, rfl⟩
  rcases List.getElem?_eq_some_iff.mp found with ⟨bound, rfl⟩
  have sound := accounted.peers _ (getElem_mem bound)
  have moved := sound.step isNext
  constructor
  · intro other mem
    rcases mem_or_eq_of_mem_set mem with old | rfl
    · exact accounted.peers other old
    · exact moved.sound
  · rcases @exists_of_set _ index next s.peers bound with ⟨before, after, isPeers, -, isSet⟩
    have total := accounted.total
    have length := moved.length
    rw [← sound.held_eq, ← moved.sound.held_eq] at length
    rw [isPeers] at total
    simp only [isSet, map_append, map_cons, sum_append, sum_cons, Int.natCast_add] at total ⊢
    omega

end Server

/-- In every run the counter is the number of channels that the live connections hold, which is
within their quotas; a closed connection holds no channel, stays closed and gets no frame. -/
theorem subscriptions_accounted {start s : Server Payload Envelope}
    {labels : List (Nat × Label Payload)} (new : start.IsNew) (run : server.Run start labels s) :
    s.totalSubscriptions = (s.peers.map Peer.held).sum ∧ 0 ≤ s.totalSubscriptions ∧
      (∀ peer ∈ s.peers, peer.held ≤ peer.quota) ∧
      s.totalSubscriptions ≤ (s.peers.map Peer.quota).sum ∧
      ∀ peer ∈ s.peers, peer.live = false → peer.channels = [] ∧
        ∀ label next, peer.exec label = some next →
          next.live = false ∧ next.state.loop.sent = peer.state.loop.sent := by
  have accounted := run.preserves Server.Accounted (fun holds step => holds.step step) new.accounted
  have within : ∀ peer ∈ s.peers, peer.held ≤ peer.quota := fun peer mem =>
    (accounted.peers peer mem).held_le
  refine ⟨accounted.total, ?_, within, ?_, ?_⟩
  · rw [accounted.total]
    exact Int.natCast_nonneg _
  · rw [accounted.total]
    exact Int.ofNat_le.mpr (sum_le_sum within)
  · intro peer mem closed
    have sound := accounted.peers peer mem
    exact ⟨sound.closed closed, fun label next step => (sound.step step).closed closed⟩

def twoPeers : Server String String where
  peers := [⟨adminSetting, emptyConnection⟩, ⟨adminSetting, emptyConnection⟩]
  totalSubscriptions := 0

def twoPeersLabels : List (Nat × Label String) :=
  [(0, .subscribe ["a", "b", "a"] .absent ⟨true, true, true⟩),
    (1, .subscribe ["a"] .absent ⟨true, true, true⟩), (0, .unsubscribe ["b", "c"]),
    (1, .disconnect)]

theorem twoPeers_accounted :
    ∃ s, server.Run twoPeers twoPeersLabels s ∧ s.totalSubscriptions = 1 := by
  have run := @Core.TransitionSystem.Run.of_replay _ _ server twoPeers _ twoPeersLabels
    Server.exec id rfl
  have new : twoPeers.IsNew := ⟨by simp [twoPeers, Peer.channels, emptyConnection], rfl⟩
  exact ⟨_, run, (subscriptions_accounted new run).1⟩

end Plinth.Ws
