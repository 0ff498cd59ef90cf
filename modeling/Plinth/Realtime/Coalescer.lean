import Plinth.Core.Table
import Plinth.Core.Transition

/-!
# The write coalescer

Model of `realtime/coalescer.cpp`. Writes of extensions accumulate in one window per table, which a
timer, a drain or the shutdown claims and emits as one envelope; writes of a batch accumulate in the
buckets of its scope.

A step is one section under `g_mu` or `g_scope_mu`, one access to an atomic variable, or the
emission of one envelope. `record_write` tests `g_shutting_down` before it locks the map, so these
are two steps. Cancelling a timer only asks its loop to forget it; here a timer that was set may
always fire as long as the loop runs.
-/

namespace Plinth.Realtime.Coalescer

inductive OpKind where
  | insert
  | update
  | delete
  deriving DecidableEq

inductive NotifyError where
  | missingLayer
  | invalidChannel
  | layerMismatch
  | payloadTooLarge
  | pgFailure

structure WindowKey where
  schema : String
  table : String
  deriving DecidableEq

structure WindowState where
  schema : String
  table : String
  insertRows : Nat := 0
  updateRows : Nat := 0
  deleteRows : Nat := 0
  extensionName : String
  notifyCount : Nat := 0
  windowOpenTsMs : Int
  deriving DecidableEq

structure Write where
  schema : String
  table : String
  opKind : OpKind
  rowCount : Nat
  extensionName : String
  batchScopeId : Nat

namespace Write

def key (write : Write) : WindowKey := ⟨write.schema, write.table⟩

def opens (write : Write) (now : Int) : WindowState where
  schema := write.schema
  table := write.table
  extensionName := write.extensionName
  windowOpenTsMs := now

end Write

namespace WindowState

variable (w : WindowState) (write : Write)

def key : WindowKey := ⟨w.schema, w.table⟩

def rows : OpKind → Nat
  | .insert => w.insertRows
  | .update => w.updateRows
  | .delete => w.deleteRows

def add : WindowState :=
  match write.opKind with
  | .insert =>
    { w with insertRows := w.insertRows + write.rowCount, notifyCount := w.notifyCount + 1 }
  | .update =>
    { w with updateRows := w.updateRows + write.rowCount, notifyCount := w.notifyCount + 1 }
  | .delete =>
    { w with deleteRows := w.deleteRows + write.rowCount, notifyCount := w.notifyCount + 1 }

@[simp]
theorem key_add : (w.add write).key = w.key := by
  simp only [add]
  split <;> rfl

theorem rows_add (op : OpKind) :
    (w.add write).rows op = w.rows op + if write.opKind = op then write.rowCount else 0 := by
  simp only [add]
  split <;> rename_i kind <;> cases op <;> simp [rows, kind]

end WindowState

@[simp]
theorem Write.key_opens (write : Write) (now : Int) : (write.opens now).key = write.key := rfl

@[simp]
theorem Write.rows_opens (write : Write) (now : Int) (op : OpKind) :
    (write.opens now).rows op = 0 := by
  cases op <;> rfl

abbrev WindowMap := Core.Table WindowState WindowKey WindowState.key

structure Scope where
  id : Nat
  buckets : WindowMap

structure Envelope where
  layer : String
  channel : String
  schema : String
  table : String
  ops : OpKind → Nat
  windowMs : Nat
  coalescedCount : Nat
  windowOpenTsMs : Int
  windowCloseTsMs : Int
  supersededSeqs : Option (List Nat)
  truncated : Bool

def Envelope.key (env : Envelope) : WindowKey := ⟨env.schema, env.table⟩

/-- The configuration, the size of an envelope as JSON and its ceiling. -/
structure Setting where
  enabled : Bool
  windowMs : Nat
  emitSupersededSeqs : Bool
  sizeOf : Envelope → Nat
  maxPayloadBytes : Nat

def buildEnvelope (w : WindowState) (windowMs : Nat) (truncated emitSupersededSeqs : Bool) :
    Envelope where
  layer := "data"
  channel := "plinth:data:" ++ w.schema ++ "." ++ w.table
  schema := w.schema
  table := w.table
  ops := w.rows
  windowMs := windowMs
  coalescedCount := if w.notifyCount = 0 then 1 else w.notifyCount
  windowOpenTsMs := w.windowOpenTsMs
  windowCloseTsMs := w.windowOpenTsMs + windowMs
  supersededSeqs := if emitSupersededSeqs then some [] else none
  truncated := truncated

variable (setting : Setting)

/-- `flush_snapshot`, where `result` is what the emission would return. An envelope has no
`ids` that could be dropped to make it smaller. -/
def flushSnapshot (w : WindowState) (windowMsOverride : Option Nat)
    (result : Except NotifyError Unit) : Except NotifyError Envelope :=
  let env := buildEnvelope w (windowMsOverride.getD setting.windowMs) false
    setting.emitSupersededSeqs
  if setting.sizeOf env ≤ setting.maxPayloadBytes then
    match result with
    | .ok _ => .ok env
    | .error e => .error e
  else .error .payloadTooLarge

/-- The registry's variables. The last four fields record the writes that were counted, the
envelopes that were emitted, and the windows that were discarded or lost with a failed flush. -/
structure Shared where
  windows : WindowMap
  scopes : Core.Table Scope Nat Scope.id
  running : Bool
  shuttingDown : Bool
  discardedFlushFailed : Bool
  timers : List WindowKey
  accepted : List Write
  emitted : List Envelope
  discarded : List WindowState
  failed : List WindowState

/-- What a step finds outside of the registry: the result of an emission, whether the deadline
has passed, and the order in which a map is iterated. -/
structure Choice where
  result : Except NotifyError Unit := .ok ()
  expired : Bool := false
  order : List WindowState := []

/-- Where a call that flushes windows is: a timer callback, `drain_extension` or
`flush_batch_scope`. -/
inductive Flusher where
  /-- Before the section that lists the windows of an extension. -/
  | listing (extensionName : String)
  /-- Before `claim_window` for the first of these keys. -/
  | claiming (keys : List WindowKey)
  /-- Before the emission of a window that was claimed. -/
  | flushing (w : WindowState) (next : Flusher)
  /-- Before the emission of the first of these buckets. -/
  | emitting (buckets : List WindowState)
  /-- Before the store to `g_discarded_flush_failed`. -/
  | failing (next : Flusher)
  deriving DecidableEq

/-- The loop of the timers: not there, waiting, or in a callback. -/
inductive LoopThread where
  | stopped
  | idle
  | runs (callback : Flusher)
  deriving DecidableEq

/-- Where the `shutdown` that holds `g_lifecycle_mu` is. -/
inductive ShutdownPhase where
  | begins
  | setsFlag
  | disables
  | joins
  | checksDeadline
  | drains
  | flushing (drained : List WindowState)
  | restoring (drained : List WindowState)
  | readsFlag
  deriving DecidableEq

structure Return where
  value : Bool
  failed : List WindowState
  windows : List WindowState

/-- The registry with the calls under way: writes that have passed the test of `record_write`,
flushes, the timer callback and the shutdown. -/
structure Registry where
  shared : Shared
  loop : LoopThread
  writes : List Write
  flushers : List Flusher
  shutdown : Option ShutdownPhase
  returns : List Return

namespace Shared

variable (s : Shared)

/-- The section of `record_write` under `g_mu`. -/
def recordWindow (write : Write) (now : Int) (hasLoop : Bool) : Shared :=
  match s.windows.find? write.key with
  | none =>
    if write.rowCount = 0 then s
    else
      { s with
        windows := s.windows.upsert ((write.opens now).add write)
        timers := if hasLoop then s.timers ++ [write.key] else s.timers
        accepted := s.accepted ++ [write] }
  | some w =>
    if write.rowCount = 0 then s
    else
      { s with
        windows := s.windows.upsert (w.add write)
        accepted := s.accepted ++ [write] }

def bucketsOf (id : Nat) : WindowMap :=
  match s.scopes.find? id with
  | none => .empty
  | some scope => scope.buckets

/-- The section of `record_write` under `g_scope_mu`. -/
def recordBucket (write : Write) (now : Int) : Shared :=
  let buckets := s.bucketsOf write.batchScopeId
  let w := (buckets.find? write.key).getD (write.opens now)
  { s with
    scopes := s.scopes.upsert ⟨write.batchScopeId, buckets.upsert (w.add write)⟩
    accepted := s.accepted ++ [write] }

def claimWindow (key : WindowKey) : Option WindowState × Shared :=
  match s.windows.find? key with
  | none => (none, s)
  | some w => (some w, { s with windows := s.windows.erase key })

def emit (env : Envelope) : Shared := { s with emitted := s.emitted ++ [env] }

def lose (w : WindowState) : Shared := { s with failed := s.failed ++ [w] }

end Shared

/-- The next step of a flush: what is left of the call, if it does not return, and the
registry after the step. -/
def Flusher.step (choice : Choice) (s : Shared) : Flusher → Option (Option Flusher × Shared)
  | .listing name =>
    if choice.order.Perm s.windows.rows then
      some (some (.claiming
        ((choice.order.filter fun w => w.extensionName = name).map WindowState.key)), s)
    else none
  | .claiming [] => some (none, s)
  | .claiming (key :: keys) =>
    match s.claimWindow key with
    | (none, after) => some (some (.claiming keys), after)
    | (some w, after) => some (some (.flushing w (.claiming keys)), after)
  | .flushing w next =>
    match flushSnapshot setting w none choice.result with
    | .ok env => some (some next, s.emit env)
    | .error _ => some (some (.failing next), s.lose w)
  | .emitting [] => some (none, s)
  | .emitting (w :: buckets) =>
    match flushSnapshot setting w (some 0) choice.result with
    | .ok env => some (some (.emitting buckets), s.emit env)
    | .error _ => some (some (.failing (.emitting buckets)), s.lose w)
  | .failing next => some (some next, { s with discardedFlushFailed := true })

def Flusher.held : Flusher → List WindowState
  | .flushing w next => w :: next.held
  | .emitting buckets => buckets
  | .failing next => next.held
  | _ => []

def Flusher.claimed : Flusher → List WindowState
  | .flushing w next => w :: next.claimed
  | .failing next => next.claimed
  | _ => []

def Flusher.isFailing : Flusher → Bool
  | .failing _ => true
  | _ => false

def LoopThread.callbacks : LoopThread → List Flusher
  | .runs callback => [callback]
  | _ => []

inductive ShutdownNext where
  | goes (phase : ShutdownPhase)
  | returns (value : Bool)

def ShutdownPhase.step (choice : Choice) (loop : LoopThread) (s : Shared) :
    ShutdownPhase → Option (ShutdownNext × LoopThread × Shared)
  | .begins => some (.goes (if s.running then .setsFlag else .readsFlag), loop, s)
  | .setsFlag =>
    some (.goes (if setting.enabled then .joins else .disables), loop,
      { s with shuttingDown := true })
  | .disables => some (.returns true, loop, { s with running := false })
  | .joins =>
    -- Joining waits for the callback that runs.
    match loop with
    | .runs _ => none
    | _ => some (.goes .checksDeadline, .stopped, s)
  | .checksDeadline => some (if choice.expired then .returns false else .goes .drains, loop, s)
  | .drains =>
    if choice.order.Perm s.windows.rows then
      some (.goes (.flushing choice.order), loop, { s with windows := .empty })
    else none
  | .flushing [] => some (.goes .readsFlag, loop, { s with running := false })
  | .flushing (w :: drained) =>
    if choice.expired then some (.goes (.restoring (w :: drained)), loop, s)
    else
      match flushSnapshot setting w none choice.result with
      | .ok env => some (.goes (.flushing drained), loop, s.emit env)
      | .error _ => some (.goes (.restoring (w :: drained)), loop, s)
  | .restoring drained =>
    some (.returns false, loop, { s with windows := drained.foldl Core.Table.upsert s.windows })
  | .readsFlag => some (.returns (!s.discardedFlushFailed), loop, s)

def ShutdownPhase.held : ShutdownPhase → List WindowState
  | .flushing drained => drained
  | .restoring drained => drained
  | _ => []

inductive Label where
  /-- `record_write` tests the flags. -/
  | recordWrite (write : Write)
  /-- A write that has passed the test is counted. -/
  | lockWrite (index : Nat) (now : Int)
  | fireTimer (index : Nat)
  | loopStep (choice : Choice)
  | drainExtension (name : String)
  | flushBatchScope (id : Nat) (order : List WindowState)
  | discardBatchScope (id : Nat)
  | flusherStep (index : Nat) (choice : Choice)
  | shutdown
  | shutdownStep (choice : Choice)

namespace Registry

variable (s : Registry)

@[simp]
def calls : List Flusher := s.loop.callbacks ++ s.flushers

/-- The windows of no batch that have not been emitted, restored or lost: those in the map and
those that a call has claimed. -/
def openWindows : List WindowState :=
  s.shared.windows.rows ++ s.calls.flatMap Flusher.claimed

def exec (setting : Setting) : Label → Option Registry
  | .recordWrite write =>
    if !setting.enabled || s.shared.shuttingDown then some s
    else if write.batchScopeId ≠ 0 && write.rowCount = 0 then some s
    else some { s with writes := s.writes ++ [write] }
  | .lockWrite index now =>
    s.writes[index]?.map fun write =>
      { s with
        writes := s.writes.eraseIdx index
        shared :=
          if write.batchScopeId ≠ 0 then s.shared.recordBucket write now
          else s.shared.recordWindow write now (s.loop ≠ .stopped) }
  | .fireTimer index =>
    match s.loop, s.shared.timers[index]? with
    | .idle, some key =>
      some { s with
        loop := .runs (.claiming [key])
        shared := { s.shared with timers := s.shared.timers.eraseIdx index } }
    | _, _ => none
  | .loopStep choice =>
    match s.loop with
    | .runs callback =>
      (callback.step setting choice s.shared).map fun (next, shared) =>
        { s with
          loop := match next with
            | none => .idle
            | some next => .runs next
          shared }
    | _ => none
  | .drainExtension name =>
    if s.shared.running then some { s with flushers := s.flushers ++ [.listing name] }
    else some s
  | .flushBatchScope id order =>
    if id = 0 then some s
    else
      match s.shared.scopes.find? id with
      | none => some s
      | some scope =>
        if order.Perm scope.buckets.rows then
          some { s with
            flushers := s.flushers ++ [.emitting order]
            shared := { s.shared with scopes := s.shared.scopes.erase id } }
        else none
  | .discardBatchScope id =>
    if id = 0 then some s
    else
      match s.shared.scopes.find? id with
      | none => some s
      | some scope =>
        some { s with
          shared := { s.shared with
            scopes := s.shared.scopes.erase id
            discarded := s.shared.discarded ++ scope.buckets.rows } }
  | .flusherStep index choice =>
    match s.flushers[index]? with
    | none => none
    | some flusher =>
      (flusher.step setting choice s.shared).map fun (next, shared) =>
        { s with
          flushers := match next with
            | none => s.flushers.eraseIdx index
            | some next => s.flushers.set index next
          shared }
  | .shutdown => if s.shutdown.isNone then some { s with shutdown := some .begins } else none
  | .shutdownStep choice =>
    match s.shutdown with
    | none => none
    | some phase =>
      (phase.step setting choice s.loop s.shared).map fun (next, loop, shared) =>
        match next with
        | .goes phase => { s with loop, shared, shutdown := some phase }
        | .returns value =>
          { s with
            loop
            shared
            shutdown := none
            returns := s.returns ++ [⟨value, shared.failed,
              Registry.openWindows { s with loop, shared }⟩] }

structure IsStarted (setting : Setting) : Prop where
  windows : s.shared.windows.rows = []
  scopes : s.shared.scopes.rows = []
  running : s.shared.running = true
  shuttingDown : s.shared.shuttingDown = false
  discardedFlushFailed : s.shared.discardedFlushFailed = false
  accepted : s.shared.accepted = []
  emitted : s.shared.emitted = []
  discarded : s.shared.discarded = []
  failed : s.shared.failed = []
  loop : s.loop = if setting.enabled then .idle else .stopped
  writes : s.writes = []
  flushers : s.flushers = []
  shutdown : s.shutdown = none
  returns : s.returns = []

end Registry

def registry : Core.TransitionSystem Registry Label where
  initial s := s.IsStarted setting
  step s label next := s.exec setting label = some next

end Plinth.Realtime.Coalescer
