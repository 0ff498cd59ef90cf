import Plinth.Rbac.EffectiveRules
import Plinth.Ws.Connection

/-!
# The authority of a WebSocket connection

Model of `ws/authority.cpp` and of the part of `ws/auth_flow.cpp` that it serves, around the
connection of `Plinth.Ws.Connection`. A connection may act while it holds a lease of at most two
seconds. A refresh reads the clock, sends a statement to the database and posts what it found to the
loop of the connection; everything else goes on in the meantime.

The steady clock counts nanoseconds. A task of the loop runs at one reading of it. The monitor's
tasks and those of the connection are kept in two queues that are served in any order.
-/

namespace Plinth.Ws

open Realtime Realtime.Replay
open Rbac (AuthContext AuthorityRow AuthorityTables Snapshot readSnapshot)

variable {Payload Envelope : Type}

/-- A statement of `refresh_authority`, and its rows once the database has run it. Whether `ready`
was given is part of it. -/
structure Refresh where
  auth : AuthContext
  started : Nat
  ready : Bool
  rows : Option (List AuthorityRow)

/-- The task that a refresh posts. The deadline of its snapshot counts from the start. -/
structure Completion where
  started : Nat
  ready : Bool
  snapshot : Snapshot

/-- Nanoseconds of the steady clock. -/
def Completion.deadline (completion : Completion) : Int :=
  completion.started + completion.snapshot.deadline * 1000000

/-- The parts of `ConnState` that hold the authority, with the database and the clock. -/
structure Authority (Payload Envelope : Type) where
  clock : Nat
  tables : AuthorityTables
  databaseClock : Rbac.Time
  auth : Option AuthContext
  authStarted : Bool
  awaitsToken : Bool
  authFailed : Bool
  authenticated : Bool
  stopped : Bool
  refreshPending : Bool
  monitored : Bool
  isAdmin : Bool
  effectiveRules : Finset String
  /-- Milliseconds of the steady clock. -/
  authorityUntil : Int
  refreshes : List Refresh
  completions : List Completion
  conn : State Payload Envelope

inductive AuthorityLabel (Payload : Type) where
  | tick (nanoseconds : Nat)
  /-- Any change of rules, groups, members, credentials and users, and of the database's clock. -/
  | database (tables : AuthorityTables) (now : Rbac.Time)
  | authenticate
  | validated (auth : AuthContext) (takesTasks : Bool)
  /-- The token is refused, or the time for it is over. -/
  | authFailure
  /-- The timer of the monitor. -/
  | refresh (takesTasks : Bool)
  /-- The database runs the statement of a refresh. -/
  | execute (index : Nat)
  | complete (index : Nat)
  /-- The statement of a refresh fails or times out. -/
  | fail (index : Nat)
  | runCompletion
  /-- The registry stops the monitor. -/
  | stop
  /-- The connection is shut down, by its heartbeat or for another connection. -/
  | hangUp
  | close
  | connection (label : Label Payload)

namespace Loop

def hangUp (loop : Loop Payload Envelope) : Loop Payload Envelope :=
  { loop with conn := { loop.conn with connected := false } }

def setAuthority (loop : Loop Payload Envelope) (current : Bool) : Loop Payload Envelope :=
  { loop with conn := { loop.conn with authorityCurrent := current } }

end Loop

namespace State

def onLoop (s : State Payload Envelope) (change : Loop Payload Envelope → Loop Payload Envelope) :
    State Payload Envelope :=
  { s with loop := change s.loop }

end State

namespace Authority

variable (s : Authority Payload Envelope)

def connected : Bool := s.conn.loop.conn.connected

def isCurrent : Bool := ((s.clock / 1000000 : Nat) : Int) < s.authorityUntil

def identity : Identity := ⟨s.isAdmin, s.effectiveRules.sort (· ≤ ·)⟩

variable (base : Setting Payload Envelope) (completion : Completion)

def setting : Setting Payload Envelope :=
  { base with identity := s.identity }

def rejectAuthority : Authority Payload Envelope :=
  { s with
    authorityUntil := 0
    authFailed := true
    stopped := true
    monitored := false
    conn := s.conn.onLoop fun loop => loop.rejectAuthority.hangUp }

def refreshAuthority (ready takesTasks : Bool) : Authority Payload Envelope :=
  if s.stopped || s.authFailed || !s.connected then s
  else if s.authenticated && !s.isCurrent then s.rejectAuthority
  else if s.refreshPending then s
  else if !takesTasks then s.rejectAuthority
  else
    match s.auth with
    | none => s
    | some auth =>
      { s with
        refreshPending := true
        refreshes := s.refreshes ++ [⟨auth, s.clock, ready, none⟩] }

/-- The parts of `finish_auth` that concern the authority. -/
def finishAuth : Authority Payload Envelope :=
  if s.authenticated || s.authFailed || !s.connected then s
  else { s with authenticated := true, monitored := !s.stopped }

def refuses : Bool :=
  !completion.snapshot.valid || completion.deadline ≤ s.clock ||
    some completion.snapshot.username ≠ s.auth.map AuthContext.username ||
    (s.authenticated && (!s.isCurrent || completion.snapshot.rules ≠ s.effectiveRules))

/-- Rules are taken over before authentication only. -/
def adoptRules (rules : Finset String) : Authority Payload Envelope :=
  if s.authenticated then s
  else { s with effectiveRules := rules, isAdmin := "kernel.admin" ∈ rules }

def applySnapshot : Authority Payload Envelope :=
  if s.stopped || s.authFailed || !s.connected then s
  else
    let answered := { s with refreshPending := false }
    if answered.refuses completion then answered.rejectAuthority
    else
      let leased := { answered.adoptRules completion.snapshot.rules with
        authorityUntil := completion.deadline / 1000000 }
      if completion.ready then leased.finishAuth else leased

/-- `stop_authority_monitor`, up to what becomes of the connection. -/
def stopMonitor (change : Loop Payload Envelope → Loop Payload Envelope) :
    Authority Payload Envelope :=
  { s with
    stopped := true
    authorityUntil := 0
    monitored := false
    conn := s.conn.onLoop change }

/-- `authenticate_token`. There is one attempt. -/
def authenticate : Authority Payload Envelope :=
  if s.authStarted || s.authFailed || s.authenticated then s
  else { s with authStarted := true, awaitsToken := true }

def onValidated (auth : AuthContext) (takesTasks : Bool) : Authority Payload Envelope :=
  let answered := { s with awaitsToken := false }
  if !s.connected || s.authenticated || s.authFailed then answered
  else Authority.refreshAuthority { answered with auth := some auth } true takesTasks

def authFailure : Authority Payload Envelope :=
  { s with authFailed := true, conn := s.conn.onLoop Loop.hangUp }

def answer (refresh : Refresh) : Refresh :=
  { refresh with rows := some (s.tables.authorityRows s.databaseClock refresh.auth) }

/-- The completion that wins; whatever comes later for the refresh is dropped. -/
def post (index : Nat) (completion : Completion) : Authority Payload Envelope :=
  { s with
    refreshes := s.refreshes.eraseIdx index
    completions := s.completions ++ [completion] }

/-- A step of the connection, whose checks read the clock. It is registered, and takes messages,
once it is authenticated. -/
def connectionStep (label : Label Payload) : Option (State Payload Envelope) :=
  let current := s.conn.onLoop (·.setAuthority s.isCurrent)
  match label with
  | .lapseAuthority | .rejectAuthority | .disconnect => none
  | .commit _ | .prune _ => s.conn.exec (s.setting base) label
  | .publish =>
    if s.authenticated then current.exec (s.setting base) .publish
    else s.conn.unpublished.map fun _ => { s.conn with unpublished := none }
  | label => if s.authenticated then current.exec (s.setting base) label else none

def exec : AuthorityLabel Payload → Option (Authority Payload Envelope)
  | .tick nanoseconds => some { s with clock := s.clock + nanoseconds }
  | .database tables now => some { s with tables, databaseClock := now }
  | .authenticate => some s.authenticate
  | .validated auth takesTasks =>
    if s.awaitsToken then some (s.onValidated auth takesTasks) else none
  | .authFailure => if s.authenticated then none else some s.authFailure
  | .refresh takesTasks =>
    if s.monitored then some (s.refreshAuthority false takesTasks) else none
  | .execute index =>
    match s.refreshes[index]? with
    | some ⟨auth, started, ready, none⟩ =>
      some { s with
        refreshes := s.refreshes.set index (s.answer ⟨auth, started, ready, none⟩) }
    | _ => none
  | .complete index =>
    match s.refreshes[index]? with
    | some ⟨_, started, ready, some rows⟩ =>
      some (s.post index ⟨started, ready, readSnapshot rows 0⟩)
    | _ => none
  | .fail index => s.refreshes[index]?.map fun refresh =>
    s.post index ⟨refresh.started, refresh.ready, {}⟩
  | .runCompletion =>
    match s.completions with
    | [] => none
    | completion :: rest =>
      some (Authority.applySnapshot { s with completions := rest } completion)
  | .stop => some (s.stopMonitor Loop.storeAbort)
  | .hangUp => some { s with conn := s.conn.onLoop Loop.hangUp }
  | .close => some (s.stopMonitor Loop.disconnect)
  | .connection label => (s.connectionStep base label).map fun conn => { s with conn }

structure IsOpened : Prop where
  auth : s.auth = none
  authStarted : s.authStarted = false
  awaitsToken : s.awaitsToken = false
  authFailed : s.authFailed = false
  authenticated : s.authenticated = false
  stopped : s.stopped = false
  refreshPending : s.refreshPending = false
  monitored : s.monitored = false
  isAdmin : s.isAdmin = false
  effectiveRules : s.effectiveRules = ∅
  authorityUntil : s.authorityUntil = 0
  refreshes : s.refreshes = []
  completions : s.completions = []
  replays : s.conn.replays = fun _ => none

end Authority

def authority (base : Setting Payload Envelope) :
    Core.TransitionSystem (Authority Payload Envelope) (AuthorityLabel Payload) where
  initial := Authority.IsOpened
  step s label next := s.exec base label = some next

end Plinth.Ws
