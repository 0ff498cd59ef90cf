import Plinth.Rbac.EntryPoints
import Plinth.Ws.Authority
import Plinth.Ws.ConnectionInvariants

/-!
# What an event frame is backed by

Whenever an event frame goes out, the tables of some instant of the last two seconds vouch for the
connection: its credential is valid, its user is enabled, and the rules that the checks read are the
user's. The invariant follows a snapshot from the instant at which the database took it, through the
refresh and its completion, to the lease.
-/

namespace Plinth.Rbac.AuthorityTables

open Core Query List

/-- A credential is valid, its user is enabled, and the rules are those of the user. -/
structure Authorizes (tables : AuthorityTables) (now : Time) (auth : AuthContext)
    (rules : Finset String) : Prop where
  credential : ∃ credential ∈ (tables.credentials auth.authType).rows,
    credential.id = auth.credentialId ∧ credential.userId = auth.userId ∧
      credential.tokenHash = auth.tokenHash ∧ credential.revokedAt = none ∧
        ∀ expiry ∈ credential.expiresAt, expiry.isAfter now = true
  user : ∃ user ∈ tables.users.rows, user.id = auth.userId ∧ user.disabledAt = none ∧
    user.username = auth.username
  rules : ∀ rule, rule ∈ rules ↔ tables.Effective auth.userId rule

variable {tables : AuthorityTables} {now : Time} {auth : AuthContext}

/-- An authority row is backed by a credential and its user. -/
theorem exists_presents {row : AuthorityRow} (mem : row ∈ tables.authorityRows now auth)
    (named : row.username = auth.username) :
    ∃ credential user,
      tables.Presents now { auth with credentialSource := .bearer } credential user := by
  rcases mem_map.mp mem with ⟨⟨⟨credential, user⟩, found⟩, joined, rfl⟩
  have isRow := mem_of_mem_leftJoinLateral joined
  simp only [authorityCredentials, List.mem_filter, mem_join, Bool.and_eq_true,
    decide_eq_true_eq, Option.isNone_iff_eq_none, Option.all_eq_true] at isRow
  rcases isRow with ⟨⟨issued, known, ofUser⟩,
    ⟨⟨⟨⟨isCredential, isUser⟩, sameToken⟩, unrevoked⟩, enabled⟩, unexpired⟩
  exact ⟨credential, user, issued, isCredential, isUser, sameToken, unrevoked, unexpired, known,
    ofUser.trans isUser, enabled, named, by simp⟩

theorem authorizes_of_readSnapshot (valid : (readSnapshot (tables.authorityRows now auth) 0).valid)
    (named : (readSnapshot (tables.authorityRows now auth) 0).username = auth.username) :
    tables.Authorizes now auth (readSnapshot (tables.authorityRows now auth) 0).rules ∧
      (readSnapshot (tables.authorityRows now auth) 0).deadline ≤ 2000 := by
  have presented : ∃ credential user,
      tables.Presents now { auth with credentialSource := .bearer } credential user := by
    rcases (readSnapshot_valid valid).2.1 with ⟨row, mem, isName⟩
    exact exists_presents mem (isName.trans named)
  rcases presented with ⟨credential, user, presents⟩
  have rules := (readSnapshot_valid valid).1.trans presents.rules_eq
  refine ⟨⟨?_, ?_, ?_⟩, (readSnapshot_valid valid).2.2⟩
  · exact ⟨credential, presents.issued, presents.isCredential, presents.ofUser,
      presents.sameToken, presents.unrevoked, presents.unexpired⟩
  · exact ⟨user, presents.known, presents.isUser, presents.enabled, presents.named⟩
  · intro rule
    rw [rules, mem_toFinset, filterRules, mem_effectiveRulesQuery]

end Plinth.Rbac.AuthorityTables

namespace Plinth.Ws

open Realtime Realtime.Replay List
open Rbac (AuthContext AuthorityTables Snapshot readSnapshot)

variable {Payload Envelope : Type}

@[simp]
def Wire.isEvent : Wire Payload Envelope → Bool
  | .live _ => true
  | .replayed _ (.replay _ _) => true
  | _ => false

@[simp]
def State.events (s : State Payload Envelope) : List (Wire Payload Envelope) :=
  s.loop.sent.filter Wire.isEvent

namespace State

variable {s t : State Payload Envelope} {setting : Setting Payload Envelope}

section

variable {label : Label Payload} (steps : Steps setting s label t)
include steps

/-- No event is sent on a dead connection. -/
theorem Steps.events (dead : s.loop.Dead) : t.events = s.events := by
  cases steps.effect with
  | calm calm =>
    rcases calm.1.sent with ⟨wires, isSent, silent⟩
    rcases calm.2.sent with ⟨same, alsoSent, noLive⟩
    have wiresEq : wires = same := append_cancel_left (isSent.symm.trans alsoSent)
    have plain : wires.filter Wire.isEvent = [] := by
      apply filter_eq_nil_iff.mpr
      intro wire mem isEvent
      cases wire with
      | live row => exact noLive row (wiresEq ▸ mem)
      | replayed id frame => simpa using (silent _ mem).1 id
      | _ => simp at isEvent
    simp [isSent, plain]
  | runs queue loop => simp only [State.events, loop, Loop.run_sent_of_dead dead]
  | refused opens => simp [opens.sent]
  | starts starts => simp [starts.sent]
  | moves found moves isNext => simp [isNext]

theorem Steps.connected
    (hungUp : s.loop.conn.connected = false) : t.loop.conn.connected = false := by
  cases steps.effect with
  | calm calm => exact calm.2.closed hungUp
  | runs queue loop => rwa [loop, Loop.run_connected]
  | refused opens => exact opens.keeps.closed hungUp
  | starts starts => exact starts.keeps.closed hungUp
  | moves found moves isNext => rwa [isNext]

theorem Steps.replays (held : ∀ id r, s.replays id = some r → r.request.state = setting.identity) :
    ∀ id r, t.replays id = some r → r.request.state = setting.identity := by
  have update : ∀ {key : ReplayId} {replay : Replay Payload Envelope},
      replay.request.state = setting.identity →
        ∀ id r, Function.update s.replays key (some replay) id = some r →
          r.request.state = setting.identity := by
    intro key replay fresh id r found
    by_cases isKey : id = key
    · rw [isKey, Function.update_self] at found
      rwa [← Option.some.inj found]
    · rw [Function.update_of_ne isKey] at found
      exact held id r found
  cases steps.effect with
  | calm _ _ _ _ replays | runs _ _ _ replays => rwa [replays]
  | refused opens =>
    rw [opens.replays]
    exact update rfl
  | starts starts =>
    rw [starts.replays]
    exact update rfl
  | moves found moves isNext =>
    rw [isNext]
    exact update (by rw [moves.request]; exact held _ _ found)

end

end State

namespace Authority

variable {s next : Authority Payload Envelope} {base : Setting Payload Envelope}

def events (s : Authority Payload Envelope) : List (Wire Payload Envelope) := s.conn.events

def ReadAt (past : Authority Payload Envelope → Prop) (since present : Nat)
    (holds : Authority Payload Envelope → Prop) : Prop :=
  ∃ instant, past instant ∧ since ≤ instant.clock ∧ instant.clock ≤ present ∧ holds instant

variable {past : Authority Payload Envelope → Prop}

theorem ReadAt.later {since present further : Nat} {holds : Authority Payload Envelope → Prop}
    (read : ReadAt past since present holds) (later : present ≤ further) :
    ReadAt past since further holds := by
  rcases read with ⟨instant, passed, notBefore, notAfter, held⟩
  exact ⟨instant, passed, notBefore, notAfter.trans later, held⟩

/-- A snapshot is what the database said of the caller since the refresh started, if it is valid. -/
def Vouched (s : Authority Payload Envelope) (past : Authority Payload Envelope → Prop)
    (completion : Completion) : Prop :=
  completion.snapshot.valid = true → ∃ auth, s.auth = some auth ∧
    ReadAt past completion.started s.clock fun instant => completion.snapshot =
      readSnapshot (instant.tables.authorityRows instant.databaseClock auth) 0

structure Sound (past : Authority Payload Envelope → Prop) (s : Authority Payload Envelope) :
    Prop where
  unstarted : s.authStarted = false → s.auth = none
  awaits : s.awaitsToken = true → s.authStarted = true ∧ s.auth = none
  refreshes : ∀ refresh ∈ s.refreshes, s.auth = some refresh.auth ∧ refresh.started ≤ s.clock ∧
    ∀ rows, refresh.rows = some rows → ReadAt past refresh.started s.clock fun instant =>
      rows = instant.tables.authorityRows instant.databaseClock refresh.auth
  completions : ∀ completion ∈ s.completions, s.Vouched past completion
  leased : 0 < s.authorityUntil → ∃ auth, s.auth = some auth ∧ ReadAt past 0 s.clock fun instant =>
    s.authorityUntil * 1000000 ≤ instant.clock + 2000000000 ∧
      instant.tables.Authorizes instant.databaseClock auth s.effectiveRules
  stopped : s.stopped = true → s.authorityUntil = 0
  failed : s.authFailed = true → s.stopped = true ∨ s.authenticated = false
  admin : s.isAdmin = decide ("kernel.admin" ∈ s.effectiveRules)
  unauthenticated : s.authenticated = false → s.conn.replays = fun _ => none
  replays : ∀ id r, s.conn.replays id = some r → r.request.state = s.identity

/-- Soundness carries over to a later clock. -/
theorem Sound.weaken {more : Authority Payload Envelope → Prop} {clock : Nat} (sound : Sound past s)
    (later : s.clock ≤ clock) (read : ∀ {since : Nat} {holds : Authority Payload Envelope → Prop},
      ReadAt past since s.clock holds → ReadAt more since clock holds) :
    Sound more { s with clock } := by
  constructor
  · exact sound.unstarted
  · exact sound.awaits
  · intro refresh mem
    rcases sound.refreshes refresh mem with ⟨isAuth, notAfter, rows⟩
    exact ⟨isAuth, notAfter.trans later, fun answer isAnswer => read (rows answer isAnswer)⟩
  · intro completion mem valid
    rcases sound.completions completion mem valid with ⟨auth, isAuth, snapshot⟩
    exact ⟨auth, isAuth, read snapshot⟩
  · intro positive
    rcases sound.leased positive with ⟨auth, isAuth, lease⟩
    exact ⟨auth, isAuth, read lease⟩
  · exact sound.stopped
  · exact sound.failed
  · exact sound.admin
  · exact sound.unauthenticated
  · exact sound.replays

theorem Sound.mono {more : Authority Payload Envelope → Prop}
    (further : ∀ instant, past instant → more instant) (sound : Sound past s) : Sound more s := by
  apply sound.weaken (le_refl s.clock)
  rintro since holds ⟨instant, passed, rest⟩
  exact ⟨instant, further instant passed, rest⟩

theorem IsOpened.sound (opened : s.IsOpened) : Sound past s := by
  constructor
  · exact fun _ => opened.auth
  · simp [opened.awaitsToken]
  · simp [opened.refreshes]
  · simp [opened.completions]
  · simp [opened.authorityUntil]
  · exact fun _ => opened.authorityUntil
  · simp [opened.authFailed]
  · simp [opened.isAdmin, opened.effectiveRules]
  · exact fun _ => opened.replays
  · simp [opened.replays]

variable {label : AuthorityLabel Payload}

section Steps

variable {past : Authority Payload Envelope → Prop}

section

variable (sound : Sound past s)
include sound

theorem Sound.tick (nanoseconds : Nat) : Sound past { s with clock := s.clock + nanoseconds } :=
  sound.weaken (Nat.le_add_right _ _) fun read => read.later (Nat.le_add_right _ _)

theorem Sound.stop (failed : Bool) (conn : State Payload Envelope)
    (replays : conn.replays = s.conn.replays) :
    Sound past { s with
      authorityUntil := 0
      authFailed := failed
      stopped := true
      monitored := false
      conn := conn } :=
  { sound with
    leased := fun positive => absurd positive (lt_irrefl 0)
    stopped := fun _ => rfl
    failed := fun _ => .inl rfl
    unauthenticated := fun outside => replays.trans (sound.unauthenticated outside)
    replays := fun id r found => sound.replays id r (replays ▸ found) }

theorem Sound.rejectAuthority : Sound past s.rejectAuthority :=
  sound.stop true _ rfl

/-- Starting a refresh is sound. -/
theorem Sound.refreshAuthority (ready takesTasks : Bool) :
    Sound past (s.refreshAuthority ready takesTasks) := by
  simp only [Authority.refreshAuthority]
  split
  · exact sound
  split
  · exact sound.rejectAuthority
  split
  · exact sound
  split
  · exact sound.rejectAuthority
  split
  · exact sound
  case h_2 auth isAuth =>
  refine { sound with refreshes := ?_ }
  intro refresh mem
  rcases mem_append.mp mem with earlier | fresh
  · exact sound.refreshes refresh earlier
  · rcases mem_singleton.mp fresh with rfl
    exact ⟨isAuth, Nat.le_refl _, by simp⟩

theorem Sound.onValidated (awaits : s.awaitsToken)
    (auth : AuthContext) (takesTasks : Bool) : Sound past (s.onValidated auth takesTasks) := by
  rcases sound.awaits awaits with ⟨started, unknown⟩
  simp only [Authority.onValidated]
  split
  · exact { sound with awaits := fun awaiting => absurd awaiting (by simp) }
  apply Sound.refreshAuthority
  refine { sound with
    unstarted := ?_, awaits := ?_, refreshes := ?_, completions := ?_, leased := ?_ }
  · simp [started]
  · simp
  · intro refresh mem
    exact absurd (sound.refreshes refresh mem).1 (by simp [unknown])
  · intro completion mem valid
    rcases sound.completions completion mem valid with ⟨other, isOther, -⟩
    exact absurd isOther (by simp [unknown])
  · intro positive
    rcases sound.leased positive with ⟨other, isOther, -⟩
    exact absurd isOther (by simp [unknown])

theorem Sound.finishAuth : Sound past s.finishAuth := by
  simp only [Authority.finishAuth]
  split
  · exact sound
  case isFalse ready =>
  simp only [Bool.or_eq_true, not_or, Bool.not_eq_true] at ready
  exact { sound with
    failed := fun failed => absurd failed (by simp [ready.1.2])
    unauthenticated := fun outside => absurd outside (by simp) }

end

variable {completion : Completion}

/-- What an accepted snapshot has shown. -/
theorem refuses_eq_false (accepted : s.refuses completion = false) :
    completion.snapshot.valid ∧ s.clock < completion.deadline ∧
      s.auth.map AuthContext.username = some completion.snapshot.username ∧
        (s.authenticated → completion.snapshot.rules = s.effectiveRules) := by
  simp only [refuses, Bool.or_eq_false_iff, Bool.and_eq_false_iff, decide_eq_false_iff_not,
    not_le, not_not, Bool.not_eq_eq_eq_not, Bool.not_false] at accepted
  rcases accepted with ⟨⟨⟨valid, early⟩, named⟩, unchanged⟩
  refine ⟨valid, early, named.symm, ?_⟩
  intro isAuthenticated
  rcases unchanged with outside | ⟨-, same⟩
  · simp [isAuthenticated] at outside
  · exact same

theorem Sound.backs (accepted : s.refuses completion = false) (read : s.Vouched past completion) :
    ∃ auth, s.auth = some auth ∧ ReadAt past 0 s.clock fun instant =>
      completion.deadline / 1000000 * 1000000 ≤ instant.clock + 2000000000 ∧
        instant.tables.Authorizes instant.databaseClock auth completion.snapshot.rules := by
  rcases refuses_eq_false accepted with ⟨valid, -, named, -⟩
  rcases read valid with ⟨auth, isAuth, instant, passed, notBefore, notAfter, isSnapshot⟩
  have sameName : completion.snapshot.username = auth.username := by
    simpa [isAuth] using named.symm
  rw [isSnapshot] at valid sameName
  rcases AuthorityTables.authorizes_of_readSnapshot valid sameName with ⟨authorizes, short⟩
  rw [← isSnapshot] at authorizes short
  refine ⟨auth, isAuth, instant, passed, Nat.zero_le _, notAfter, ?_, authorizes⟩
  simp only [Completion.deadline]
  omega

section

variable (sound : Sound past s)
include sound

/-- An accepted snapshot backs the new lease. -/
theorem Sound.lease (running : s.stopped = false)
    (accepted : s.refuses completion = false) (read : s.Vouched past completion) :
    Sound past { s.adoptRules completion.snapshot.rules with
      authorityUntil := completion.deadline / 1000000 } := by
  have backs := Sound.backs accepted read
  have unchanged := (refuses_eq_false accepted).2.2.2
  simp only [adoptRules]
  split
  case isTrue isAuthenticated =>
    rw [unchanged isAuthenticated] at backs
    exact { sound with
      leased := fun _ => backs
      stopped := fun stopped => absurd stopped (by simp [running]) }
  case isFalse outside =>
    have none := sound.unauthenticated (by simpa using outside)
    exact { sound with
      leased := fun _ => backs
      stopped := fun stopped => absurd stopped (by simp [running])
      admin := rfl
      replays := fun id r found => by simp [none] at found }

/-- A vouched snapshot is applied soundly. -/
theorem Sound.applySnapshot (read : s.Vouched past completion) :
    Sound past (s.applySnapshot completion) := by
  have answered : Sound past { s with refreshPending := false } := { sound with }
  simp only [Authority.applySnapshot]
  split
  · exact sound
  case isFalse running =>
  simp only [Bool.or_eq_true, not_or, Bool.not_eq_true] at running
  split
  · exact answered.rejectAuthority
  case isFalse accepted =>
  have leased := answered.lease running.1.1 (by simpa using accepted) read
  split
  · exact leased.finishAuth
  · exact leased

/-- The query reads the present tables. -/
theorem Sound.execute (present : past s) {index : Nat} {refresh : Refresh}
    (found : s.refreshes[index]? = some refresh) :
    Sound past { s with refreshes := s.refreshes.set index (s.answer refresh) } := by
  refine { sound with refreshes := ?_ }
  intro other mem
  rcases mem_or_eq_of_mem_set mem with earlier | rfl
  · exact sound.refreshes other earlier
  rcases sound.refreshes refresh (mem_of_getElem? found) with ⟨isAuth, notAfter, -⟩
  refine ⟨isAuth, notAfter, ?_⟩
  intro rows isRows
  exact ⟨s, present, notAfter, Nat.le_refl _, (Option.some.inj isRows).symm⟩

theorem Sound.post {index : Nat} (read : s.Vouched past completion) :
    Sound past (s.post index completion) := by
  refine { sound with refreshes := ?_, completions := ?_ }
  · intro refresh mem
    exact sound.refreshes refresh (mem_of_mem_eraseIdx mem)
  · intro other mem valid
    rcases mem_append.mp mem with earlier | fresh
    · exact sound.completions other earlier valid
    · rcases mem_singleton.mp fresh with rfl
      exact read valid

theorem Sound.authFailure (outside : s.authenticated = false) : Sound past s.authFailure :=
  { sound with failed := fun _ => .inr outside }

theorem Sound.authenticate : Sound past s.authenticate := by
  simp only [Authority.authenticate]
  split
  · exact sound
  case isFalse fresh =>
  simp only [Bool.or_eq_true, not_or, Bool.not_eq_true] at fresh
  exact { sound with
    unstarted := fun _ => sound.unstarted fresh.1.1
    awaits := fun _ => ⟨rfl, sound.unstarted fresh.1.1⟩ }

end

theorem connectionStep_cases {label : Label Payload} {conn : State Payload Envelope}
    (step : s.connectionStep base label = some conn) :
    (conn.loop = s.conn.loop ∧ conn.replays = s.conn.replays) ∨
      s.authenticated ∧
        State.Steps (s.setting base) (s.conn.onLoop (·.setAuthority s.isCurrent)) label conn := by
  cases label with
  | lapseAuthority | rejectAuthority | disconnect => cases step
  | commit | prune =>
    simp only [connectionStep] at step
    cases State.exec_steps step
    exact .inl ⟨rfl, rfl⟩
  | publish =>
    simp only [connectionStep] at step
    split at step
    case isTrue isAuthenticated => exact .inr ⟨isAuthenticated, State.exec_steps step⟩
    case isFalse =>
      rcases Option.map_eq_some_iff.mp step with ⟨row, -, rfl⟩
      exact .inl ⟨rfl, rfl⟩
  | subscribe | unsubscribe | drain | runTask | resume =>
    simp only [connectionStep] at step
    split at step
    case isTrue isAuthenticated => exact .inr ⟨isAuthenticated, State.exec_steps step⟩
    case isFalse => cases step

theorem Sound.connection (sound : Sound past s) {label : Label Payload}
    {conn : State Payload Envelope} (step : s.connectionStep base label = some conn) :
    Sound past { s with conn } := by
  rcases connectionStep_cases step with ⟨-, same⟩ | ⟨isAuthenticated, steps⟩
  · exact { sound with
      unauthenticated := fun outside => same.trans (sound.unauthenticated outside)
      replays := fun id r found => sound.replays id r (same ▸ found) }
  · exact { sound with
      unauthenticated := fun outside => absurd outside (by simp [isAuthenticated])
      replays := steps.replays sound.replays }

/-- Every step is sound. -/
theorem Sound.step (sound : Sound past s) (present : past s)
    (step : s.exec base label = some next) : Sound past next := by
  cases label with
  | tick nanoseconds =>
    cases step
    exact sound.tick nanoseconds
  | database | hangUp =>
    cases step
    exact { sound with }
  | authenticate =>
    cases step
    exact sound.authenticate
  | validated auth takesTasks =>
    rcases Core.of_guard step with ⟨awaits, rfl⟩
    exact sound.onValidated awaits auth takesTasks
  | authFailure =>
    rcases Core.of_guard_not step with ⟨outside, rfl⟩
    exact sound.authFailure (by simpa using outside)
  | refresh takesTasks =>
    rcases Core.of_guard step with ⟨-, rfl⟩
    exact sound.refreshAuthority false takesTasks
  | execute index =>
    simp only [exec] at step
    split at step <;> cases step
    rename_i found
    exact sound.execute present found
  | complete index =>
    simp only [exec] at step
    split at step <;> cases step
    rename_i auth started ready rows found
    rcases sound.refreshes _ (mem_of_getElem? found) with ⟨isAuth, -, read⟩
    rcases read rows rfl with ⟨instant, passed, notBefore, notAfter, isRows⟩
    apply sound.post
    intro _
    exact ⟨auth, isAuth, instant, passed, notBefore, notAfter, by rw [isRows]⟩
  | fail index =>
    rcases Option.map_eq_some_iff.mp step with ⟨refresh, -, rfl⟩
    apply sound.post
    intro valid
    cases valid
  | runCompletion =>
    simp only [exec] at step
    split at step
    · cases step
    case h_2 completion rest queued =>
    cases step
    have popped : Sound past { s with completions := rest } :=
      { sound with
        completions := fun other mem => sound.completions other (by simp [queued, mem]) }
    exact popped.applySnapshot (sound.completions completion (by simp [queued]))
  | stop | close =>
    cases step
    exact sound.stop s.authFailed _ rfl
  | connection label =>
    rcases Option.map_eq_some_iff.mp step with ⟨conn, isConn, rfl⟩
    exact sound.connection isConn

theorem sound_of_run {start : Authority Payload Envelope} {labels : List (AuthorityLabel Payload)}
    (opened : start.IsOpened) (run : (authority base).Run start labels s) :
    Sound ((authority base).Visits start s) s :=
  run.past Sound Sound.mono (fun present sound step => sound.step present step) opened.sound

end Steps

/-- The authority is stopped, the connection is down, or it was never authenticated and never
will be. -/
def Sealed (s : Authority Payload Envelope) : Prop :=
  s.stopped = true ∨ s.connected = false ∨ (s.authFailed = true ∧ s.authenticated = false)

theorem Sealed.blocks (isSealed : s.Sealed) : (s.stopped || s.authFailed || !s.connected) := by
  rcases isSealed with stopped | hungUp | ⟨failed, -⟩
  · simp [stopped]
  · simp [hungUp]
  · simp [failed]

theorem Sealed.refreshAuthority (isSealed : s.Sealed) (ready takesTasks : Bool) :
    s.refreshAuthority ready takesTasks = s :=
  if_pos isSealed.blocks

theorem Sealed.applySnapshot (isSealed : s.Sealed) (completion : Completion) :
    s.applySnapshot completion = s :=
  if_pos isSealed.blocks

/-- What is sealed stays so. -/
theorem Sealed.step (isSealed : s.Sealed) (step : s.exec base label = some next) : next.Sealed := by
  cases label with
  | tick | database | stop =>
    cases step
    first | exact isSealed | exact .inl rfl
  | authenticate =>
    cases step
    simp only [Authority.authenticate]
    split <;> exact isSealed
  | validated auth takesTasks =>
    rcases Core.of_guard step with ⟨-, rfl⟩
    simp only [Authority.onValidated]
    split
    · exact isSealed
    · have other : Sealed { s with awaitsToken := false, auth := some auth } := isSealed
      rwa [other.refreshAuthority]
  | authFailure =>
    rcases Core.of_guard_not step with ⟨-, rfl⟩
    exact .inr (.inl rfl)
  | refresh takesTasks =>
    rcases Core.of_guard step with ⟨-, rfl⟩
    rwa [isSealed.refreshAuthority]
  | execute index | complete index =>
    simp only [exec] at step
    split at step <;> cases step
    exact isSealed
  | fail index =>
    rcases Option.map_eq_some_iff.mp step with ⟨refresh, -, rfl⟩
    exact isSealed
  | runCompletion =>
    simp only [exec] at step
    split at step
    · cases step
    case h_2 completion rest _ =>
    cases step
    have other : Sealed { s with completions := rest } := isSealed
    rwa [other.applySnapshot]
  | hangUp =>
    cases step
    exact .inr (.inl rfl)
  | close =>
    cases step
    exact .inl rfl
  | connection label =>
    rcases Option.map_eq_some_iff.mp step with ⟨conn, isConn, rfl⟩
    rcases isSealed with stopped | hungUp | failed
    · exact .inl stopped
    · right
      left
      rcases connectionStep_cases isConn with ⟨same, -⟩ | ⟨-, steps⟩
      · simpa [connected, same] using hungUp
      · exact steps.connected hungUp
    · exact .inr (.inr failed)

section

variable (s : Authority Payload Envelope)

theorem events_rejectAuthority : s.rejectAuthority.events = s.events := by
  simp only [events, State.events, Authority.rejectAuthority, State.onLoop, Loop.hangUp,
    Loop.rejectAuthority]
  split <;> simp

theorem events_refreshAuthority (ready takesTasks : Bool) :
    (s.refreshAuthority ready takesTasks).events = s.events := by
  simp only [Authority.refreshAuthority]
  split
  · rfl
  split
  · exact s.events_rejectAuthority
  split
  · rfl
  split
  · exact s.events_rejectAuthority
  split <;> rfl

@[simp]
theorem adoptRules_conn (rules : Finset String) : (s.adoptRules rules).conn = s.conn := by
  simp only [adoptRules]
  split <;> rfl

@[simp]
theorem finishAuth_conn : s.finishAuth.conn = s.conn := by
  simp only [Authority.finishAuth]
  split <;> rfl

theorem events_applySnapshot (completion : Completion) :
    (s.applySnapshot completion).events = s.events := by
  simp only [Authority.applySnapshot]
  split
  · rfl
  split
  · exact events_rejectAuthority _
  split <;> simp [events]

end

/-- An event frame goes to an authenticated connection with a lease, and to no other. -/
theorem events_of_silent (step : s.exec base label = some next)
    (silent : s.authenticated → (s.connected && s.isCurrent) = false) :
    next.events = s.events := by
  cases label with
  | tick | database | hangUp =>
    cases step
    rfl
  | stop | close =>
    cases step
    simp [events, stopMonitor, State.onLoop]
  | authenticate =>
    cases step
    simp only [Authority.authenticate]
    split <;> rfl
  | validated auth takesTasks =>
    rcases Core.of_guard step with ⟨-, rfl⟩
    simp only [Authority.onValidated]
    split
    · rfl
    · exact events_refreshAuthority _ true takesTasks
  | authFailure =>
    rcases Core.of_guard_not step with ⟨-, rfl⟩
    rfl
  | refresh takesTasks =>
    rcases Core.of_guard step with ⟨-, rfl⟩
    exact s.events_refreshAuthority false takesTasks
  | execute index | complete index =>
    simp only [exec] at step
    split at step <;> cases step
    rfl
  | fail index =>
    rcases Option.map_eq_some_iff.mp step with ⟨refresh, -, rfl⟩
    rfl
  | runCompletion =>
    simp only [exec] at step
    split at step <;> cases step
    exact events_applySnapshot _ _
  | connection label =>
    rcases Option.map_eq_some_iff.mp step with ⟨conn, isConn, rfl⟩
    rcases connectionStep_cases isConn with ⟨same, -⟩ | ⟨isAuthenticated, steps⟩
    · simp only [events, State.events, same]
    · exact steps.events (silent isAuthenticated)

/-- What is sealed sends no event. -/
theorem Sealed.events (isSealed : s.Sealed) (sound : Sound past s)
    (step : s.exec base label = some next) :
    next.events = s.events := by
  apply events_of_silent step
  intro isAuthenticated
  rcases isSealed with stopped | hungUp | ⟨-, outside⟩
  · have lapsed : s.isCurrent = false := by
      simp only [isCurrent, sound.stopped stopped, decide_eq_false_iff_not]
      omega
    rw [lapsed, Bool.and_false]
  · simp [hungUp]
  · simp [isAuthenticated] at outside

/-- What a refresh has found of the caller is not what the connection was authenticated with. -/
def Finds (s : Authority Payload Envelope) (completion : Completion) : Prop :=
  completion.snapshot.valid = false ∨
    s.auth.map AuthContext.username ≠ some completion.snapshot.username ∨
    (s.authenticated = true ∧ completion.snapshot.rules ≠ s.effectiveRules)

/-- A snapshot that finds another authority seals the connection. -/
theorem Sound.sealed (sound : Sound past s) {completion : Completion} (finds : s.Finds completion) :
    (s.applySnapshot completion).Sealed := by
  simp only [Authority.applySnapshot]
  split
  case isTrue blocked =>
    simp only [Bool.or_eq_true, Bool.not_eq_eq_eq_not, Bool.not_true] at blocked
    rcases blocked with (stopped | failed) | hungUp
    · exact .inl stopped
    · rcases sound.failed failed with stopped | outside
      · exact .inl stopped
      · exact .inr (.inr ⟨failed, outside⟩)
    · exact .inr (.inl hungUp)
  case isFalse =>
    split
    · exact .inl rfl
    case isFalse accepted =>
    rcases refuses_eq_false (by simpa using accepted) with ⟨valid, -, named, unchanged⟩
    rcases finds with invalid | renamed | ⟨isAuthenticated, changed⟩
    · simp [valid] at invalid
    · exact absurd named renamed
    · exact absurd (unchanged isAuthenticated) changed

/-- An event is backed by tables of the last two seconds. -/
theorem Sound.instant (sound : Sound past s)
    (step : s.exec base label = some next) (sent : next.events ≠ s.events) :
    ∃ auth instant, s.auth = some auth ∧ past instant ∧ s.clock ≤ instant.clock + 2000000000 ∧
      instant.clock ≤ s.clock ∧
        instant.tables.Authorizes instant.databaseClock auth s.effectiveRules := by
  have alive : s.isCurrent := by
    by_contra lapsed
    apply sent
    apply events_of_silent step
    intro _
    rw [Bool.eq_false_of_not_eq_true lapsed, Bool.and_false]
  simp only [isCurrent, decide_eq_true_eq] at alive
  have positive : 0 < s.authorityUntil := by omega
  rcases sound.leased positive with ⟨auth, isAuth, instant, passed, -, notAfter, short, authorizes⟩
  exact ⟨auth, instant, isAuth, passed, by omega, notAfter, authorizes⟩

theorem Sealed.events_of_run {start later : Authority Payload Envelope}
    {labels more : List (AuthorityLabel Payload)} (isSealed : s.Sealed) (opened : start.IsOpened)
    (run : (authority base).Run start labels s) (after : (authority base).Run s more later) :
    later.Sealed ∧ later.events = s.events := by
  induction after with
  | refl => exact ⟨isSealed, rfl⟩
  | step middle last ih =>
    rcases ih with ⟨stillSealed, same⟩
    have sound := sound_of_run opened (run.trans middle)
    exact ⟨stillSealed.step last, (stillSealed.events sound last).trans same⟩

end Authority

/-- Every event frame is backed by an instant of the last two seconds, at which the database
vouched for the caller with the rules that the checks read. Once a refresh has found otherwise, no
event frame follows. -/
theorem authority_leased (base : Setting Payload Envelope)
    {start s next : Authority Payload Envelope} {labels : List (AuthorityLabel Payload)}
    {label : AuthorityLabel Payload} (opened : (authority base).initial start)
    (run : (authority base).Run start labels s) (step : (authority base).step s label next) :
    (next.events ≠ s.events →
      ∃ auth instant, s.auth = some auth ∧ (authority base).Visits start s instant ∧
        s.clock ≤ instant.clock + 2000000000 ∧ instant.clock ≤ s.clock ∧
        instant.tables.Authorizes instant.databaseClock auth s.effectiveRules ∧
        (s.setting base).identity =
          ⟨decide ("kernel.admin" ∈ s.effectiveRules), s.effectiveRules.sort (· ≤ ·)⟩ ∧
        ∀ id replay, s.conn.replays id = some replay →
          replay.request.state = (s.setting base).identity) ∧
    ∀ completion rest, s.completions = completion :: rest → label = .runCompletion →
      s.Finds completion → ∀ later labels, (authority base).Run next labels later →
        later.events = s.events := by
  have sound := Authority.sound_of_run opened run
  constructor
  · intro sent
    rcases sound.instant step sent with ⟨auth, instant, isAuth, passed, recent, past, authorizes⟩
    refine ⟨auth, instant, isAuth, passed, recent, past, authorizes, ?_, sound.replays⟩
    rw [← sound.admin]
    rfl
  · intro completion rest queued isCompletion finds later more after
    have isNext : next = Authority.applySnapshot { s with completions := rest } completion := by
      subst isCompletion
      have applied : s.exec base .runCompletion = some next := step
      simp only [Authority.exec, queued] at applied
      exact (Option.some.inj applied).symm
    have popped : Authority.Sound ((authority base).Visits start s)
        { s with completions := rest } :=
      { sound with completions := fun other mem => sound.completions other (by simp [queued, mem]) }
    have isSealed : next.Sealed := isNext ▸ popped.sealed finds
    have silent : next.events = s.events := by
      rw [isNext]
      exact Authority.events_applySnapshot _ completion
    exact (isSealed.events_of_run opened (run.step step) after).2.trans silent

def hourTables (revoked : Option Rbac.Time) : AuthorityTables where
  users := ⟨[⟨1, "ada", none⟩], nodup_singleton _⟩
  sessions := ⟨[⟨2, 1, 7, some (.at 3600000000), revoked⟩], nodup_singleton _⟩
  pats := .empty
  groups := ⟨[⟨3, "everyone"⟩], nodup_singleton _⟩
  members := []
  rules := ⟨[⟨4, "kernel.admin", none⟩], by decide⟩
  grants := [⟨3, 4⟩]
  memberGroup := (Rbac.openTables [] nodup_nil).memberGroup
  sessionExpires := by simp [Core.Table.mem_rows]

def newAuthority : Authority String String where
  clock := 5000000000
  tables := hourTables none
  databaseClock := 0
  auth := none
  authStarted := false
  awaitsToken := false
  authFailed := false
  authenticated := false
  stopped := false
  refreshPending := false
  monitored := false
  isAdmin := false
  effectiveRules := ∅
  authorityUntil := 0
  refreshes := []
  completions := []
  conn := emptyConnection

theorem newAuthority_isOpened : newAuthority.IsOpened :=
  ⟨rfl, rfl, rfl, rfl, rfl, rfl, rfl, rfl, rfl, rfl, rfl, rfl, rfl, rfl⟩

def playAuthority (labels : List (AuthorityLabel String)) : Option (Authority String String) :=
  Core.TransitionSystem.replay (fun s label => s.exec adminSetting label) newAuthority labels

/-- The connection is authenticated and subscribed, and an event is about to be delivered. -/
def subscribedLabels : List (AuthorityLabel String) :=
  [.authenticate, .validated Rbac.sessionAuth true, .tick 3000000, .execute 0, .tick 4000000,
    .complete 0, .runCompletion, .connection (.subscribe [contacts] .absent ⟨true, true, true⟩),
    .connection (.commit ⟨1, contacts, "created"⟩), .connection .publish]

/-- Then the session is revoked, and the next refresh has found that out. -/
def revokedLabels : List (AuthorityLabel String) :=
  subscribedLabels ++ [.connection .runTask, .database (hourTables (some 1)) 1, .tick 1000000000,
    .refresh true, .execute 0, .complete 0]

theorem revoked_authority_leased :
    (∃ (s next instant : Authority String String) (auth : AuthContext),
      playAuthority subscribedLabels = some s ∧
      s.exec adminSetting (.connection .runTask) = some next ∧ next.events ≠ s.events ∧
      s.auth = some auth ∧ s.clock ≤ instant.clock + 2000000000 ∧ instant.clock ≤ s.clock ∧
      instant.tables.Authorizes instant.databaseClock auth s.effectiveRules) ∧
    ∃ s next, playAuthority revokedLabels = some s ∧
      s.exec adminSetting .runCompletion = some next ∧
      ∀ later labels, (authority adminSetting).Run next labels later → later.events = s.events := by
  constructor
  · have sends : ((playAuthority subscribedLabels).bind fun s =>
        (s.exec adminSetting (.connection .runTask)).map fun next =>
          decide (next.events ≠ s.events)) = some true := by
      decide +kernel
    rcases Option.bind_eq_some_iff.mp sends with ⟨s, played, stepped⟩
    rcases Option.map_eq_some_iff.mp stepped with ⟨next, step, sent⟩
    have sentEvent : next.events ≠ s.events := of_decide_eq_true sent
    rcases (authority_leased adminSetting newAuthority_isOpened
      (.of_replay (fun step => step) played)
      step).1 sentEvent with ⟨auth, instant, isAuth, -, recent, past, authorizes, -⟩
    exact ⟨s, next, instant, auth, played, step, sentEvent, isAuth, recent, past, authorizes⟩
  · have finds : ((playAuthority revokedLabels).bind fun s => s.completions.head?.bind fun found =>
        (s.exec adminSetting .runCompletion).map fun _ => !found.snapshot.valid) = some true := by
      decide +kernel
    rcases Option.bind_eq_some_iff.mp finds with ⟨s, played, applied⟩
    rcases Option.bind_eq_some_iff.mp applied with ⟨completion, isFirst, stepped⟩
    rcases Option.map_eq_some_iff.mp stepped with ⟨next, step, invalid⟩
    rcases head?_eq_some_iff.mp isFirst with ⟨rest, queued⟩
    exact ⟨s, next, played, step, (authority_leased adminSetting newAuthority_isOpened
      (.of_replay (fun step => step) played) step).2 completion rest queued rfl
        (.inl (by simpa using invalid))⟩

end Plinth.Ws
