import Plinth.Core.Locked
import Plinth.Core.Table

/-!
# Account recovery

Model of `handle_recovery` and `handle_login` in `auth/handlers.cpp` and of `handle_create_pat`
in `auth/pat_handlers.cpp`, for the requests of one user. A login verifies the password before
its transaction, and the session of a request for a token is validated before it; each
transaction then takes the lock on the user's row and checks again.

The rows record what the tables do not: which hash a login verified, how many hashes the
account had had when it read it, and the session a token was created from.
-/

namespace Plinth.Auth

open Core.Locked List

abbrev Timestamp := Nat

structure UserRow where
  id : String
  username : String
  passwordHash : String
  disabledAt : Option Timestamp

/-- What a login has verified: a password against a hash, after the account had had `epoch`
hashes. -/
structure Verified where
  password : String
  hash : String
  epoch : Nat

structure SessionRow where
  id : Nat
  userId : String
  tokenHash : String
  userAgent : String
  ipAddress : String
  expiresAt : Timestamp
  revokedAt : Option Timestamp
  verified : Verified

structure PatRow where
  id : Nat
  userId : String
  name : String
  tokenHash : String
  tokenPrefix : String
  expiresAt : Option Timestamp
  revokedAt : Option Timestamp
  sessionId : Nat

variable (userId : String) (now : Timestamp)

def SessionRow.revoke (session : SessionRow) : SessionRow :=
  if session.userId = userId && session.revokedAt.isNone then
    { session with revokedAt := some now }
  else session

theorem SessionRow.id_revoke (session : SessionRow) :
    (session.revoke userId now).id = session.id := by
  simp only [revoke]
  split <;> rfl

theorem SessionRow.revokedAt_revoke {userId : String} {now : Timestamp} {session : SessionRow}
    (isUser : (session.revoke userId now).userId = userId) :
    (session.revoke userId now).revokedAt ≠ none := by
  simp only [revoke] at isUser ⊢
  split <;> simp_all

def PatRow.revoke (pat : PatRow) : PatRow :=
  if pat.userId = userId && pat.revokedAt.isNone then { pat with revokedAt := some now } else pat

theorem PatRow.id_revoke (pat : PatRow) : (pat.revoke userId now).id = pat.id := by
  simp only [revoke]
  split <;> rfl

theorem PatRow.revokedAt_revoke {userId : String} {now : Timestamp} {pat : PatRow}
    (isUser : (pat.revoke userId now).userId = userId) :
    (pat.revoke userId now).revokedAt ≠ none := by
  simp only [revoke] at isUser ⊢
  split <;> simp_all

/-- The user's row, the tables of sessions and tokens, and a record of the hashes that the
account has had, oldest first. -/
structure Accounts where
  user : UserRow
  sessions : Core.Table SessionRow Nat SessionRow.id
  pats : Core.Table PatRow Nat PatRow.id
  nextId : Nat
  history : List String

inductive Request where
  | login (username password tokenHash userAgent ipAddress : String) (now : Timestamp)
  | createPat (sessionToken name tokenHash tokenPrefix : String) (expiresAt : Option Timestamp)
      (seen now : Timestamp)
  | recovery (username newHash : String) (now : Timestamp)

inductive Tx where
  | login (userId tokenHash userAgent ipAddress : String) (now : Timestamp) (verified : Verified)
  | createPat (sessionId : Nat) (userId sessionToken name tokenHash tokenPrefix : String)
      (expiresAt : Option Timestamp) (now : Timestamp)
  | recovery (username newHash : String) (now : Timestamp)

inductive Reply where
  | error (status : Nat) (code message : String)
  | loggedIn (sessionId : Nat)
  | patCreated (patId : Nat)
  | recovered

/-- The default of `sessions.expires_at`, in seconds. -/
def sessionLifetime : Nat := 24 * 60 * 60

def errorMessage : String → String
  | "session_revoked" => "Session has been revoked"
  | "session_expired" => "Session has expired"
  | _ => "Invalid or missing authentication token"

namespace Accounts

variable (db : Accounts)

def validateSessionToken (tokenHash : String) (now : Timestamp) : Except String SessionRow :=
  match db.sessions.rows.find? fun session =>
      session.tokenHash = tokenHash && session.userId = db.user.id &&
        db.user.disabledAt.isNone with
  | none => .error "not_authenticated"
  | some session =>
    if session.revokedAt.isSome then .error "session_revoked"
    else if session.expiresAt ≤ now then .error "session_expired"
    else .ok session

/-- Whether the `INSERT ... SELECT` of a login finds its row. -/
def acceptsLogin (userId verifiedHash : String) : Bool :=
  db.user.id = userId && db.user.passwordHash = verifiedHash && db.user.disabledAt.isNone

def patSession (sessionId : Nat) (userId sessionToken : String) (now : Timestamp) :
    Option SessionRow :=
  (db.sessions.find? sessionId).filter fun session =>
    session.userId = userId && session.tokenHash = sessionToken && session.revokedAt.isNone &&
      now < session.expiresAt && db.user.id = session.userId && db.user.disabledAt.isNone

def insertSession (tokenHash userAgent ipAddress : String) (now : Timestamp)
    (verified : Verified) : Accounts :=
  { db with
    nextId := db.nextId + 1
    sessions := db.sessions.upsert
      { id := db.nextId
        userId := db.user.id
        tokenHash
        userAgent
        ipAddress
        expiresAt := now + sessionLifetime
        revokedAt := none
        verified } }

def insertPat (session : SessionRow) (name tokenHash tokenPrefix : String)
    (expiresAt : Option Timestamp) : Accounts :=
  { db with
    nextId := db.nextId + 1
    pats := db.pats.upsert
      { id := db.nextId
        userId := session.userId
        name
        tokenHash
        tokenPrefix
        expiresAt
        revokedAt := none
        sessionId := session.id } }

/-- The statement of a recovery: the new hash, and every session and token of the user
revoked. -/
def recover (newHash : String) (now : Timestamp) : Accounts :=
  { db with
    user := { db.user with passwordHash := newHash }
    sessions := db.sessions.update (SessionRow.revoke db.user.id now)
      (SessionRow.id_revoke db.user.id now)
    pats := db.pats.update (PatRow.revoke db.user.id now) (PatRow.id_revoke db.user.id now)
    history := db.history ++ [newHash] }

end Accounts

def Request.read (verify : String → String → Bool) (db : Accounts) : Request → Except Reply Tx
  | .login username password tokenHash userAgent ipAddress now =>
    if db.user.username ≠ username then
      .error (.error 401 "invalid_credentials" "Invalid username or password")
    else if !verify password db.user.passwordHash || db.user.disabledAt.isSome then
      .error (.error 401 "invalid_credentials" "Invalid username or password")
    else
      .ok (.login db.user.id tokenHash userAgent ipAddress now
        ⟨password, db.user.passwordHash, db.history.length⟩)
  | .createPat sessionToken name tokenHash tokenPrefix expiresAt seen now =>
    match db.validateSessionToken sessionToken seen with
    | .error code => .error (.error 401 code (errorMessage code))
    | .ok session =>
      if name.isEmpty then .error (.error 400 "missing_name" "PAT name is required")
      else if 128 < name.utf8ByteSize then
        .error (.error 400 "name_too_long" "PAT name must be 128 characters or fewer")
      else if expiresAt.any (· ≤ seen) then
        .error (.error 400 "invalid_expiry" "Expiry must be in the future")
      else
        .ok (.createPat session.id session.userId sessionToken name tokenHash tokenPrefix
          expiresAt now)
  | .recovery username newHash now => .ok (.recovery username newHash now)

def Tx.body : Tx → Body Accounts Reply
  | .login userId tokenHash userAgent ipAddress now verified =>
    .statement
      (fun view db =>
        if view.acceptsLogin userId verified.hash then
          db.insertSession tokenHash userAgent ipAddress now verified else db)
      fun view =>
        if view.acceptsLogin userId verified.hash then .commit (.loggedIn view.nextId)
        else .rollback (.error 401 "invalid_credentials" "Invalid username or password")
  | .createPat sessionId userId sessionToken name tokenHash tokenPrefix expiresAt now =>
    .statement
      (fun view db =>
        match view.patSession sessionId userId sessionToken now with
        | some session => db.insertPat session name tokenHash tokenPrefix expiresAt
        | none => db)
      fun view =>
        match view.patSession sessionId userId sessionToken now with
        | some _ => .commit (.patCreated view.nextId)
        | none => .rollback (.error 401 "not_authenticated" "Not authenticated")
  | .recovery username newHash now =>
    .statement (fun _ db => db) fun view =>
      if view.user.username = username then
        .statement (fun _ db => db.recover newHash now) fun _ => .commit .recovered
      else .rollback (.error 404 "user_not_found" "User not found")

def Request.newHash : Request → Option String
  | .recovery _ newHash _ => some newHash
  | _ => none

/-- The three handlers. Each recovery brings a hash that no other has had. -/
def accountProtocol (verify : String → String → Bool) : Protocol Accounts Request Tx Reply where
  admits db earlier request :=
    request.newHash.all fun newHash =>
      !db.history.contains newHash && !(earlier.filterMap Request.newHash).contains newHash
  read request db := request.read verify db
  body := Tx.body
  failure
    | .login .. => .error 500 "internal_error" "Login failed"
    | .createPat .. => .error 500 "internal_error" "Failed to create PAT"
    | .recovery .. => .error 500 "internal_error" "Recovery failed"

structure Accounts.IsInitial (db : Accounts) : Prop where
  history : db.history = [db.user.passwordHash]
  fresh : ∀ session ∈ db.sessions, session.id < db.nextId

variable {verify : String → String → Bool} {db : Accounts}

/-- What a login verified is the latest hash, and it read it when it was already the latest. -/
structure Verified.IsCurrent (verify : String → String → Bool) (history : List String)
    (verified : Verified) : Prop where
  hash : history.getLast? = some verified.hash
  epoch : verified.epoch = history.length
  password : verify verified.password verified.hash = true

/-- What a login verified was the latest hash at its epoch. -/
structure Verified.WasCurrent (verify : String → String → Bool) (history : List String)
    (verified : Verified) : Prop where
  hash : history[verified.epoch - 1]? = some verified.hash
  epoch : 0 < verified.epoch
  password : verify verified.password verified.hash = true

structure Accounts.Sound (verify : String → String → Bool) (db : Accounts) : Prop where
  current : db.history.getLast? = some db.user.passwordHash
  distinct : db.history.Nodup
  fresh : ∀ session ∈ db.sessions, session.id < db.nextId
  sessions : 1 < db.history.length → ∀ session ∈ db.sessions, session.userId = db.user.id →
    session.revokedAt = none → session.verified.IsCurrent verify db.history
  pats : 1 < db.history.length → ∀ pat ∈ db.pats, pat.userId = db.user.id →
    pat.revokedAt = none → ∃ session ∈ db.sessions, session.id = pat.sessionId ∧
      session.verified.IsCurrent verify db.history

theorem Accounts.IsInitial.sound (initial : db.IsInitial) : db.Sound verify where
  current := by simp [initial.history]
  distinct := by simp [initial.history]
  fresh := initial.fresh
  sessions recovered := by simp [initial.history] at recovered
  pats recovered := by simp [initial.history] at recovered

variable {history : List String} {verified : Verified} {request : Request}

/-- A password is current if it is verified against the last hash of the history. -/
theorem Verified.WasCurrent.isCurrent (distinct : history.Nodup)
    (was : verified.WasCurrent verify history) (latest : history.getLast? = some verified.hash) :
    verified.IsCurrent verify history := by
  refine ⟨latest, ?_, was.password⟩
  rw [getLast?_eq_getElem?] at latest
  rcases List.getElem?_eq_some_iff.mp was.hash with ⟨bound, isHash⟩
  rcases List.getElem?_eq_some_iff.mp latest with ⟨lastBound, isLast⟩
  have index := (List.Nodup.getElem_inj_iff distinct).mp (isHash.trans isLast.symm)
  have positive := was.epoch
  omega

theorem Verified.WasCurrent.append (was : verified.WasCurrent verify history) (more : List String) :
    verified.WasCurrent verify (history ++ more) :=
  ⟨by rw [getElem?_append_left (List.getElem?_eq_some_iff.mp was.hash).1, was.hash],
    was.epoch, was.password⟩

/-- A login with the current password keeps the accounts sound. -/
theorem Accounts.Sound.insertSession (sound : db.Sound verify)
    (current : verified.IsCurrent verify db.history) (tokenHash userAgent ipAddress : String)
    (now : Timestamp) :
    (db.insertSession tokenHash userAgent ipAddress now verified).Sound verify := by
  refine ⟨sound.current, sound.distinct, ?_, ?_, ?_⟩
  · intro session mem
    rcases Core.Table.mem_upsert.mp mem with rfl | ⟨old, _⟩
    · exact Nat.lt_succ_self _
    · exact Nat.lt_succ_of_lt (sound.fresh session old)
  · intro recovered session mem isUser unrevoked
    rcases Core.Table.mem_upsert.mp mem with rfl | ⟨old, _⟩
    · exact current
    · exact sound.sessions recovered session old isUser unrevoked
  · intro recovered pat mem isUser unrevoked
    rcases sound.pats recovered pat mem isUser unrevoked with ⟨session, old, isSession, isCurrent⟩
    have apart : session.id ≠ db.nextId := Nat.ne_of_lt (sound.fresh session old)
    exact ⟨session, Core.Table.mem_upsert.mpr (.inr ⟨old, apart⟩), isSession, isCurrent⟩

/-- A token that a valid session issues keeps the accounts sound. -/
theorem Accounts.Sound.insertPat (sound : db.Sound verify) {session : SessionRow}
    {sessionId : Nat} {userId sessionToken : String} {now : Timestamp}
    (found : db.patSession sessionId userId sessionToken now = some session)
    (name tokenHash tokenPrefix : String) (expiresAt : Option Timestamp) :
    (db.insertPat session name tokenHash tokenPrefix expiresAt).Sound verify := by
  rcases Option.filter_eq_some_iff.mp found with ⟨isSession, checks⟩
  simp only [Bool.and_eq_true, decide_eq_true_eq, Option.isNone_iff_eq_none] at checks
  rcases checks with ⟨⟨⟨⟨⟨_, _⟩, unrevoked⟩, _⟩, isUser⟩, _⟩
  have inTable := (Core.Table.find?_eq_some.mp isSession).1
  refine ⟨sound.current, sound.distinct, ?_, sound.sessions, ?_⟩
  · exact fun other mem => Nat.lt_succ_of_lt (sound.fresh other mem)
  · intro recovered pat mem patUser patUnrevoked
    rcases Core.Table.mem_upsert.mp mem with rfl | ⟨old, _⟩
    · exact ⟨session, inTable, rfl, sound.sessions recovered session inTable isUser.symm unrevoked⟩
    · exact sound.pats recovered pat old patUser patUnrevoked

/-- A recovery revokes what the old password authorised, so the accounts stay sound. -/
theorem Accounts.Sound.recover (sound : db.Sound verify) {newHash : String}
    (fresh : newHash ∉ db.history) (now : Timestamp) :
    (db.recover newHash now).Sound verify := by
  refine ⟨by simp [Accounts.recover], ?_, ?_, ?_, ?_⟩
  · refine nodup_append.mpr ⟨sound.distinct, by simp, ?_⟩
    intro hash mem other isOther same
    rcases mem_singleton.mp isOther with rfl
    exact fresh (same ▸ mem)
  · intro session mem
    rcases mem_map.mp mem with ⟨old, isOld, rfl⟩
    rw [SessionRow.id_revoke]
    exact sound.fresh old isOld
  · intro _ session mem isUser unrevoked
    rcases mem_map.mp mem with ⟨old, _, rfl⟩
    exact absurd unrevoked (SessionRow.revokedAt_revoke isUser)
  · intro _ pat mem isUser unrevoked
    rcases mem_map.mp mem with ⟨old, _, rfl⟩
    exact absurd unrevoked (PatRow.revokedAt_revoke isUser)

def Fits (verify : String → String → Bool) (history : List String)
    (client : Client Accounts Request Tx Reply) : Prop :=
  match client.phase with
  | .reads => ∀ newHash, client.request.newHash = some newHash → newHash ∉ history
  | .waits (.login _ _ _ _ _ verified) => verified.WasCurrent verify history
  | .waits (.recovery _ newHash _) =>
    client.request.newHash = some newHash ∧ newHash ∉ history
  | _ => True

structure RecoveryInvariant (verify : String → String → Bool)
    (s : State Accounts Request Tx Reply) : Prop where
  sound : s.db.Sound verify
  fits : ∀ {i : Nat} {client : Client Accounts Request Tx Reply}, s.clients[i]? = some client →
    Fits verify s.db.history client
  distinct : ∀ {i j : Nat} {first second : Client Accounts Request Tx Reply} {newHash : String},
    s.clients[i]? = some first → s.clients[j]? = some second →
    first.request.newHash = some newHash → second.request.newHash = some newHash → i = j

variable {s t : State Accounts Request Tx Reply}

theorem RecoveryInvariant.set (invariant : RecoveryInvariant verify s) {index : Nat}
    {before after : Phase Accounts Tx Reply} (found : s.clients[index]? = some ⟨request, before⟩)
    {next : Accounts} (sound : next.Sound verify)
    (fits : Fits verify next.history ⟨request, after⟩)
    (others : ∀ {i : Nat} {client : Client Accounts Request Tx Reply}, i ≠ index →
      s.clients[i]? = some client → Fits verify s.db.history client →
      Fits verify next.history client) :
    RecoveryInvariant verify (State.set { s with db := next } index request after) where
  sound := sound
  fits := by
    intro i client isClient
    rcases State.getElem?_set isClient with ⟨_, rfl⟩ | ⟨different, old⟩
    · exact fits
    · exact others different old (invariant.fits old)
  distinct := by
    have same : ∀ {i : Nat} {client : Client Accounts Request Tx Reply},
        (State.set { s with db := next } index request after).clients[i]? = some client →
        ∃ old, s.clients[i]? = some old ∧ old.request = client.request := by
      intro i client isClient
      rcases State.getElem?_set isClient with ⟨rfl, rfl⟩ | ⟨_, old⟩
      · exact ⟨_, found, rfl⟩
      · exact ⟨client, old, rfl⟩
    intro i j first second newHash isFirst isSecond firstHash secondHash
    rcases same isFirst with ⟨oldFirst, foundFirst, firstRequest⟩
    rcases same isSecond with ⟨oldSecond, foundSecond, secondRequest⟩
    exact invariant.distinct foundFirst foundSecond (firstRequest ▸ firstHash)
      (secondRequest ▸ secondHash)

theorem RecoveryInvariant.arrive (invariant : RecoveryInvariant verify s)
    (admitted : (accountProtocol verify).admits s.db (s.clients.map Client.request) request =
      true) : RecoveryInvariant verify { s with clients := s.clients ++ [⟨request, .reads⟩] } := by
  have fresh : ∀ {newHash : String}, request.newHash = some newHash → newHash ∉ s.db.history ∧
      ∀ client ∈ s.clients, client.request.newHash ≠ some newHash := by
    intro newHash isNew
    simp only [accountProtocol, isNew, Option.all_some, Bool.and_eq_true, Bool.not_eq_true',
      contains_iff_mem, ← Bool.not_eq_true, mem_filterMap, mem_map] at admitted
    refine ⟨admitted.1, fun client mem same => admitted.2 ?_⟩
    exact ⟨client.request, ⟨client, mem, rfl⟩, same⟩
  constructor
  · exact invariant.sound
  · intro i client found
    rcases State.getElem?_arrive found with old | ⟨_, rfl⟩
    · exact invariant.fits old
    · exact fun newHash isNew => (fresh isNew).1
  · intro i j first second newHash isFirst isSecond firstHash secondHash
    rcases State.getElem?_arrive isFirst with oldFirst | ⟨firstIndex, rfl⟩
    · rcases State.getElem?_arrive isSecond with oldSecond | ⟨_, rfl⟩
      · exact invariant.distinct oldFirst oldSecond firstHash secondHash
      · exact absurd firstHash ((fresh secondHash).2 first (mem_of_getElem? oldFirst))
    · rcases State.getElem?_arrive isSecond with oldSecond | ⟨secondIndex, rfl⟩
      · exact absurd secondHash ((fresh firstHash).2 second (mem_of_getElem? oldSecond))
      · rw [firstIndex, secondIndex]

/-- What a request has read fits the history at that time. -/
theorem Request.read_fits (sound : s.db.Sound verify) {tx : Tx}
    (reads : Fits verify s.db.history ⟨request, .reads⟩)
    (read : request.read verify s.db = .ok tx) : Fits verify s.db.history ⟨request, .waits tx⟩ := by
  cases request with
  | login username password tokenHash userAgent ipAddress now =>
    simp only [Request.read] at read
    split at read
    · cases read
    split at read
    · cases read
    rename_i accepted
    cases read
    simp only [Bool.or_eq_true, Bool.not_eq_true', not_or, Bool.not_eq_false] at accepted
    have nonempty : s.db.history ≠ [] := by
      intro empty
      have current := sound.current
      simp [empty] at current
    refine ⟨?_, length_pos_iff.mpr nonempty, accepted.1⟩
    rw [← getLast?_eq_getElem?, sound.current]
  | createPat =>
    simp only [Request.read] at read
    split at read
    · cases read
    split at read
    · cases read
    split at read
    · cases read
    split at read <;> cases read
    trivial
  | recovery username newHash now =>
    cases read
    exact ⟨rfl, reads newHash rfl⟩

/-- A recovery of somebody else does not disturb a waiting request. -/
theorem Fits.append {client : Client Accounts Request Tx Reply}
    (fits : Fits verify history client) {newHash : String}
    (different : client.request.newHash ≠ some newHash) :
    Fits verify (history ++ [newHash]) client := by
  have stays : ∀ {other}, client.request.newHash = some other → other ∉ history →
      other ∉ history ++ [newHash] := by
    intro other isOther absent mem
    rcases mem_append.mp mem with old | new
    · exact absent old
    · exact different ((mem_singleton.mp new) ▸ isOther)
  rcases client with ⟨request, phase⟩
  cases phase with
  | reads => exact fun other isOther => stays isOther (fits other isOther)
  | waits tx =>
    cases tx with
    | login => exact Verified.WasCurrent.append fits _
    | createPat => trivial
    | recovery => exact ⟨fits.1, stays fits.1 fits.2⟩
  | _ => trivial

/-- What a transaction does when it runs at once. -/
inductive Commits (db : Accounts) : Tx → Accounts → Prop where
  | login {userId tokenHash userAgent ipAddress : String} {now : Timestamp} {verified : Verified}
      (accepted : db.acceptsLogin userId verified.hash = true) :
      Commits db (.login userId tokenHash userAgent ipAddress now verified)
        (db.insertSession tokenHash userAgent ipAddress now verified)
  | createPat {sessionId : Nat} {userId sessionToken name tokenHash tokenPrefix : String}
      {expiresAt : Option Timestamp} {now : Timestamp} {session : SessionRow}
      (found : db.patSession sessionId userId sessionToken now = some session) :
      Commits db (.createPat sessionId userId sessionToken name tokenHash tokenPrefix expiresAt now)
        (db.insertPat session name tokenHash tokenPrefix expiresAt)
  | recovery {username newHash : String} {now : Timestamp} :
      Commits db (.recovery username newHash now) (db.recover newHash now)

/-- The transactions that commit, and what they leave. -/
theorem Tx.commits {tx : Tx} {next : Accounts} {answer : Reply}
    (outcome : tx.body.outcome db id = .commits next answer) : Commits db tx next := by
  cases tx with
  | login userId tokenHash userAgent ipAddress now verified =>
    simp only [Tx.body, Body.outcome, id_eq, Function.comp_id] at outcome
    split at outcome
    · rename_i accepted
      cases outcome
      exact .login accepted
    · cases outcome
  | createPat sessionId userId sessionToken name tokenHash tokenPrefix expiresAt now =>
    simp only [Tx.body, Body.outcome, id_eq, Function.comp_id] at outcome
    cases found : db.patSession sessionId userId sessionToken now with
    | none =>
      rw [found] at outcome
      cases outcome
    | some session =>
      rw [found] at outcome
      cases outcome
      exact .createPat found
  | recovery username newHash now =>
    simp only [Tx.body, Body.outcome, id_eq] at outcome
    split at outcome <;> cases outcome
    exact .recovery

/-- Every commit keeps the invariant. -/
theorem RecoveryInvariant.commit (invariant : RecoveryInvariant verify s) {index : Nat} {tx : Tx}
    {next : Accounts} {answer : Reply} (found : s.clients[index]? = some ⟨request, .waits tx⟩)
    (commits : Commits s.db tx next) :
    RecoveryInvariant verify (State.set { s with db := next } index request
      (.committed tx answer)) := by
  have fits := invariant.fits found
  cases commits with
  | login accepted =>
    simp only [Accounts.acceptsLogin, Bool.and_eq_true, decide_eq_true_eq] at accepted
    have latest := invariant.sound.current
    rw [accepted.1.2] at latest
    have current := Verified.WasCurrent.isCurrent invariant.sound.distinct fits latest
    exact invariant.set found (invariant.sound.insertSession current _ _ _ _) trivial
      fun _ _ stays => stays
  | createPat isSession =>
    exact invariant.set found (invariant.sound.insertPat isSession _ _ _ _) trivial
      fun _ _ stays => stays
  | recovery =>
    refine invariant.set found (invariant.sound.recover fits.2 _) trivial ?_
    intro i client different isClient stays
    refine stays.append fun same => different ?_
    exact invariant.distinct isClient found same fits.1

/-- Every step of the serial system keeps the invariant. -/
theorem RecoveryInvariant.step (invariant : RecoveryInvariant verify s)
    (step : Serially (accountProtocol verify) s t) : RecoveryInvariant verify t := by
  cases step with
  | stays => exact invariant
  | arrives admitted => exact invariant.arrive admitted
  | begins found read =>
    exact invariant.set found invariant.sound
      (Request.read_fits invariant.sound (invariant.fits found) read) fun _ _ stays => stays
  | commits found outcome => exact invariant.commit found (Tx.commits outcome)
  | refuses found | rollsBack found | answers found | fails found =>
    exact invariant.set found invariant.sound trivial fun _ _ stays => stays

/-- Once a recovery has committed, every usable session of the user comes from a login that
verified the hash of the latest recovery, read after that had committed, and every usable token
was created from such a session. -/
theorem recovery_revokes_credentials (verify : String → String → Bool)
    {s : State Accounts Request Tx Reply}
    (reachable : (system (accountProtocol verify) Accounts.IsInitial).Reachable s)
    (recovered : 1 < s.db.history.length) :
    s.db.history.getLast? = some s.db.user.passwordHash ∧
      (∀ session ∈ s.db.sessions, session.userId = s.db.user.id → session.revokedAt = none →
        session.verified.IsCurrent verify s.db.history) ∧
      ∀ pat ∈ s.db.pats, pat.userId = s.db.user.id → pat.revokedAt = none →
        ∃ session ∈ s.db.sessions, session.id = pat.sessionId ∧
          session.verified.IsCurrent verify s.db.history := by
  have invariant : RecoveryInvariant verify s.serial := by
    refine (reachable_serial reachable).invariant (RecoveryInvariant verify) ?_ ?_
    · intro start isNew
      refine ⟨isNew.db.sound, ?_, ?_⟩
      · intro i client found
        simp [isNew.clients] at found
      · intro i j first second newHash isFirst
        simp [isNew.clients] at isFirst
    · exact fun holds step => holds.step step
  exact ⟨invariant.sound.current, invariant.sound.sessions recovered,
    invariant.sound.pats recovered⟩

def plainVerify (password hash : String) : Bool := hash == password

def adaAccounts : Accounts where
  user := ⟨"u1", "ada", "old", none⟩
  sessions := ⟨[⟨0, "u1", "t0", "", "", 90, none, ⟨"old", "old", 1⟩⟩], by decide⟩
  pats := .empty
  nextId := 1
  history := ["old"]

theorem adaAccounts_isInitial : adaAccounts.IsInitial :=
  ⟨rfl, fun session mem => by rw [mem_singleton.mp mem]; decide⟩

/-- A login verifies the old password before a recovery and another the new one after it; a token
is created before the recovery and another with the new session. -/
def recoveryRun : List (Label Request) :=
  [.arrive (.createPat "t0" "backup" "p0" "p" none 1 1), .advance 0, .advance 0, .advance 0,
    .advance 0, .arrive (.login "ada" "old" "t1" "" "" 1), .advance 1,
    .arrive (.recovery "ada" "new" 2), .advance 2, .advance 2, .advance 2, .advance 2, .advance 2,
    .advance 1, .advance 1, .advance 1, .arrive (.login "ada" "new" "t2" "" "" 3), .advance 3,
    .advance 3, .advance 3, .advance 3, .arrive (.createPat "t2" "laptop" "p1" "p" none 4 4),
    .advance 4, .advance 4, .advance 4, .advance 4]

/-- The session and the token of the old password are revoked, and those of the new one are not. -/
structure Recovered (db : Accounts) : Prop where
  sessions : db.sessions.rows = [⟨0, "u1", "t0", "", "", 90, some 2, ⟨"old", "old", 1⟩⟩,
    ⟨2, "u1", "t2", "", "", 86403, none, ⟨"new", "new", 2⟩⟩]
  pats : db.pats.rows = [⟨1, "u1", "backup", "p0", "p", none, some 2, 0⟩,
    ⟨3, "u1", "laptop", "p1", "p", none, none, 2⟩]
  history : db.history = ["old", "new"]

theorem recoveryRun_revokes :
    ∃ s : State Accounts Request Tx Reply,
      (system (accountProtocol plainVerify) Accounts.IsInitial).Reachable s ∧ Recovered s.db ∧
      (s.db.history.getLast? = some s.db.user.passwordHash ∧
        (∀ session ∈ s.db.sessions, session.userId = s.db.user.id → session.revokedAt = none →
          session.verified.IsCurrent plainVerify s.db.history) ∧
        ∀ pat ∈ s.db.pats, pat.userId = s.db.user.id → pat.revokedAt = none →
          ∃ session ∈ s.db.sessions, session.id = pat.sessionId ∧
            session.verified.IsCurrent plainVerify s.db.history) := by
  have played : ∃ s, Core.TransitionSystem.replay
      (fun s label => State.exec s (accountProtocol plainVerify) label) ⟨adaAccounts, []⟩
      recoveryRun = some s ∧ Recovered s.db := ⟨_, rfl, rfl, rfl, rfl⟩
  rcases played with ⟨s, isPlayed, recovered⟩
  have reachable : (system (accountProtocol plainVerify) Accounts.IsInitial).Reachable s :=
    ⟨_, recoveryRun, ⟨adaAccounts_isInitial, rfl⟩, .of_replay (fun step => step) isPlayed⟩
  exact ⟨s, reachable, recovered,
    recovery_revokes_credentials plainVerify reachable (by simp [recovered.history])⟩

end Plinth.Auth
