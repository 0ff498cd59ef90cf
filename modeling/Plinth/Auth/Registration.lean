import Plinth.Auth.Recovery

/-!
# Bootstrap and registration

Model of `bootstrap_user_atomic` and `register_user_atomic` in `auth/handlers.cpp`. Each runs
one transaction under the advisory lock `plinth.auth.registration`, counts the ordinary users
first, and answers success only when the commit is acknowledged.

The directory records what the tables do not: the transactions that have committed, in order.
-/

namespace Plinth.Auth.Registration

open Core.Locked List Core

inductive Mode where
  | disabled
  | invite
  | isOpen
  deriving DecidableEq

structure Settings where
  mode : Mode := .disabled
  maxAccounts : Nat := 1000

structure UserRow where
  id : Nat
  username : String
  passwordHash : String
  createdAt : Timestamp
  isTestUser : Bool

structure GroupRow where
  id : Nat
  name : String

structure MemberRow where
  groupId : Nat
  userId : Nat

structure InviteRow where
  id : Nat
  tokenHash : String
  expiresAt : Timestamp
  revokedAt : Option Timestamp
  usedAt : Option Timestamp
  usedByUserId : Option Nat

variable (username passwordHash : String) (inviteId : Nat) (now : Timestamp) (userId : Nat)

def InviteRow.isUsable (invite : InviteRow) : Bool :=
  invite.revokedAt.isNone && invite.usedAt.isNone && now < invite.expiresAt

def InviteRow.use (now : Timestamp) (invite : InviteRow) : InviteRow :=
  if invite.id = inviteId then { invite with usedAt := some now, usedByUserId := some userId }
  else invite

theorem InviteRow.id_use (now : Timestamp) (invite : InviteRow) :
    (invite.use inviteId userId now).id = invite.id := by
  simp only [use]
  split <;> rfl

/-- A transaction that has committed: the user it has created, the invite it has consumed, and
its `NOW()`. -/
inductive Entry where
  | bootstrap (userId : Nat)
  | registration (userId invite : Option Nat) (now : Timestamp)

def Entry.created : Entry → Option Nat
  | .bootstrap userId => some userId
  | .registration userId _ _ => userId

def Entry.invite : Entry → Option Nat
  | .bootstrap _ => none
  | .registration _ invite _ => invite

structure Directory where
  users : Table UserRow Nat UserRow.id
  groups : Table GroupRow Nat GroupRow.id
  members : List MemberRow
  invites : Table InviteRow Nat InviteRow.id
  nextId : Nat
  log : List Entry

inductive Request where
  | bootstrap (username passwordHash : String) (now : Timestamp)
  | register (username passwordHash inviteHash : String) (now : Timestamp)

/-- The responses. `processed` carries the user that `finish_processed` audits. -/
inductive Reply where
  | error (status : Nat) (code message : String)
  | registered (userId : Nat) (username : String) (createdAt : Timestamp)
  | processed (userId : Option Nat)

def Reply.created : Reply → Option Nat
  | .error _ _ _ => none
  | .registered userId _ _ => some userId
  | .processed userId => userId

namespace Directory

variable (db : Directory)

/-- `SELECT COUNT(*) FROM plinth.users WHERE NOT is_test_user`. -/
def accounts : Nat := (db.users.rows.filter fun user => !user.isTestUser).length

def findUser (username : String) : Option UserRow :=
  db.users.rows.find? fun user => user.username = username

def adminGroups : List GroupRow := db.groups.rows.filter fun group => group.name = "admin"

def findInvite (tokenHash : String) (now : Timestamp) : Option InviteRow :=
  db.invites.rows.find? fun invite => invite.tokenHash = tokenHash && invite.isUsable now

def insertUser (username passwordHash : String) (now : Timestamp) : Directory :=
  { db with
    nextId := db.nextId + 1
    users := db.users.upsert
      { id := db.nextId, username, passwordHash, createdAt := now, isTestUser := false } }

def joinAdmin (userId : Nat) : Directory :=
  { db with members := db.members ++ db.adminGroups.map fun group => ⟨group.id, userId⟩ }

def useInvite (inviteId userId : Nat) (now : Timestamp) : Directory :=
  { db with
    invites := db.invites.update (InviteRow.use inviteId userId now)
      (InviteRow.id_use inviteId userId now) }

@[simp]
def record (entries : List Entry) : Directory := { db with log := db.log ++ entries }

@[simp]
theorem record_nil : db.record [] = db := by
  simp

end Directory

def insertStatement (entries : Nat → List Entry) (failure : Reply)
    (next : Nat → Body Directory Reply) : Body Directory Reply :=
  .statement
    (fun view db =>
      if (view.findUser username).isSome then db
      else (db.insertUser username passwordHash now).record (entries db.nextId))
    fun view => if (view.findUser username).isSome then .rollback failure else next view.nextId

def insertRegisteredUser : Body Directory Reply :=
  insertStatement username passwordHash now (fun _ => [])
    (.error 500 "internal_error" "Bootstrap failed") fun userId =>
      .statement (fun _ db => (db.joinAdmin userId).record [.bootstrap userId]) fun view =>
        if view.adminGroups.length ≠ 1 then
          .rollback (.error 500 "internal_error" "Registration failed")
        else .commit (.registered userId username now)

def bootstrapUserAtomic : Body Directory Reply :=
  .query fun view =>
    if view.accounts ≠ 0 then
      .rollback (.error 409 "bootstrap_closed" "Bootstrap is already complete")
    else insertRegisteredUser username passwordHash now

def finishInviteUse (created : Bool) (now : Timestamp) : Body Directory Reply :=
  let reported := if created then some userId else none
  .statement
    (fun _ db => (db.useInvite inviteId userId now).record
      [.registration reported (some inviteId) now])
    fun _ => .commit (.processed reported)

def insertOrdinaryUser (inviteId : Option Nat) (now : Timestamp) : Body Directory Reply :=
  let failure := .error 500 "internal_error" "Registration failed"
  match inviteId with
  | some inviteId =>
    insertStatement username passwordHash now (fun _ => []) failure fun userId =>
      finishInviteUse inviteId userId true now
  | none =>
    insertStatement username passwordHash now
      (fun userId => [.registration (some userId) none now]) failure fun userId =>
        .commit (.processed (some userId))

def registerAfterInvite : Body Directory Reply :=
  .query fun view =>
    match view.findUser username with
    | some user => finishInviteUse inviteId user.id false now
    | none => insertOrdinaryUser username passwordHash (some inviteId) now

def registerUserAtomic (settings : Settings) (username passwordHash inviteHash : String)
    (now : Timestamp) : Body Directory Reply :=
  .query fun view =>
    if view.accounts = 0 || settings.mode = .disabled then .rollback (.processed none)
    else if view.accounts ≥ settings.maxAccounts then .rollback (.processed none)
    else if settings.mode = .isOpen then
      .query fun view =>
        if (view.findUser username).isSome then .rollback (.processed none)
        else insertOrdinaryUser username passwordHash none now
    else
      .query fun view =>
        match view.findInvite inviteHash now with
        | none => .rollback (.processed none)
        | some invite => registerAfterInvite username passwordHash invite.id now

def Request.body (settings : Settings) : Request → Body Directory Reply
  | .bootstrap username passwordHash now => bootstrapUserAtomic username passwordHash now
  | .register username passwordHash inviteHash now =>
    registerUserAtomic settings username passwordHash inviteHash now

def registrationProtocol (settings : Settings) : Protocol Directory Request Request Reply where
  admits _ _ _ := true
  read request _ :=
    match request with
    | .register _ _ _ _ =>
      if settings.mode = .disabled then
        .error (.error 403 "registration_unavailable" "Registration is unavailable")
      else .ok request
    | .bootstrap _ _ _ => .ok request
  body := Request.body settings
  failure _ := .error 500 "internal_error" "Registration failed"

/-- What a transaction does when it runs at once and commits. -/
inductive Commits (settings : Settings) (db : Directory) : Request → Directory → Reply → Prop where
  | bootstrap {username passwordHash : String} {now : Timestamp} {admin : GroupRow}
      (none : db.accounts = 0) (isAdmin : db.adminGroups = [admin]) :
      Commits settings db (.bootstrap username passwordHash now)
        (((db.insertUser username passwordHash now).joinAdmin db.nextId).record
          [.bootstrap db.nextId])
        (.registered db.nextId username now)
  | opens {username passwordHash inviteHash : String} {now : Timestamp}
      (some : db.accounts ≠ 0) (room : db.accounts < settings.maxAccounts) :
      Commits settings db (.register username passwordHash inviteHash now)
        ((db.insertUser username passwordHash now).record
          [.registration (.some db.nextId) .none now])
        (.processed (.some db.nextId))
  | invites {username passwordHash inviteHash : String} {now : Timestamp} {invite : InviteRow}
      (some : db.accounts ≠ 0) (room : db.accounts < settings.maxAccounts)
      (found : db.findInvite inviteHash now = .some invite) :
      Commits settings db (.register username passwordHash inviteHash now)
        (((db.insertUser username passwordHash now).useInvite invite.id db.nextId now).record
          [.registration (.some db.nextId) (.some invite.id) now])
        (.processed (.some db.nextId))
  | spends {username passwordHash inviteHash : String} {now : Timestamp} {invite : InviteRow}
      {user : UserRow} (some : db.accounts ≠ 0)
      (found : db.findInvite inviteHash now = .some invite) :
      Commits settings db (.register username passwordHash inviteHash now)
        ((db.useInvite invite.id user.id now).record [.registration .none (.some invite.id) now])
        (.processed .none)

section Outcome

variable {db : Directory}

/-- The insertion of a user fails for a taken name and goes on otherwise. -/
theorem outcome_insertStatement (username passwordHash : String) (now : Timestamp)
    (entries : Nat → List Entry) (failure : Reply) (rest : Nat → Body Directory Reply) :
    (insertStatement username passwordHash now entries failure rest).outcome db id =
      if (db.findUser username).isSome then .refuses failure
      else (rest db.nextId).outcome db fun db =>
        (db.insertUser username passwordHash now).record (entries db.nextId) := by
  simp only [insertStatement, Body.outcome, id_eq, Function.comp_id]
  split <;> rfl

/-- A transaction that is rolled back reports no account. -/
def Ends (settings : Settings) (db : Directory) (request : Request) : Outcome Directory Reply → Prop
  | .commits next answer => Commits settings db request next answer
  | .refuses answer => answer.created = none

/-- The ways in which the transaction of a registration can end. -/
theorem Request.ends (settings : Settings) (db : Directory) (request : Request) :
    Ends settings db request ((request.body settings).outcome db id) := by
  cases request with
  | bootstrap username passwordHash now =>
    simp only [Request.body, bootstrapUserAtomic, Body.outcome_query, id_eq]
    split
    · rfl
    rename_i none
    simp only [insertRegisteredUser, outcome_insertStatement, Body.outcome]
    split
    · rfl
    split
    · rfl
    rename_i single
    rcases length_eq_one_iff.mp (not_ne_iff.mp single) with ⟨admin, isAdmin⟩
    simp only [Ends, Body.outcome, Function.comp_apply, Directory.record_nil]
    exact .bootstrap (not_ne_iff.mp none) isAdmin
  | register username passwordHash inviteHash now =>
    simp only [Request.body, registerUserAtomic, Body.outcome_query, id_eq]
    split
    · rfl
    split
    · rfl
    rename_i some room
    have nonzero : db.accounts ≠ 0 := by
      intro zero
      simp [zero] at some
    split
    · rw [Body.outcome_query]
      split
      · rfl
      simp only [insertOrdinaryUser, outcome_insertStatement]
      split
      · rfl
      · exact .opens nonzero (Nat.lt_of_not_le room)
    · rw [Body.outcome_query]
      split
      · rfl
      rename_i invite found
      rw [registerAfterInvite, Body.outcome_query]
      split
      · exact .spends nonzero found
      simp only [insertOrdinaryUser, outcome_insertStatement]
      split
      · rfl
      · simp only [finishInviteUse, Ends, Body.outcome, Function.comp_apply, Directory.record_nil]
        exact .invites nonzero (Nat.lt_of_not_le room) found

end Outcome

/-- A directory without ordinary users. There may be test users, with their memberships, and
invites. -/
structure Directory.IsInitial (db : Directory) : Prop where
  users : ∀ user ∈ db.users, user.isTestUser = true ∧ user.id < db.nextId
  members : ∀ member ∈ db.members, member.userId < db.nextId
  log : db.log = []

/-- What the accounts and memberships are, given the transactions that have committed. -/
structure Directory.AccountsSound (settings : Settings) (db : Directory) : Prop where
  /-- The first transaction is the only bootstrap. -/
  order : db.log = [] ∨ ∃ userId rest, db.log = .bootstrap userId :: rest ∧
    ∀ entry ∈ rest, ∃ created invite now, entry = .registration created invite now
  /-- The ordinary users are those that the transactions have created. -/
  ordinary : ∀ userId, userId ∈ db.log.filterMap Entry.created ↔
    ∃ user ∈ db.users, user.id = userId ∧ user.isTestUser = false
  distinct : (db.log.filterMap Entry.created).Nodup
  admin : ∀ userId, .bootstrap userId ∈ db.log →
    ∃ group ∈ db.groups, group.name = "admin" ∧ ⟨group.id, userId⟩ ∈ db.members
  plain : ∀ userId invite now, .registration (some userId) invite now ∈ db.log →
    ∀ member ∈ db.members, member.userId ≠ userId
  bounded : (∃ userId invite now, .registration (some userId) invite now ∈ db.log) →
    db.accounts ≤ settings.maxAccounts
  users : ∀ user ∈ db.users, user.id < db.nextId
  members : ∀ member ∈ db.members, member.userId < db.nextId

/-- What the invites are, given those at the start and the transactions that have committed. -/
structure Directory.InvitesSound (start db : Directory) : Prop where
  once : (db.log.filterMap Entry.invite).Nodup
  usable : ∀ created inviteId now, .registration created (some inviteId) now ∈ db.log →
    ∃ invite ∈ start.invites, invite.id = inviteId ∧ invite.isUsable now = true
  used : ∀ invite ∈ db.invites, invite.id ∈ db.log.filterMap Entry.invite → invite.usedAt ≠ none
  unused : ∀ invite ∈ db.invites, invite.usedAt = none → invite ∈ start.invites

section Invariant

variable {settings : Settings} {start db : Directory}

theorem Directory.IsInitial.accountsSound (initial : db.IsInitial) : db.AccountsSound settings where
  order := .inl initial.log
  ordinary := by
    intro userId
    simp only [initial.log, filterMap_nil, not_mem_nil, false_iff]
    rintro ⟨user, mem, -, ordinary⟩
    rw [(initial.users user mem).1] at ordinary
    cases ordinary
  distinct := by simp [initial.log]
  admin := by simp [initial.log]
  plain := by simp [initial.log]
  bounded := by simp [initial.log]
  users := fun user mem => (initial.users user mem).2
  members := initial.members

theorem Directory.IsInitial.invitesSound (initial : db.IsInitial) : db.InvitesSound db where
  once := by simp [initial.log]
  usable := by simp [initial.log]
  used := by simp [initial.log]
  unused := fun _ mem _ => mem

namespace Directory.AccountsSound

section

variable (sound : db.AccountsSound settings)
include sound

theorem accounts_pos_iff : db.accounts ≠ 0 ↔ db.log ≠ [] := by
  have counted : db.accounts ≠ 0 ↔ ∃ user ∈ db.users, user.isTestUser = false := by
    simp [accounts, filter_eq_nil_iff, Table.mem_rows]
  rw [counted]
  constructor
  · rintro ⟨user, mem, ordinary⟩ empty
    have created := (sound.ordinary user.id).mpr ⟨user, mem, rfl, ordinary⟩
    simp [empty] at created
  · intro nonempty
    rcases sound.order with empty | ⟨userId, rest, isLog, -⟩
    · exact absurd empty nonempty
    · rcases (sound.ordinary userId).mp (by simp [isLog, Entry.created]) with
        ⟨user, mem, -, ordinary⟩
      exact ⟨user, mem, ordinary⟩

/-- After the bootstrap the log grows by registrations only. -/
theorem order_append (some : db.accounts ≠ 0) (created invite : Option Nat) (now : Timestamp) :
    ∃ userId rest, db.log ++ [.registration created invite now] = .bootstrap userId :: rest ∧
      ∀ entry ∈ rest, ∃ created invite now, entry = .registration created invite now := by
  rcases sound.order with empty | ⟨userId, rest, isLog, registrations⟩
  · exact absurd empty (sound.accounts_pos_iff.mp some)
  refine ⟨userId, rest ++ [.registration created invite now], by simp [isLog], ?_⟩
  intro entry mem
  rcases mem_append.mp mem with old | new
  · exact registrations entry old
  · exact ⟨created, invite, now, mem_singleton.mp new⟩

theorem nextId_not_created : db.nextId ∉ db.log.filterMap Entry.created := by
  intro created
  rcases (sound.ordinary db.nextId).mp created with ⟨user, mem, isNext, -⟩
  exact Nat.ne_of_lt (sound.users user mem) isNext

theorem users_insertUser (username passwordHash : String) (now : Timestamp) :
    ∀ user ∈ (db.insertUser username passwordHash now).users, user.id < db.nextId + 1 := by
  intro user mem
  rcases Table.mem_upsert.mp mem with rfl | ⟨old, -⟩
  · exact Nat.lt_succ_self _
  · exact Nat.lt_succ_of_lt (sound.users user old)

theorem accounts_insertUser (username passwordHash : String) (now : Timestamp) :
    (db.insertUser username passwordHash now).accounts = db.accounts + 1 := by
  have fresh : db.users.find? db.nextId = none :=
    Table.find?_eq_none.mpr fun user mem => Nat.ne_of_lt (sound.users user mem)
  have perm := (db.users.perm_upsert
    ⟨db.nextId, username, passwordHash, now, false⟩).filter fun user => !user.isTestUser
  rw [Table.erase_of_find?_eq_none fresh] at perm
  simpa [accounts, insertUser] using perm.length_eq

/-- The log has created exactly the users of the table that are no test users. -/
theorem ordinary_insertUser (username passwordHash : String)
    (now : Timestamp) {entry : Entry} (creates : entry.created = some db.nextId) (userId : Nat) :
    userId ∈ (db.log ++ [entry]).filterMap Entry.created ↔
      ∃ user ∈ (db.insertUser username passwordHash now).users,
        user.id = userId ∧ user.isTestUser = false := by
  simp only [filterMap_append, mem_append, sound.ordinary]
  simp only [filterMap_cons, creates, filterMap_nil, mem_singleton]
  constructor
  · rintro (⟨user, mem, isUser, ordinary⟩ | rfl)
    · have apart : user.id ≠ db.nextId := Nat.ne_of_lt (sound.users user mem)
      exact ⟨user, Table.mem_upsert.mpr (.inr ⟨mem, apart⟩), isUser, ordinary⟩
    · exact ⟨_, Table.mem_upsert.mpr (.inl rfl), rfl, rfl⟩
  · rintro ⟨user, mem, isUser, ordinary⟩
    rcases Table.mem_upsert.mp mem with rfl | ⟨old, -⟩
    · exact .inr isUser.symm
    · exact .inl ⟨user, old, isUser, ordinary⟩

theorem distinct_append {entry : Entry} (creates : entry.created = some db.nextId) :
    ((db.log ++ [entry]).filterMap Entry.created).Nodup := by
  simp only [filterMap_append, filterMap_cons, creates, filterMap_nil]
  refine nodup_append.mpr ⟨sound.distinct, nodup_singleton _, ?_⟩
  intro userId old other new same
  rcases mem_singleton.mp new with rfl
  exact sound.nextId_not_created (same ▸ old)

/-- The first account keeps the accounts sound. -/
theorem bootstrap (none : db.accounts = 0) {group : GroupRow}
    (isAdmin : db.adminGroups = [group]) (username passwordHash : String) (now : Timestamp) :
    (((db.insertUser username passwordHash now).joinAdmin db.nextId).record
      [.bootstrap db.nextId]).AccountsSound settings := by
  have empty : db.log = [] := by
    by_contra nonempty
    exact sound.accounts_pos_iff.mpr nonempty none
  have isGroup : group ∈ db.groups ∧ group.name = "admin" := by
    have mem : group ∈ db.adminGroups := by simp [isAdmin]
    simpa [adminGroups, Table.mem_rows] using mem
  have joined : ((db.insertUser username passwordHash now).joinAdmin db.nextId).members =
      db.members ++ [⟨group.id, db.nextId⟩] := by
    have unchanged : (db.insertUser username passwordHash now).adminGroups = [group] := isAdmin
    rw [joinAdmin, unchanged]
    rfl
  constructor
  · exact .inr ⟨db.nextId, [], by simp [joinAdmin, insertUser, empty], by simp⟩
  · exact sound.ordinary_insertUser username passwordHash now rfl
  · exact sound.distinct_append rfl
  · intro userId mem
    rcases mem_append.mp mem with old | new
    · simp [joinAdmin, insertUser, empty] at old
    · rcases Entry.bootstrap.inj (mem_singleton.mp new) with rfl
      refine ⟨group, isGroup.1, isGroup.2, ?_⟩
      simp [joined]
  · intro userId invite now mem
    simp [joinAdmin, insertUser, empty] at mem
  · rintro ⟨userId, invite, now, mem⟩
    simp [joinAdmin, insertUser, empty] at mem
  · exact sound.users_insertUser username passwordHash now
  · intro member mem
    simp only [record, joined, mem_append, mem_singleton] at mem
    rcases mem with old | rfl
    · exact Nat.lt_succ_of_lt (sound.members member old)
    · exact Nat.lt_succ_self _

/-- A registration below the limit keeps the accounts sound. -/
theorem register (some : db.accounts ≠ 0)
    (room : db.accounts < settings.maxAccounts) (username passwordHash : String)
    (now : Timestamp) (invite : Option Nat) (invites : Table InviteRow Nat InviteRow.id) :
    (record { db.insertUser username passwordHash now with invites }
      [.registration (.some db.nextId) invite now]).AccountsSound settings := by
  constructor
  · exact .inr (sound.order_append some (.some db.nextId) invite now)
  · exact sound.ordinary_insertUser username passwordHash now rfl
  · exact sound.distinct_append rfl
  · intro userId mem
    rcases mem_append.mp mem with old | new
    · exact sound.admin userId old
    · cases mem_singleton.mp new
  · intro userId invite' now' mem member isMember
    rcases mem_append.mp mem with old | new
    · exact sound.plain userId invite' now' old member isMember
    · rcases Entry.registration.inj (mem_singleton.mp new) with ⟨⟨⟩, -, -⟩
      exact Nat.ne_of_lt (sound.members member isMember)
  · intro _
    have counted := sound.accounts_insertUser username passwordHash now
    exact le_of_eq_of_le counted room
  · exact sound.users_insertUser username passwordHash now
  · exact fun member mem => Nat.lt_succ_of_lt (sound.members member mem)

/-- An invite that is used up without an account keeps the accounts sound. -/
theorem spend (some : db.accounts ≠ 0) (now : Timestamp)
    (invite : Option Nat) (invites : Table InviteRow Nat InviteRow.id) :
    (record { db with invites } [.registration .none invite now]).AccountsSound settings := by
  have created : (db.log ++ [Entry.registration .none invite now]).filterMap Entry.created =
      db.log.filterMap Entry.created := by
    simp [Entry.created]
  constructor
  · exact .inr (sound.order_append some .none invite now)
  · exact fun userId => (congrArg (userId ∈ ·) created).to_iff.trans (sound.ordinary userId)
  · exact created ▸ sound.distinct
  · intro userId mem
    rcases mem_append.mp mem with old | new
    · exact sound.admin userId old
    · cases mem_singleton.mp new
  · intro userId invite' now' mem
    rcases mem_append.mp mem with old | new
    · exact sound.plain userId invite' now' old
    · cases mem_singleton.mp new
  · rintro ⟨userId, invite', now', mem⟩
    rcases mem_append.mp mem with old | new
    · exact sound.bounded ⟨userId, invite', now', old⟩
    · cases mem_singleton.mp new
  · exact sound.users
  · exact sound.members

end

end Directory.AccountsSound

namespace Directory.InvitesSound

theorem keep (sound : start.InvitesSound db) {next : Directory} {entry : Entry}
    (consumes : entry.invite = none) (invites : next.invites = db.invites)
    (log : next.log = db.log ++ [entry]) : start.InvitesSound next := by
  have same : next.log.filterMap Entry.invite = db.log.filterMap Entry.invite := by
    simp [log, consumes]
  constructor
  · rw [same]
    exact sound.once
  · intro created inviteId now mem
    rw [log] at mem
    rcases mem_append.mp mem with old | new
    · exact sound.usable created inviteId now old
    · rw [← mem_singleton.mp new] at consumes
      cases consumes
  · rw [same, invites]
    exact sound.used
  · rw [invites]
    exact sound.unused

/-- Using an open invite keeps the invites sound, since nobody has used it before. -/
theorem use (sound : start.InvitesSound db) {tokenHash : String} {now : Timestamp}
    {invite : InviteRow} (found : db.findInvite tokenHash now = some invite) {next : Directory}
    {userId : Nat} {created : Option Nat}
    (invites : next.invites = (db.useInvite invite.id userId now).invites)
    (log : next.log = db.log ++ [.registration created (some invite.id) now]) :
    start.InvitesSound next := by
  have mem : invite ∈ db.invites := mem_of_find?_eq_some found
  have usable : invite.isUsable now := by
    have checks := find?_some found
    simp only [Bool.and_eq_true] at checks
    exact checks.2
  have unused : invite.usedAt = none := by
    simp only [InviteRow.isUsable, Bool.and_eq_true, Option.isNone_iff_eq_none] at usable
    exact usable.1.2
  have consumed : next.log.filterMap Entry.invite =
      db.log.filterMap Entry.invite ++ [invite.id] := by
    simp [log, Entry.invite]
  constructor
  · rw [consumed]
    refine nodup_append.mpr ⟨sound.once, nodup_singleton _, ?_⟩
    intro inviteId old other new same
    rcases mem_singleton.mp new with rfl
    exact sound.used invite mem (same ▸ old) unused
  · intro created' inviteId now' isEntry
    rw [log] at isEntry
    rcases mem_append.mp isEntry with old | new
    · exact sound.usable created' inviteId now' old
    · rcases Entry.registration.inj (mem_singleton.mp new) with ⟨-, ⟨⟩, rfl⟩
      exact ⟨invite, sound.unused invite mem unused, rfl, usable⟩
  · intro row isRow isUsed
    rw [invites] at isRow
    rcases mem_map.mp isRow with ⟨old, isOld, rfl⟩
    rw [consumed, InviteRow.id_use] at isUsed
    simp only [InviteRow.use]
    split
    · simp
    rename_i different
    rcases mem_append.mp isUsed with earlier | new
    · exact sound.used old isOld earlier
    · exact absurd (mem_singleton.mp new) different
  · intro row isRow isUnused
    rw [invites] at isRow
    rcases mem_map.mp isRow with ⟨old, isOld, rfl⟩
    simp only [InviteRow.use] at isUnused ⊢
    split at isUnused
    · cases isUnused
    · rename_i different
      rw [if_neg different]
      exact sound.unused old isOld isUnused

end Directory.InvitesSound

/-- Every commit keeps the accounts and the invites sound. -/
theorem Commits.sound {request : Request} {next : Directory} {answer : Reply}
    (commits : Commits settings db request next answer) (accounts : db.AccountsSound settings)
    (invites : start.InvitesSound db) :
    next.AccountsSound settings ∧ start.InvitesSound next ∧
      ∃ entry, next.log = db.log ++ [entry] ∧ entry.created = answer.created := by
  cases commits with
  | bootstrap none isAdmin =>
    exact ⟨accounts.bootstrap none isAdmin _ _ _, invites.keep rfl rfl rfl, _, rfl, rfl⟩
  | opens some room =>
    exact ⟨accounts.register some room _ _ _ _ _, invites.keep rfl rfl rfl, _, rfl, rfl⟩
  | invites some room found =>
    exact ⟨accounts.register some room _ _ _ _ _, invites.use found rfl rfl, _, rfl, rfl⟩
  | spends some found =>
    exact ⟨accounts.spend some _ _ _, invites.use found rfl rfl, _, rfl, rfl⟩

/-- In every interleaving of bootstraps and registrations the accounts and invites are those of
one bootstrap followed by registrations, and an account that a response reports is committed. -/
theorem interleaved_registrations_sound (settings : Settings) {start : Directory}
    (initial : start.IsInitial) {s : State Directory Request Request Reply}
    (reachable : (system (registrationProtocol settings) fun db => db = start).Reachable s) :
    s.db.AccountsSound settings ∧ start.InvitesSound s.db ∧
      ∀ client ∈ s.clients, ∀ answer userId, client.phase = .done answer →
        answer.created = some userId → userId ∈ s.db.log.filterMap Entry.created := by
  have answered : Answered
      (fun db : Directory => db.AccountsSound settings ∧ start.InvitesSound db)
      (fun db answer => ∀ userId, answer.created = some userId →
        userId ∈ db.log.filterMap Entry.created) s := by
    refine reachable_answered ?_ ?_ ?_ ?_ ?_ reachable
    · rintro db rfl
      exact ⟨initial.accountsSound, initial.invitesSound⟩
    · intro db request next answer sound outcome
      have commits := request.ends settings db
      rw [show (request.body settings).outcome db id = .commits next answer from outcome] at commits
      rcases Commits.sound commits sound.1 sound.2 with ⟨accounts, invites, entry, log, created⟩
      refine ⟨⟨accounts, invites⟩, ?_, ?_⟩
      · intro userId reported
        simp [log, created, reported]
      · intro earlier backed userId reported
        simp [log, backed userId reported]
    · intro db request answer outcome userId reported
      have refuses := request.ends settings db
      rw [show (request.body settings).outcome db id = .refuses answer from outcome] at refuses
      rw [show answer.created = none from refuses] at reported
      cases reported
    · intro db request answer read userId reported
      cases request with
      | bootstrap => cases read
      | register =>
        simp only [registrationProtocol] at read
        split at read <;> cases read
        cases reported
    · intro db request userId reported
      cases reported
  refine ⟨answered.sound.1, answered.sound.2, ?_⟩
  intro client mem answer userId isDone reported
  rcases mem_iff_getElem?.mp mem with ⟨i, found⟩
  exact answered.backed found (by simp [isDone, Phase.answer?]) userId reported

end Invariant

def newDirectory : Directory where
  users := .empty
  groups := ⟨[⟨7, "admin"⟩], by decide⟩
  members := []
  invites := ⟨[⟨0, "i0", 90, none, none, none⟩], by decide⟩
  nextId := 1
  log := []

theorem newDirectory_isInitial : newDirectory.IsInitial :=
  ⟨by simp [newDirectory, Table.empty, Table.mem_rows], by simp [newDirectory], rfl⟩

/-- A registration before the bootstrap, two bootstraps at once, and two registrations at once
with the same invite. -/
def invitedTwice : List (Label Request) :=
  [.arrive (.register "eve" "h0" "i0" 1), .advance 0, .advance 0, .advance 0, .advance 0,
    .arrive (.bootstrap "ada" "h1" 2), .arrive (.bootstrap "bob" "h2" 2), .advance 1, .advance 2,
    .advance 1, .advance 1, .advance 1, .advance 1, .advance 1, .advance 1, .advance 2,
    .advance 2, .advance 2,
    .arrive (.register "cleo" "h3" "i0" 3), .arrive (.register "dan" "h4" "i0" 3), .advance 3,
    .advance 4, .advance 3, .advance 3, .advance 3, .advance 3, .advance 3, .advance 3,
    .advance 3, .advance 3, .advance 4, .advance 4, .advance 4, .advance 4]

theorem invitedTwice_sound :
    ∃ s : State Directory Request Request Reply,
      (system (registrationProtocol ⟨.invite, 3⟩) fun db => db = newDirectory).Reachable s ∧
      s.db.log = [.bootstrap 1, .registration (some 2) (some 0) 3] ∧
      s.db.members = [⟨7, 1⟩] ∧
      s.db.AccountsSound ⟨.invite, 3⟩ ∧ newDirectory.InvitesSound s.db ∧
      ∀ client ∈ s.clients, ∀ answer userId, client.phase = .done answer →
        answer.created = some userId → userId ∈ s.db.log.filterMap Entry.created := by
  have played : ∃ s, TransitionSystem.replay
      (fun s label => State.exec s (registrationProtocol ⟨.invite, 3⟩) label) ⟨newDirectory, []⟩
      invitedTwice = some s ∧
      s.db.log = [.bootstrap 1, .registration (some 2) (some 0) 3] ∧
      s.db.members = [⟨7, 1⟩] := ⟨_, rfl, rfl, rfl⟩
  rcases played with ⟨s, isPlayed, log, members⟩
  have reachable :
      (system (registrationProtocol ⟨.invite, 3⟩) fun db => db = newDirectory).Reachable s :=
    ⟨_, invitedTwice, ⟨rfl, rfl⟩, .of_replay (fun step => step) isPlayed⟩
  exact ⟨s, reachable, log, members,
    interleaved_registrations_sound ⟨.invite, 3⟩ newDirectory_isInitial reachable⟩

end Plinth.Auth.Registration
