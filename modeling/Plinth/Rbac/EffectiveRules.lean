import Plinth.Capabilities.Resolution
import Plinth.Core.Bytes
import Plinth.Core.Query
import Plinth.Rbac.Validator

/-!
# Effective rules at the entry points

The queries by which `rbac/enforcement.cpp`, `cap/api_cap.cpp`, `ws/authority.cpp` and
`frontend/surface_authority.cpp` compute the effective rules of a user, and what each of them
makes of the answer. Identifiers and token hashes have the types of their columns, so that the
checks of their texts in `valid_auth` hold of every value.
-/

namespace Plinth.Rbac

open Core Query

abbrev Uuid := BitVec 128

abbrev Digest := BitVec 256

/-- Microseconds of a clock. -/
abbrev Time := Int

structure UserRow where
  id : Uuid
  username : String
  disabledAt : Option Time := none

/-- A value of `expires_at`, or the interval up to it: PostgreSQL also has infinite ones. -/
inductive Expiry where
  | negInfinity
  | at (time : Time)
  | infinity
  deriving DecidableEq

namespace Expiry

/-- `expires_at > now`. -/
def isAfter (now : Time) : Expiry → Bool
  | negInfinity => false
  | .at time => now < time
  | infinity => true

/-- `expires_at - now`. -/
def since (now : Time) : Expiry → Expiry
  | .at time => .at (time - now)
  | infinite => infinite

end Expiry

structure CredentialRow where
  id : Uuid
  userId : Uuid
  tokenHash : Digest
  expiresAt : Option Expiry
  revokedAt : Option Time := none

structure GroupRow where
  id : Uuid
  name : String

structure MemberRow where
  groupId : Uuid
  userId : Uuid

structure DefinedRule where
  id : Uuid
  rule : String
  orphanedAt : Option Time := none

structure GrantRow where
  groupId : Uuid
  ruleId : Uuid

/-- The tables of identity and access control, with the constraints of the schema. -/
structure AuthorityTables where
  users : Table UserRow Uuid UserRow.id
  sessions : Table CredentialRow Uuid CredentialRow.id
  pats : Table CredentialRow Uuid CredentialRow.id
  groups : Table GroupRow Uuid GroupRow.id
  members : List MemberRow
  rules : Table DefinedRule Uuid DefinedRule.id
  grants : List GrantRow
  memberGroup : ∀ member ∈ members, ∃ group ∈ groups, group.id = member.groupId
  sessionExpires : ∀ session ∈ sessions, session.expiresAt.isSome

inductive AuthType where
  | session
  | pat
  deriving DecidableEq

inductive CredentialSource where
  | unknown
  | cookie
  | bearer
  deriving DecidableEq

/-- An authenticated caller. The identifier of the credential is `session_id` or `pat_id`. -/
structure AuthContext where
  userId : Uuid
  username : String
  authType : AuthType
  credentialId : Uuid
  tokenHash : Digest
  credentialSource : CredentialSource

namespace AuthorityTables

variable (tables : AuthorityTables)

def credentials : AuthType → Table CredentialRow Uuid CredentialRow.id
  | .session => tables.sessions
  | .pat => tables.pats

/-- The rows of `rbac_rules r JOIN group_rules gr JOIN groups g`. -/
def grantedRules : List ((DefinedRule × GrantRow) × GroupRow) :=
  join (fun granted group => group.id = granted.2.groupId)
    (join (fun rule grant => grant.ruleId = rule.id) tables.rules.rows tables.grants)
    tables.groups.rows

/-- `SELECT DISTINCT r.rule … LEFT JOIN group_members gm`. -/
def effectiveRulesQuery (userId : Uuid) : List String :=
  ((leftJoin (fun granted member => member.groupId = granted.2.id) tables.grantedRules
      tables.members).filter fun ((granted, group), member) =>
    granted.1.orphanedAt.isNone &&
      (member.any (fun row => row.userId = userId) || group.name = "everyone")).map
    (fun ((granted, _), _) => granted.1.rule) |>.dedup

def filterRules (userId : Uuid) : List String :=
  tables.effectiveRulesQuery userId

end AuthorityTables

def grantingRule (effective required : List String) : Option String :=
  if effective.contains "kernel.admin" then some "kernel.admin"
  else required.find? effective.contains

/-- `load_effective_rules`: without an answer of the database there are no rules. -/
def loadEffectiveRules (answer : Option (List String)) : List String := answer.getD []

structure AuthorityRow where
  username : String
  /-- The time until the credential expires, in microseconds. -/
  ttl : Expiry
  rule : Option String

namespace AuthorityTables

variable (tables : AuthorityTables)

/-- `SELECT r.rule FROM group_members gm JOIN group_rules gr JOIN rbac_rules r`. -/
def memberRules (userId : Uuid) : List String :=
  ((join (fun granted rule => rule.id = granted.2.ruleId)
      (join (fun member grant => grant.groupId = member.groupId) tables.members tables.grants)
      tables.rules.rows).filter fun ((member, _), rule) =>
    member.userId = userId && rule.orphanedAt.isNone).map fun (_, rule) => rule.rule

/-- `SELECT r.rule FROM groups g JOIN group_rules gr JOIN rbac_rules r`. -/
def everyoneRules : List String :=
  ((join (fun granted rule => rule.id = granted.2.ruleId)
      (join (fun group grant => grant.groupId = group.id) tables.groups.rows tables.grants)
      tables.rules.rows).filter fun ((group, _), rule) =>
    group.name = "everyone" && rule.orphanedAt.isNone).map fun (_, rule) => rule.rule

def lateralRules (userId : Uuid) : List String :=
  (tables.memberRules userId ++ tables.everyoneRules).dedup

/-- The row of a credential and its user, if the credential is current. -/
def authorityCredentials (now : Time) (auth : AuthContext) : List (CredentialRow × UserRow) :=
  (join (fun credential user => user.id = credential.userId)
      (tables.credentials auth.authType).rows tables.users.rows).filter fun (credential, user) =>
    credential.id = auth.credentialId && credential.userId = auth.userId &&
      credential.tokenHash = auth.tokenHash && credential.revokedAt.isNone &&
      user.disabledAt.isNone && credential.expiresAt.all (Expiry.isAfter now)

def authorityRows (now : Time) (auth : AuthContext) : List AuthorityRow :=
  (leftJoinLateral (fun (found : CredentialRow × UserRow) => tables.lateralRules found.2.id)
    (tables.authorityCredentials now auth)).map fun ((credential, user), rule) =>
      ⟨user.username, (credential.expiresAt.map (Expiry.since now)).getD (.at 2000000), rule⟩

end AuthorityTables

structure Snapshot where
  valid : Bool := false
  username : String := ""
  rules : Finset String := ∅
  /-- Milliseconds of the steady clock. -/
  deadline : Int := 0

/-- A `ttl` that is not finite is refused. A database that cannot subtract an infinite timestamp
fails the query instead, and the snapshot is as empty then. -/
def readSnapshot (rows : List AuthorityRow) (started : Int) : Snapshot :=
  match rows with
  | [] => {}
  | first :: _ =>
    match first.ttl with
    | .at ttl =>
      if ttl ≤ 0 then {}
      else
        { valid := true
          username := first.username
          rules := (rows.filterMap AuthorityRow.rule).toFinset
          deadline := started + min ttl 2000000 / 1000 }
    | _ => {}

def connectionAllows (rules : Finset String) (rule : String) : Bool :=
  "kernel.admin" ∈ rules || rule ∈ rules

inductive SurfaceError where
  | unauthenticated
  | denied
  | invalid
  | unavailable

def rulesMax : Nat := 4096

def authPayloadMax : Nat := 2 * 1024 * 1024

/-- The object of an `auth_reply` row; a text that is too long is `null` in it. -/
structure AuthPayload where
  username : Option String
  rules : List (Option String)

/-- `CASE WHEN octet_length(…) <= 256 THEN … ELSE NULL END`. -/
def boundedText (text : String) : Option String := if byteSize text ≤ 256 then some text else none

/-- The bytes of a character in the text of a `jsonb` string. -/
def jsonbCharacterBytes (c : Char) : Nat :=
  if c = '"' || c = '\\' || c.toNat = 8 || c.toNat = 9 || c.toNat = 10 || c.toNat = 12 ||
      c.toNat = 13 then 2
  else if c.toNat < 0x20 then 6 else c.utf8Size

def jsonbTextBytes : Option String → Nat
  | some text => 2 + (text.toList.map jsonbCharacterBytes).sum
  | none => 4

/-- The length of the payload's text: its keys and brackets, its texts and its separators. -/
def AuthPayload.bytes (payload : AuthPayload) : Nat :=
  27 + (payload.rules.map jsonbTextBytes).sum + 2 * (payload.rules.length - 1) +
    jsonbTextBytes payload.username

namespace AuthorityTables

variable (tables : AuthorityTables)

def surfaceCredentials (now : Time) (auth : AuthContext) : List (UserRow × CredentialRow) :=
  (join (fun user credential => credential.userId = user.id) tables.users.rows
      (tables.credentials auth.authType).rows).filter fun (user, credential) =>
    user.id = auth.userId && credential.id = auth.credentialId &&
      credential.tokenHash = auth.tokenHash && credential.revokedAt.isNone &&
      user.disabledAt.isNone &&
      match auth.authType with
      | .session => credential.expiresAt.any (Expiry.isAfter now)
      | .pat => credential.expiresAt.all (Expiry.isAfter now)

def surfaceRules (now : Time) (auth : AuthContext) : List String :=
  (tables.grantedRules.filter fun (granted, group) =>
    granted.1.orphanedAt.isNone &&
      (tables.surfaceCredentials now auth).any fun (user, _) =>
        group.name = "everyone" ||
          tables.members.any fun member =>
            member.groupId = group.id && member.userId = user.id).map
    (fun (granted, _) => granted.1.rule) |>.dedup

/-- The `auth_reply` table of the query. The order is the collation of the database. -/
def authReply (collation : String → String → Bool) (now : Time) (auth : AuthContext) :
    List AuthPayload :=
  (tables.surfaceCredentials now auth).map fun (user, _) =>
    { username := boundedText user.username
      rules := (((tables.surfaceRules now auth).insertionSort fun first second =>
        collation first second = true).take (rulesMax + 1)).map boundedText }

end AuthorityTables

/-- The grammar of rule A.1, in its copy for the launcher. -/
def isRbacRuleNameValid (rule : String) : Bool := isValidRuleName rule

structure Caller where
  userId : Uuid
  username : String
  authType : AuthType
  effectiveRules : List String

def readRule : Option String → Except SurfaceError String
  | some rule =>
    if 256 < byteSize rule || !isRbacRuleNameValid rule then .error .unavailable else .ok rule
  | none => .error .unavailable

def parseCaller (data : AuthPayload) (auth : AuthContext) : Except SurfaceError Caller :=
  match data.username with
  | none => .error .unavailable
  | some username =>
    if rulesMax < data.rules.length then .error .unavailable
    else if username.isEmpty || 256 < byteSize username then .error .unavailable
    else
      match data.rules.mapM readRule with
      | .error error => .error error
      | .ok rules => .ok ⟨auth.userId, username, auth.authType, rules⟩

def readRows (rows : List AuthPayload) (auth : AuthContext) : Except SurfaceError Caller :=
  match rows with
  | [] => .error .unauthenticated
  | [payload] =>
    if authPayloadMax < payload.bytes then .error .unavailable else parseCaller payload auth
  | _ => .error .unavailable

def validAuth (auth : AuthContext) : Bool := auth.credentialSource ≠ .unknown

def authenticate (tables : AuthorityTables) (collation : String → String → Bool) (now : Time)
    (auth : AuthContext) : Except SurfaceError Caller :=
  if !validAuth auth then .error .unauthenticated
  else readRows (tables.authReply collation now auth) auth

def requireRule (tables : AuthorityTables) (collation : String → String → Bool) (now : Time)
    (auth : AuthContext) (rule : String) : Except SurfaceError Caller :=
  if 256 < byteSize rule || !isRbacRuleNameValid rule then .error .invalid
  else
    match authenticate tables collation now auth with
    | .error error => .error error
    | .ok caller =>
      if caller.effectiveRules.any fun granted => granted = rule || granted = "kernel.admin" then
        .ok caller
      else .error .denied

end Plinth.Rbac
