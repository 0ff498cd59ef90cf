import Plinth.Rbac.EffectiveRules

/-!
# Agreement of the entry points

The queries of the four entry points denote one relation between users and rules. The surface
authority bounds its reply, and refuses a caller whose rules do not fit.
-/

namespace Plinth.Rbac

open Core Query List

/-- What a user may do: the rules that are in force and granted to one of their groups, where
everybody is in `everyone`. -/
def AuthorityTables.Effective (tables : AuthorityTables) (userId : Uuid) (rule : String) : Prop :=
  ∃ defined ∈ tables.rules.rows, defined.rule = rule ∧ defined.orphanedAt = none ∧
    ∃ grant ∈ tables.grants, grant.ruleId = defined.id ∧
      ∃ group ∈ tables.groups.rows, group.id = grant.groupId ∧
        (group.name = "everyone" ∨
          ∃ member ∈ tables.members, member.groupId = group.id ∧ member.userId = userId)

namespace AuthorityTables

variable {tables : AuthorityTables} {userId : Uuid} {rule : String}

theorem mem_grantedRules {defined : DefinedRule} {grant : GrantRow} {group : GroupRow} :
    ((defined, grant), group) ∈ tables.grantedRules ↔
      (defined ∈ tables.rules.rows ∧ grant ∈ tables.grants ∧ grant.ruleId = defined.id) ∧
        group ∈ tables.groups.rows ∧ group.id = grant.groupId := by
  simp [grantedRules]

/-- The query of the request filter answers with the effective rules. -/
theorem mem_effectiveRulesQuery :
    rule ∈ tables.effectiveRulesQuery userId ↔ tables.Effective userId rule := by
  simp only [effectiveRulesQuery, mem_dedup, mem_map, List.mem_filter, Bool.and_eq_true,
    Bool.or_eq_true, decide_eq_true_eq, Option.isNone_iff_eq_none]
  constructor
  · rintro ⟨⟨⟨⟨defined, grant⟩, group⟩, member⟩, ⟨joined, inForce, isUser⟩, rfl⟩
    have granted : ((defined, grant), group) ∈ tables.grantedRules := by
      cases member with
      | none => exact (mem_leftJoinLateral_none.mp joined).1
      | some row => exact (mem_leftJoinLateral_some.mp joined).1
    rcases mem_grantedRules.mp granted with ⟨⟨isDefined, isGrant, ofRule⟩, isGroup, ofGroup⟩
    refine ⟨defined, isDefined, rfl, inForce, grant, isGrant, ofRule, group, isGroup, ofGroup, ?_⟩
    rcases isUser with isMember | everyone
    · rcases (Option.any_eq_true _ _).mp isMember with ⟨row, rfl, sameUser⟩
      have partner := (mem_leftJoinLateral_some.mp joined).2
      rw [List.mem_filter, decide_eq_true_eq] at partner
      exact .inr ⟨row, partner.1, partner.2, of_decide_eq_true sameUser⟩
    · exact .inl everyone
  · rintro ⟨defined, isDefined, rfl, inForce, grant, isGrant, ofRule, group, isGroup, ofGroup,
      isUser⟩
    have granted : ((defined, grant), group) ∈ tables.grantedRules :=
      mem_grantedRules.mpr ⟨⟨isDefined, isGrant, ofRule⟩, isGroup, ofGroup⟩
    rcases isUser with everyone | ⟨member, isMember, ofMember, sameUser⟩
    · rcases exists_mem_leftJoinLateral granted with ⟨partner, joined⟩
      exact ⟨(((defined, grant), group), partner), ⟨joined, inForce, .inr everyone⟩, rfl⟩
    · refine ⟨(((defined, grant), group), some member), ⟨?_, inForce, .inl ?_⟩, rfl⟩
      · exact mem_leftJoinLateral_some.mpr ⟨granted, by simp [isMember, ofMember]⟩
      · simp [sameUser]

/-- The lateral query of the session snapshot answers with the same rules. -/
theorem mem_lateralRules : rule ∈ tables.lateralRules userId ↔ tables.Effective userId rule := by
  simp only [lateralRules, memberRules, everyoneRules, mem_dedup, mem_append,
    mem_map, List.mem_filter, Bool.and_eq_true, decide_eq_true_eq,
    Option.isNone_iff_eq_none, Prod.exists, mem_join]
  constructor
  · rintro (⟨member, grant, defined, ⟨⟨⟨isMember, isGrant, ofGroup⟩, isDefined, ofRule⟩, sameUser,
      inForce⟩, rfl⟩ | ⟨group, grant, defined, ⟨⟨⟨isGroup, isGrant, ofGroup⟩, isDefined, ofRule⟩,
      everyone, inForce⟩, rfl⟩)
    · rcases tables.memberGroup member isMember with ⟨group, isGroup, ofMember⟩
      exact ⟨defined, isDefined, rfl, inForce, grant, isGrant, ofRule.symm, group, isGroup,
        ofMember.trans ofGroup.symm, .inr ⟨member, isMember, ofMember.symm, sameUser⟩⟩
    · exact ⟨defined, isDefined, rfl, inForce, grant, isGrant, ofRule.symm, group, isGroup,
        ofGroup.symm, .inl everyone⟩
  · rintro ⟨defined, isDefined, rfl, inForce, grant, isGrant, ofRule, group, isGroup, ofGroup,
      everyone | ⟨member, isMember, ofMember, sameUser⟩⟩
    · exact .inr ⟨group, grant, defined, ⟨⟨⟨isGroup, isGrant, ofGroup.symm⟩, isDefined,
        ofRule.symm⟩, everyone, inForce⟩, rfl⟩
    · exact .inl ⟨member, grant, defined, ⟨⟨⟨isMember, isGrant, ofGroup.symm.trans ofMember.symm⟩,
        isDefined, ofRule.symm⟩, sameUser, inForce⟩, rfl⟩

/-- An enabled user presents a credential of theirs that is neither revoked nor expired. -/
structure Presents (tables : AuthorityTables) (now : Time) (auth : AuthContext)
    (credential : CredentialRow) (user : UserRow) : Prop where
  issued : credential ∈ (tables.credentials auth.authType).rows
  isCredential : credential.id = auth.credentialId
  ofUser : credential.userId = auth.userId
  sameToken : credential.tokenHash = auth.tokenHash
  unrevoked : credential.revokedAt = none
  unexpired : ∀ expiry ∈ credential.expiresAt, expiry.isAfter now = true
  known : user ∈ tables.users.rows
  isUser : user.id = auth.userId
  enabled : user.disabledAt = none
  named : user.username = auth.username
  source : auth.credentialSource ≠ .unknown

variable {now : Time} {auth : AuthContext} {credential : CredentialRow} {user : UserRow}

theorem Presents.mem_authorityCredentials (presents : tables.Presents now auth credential user) :
    (credential, user) ∈ tables.authorityCredentials now auth := by
  simp only [authorityCredentials, List.mem_filter, mem_join, Bool.and_eq_true,
    decide_eq_true_eq, Option.isNone_iff_eq_none, Option.all_eq_true]
  exact ⟨⟨presents.issued, presents.known, presents.isUser.trans presents.ofUser.symm⟩,
    ⟨⟨⟨⟨presents.isCredential, presents.ofUser⟩, presents.sameToken⟩, presents.unrevoked⟩,
      presents.enabled⟩, presents.unexpired⟩

/-- Every row of the snapshot carries the time to live of the credential and an effective rule or
none. -/
theorem mem_authorityRows {row : AuthorityRow} (mem : row ∈ tables.authorityRows now auth) :
    (∃ credential ∈ (tables.credentials auth.authType).rows, credential.id = auth.credentialId ∧
      row.ttl = (credential.expiresAt.map (Expiry.since now)).getD (.at 2000000)) ∧
    ∀ rule, row.rule = some rule → tables.Effective auth.userId rule := by
  rcases mem_map.mp mem with ⟨⟨⟨credential, user⟩, found⟩, joined, rfl⟩
  have isRow := mem_of_mem_leftJoinLateral joined
  simp only [authorityCredentials, List.mem_filter, mem_join, Bool.and_eq_true,
    decide_eq_true_eq, Option.all_eq_true] at isRow
  rcases isRow with ⟨⟨issued, -, ofUser⟩, ⟨⟨⟨⟨isCredential, isUser⟩, -⟩, -⟩, -⟩, -⟩
  constructor
  · exact ⟨credential, issued, isCredential, rfl⟩
  · rintro rule rfl
    have effective := mem_lateralRules.mp (mem_leftJoinLateral_some.mp joined).2
    rwa [show user.id = auth.userId from ofUser.trans isUser] at effective

/-- What a valid snapshot has read off its rows. -/
theorem readSnapshot_valid {rows : List AuthorityRow} {started : Int}
    (valid : (readSnapshot rows started).valid = true) :
    (readSnapshot rows started).rules = (rows.filterMap AuthorityRow.rule).toFinset ∧
      (∃ row ∈ rows, row.username = (readSnapshot rows started).username) ∧
      (readSnapshot rows started).deadline ≤ started + 2000 := by
  cases rows with
  | nil => cases valid
  | cons first rest =>
    rw [readSnapshot] at valid ⊢
    cases ttl : first.ttl with
    | negInfinity | infinity => simp [ttl] at valid
    | «at» left =>
      by_cases expired : left ≤ 0
      · simp [ttl, expired] at valid
      · simp only [if_neg expired, true_and]
        exact ⟨⟨first, mem_cons_self, rfl⟩, by omega⟩

theorem Presents.mem_rules (presents : tables.Presents now auth credential user) :
    (∃ row, row ∈ tables.authorityRows now auth) ∧
      ∀ rule, tables.Effective auth.userId rule →
        ∃ row ∈ tables.authorityRows now auth, row.rule = some rule := by
  have isRow := presents.mem_authorityCredentials
  constructor
  · rcases exists_mem_leftJoinLateral isRow with ⟨partner, joined⟩
    exact ⟨_, mem_map.mpr ⟨_, joined, rfl⟩⟩
  · intro rule effective
    rw [← presents.isUser] at effective
    have joined : ((credential, user), some rule) ∈ leftJoinLateral
        (fun found : CredentialRow × UserRow => tables.lateralRules found.2.id)
        (tables.authorityCredentials now auth) :=
      mem_leftJoinLateral_some.mpr ⟨isRow, mem_lateralRules.mpr effective⟩
    exact ⟨_, mem_map.mpr ⟨_, joined, rfl⟩, rfl⟩

/-- The snapshot and the request filter see the same rules. -/
theorem Presents.rules_eq (presents : tables.Presents now auth credential user) :
    ((tables.authorityRows now auth).filterMap AuthorityRow.rule).toFinset =
      (tables.filterRules auth.userId).toFinset := by
  ext rule
  simp only [mem_toFinset, mem_filterMap, filterRules, mem_effectiveRulesQuery]
  constructor
  · rintro ⟨row, mem, isRule⟩
    exact (mem_authorityRows mem).2 rule isRule
  · exact presents.mem_rules.2 rule

/-- The WebSocket authority takes every credential but one that never expires by its timestamp. -/
theorem Presents.valid_readSnapshot (presents : tables.Presents now auth credential user)
    (started : Int) :
    (readSnapshot (tables.authorityRows now auth) started).valid = true ↔
      credential.expiresAt ≠ some .infinity := by
  rcases presents.mem_rules.1 with ⟨some_, isSome⟩
  have sound := fun row (mem : row ∈ tables.authorityRows now auth) => (mem_authorityRows mem).1
  generalize tables.authorityRows now auth = rows at *
  cases rows with
  | nil => simp at isSome
  | cons first rest =>
    rcases sound first mem_cons_self with ⟨other, issued, isCredential, isTtl⟩
    rcases (tables.credentials auth.authType).eq_of_key issued presents.issued
      (isCredential.trans presents.isCredential.symm) with rfl
    have unexpired := presents.unexpired
    rw [readSnapshot, isTtl]
    rcases expires : other.expiresAt with _ | _ | time | _
    · simp
    · simp [expires, Expiry.isAfter] at unexpired
    · have later : now < time := by simpa [expires, Expiry.isAfter] using unexpired
      simp [Expiry.since, not_le.mpr later]
    · simp [Expiry.since]

theorem Presents.surfaceCredentials (presents : tables.Presents now auth credential user) :
    tables.surfaceCredentials now auth = [(user, credential)] := by
  have nodup : (tables.surfaceCredentials now auth).Nodup :=
    (nodup_join (List.Nodup.of_map _ tables.users.unique)
      (List.Nodup.of_map _ (tables.credentials auth.authType).unique)).filter _
  have isMem : (user, credential) ∈ tables.surfaceCredentials now auth := by
    simp only [AuthorityTables.surfaceCredentials, List.mem_filter, mem_join, Bool.and_eq_true,
      decide_eq_true_eq, Option.isNone_iff_eq_none]
    refine ⟨⟨presents.known, presents.issued, presents.ofUser.trans presents.isUser.symm⟩,
      ⟨⟨⟨⟨presents.isUser, presents.isCredential⟩, presents.sameToken⟩, presents.unrevoked⟩,
        presents.enabled⟩, ?_⟩
    cases isType : auth.authType with
    | session =>
      have session : credential ∈ tables.sessions := by
        have issued := presents.issued
        rwa [isType] at issued
      rcases Option.isSome_iff_exists.mp (tables.sessionExpires credential session) with
        ⟨expiry, expires⟩
      simp [expires, presents.unexpired expiry expires]
    | pat =>
      simp only [Option.all_eq_true, decide_eq_true_eq]
      exact presents.unexpired
  have only (found : UserRow × CredentialRow)
      (mem : found ∈ tables.surfaceCredentials now auth) : found = (user, credential) := by
    rcases found with ⟨otherUser, otherCredential⟩
    simp only [AuthorityTables.surfaceCredentials, List.mem_filter, mem_join, Bool.and_eq_true,
      decide_eq_true_eq] at mem
    rcases mem with ⟨⟨isUser, isCredential, -⟩, ⟨⟨⟨⟨sameUser, sameCredential⟩, -⟩, -⟩, -⟩, -⟩
    rw [tables.users.eq_of_key isUser presents.known (sameUser.trans presents.isUser.symm),
      (tables.credentials auth.authType).eq_of_key isCredential presents.issued
        (sameCredential.trans presents.isCredential.symm)]
  rcases found : tables.surfaceCredentials now auth with _ | ⟨first, _ | ⟨second, rest⟩⟩
  · simp [found] at isMem
  · rw [only first (by simp [found])]
  · have same : first = second :=
      (only first (by simp [found])).trans (only second (by simp [found])).symm
    rw [found, same] at nodup
    simp at nodup

/-- The query of the surfaces answers with the effective rules. -/
theorem Presents.mem_surfaceRules (presents : tables.Presents now auth credential user) :
    rule ∈ tables.surfaceRules now auth ↔ tables.Effective auth.userId rule := by
  simp only [surfaceRules, presents.surfaceCredentials, mem_dedup, mem_map,
    List.mem_filter, Bool.and_eq_true, Bool.or_eq_true, decide_eq_true_eq, any_cons,
    any_nil, Bool.or_false, any_eq_true, Option.isNone_iff_eq_none, presents.isUser]
  constructor
  · rintro ⟨⟨⟨defined, grant⟩, group⟩, ⟨granted, inForce, isUser⟩, rfl⟩
    rcases mem_grantedRules.mp granted with ⟨⟨isDefined, isGrant, ofRule⟩, isGroup, ofGroup⟩
    exact ⟨defined, isDefined, rfl, inForce, grant, isGrant, ofRule, group, isGroup, ofGroup,
      isUser⟩
  · rintro ⟨defined, isDefined, rfl, inForce, grant, isGrant, ofRule, group, isGroup, ofGroup,
      isUser⟩
    exact ⟨((defined, grant), group),
      ⟨mem_grantedRules.mpr ⟨⟨isDefined, isGrant, ofRule⟩, isGroup, ofGroup⟩, inForce, isUser⟩, rfl⟩

end AuthorityTables

structure Bounded (username : String) (rules : List String) : Prop where
  named : username ≠ ""
  shortName : byteSize username ≤ 256
  few : rules.length ≤ rulesMax
  short : ∀ rule ∈ rules, byteSize rule ≤ 256

theorem Bounded.perm {username : String} {rules other : List String}
    (bounded : Bounded username rules) (same : rules.Perm other) : Bounded username other :=
  ⟨bounded.named, bounded.shortName, same.length_eq ▸ bounded.few,
    fun rule mem => bounded.short rule (same.mem_iff.mpr mem)⟩

/-- The rules are spelled as rule A.1 asks of the rules of a package. -/
def Spelled (rules : List String) : Prop := ∀ rule ∈ rules, isRbacRuleNameValid rule = true

theorem sum_map_le {Element : Type*} (bound : Nat) (f g : Element → Nat)
    {elements : List Element} (le : ∀ element ∈ elements, f element ≤ bound * g element) :
    (elements.map f).sum ≤ bound * (elements.map g).sum := by
  induction elements with
  | nil => simp
  | cons first rest ih =>
    have here := le first mem_cons_self
    have later := ih fun element mem => le element (mem_cons_of_mem _ mem)
    simp only [map_cons, sum_cons, Nat.mul_add]
    omega

theorem jsonbCharacterBytes_le (c : Char) : jsonbCharacterBytes c ≤ 6 * c.utf8Size := by
  have size := Char.utf8Size_pos c
  unfold jsonbCharacterBytes
  split
  · omega
  · split
    · omega
    · omega

theorem jsonbTextBytes_le {factor : ℕ} {text : String} (short : byteSize text ≤ 256)
    (each : ∀ c ∈ text.toList, jsonbCharacterBytes c ≤ factor * c.utf8Size) :
    jsonbTextBytes (boundedText text) ≤ factor * 256 + 2 := by
  have all := sum_map_le factor jsonbCharacterBytes Char.utf8Size each
  have bytes : factor * (text.toList.map Char.utf8Size).sum ≤ factor * 256 :=
    Nat.mul_le_mul_left factor short
  simp only [boundedText, if_pos short, jsonbTextBytes]
  omega

variable {rule : String}

theorem jsonbCharacterBytes_of_valid (valid : isRbacRuleNameValid rule)
    {c : Char} (mem : c ∈ rule.toList) : jsonbCharacterBytes c ≤ 1 * c.utf8Size := by
  simp only [isRbacRuleNameValid, isValidRuleName, Bool.and_eq_true, all_eq_true] at valid
  have plain : c = '.' ∨ Capabilities.isLower c ∨ Capabilities.isDigit c := by
    refine (mem_splitOn mem).imp_right ?_
    rintro ⟨part, isPart, inPart⟩
    have segment := valid.1.1 part isPart
    cases part with
    | nil => simp at inPart
    | cons first tail =>
      simp only [isRuleSegment, Bool.and_eq_true, all_eq_true, Bool.or_eq_true] at segment
      rcases mem_cons.mp inPart with rfl | inTail
      · exact .inl segment.1
      · exact segment.2 c inTail
  have between : 46 ≤ c.toNat ∧ c.toNat ≤ 122 ∧ c.toNat ≠ 92 := by
    rcases plain with rfl | lower | digit
    · decide
    · simp only [Capabilities.isLower, Bool.and_eq_true, decide_eq_true_eq, Char.le_def,
        UInt32.le_iff_toNat_le] at lower
      change 97 ≤ c.toNat ∧ c.toNat ≤ 122 at lower
      omega
    · simp only [Capabilities.isDigit, Bool.and_eq_true, decide_eq_true_eq, Char.le_def,
        UInt32.le_iff_toNat_le] at digit
      change 48 ≤ c.toNat ∧ c.toNat ≤ 57 at digit
      omega
  have quote : c ≠ '"' := by
    rintro rfl
    exact absurd between.1 (by decide)
  have backslash : c ≠ '\\' := by
    rintro rfl
    exact absurd between.2.2 (by decide)
  unfold jsonbCharacterBytes
  rw [if_neg, if_neg, Nat.one_mul]
  · omega
  · simp only [Bool.or_eq_true, decide_eq_true_eq, quote, backslash, false_or]
    omega

/-- Within the bounds the payload is below the limit of its column. -/
theorem bytes_le {username : String} {rules : List String} (bounded : Bounded username rules)
    (spelled : Spelled rules) :
    AuthPayload.bytes ⟨boundedText username, rules.map boundedText⟩ ≤ authPayloadMax := by
  have texts : (rules.map fun rule => jsonbTextBytes (boundedText rule)).sum ≤
      258 * (rules.map fun _ => 1).sum :=
    sum_map_le 258 _ _ fun rule mem => jsonbTextBytes_le (bounded.short rule mem) fun c =>
      jsonbCharacterBytes_of_valid (spelled rule mem)
  have name := jsonbTextBytes_le bounded.shortName fun c _ => jsonbCharacterBytes_le c
  have few := bounded.few
  simp only [map_const', sum_replicate_nat, Nat.mul_one] at texts
  simp only [AuthPayload.bytes, map_map, Function.comp_def, length_map, authPayloadMax]
  simp only [rulesMax] at few
  omega

theorem readRule_boundedText (rule : String) :
    readRule (boundedText rule) =
      if byteSize rule ≤ 256 && isRbacRuleNameValid rule then .ok rule
      else .error .unavailable := by
  by_cases short : byteSize rule ≤ 256
  · cases valid : isRbacRuleNameValid rule with
    | true => simp [boundedText, short, readRule, valid, Nat.not_lt.mpr short]
    | false => simp [boundedText, short, readRule, valid]
  · simp [boundedText, short, readRule]

/-- The reader refuses all the rules if one is too long or no valid name. -/
theorem mapM_readRule (rules : List String) :
    (rules.map boundedText).mapM readRule =
      if rules.all (fun rule => byteSize rule ≤ 256 && isRbacRuleNameValid rule) then .ok rules
      else .error .unavailable := by
  induction rules with
  | nil => rfl
  | cons rule rules ih =>
    rw [map_cons, mapM_cons, ih, all_cons, readRule_boundedText]
    cases byteSize rule ≤ 256 && isRbacRuleNameValid rule with
    | true =>
      simp only [if_true, Bool.true_and]
      split <;> rfl
    | false => rfl

namespace AuthorityTables

variable {tables : AuthorityTables} (collation : String → String → Bool) {now : Time}
  {auth : AuthContext} {credential : CredentialRow} {user : UserRow}

def sortedRules (tables : AuthorityTables) (collation : String → String → Bool) (now : Time)
    (auth : AuthContext) : List String :=
  (tables.surfaceRules now auth).insertionSort fun first second => collation first second = true

section

variable (presents : tables.Presents now auth credential user)
include presents

/-- The sorted rules are the effective ones in another order. -/
theorem Presents.perm_sortedRules :
    (tables.sortedRules collation now auth).Perm (tables.filterRules auth.userId) := by
  refine (perm_ext_iff_of_nodup ?_ ?_).mpr fun rule => ?_
  · exact (perm_insertionSort _ _).nodup_iff.mpr (nodup_dedup _)
  · exact nodup_dedup _
  · rw [sortedRules, mem_insertionSort, presents.mem_surfaceRules, filterRules,
      mem_effectiveRulesQuery]

theorem Presents.authenticate :
    authenticate tables collation now auth =
      readRows [⟨boundedText auth.username,
        ((tables.sortedRules collation now auth).take (rulesMax + 1)).map boundedText⟩] auth := by
  have valid : validAuth auth := by simp [validAuth, presents.source]
  simp [Rbac.authenticate, valid, authReply, presents.surfaceCredentials, presents.named,
    sortedRules]

/-- Within the bounds the surfaces answer with the caller and all the rules. -/
theorem Presents.authenticate_of_bounded
    (bounded : Bounded auth.username (tables.filterRules auth.userId))
    (spelled : Spelled (tables.filterRules auth.userId)) :
    Rbac.authenticate tables collation now auth =
      .ok ⟨auth.userId, auth.username, auth.authType, tables.sortedRules collation now auth⟩ := by
  have same := presents.perm_sortedRules collation
  have bounds := bounded.perm same.symm
  have spelling : Spelled (tables.sortedRules collation now auth) :=
    fun rule mem => spelled rule (same.mem_iff.mp mem)
  have all : (tables.sortedRules collation now auth).all
      (fun rule => byteSize rule ≤ 256 && isRbacRuleNameValid rule) := by
    simp only [all_eq_true, Bool.and_eq_true, decide_eq_true_eq]
    exact fun rule mem => ⟨bounds.short rule mem, spelling rule mem⟩
  have whole : (tables.sortedRules collation now auth).take (rulesMax + 1) =
      tables.sortedRules collation now auth :=
    take_of_length_le (Nat.le_succ_of_le bounds.few)
  have nonempty : auth.username.isEmpty = false := by
    simpa using bounded.named
  rw [presents.authenticate, whole, readRows, if_neg (Nat.not_lt.mpr (bytes_le bounds spelling))]
  simp only [parseCaller, boundedText, if_pos bounded.shortName, length_map,
    if_neg (Nat.not_lt.mpr bounds.few), nonempty, Nat.not_lt.mpr bounded.shortName, decide_false,
    Bool.or_self, Bool.false_eq_true, if_false]
  rw [mapM_readRule, if_pos all]

/-- Outside the bounds, or with a rule that is not spelled as in a package, no caller is
authenticated. -/
theorem Presents.authenticate_of_unbounded
    (outside : ¬(Bounded auth.username (tables.filterRules auth.userId) ∧
      Spelled (tables.filterRules auth.userId))) :
    Rbac.authenticate tables collation now auth = .error .unavailable := by
  rw [presents.authenticate, readRows]
  split
  · rfl
  by_cases shortName : byteSize auth.username ≤ 256
  case neg => simp only [parseCaller, boundedText, if_neg shortName]
  by_cases few : (tables.sortedRules collation now auth).length ≤ rulesMax
  case neg =>
    have cut : rulesMax < ((tables.sortedRules collation now auth).take (rulesMax + 1)).length := by
      rw [length_take]
      omega
    simp only [parseCaller, boundedText, if_pos shortName, length_map, if_pos cut]
  have whole : (tables.sortedRules collation now auth).take (rulesMax + 1) =
      tables.sortedRules collation now auth := take_of_length_le (Nat.le_succ_of_le few)
  cases empty : auth.username.isEmpty with
  | true =>
    simp only [parseCaller, boundedText, if_pos shortName, whole, length_map,
      if_neg (Nat.not_lt.mpr few), empty, Bool.true_or, if_true]
  | false =>
    simp only [parseCaller, boundedText, if_pos shortName, whole, length_map,
      if_neg (Nat.not_lt.mpr few), empty, Nat.not_lt.mpr shortName, decide_false, Bool.or_self,
      Bool.false_eq_true, if_false]
    rw [mapM_readRule]
    split
    case h_1 failed =>
      split at failed <;> cases failed
      rfl
    case h_2 rules succeeded =>
      -- every rule of the reply passed its check, so the caller is within the bounds
      split at succeeded
      case isFalse => cases succeeded
      case isTrue all =>
      simp only [all_eq_true, Bool.and_eq_true, decide_eq_true_eq] at all
      have bounds : Bounded auth.username (tables.sortedRules collation now auth) :=
        ⟨by simpa [String.isEmpty_iff] using empty, shortName, few,
          fun rule mem => (all rule mem).1⟩
      have same := presents.perm_sortedRules collation
      exact absurd ⟨bounds.perm same, fun rule mem => (all rule (same.mem_iff.mpr mem)).2⟩ outside

/-- Where the surfaces answer, they see the rules of the request filter. -/
theorem Presents.rules_of_authenticate
    {caller : Caller} (answered : Rbac.authenticate tables collation now auth = .ok caller) :
    caller.effectiveRules.toFinset = (tables.filterRules auth.userId).toFinset := by
  by_cases inside : Bounded auth.username (tables.filterRules auth.userId) ∧
      Spelled (tables.filterRules auth.userId)
  · rw [presents.authenticate_of_bounded collation inside.1 inside.2] at answered
    cases answered
    exact toFinset_eq_of_perm _ _ (presents.perm_sortedRules collation)
  · rw [presents.authenticate_of_unbounded collation inside] at answered
    cases answered

end

end AuthorityTables

open Capabilities (checkPermission checkPermission_iff kernelAdminRule)

def Grants (rules : Finset String) (rule : String) : Prop :=
  rule ∈ rules ∨ "kernel.admin" ∈ rules

theorem grantingRule_isSome_iff {effective : List String} :
    (grantingRule effective [rule]).isSome ↔ Grants effective.toFinset rule := by
  unfold grantingRule Grants
  simp only [mem_toFinset]
  split
  case isTrue admin => simp [contains_iff_mem.mp admin]
  case isFalse other =>
  have notAdmin : "kernel.admin" ∉ effective := fun mem => other (contains_iff_mem.mpr mem)
  by_cases held : rule ∈ effective
  · simp [List.find?, held]
  · simp [List.find?, held, notAdmin]

/-- The check of a capability call allows what the rules grant. -/
theorem checkPermission_iff_grants {effective : List String} (named : rule ≠ "") :
    checkPermission effective rule ↔ Grants effective.toFinset rule := by
  rw [checkPermission_iff]
  simp [named, Grants, kernelAdminRule]

theorem connectionAllows_iff {rules : Finset String} :
    connectionAllows rules rule ↔ Grants rules rule := by
  simp [connectionAllows, Grants, or_comm]

/-- The check of a surface allows what the rules grant. -/
theorem requireRule_iff {tables : AuthorityTables} {collation : String → String → Bool}
    {now : Time} {auth : AuthContext} {caller : Caller}
    (answered : authenticate tables collation now auth = .ok caller)
    (short : byteSize rule ≤ 256) (valid : isRbacRuleNameValid rule) :
    requireRule tables collation now auth rule = .ok caller ↔
      Grants caller.effectiveRules.toFinset rule := by
  have accepted : (decide (256 < byteSize rule) || !isRbacRuleNameValid rule) = false := by
    simp [valid, Nat.not_lt.mpr short]
  simp only [requireRule, accepted, Bool.false_eq_true, if_false, answered, Grants, mem_toFinset]
  split
  case isTrue granted =>
    simp only [any_eq_true, Bool.or_eq_true, decide_eq_true_eq] at granted
    rcases granted with ⟨held, mem, rfl | rfl⟩ <;> simp [mem]
  case isFalse refused =>
    simp only [any_eq_true, Bool.or_eq_true, decide_eq_true_eq, not_exists, not_and,
      not_or] at refused
    simp only [reduceCtorEq, false_iff, not_or]
    exact ⟨fun mem => (refused rule mem).1 rfl, fun mem => (refused _ mem).2 rfl⟩

/-- The HTTP filter and the capability check compute one set, and so do the WebSocket authority and
the surface authority whenever they accept the caller: the first unless the credential expires at
infinity, the second within its bounds. -/
theorem entryPoints_agree {tables : AuthorityTables} {now : Time} {auth : AuthContext}
    {credential : CredentialRow} {user : UserRow}
    (presents : tables.Presents now auth credential user)
    (collation : String → String → Bool) (started : Int) :
    let rules := tables.filterRules auth.userId
    let loaded := loadEffectiveRules (some (tables.effectiveRulesQuery auth.userId))
    let snapshot := readSnapshot (tables.authorityRows now auth) started
    let surface := authenticate tables collation now auth
    loaded.toFinset = rules.toFinset ∧
    (snapshot.valid = true ↔ credential.expiresAt ≠ some .infinity) ∧
    (snapshot.valid = true → snapshot.rules = rules.toFinset) ∧
    (∀ caller, surface = .ok caller → caller.effectiveRules.toFinset = rules.toFinset) ∧
    (Bounded auth.username rules → Spelled rules → ∃ caller, surface = .ok caller) ∧
    (¬Bounded auth.username rules → surface = .error .unavailable) ∧
    ∀ rule, rule ≠ "" →
      ((grantingRule rules [rule]).isSome = true ↔ Grants rules.toFinset rule) ∧
      (checkPermission loaded rule = true ↔ Grants rules.toFinset rule) ∧
      (snapshot.valid = true →
        (connectionAllows snapshot.rules rule = true ↔ Grants rules.toFinset rule)) ∧
      ∀ caller, surface = .ok caller → byteSize rule ≤ 256 → isRbacRuleNameValid rule = true →
        (requireRule tables collation now auth rule = .ok caller ↔ Grants rules.toFinset rule) := by
  have same (valid : (readSnapshot (tables.authorityRows now auth) started).valid = true) :=
    (AuthorityTables.readSnapshot_valid valid).1.trans presents.rules_eq
  refine ⟨rfl, presents.valid_readSnapshot started, same,
    fun caller => presents.rules_of_authenticate collation, ?_, ?_, ?_⟩
  · intro bounded spelled
    exact ⟨_, presents.authenticate_of_bounded collation bounded spelled⟩
  · intro outside
    exact presents.authenticate_of_unbounded collation fun inside => outside inside.1
  · intro rule named
    refine ⟨grantingRule_isSome_iff, checkPermission_iff_grants named, ?_, ?_⟩
    · intro valid
      rw [connectionAllows_iff, same valid]
    · intro caller answered short spelled
      rw [requireRule_iff answered short spelled, presents.rules_of_authenticate collation answered]

def openTables (rules : List (Uuid × String)) (unique : (rules.map Prod.fst).Nodup) :
    AuthorityTables where
  users := ⟨[⟨1, "ada", none⟩], by decide⟩
  sessions := ⟨[⟨2, 1, 7, some (.at 100), none⟩], by decide⟩
  pats := ⟨[⟨6, 1, 8, some .infinity, none⟩], by decide⟩
  groups := ⟨[⟨3, "everyone"⟩], by decide⟩
  members := []
  rules := ⟨rules.map fun (id, rule) => ⟨id, rule, none⟩, by simpa [Function.comp_def] using unique⟩
  grants := rules.map fun (id, _) => ⟨3, id⟩
  memberGroup := by simp
  sessionExpires := by simp [Table.mem_rows]

def sessionAuth : AuthContext := ⟨1, "ada", .session, 2, 7, .cookie⟩

theorem openTables_presents (rules : List (Uuid × String)) (unique : (rules.map Prod.fst).Nodup) :
    (openTables rules unique).Presents 0 sessionAuth ⟨2, 1, 7, some (.at 100), none⟩
      ⟨1, "ada", none⟩ where
  issued := by simp [openTables, AuthorityTables.credentials, sessionAuth]
  isCredential := rfl
  ofUser := rfl
  sameToken := rfl
  unrevoked := rfl
  unexpired := by simp [Expiry.isAfter]
  known := by simp [openTables]
  isUser := rfl
  enabled := rfl
  named := rfl
  source := by decide

def patAuth : AuthContext := ⟨1, "ada", .pat, 6, 8, .bearer⟩

def longRule : String := String.ofList ('a' :: '.' :: List.replicate 255 'a')

/-- The HTTP filter grants a rule that the surface authority does not, because the user has a
rule with a long name; and the WebSocket authority refuses a PAT that expires at infinity, which the
query of the surface authority takes. -/
theorem longRule_splits_entryPoints :
    let tables := openTables [(4, "notes.read"), (5, longRule)] (by decide)
    tables.Presents 0 sessionAuth ⟨2, 1, 7, some (.at 100), none⟩ ⟨1, "ada", none⟩ ∧
    (tables.filterRules sessionAuth.userId).toFinset = {"notes.read", longRule} ∧
    (grantingRule (tables.filterRules sessionAuth.userId) ["notes.read"]).isSome = true ∧
    (∀ collation, authenticate tables collation 0 sessionAuth = .error .unavailable ∧
      requireRule tables collation 0 sessionAuth "notes.read" = .error .unavailable) ∧
    (tables.surfaceCredentials 0 patAuth).length = 1 ∧
    (readSnapshot (tables.authorityRows 0 patAuth) 0).valid = false := by
  intro tables
  have presents := openTables_presents [(4, "notes.read"), (5, longRule)] (by decide)
  have refused (collation : String → String → Bool) :
      authenticate tables collation 0 sessionAuth = .error .unavailable := by
    refine presents.authenticate_of_unbounded collation fun inside => ?_
    exact absurd (inside.1.short longRule (by decide +kernel)) (by decide +kernel)
  refine ⟨presents, by decide +kernel, by decide +kernel, fun collation => ⟨refused collation, ?_⟩,
    by decide +kernel, by decide +kernel⟩
  have accepted : (decide (256 < byteSize "notes.read") || !isRbacRuleNameValid "notes.read") =
      false := by decide +kernel
  simp [requireRule, accepted, refused]

theorem openTables_entryPoints_agree :
    let tables := openTables [(4, "notes.read")] (by decide)
    ∃ caller, authenticate tables (fun _ _ => true) 0 sessionAuth = .ok caller ∧
      caller.effectiveRules.toFinset = (tables.filterRules sessionAuth.userId).toFinset := by
  intro tables
  have agree := entryPoints_agree (openTables_presents [(4, "notes.read")] (by decide))
    (fun _ _ => true) 0
  rcases agree with ⟨-, -, -, same, answers, -⟩
  have bounded : Bounded "ada" (tables.filterRules sessionAuth.userId) :=
    ⟨by decide, by decide +kernel, by decide +kernel, by decide +kernel⟩
  have spelled : Spelled (tables.filterRules sessionAuth.userId) := by
    unfold Spelled
    decide +kernel
  rcases answers bounded spelled with ⟨caller, answered⟩
  exact ⟨caller, answered, same caller answered⟩

end Plinth.Rbac
