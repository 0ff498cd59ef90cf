import Plinth.Packages.Privileges
import Plinth.Rbac.SubscribeRule

/-!
# Installs and realtime subscriptions

The subscribe check of `ws/subscriptions.cpp` and what an install changes about it. A rule's
name is not tied to the package that declares it, so a package can declare and grant the
subscribe rule of a channel that is not its own.
-/

namespace Plinth.Packages

open Core Rbac Realtime
open Core.Procedure hiding pure bind

variable (package : Package) (tables : RbacTables) (user rule : String)

/-- `subscribe_allowed`, over the rules that the connection's authority reads. -/
def subscribeAllowed (rbacEnforced : Bool) (user channel : String) : Bool :=
  if tables.effective user "kernel.admin" then true
  else if !rbacEnforced then false
  else if !validateChannel channel then false
  else if (deriveSubscribeRule channel).isEmpty then false
  else tables.effective user (deriveSubscribeRule channel)

/-- A subscription is allowed to administrators, and by the rule of a valid channel. -/
theorem subscribeAllowed_iff {tables : RbacTables} {rbacEnforced : Bool} {user channel : String} :
    subscribeAllowed tables rbacEnforced user channel ↔
      tables.effective user "kernel.admin" ∨ rbacEnforced ∧
        validateChannel channel ∧
        tables.effective user (deriveSubscribeRule channel) := by
  unfold subscribeAllowed
  cases isAdmin : tables.effective user "kernel.admin" with
  | true => simp
  | false =>
    cases rbacEnforced with
    | false => simp
    | true =>
      cases valid : validateChannel channel with
      | false => simp
      | true => simp [deriveSubscribeRule_ne_empty valid]

def OpensNoForeignChannel (rbacEnforced : Bool) (before after : RbacTables) : Prop :=
  ∀ user channel, channelOwner? channel ≠ some package.name →
    subscribeAllowed before rbacEnforced user channel = false →
    subscribeAllowed after rbacEnforced user channel = false

def Package.grantsTo : Bool :=
  package.grants.any fun grant =>
    grant.rule == rule && tables.groups.contains grant.group && tables.inGroup user grant.group

/-- The rules that an install puts in force for a user, from the manifest and the tables before
it. -/
def Package.gives : UploadingDisposition → Bool → Bool
  | .firstInstall, false =>
    (decide (package.manifest.declares rule) || tables.inForce rule) &&
      (tables.granted user rule || package.grantsTo tables user rule)
  | .upgradeCandidate _, _ =>
    decide (package.manifest.declares rule) && tables.granted user rule
  | _, _ => false

theorem granted_registered {package : Package} {tables : RbacTables} {user rule : String}
    (inForce : (package.registered tables).inForce rule) :
    (package.registered tables).granted user rule =
      (tables.granted user rule || package.grantsTo tables user rule) := by
  have found : ((tables.upsertRules package.name package.manifest.rules).rules.find?
      rule).isSome := by
    simp only [RbacTables.inForce, Package.registered, RbacTables.insertDefaultGrants_frame,
      Option.any_eq_true] at inForce
    rcases inForce with ⟨row, isRow, -⟩
    simp [isRow]
  rw [Bool.eq_iff_iff]
  simp only [RbacTables.granted, Package.grantsTo, Bool.or_eq_true, List.any_eq_true,
    Bool.and_eq_true, beq_iff_eq, List.contains_eq_mem, decide_eq_true_eq]
  constructor
  · rintro ⟨grant, isGrant, rfl, member⟩
    have wasMember : tables.inGroup user grant.group := by
      simpa [Package.registered] using member
    rcases RbacTables.mem_insertDefaultGrants.mp isGrant with old | ⟨listed, group, -⟩
    · exact .inl ⟨grant, by simpa using old, rfl, wasMember⟩
    · exact .inr ⟨_, listed, ⟨rfl, by simpa using group⟩, wasMember⟩
  · have sameMember (group : String) : (package.registered tables).inGroup user group =
        tables.inGroup user group := by simp [Package.registered]
    rintro (⟨grant, isGrant, rfl, member⟩ | ⟨grant, listed, ⟨rfl, group⟩, member⟩)
    · refine ⟨grant, RbacTables.mem_insertDefaultGrants.mpr (.inl (by simpa using isGrant)),
        rfl, ?_⟩
      rw [sameMember]
      exact member
    · refine ⟨grant, RbacTables.mem_insertDefaultGrants.mpr
        (.inr ⟨listed, by simpa using group, found⟩), rfl, ?_⟩
      rw [sameMember]
      exact member

/-- What a first registration makes effective. -/
theorem effective_registered :
    (package.registered tables).effective user rule =
      package.gives tables user rule .firstInstall false := by
  simp only [RbacTables.effective, Package.gives, ← inForce_registered]
  cases inForce : (package.registered tables).inForce rule with
  | false => rfl
  | true => simp [granted_registered inForce]

theorem effective_upgraded {package : Package} {tables : RbacTables} {user rule : String}
    {existing : PackageRow} {dryRun : Bool} (notBefore : tables.effective user rule = false) :
    (package.upgraded tables).effective user rule =
      package.gives tables user rule (.upgradeCandidate existing) dryRun := by
  have sameGranted : (package.upgraded tables).granted user rule = tables.granted user rule := by
    simp [RbacTables.granted, Package.upgraded]
  by_cases declared : package.manifest.declares rule
  · simp [RbacTables.effective, Package.gives, declared, sameGranted,
      inForce_upgraded_of_declared declared]
  have notAfter : (package.upgraded tables).effective user rule = false := by
    simp only [RbacTables.effective, sameGranted, Bool.and_eq_false_imp] at notBefore ⊢
    exact fun inForce => notBefore (inForce_of_upgraded declared inForce)
  simp [Package.gives, declared, notAfter]

/-- What an install makes effective for a user that was not so before. -/
theorem Registered.effective_eq {package : Package} {before after : RbacTables}
    {disposition : UploadingDisposition} {dryRun : Bool}
    (registered : Registered package before disposition dryRun after) {user rule : String}
    (notBefore : before.effective user rule = false) :
    after.effective user rule = package.gives before user rule disposition dryRun := by
  cases registered with
  | dryRun => exact notBefore
  | first registers =>
    rcases registers with ⟨-, rfl⟩
    exact effective_registered package before user rule
  | upgrade upgrades =>
    rcases upgrades with ⟨-, rfl⟩
    exact effective_upgraded notBefore

/-- The install gives no user, apart from administrators, a rule that opens a channel of others. -/
def Package.KeepsChannelsClosed (rbacEnforced : Bool) (tables : RbacTables)
    (disposition : UploadingDisposition) (dryRun : Bool) : Prop :=
  ∀ user rule, tables.effective user "kernel.admin" = false →
    tables.effective user rule = false →
    (rule = "kernel.admin" ∨ rbacEnforced = true ∧ opensForeign package.name rule = true) →
    package.gives tables user rule disposition dryRun = false

/-- No foreign channel is opened exactly if no rule with one becomes effective. -/
theorem Registered.opensNoForeignChannel_iff {package : Package} {before after : RbacTables}
    {disposition : UploadingDisposition} {dryRun rbacEnforced : Bool}
    (registered : Registered package before disposition dryRun after) :
    OpensNoForeignChannel package rbacEnforced before after ↔
      package.KeepsChannelsClosed rbacEnforced before disposition dryRun := by
  constructor
  · intro closed user rule notAdmin notBefore opens
    by_contra given
    have now : after.effective user rule := by
      rw [registered.effective_eq notBefore]
      exact Bool.of_not_eq_false given
    rcases opens with rfl | ⟨enforced, foreign⟩
    · -- An administrator may subscribe even to what is no channel.
      have unowned : channelOwner? "" = none := by decide
      have denied := closed user "" (by simp [unowned]) (by
        rw [← Bool.not_eq_true, subscribeAllowed_iff]
        rintro (isAdmin | ⟨-, valid, -⟩)
        · simp [notAdmin] at isAdmin
        · revert valid
          decide)
      rw [← Bool.not_eq_true, subscribeAllowed_iff] at denied
      exact denied (.inl now)
    · rcases opensForeign_iff.mp foreign with ⟨channel, valid, rfl, notOwn⟩
      have denied := closed user channel notOwn (by
        rw [← Bool.not_eq_true, subscribeAllowed_iff]
        rintro (isAdmin | ⟨-, -, allowed⟩)
        · simp [notAdmin] at isAdmin
        · simp [notBefore] at allowed)
      rw [← Bool.not_eq_true, subscribeAllowed_iff] at denied
      exact denied (.inr ⟨enforced, valid, now⟩)
  · intro closed user channel notOwn denied
    rw [← Bool.not_eq_true, subscribeAllowed_iff] at denied ⊢
    have notAdmin : before.effective user "kernel.admin" = false :=
      Bool.eq_false_iff.mpr fun isAdmin => denied (.inl isAdmin)
    rintro (isAdmin | ⟨enforced, valid, allowed⟩)
    · rw [registered.effective_eq notAdmin,
        closed user "kernel.admin" notAdmin notAdmin (.inl rfl)] at isAdmin
      cases isAdmin
    · have notBefore : before.effective user (deriveSubscribeRule channel) = false :=
        Bool.eq_false_iff.mpr fun effective => denied (.inr ⟨enforced, valid, effective⟩)
      rw [registered.effective_eq notBefore, closed user _ notAdmin notBefore
        (.inr ⟨enforced, opensForeign_iff.mpr ⟨channel, valid, rfl, notOwn⟩⟩)] at allowed
      cases allowed

/-- A successful install opens no channel of others to a user exactly when it gives no user a
rule that does. -/
theorem installPackage_opensNoForeignChannel_iff (ctx : InstallerContext) (id newId : String)
    (package : Package) (restaging : Option TransitionFailure) (provenance : Provenance)
    (dryRun rbacEnforced : Bool) (world : World) (answers : List Answer) (record : PackageRecord)
    (succeeds : ((installPackage ctx id newId (.ok package) restaging provenance dryRun).run
      World.apply answers world).outcome = .done record) :
    OpensNoForeignChannel package rbacEnforced world.db.rbac
        ((installPackage ctx id newId (.ok package) restaging provenance dryRun).run
          World.apply answers world).state.db.rbac ↔
      package.KeepsChannelsClosed rbacEnforced world.db.rbac
        (classifyUploadingCollision world.db package.name package.version) dryRun :=
  ((installPackage_delivers ctx id newId package restaging provenance dryRun
    world).of_done succeeds).opensNoForeignChannel_iff

/-- A package that declares the subscribe rule of a channel of `chat` under the reserved
namespace and grants it to everyone. -/
def eavesdroppingPackage : Package :=
  notesPackage "1.0.0" (grantingEveryone [ruleEntry "chat.realtime.subscribe.rooms" "kernel"]
    "chat.realtime.subscribe.rooms")

theorem installPackage_opens_chat :
    let result := (installPackage plainInstaller "p1" "p2" (.ok eavesdroppingPackage) none .user
      false).run World.apply [] World.fresh
    result.outcome = .done (activeRecord "p1" eavesdroppingPackage .user) ∧
      eavesdroppingPackage.rejected = false ∧
      eavesdroppingPackage.manifest.declares "chat.realtime.subscribe.rooms" ∧
      channelOwner? "plinth:ext:chat:rooms" = some "chat" ∧
      subscribeAllowed World.fresh.db.rbac true "alice" "plinth:ext:chat:rooms" = false ∧
      subscribeAllowed result.state.db.rbac true "alice" "plinth:ext:chat:rooms" = true := by
  decide +kernel

def editingPackage : Package :=
  notesPackage "1.0.0" (grantingEveryone [ruleEntry "notes.edit" "kernel"] "notes.edit")

theorem editingPackage_keepsChannelsClosed :
    editingPackage.KeepsChannelsClosed true World.fresh.db.rbac .firstInstall false := by
  have rules : editingPackage.manifest.rules.map RbacRule.rule = ["notes.edit"] := by
    decide +kernel
  have grants : editingPackage.grants = [⟨"everyone", "notes.edit"⟩] := by
    decide +kernel
  intro user rule _ notBefore opens
  have other : rule ≠ "notes.edit" := by
    rintro rfl
    revert opens
    decide +kernel
  have notDeclared : ¬ editingPackage.manifest.declares rule := by
    rintro ⟨r, declared, rfl⟩
    have listed := List.mem_map_of_mem (f := RbacRule.rule) declared
    rw [rules, List.mem_singleton] at listed
    exact other listed
  have notGranted : editingPackage.grantsTo World.fresh.db.rbac user rule = false := by
    simp [Package.grantsTo, grants, other.symm]
  simpa [Package.gives, notDeclared, notGranted, RbacTables.effective] using notBefore

theorem installPackage_opens_nothing : OpensNoForeignChannel editingPackage true World.fresh.db.rbac
      ((installPackage plainInstaller "p1" "p2" (.ok editingPackage) none .user false).run
        World.apply [] World.fresh).state.db.rbac :=
  (installPackage_opensNoForeignChannel_iff plainInstaller "p1" "p2" editingPackage none .user
    false true World.fresh [] (activeRecord "p1" editingPackage .user) (by decide +kernel)).mpr
    editingPackage_keepsChannelsClosed

end Plinth.Packages
