import Plinth.Packages.Footprints
import Plinth.Rbac.Registration

/-!
# Installs and privileges

What a successful install does to the rules and grants, and when it gives a user no more than
rules of the installed package.
-/

namespace Plinth.Packages

open Core Rbac
open Core.Procedure hiding pure bind

namespace Package

def manifest (package : Package) : RbacManifest := manifestOf package.rbac

def registered (package : Package) (tables : RbacTables) : RbacTables :=
  (tables.upsertRules package.name package.manifest.rules).insertDefaultGrants
    package.manifest.defaultGrants

def upgraded (package : Package) (tables : RbacTables) : RbacTables :=
  tables.reconcileRbacOnUpgrade package.name package.manifest.rules

def Upgrades (package : Package) (before after : RbacTables) : Prop :=
  before.Admits package.name package.manifest ∧ after = package.upgraded before

def Registers (package : Package) (before after : RbacTables) : Prop :=
  before.Admits package.name package.manifest ∧ after = package.registered before

end Package

/-- What a successful install makes of the tables, by the disposition of the upload. -/
inductive Registered (package : Package) (before : RbacTables) :
    UploadingDisposition → Bool → RbacTables → Prop where
  | dryRun : Registered package before .firstInstall true before
  | first {after : RbacTables} (registers : package.Registers before after) :
      Registered package before .firstInstall false after
  | upgrade {existing : PackageRow} {dryRun : Bool} {after : RbacTables}
      (upgrades : package.Upgrades before after) :
      Registered package before (.upgradeCandidate existing) dryRun after

section Success

variable {Value : Type} {Post : Value → World → Prop} (existing : PackageRow) (newId : String)
  (ctx : InstallerContext) (id : String)

theorem failAt_delivers (failure : InstallFailure) (world : World) :
    (failAt id failure : Lifecycle InstallFailure Value).Delivers World.apply world Post :=
  .bind (.of_forall _ fun _ _ => delivers_fail)

theorem failAndDrop_delivers (package : Package) (failure : InstallFailure) (world : World) :
    (failAndDrop id package failure : Lifecycle InstallFailure Value).Delivers World.apply world
      Post :=
  .bind (.of_forall _ fun _ after => failAt_delivers id failure after)

section

variable (package : Package)

theorem restoreActive_delivers (detail : String) (world : World) :
    (restoreActive existing newId package detail : Lifecycle TransitionFailure Value).Delivers
      World.apply world Post :=
  .bind (.of_forall _ fun _ _ => .bind (.of_forall _ fun _ _ =>
    .bind (.of_forall _ fun _ _ => delivers_fail)))

/-- A REGISTERING that finishes has registered the package. -/
theorem installRegistering_delivers (world : World) :
    (installRegistering id package).Delivers World.apply world fun _ final =>
      package.Registers world.db.rbac final.db.rbac := by
  unfold installRegistering
  split
  case h_1 => exact failAndDrop_delivers id package _ world
  case h_2 provides _ =>
  apply Delivers.handle
  · apply Delivers.command
    intro after applied
    rcases World.apply_commit applied with ⟨db, committed, rfl⟩
    rcases Database.runStageRegistering_ok committed with ⟨rbac, rules, registers⟩
    rw [registers.rbac]
    exact RbacTables.registerExtensionRbacRules_ok rules
  · exact failAndDrop_delivers id package

theorem installThroughRegistering_delivers (world : World) :
    (installThroughRegistering id package).Delivers World.apply world fun _ final =>
      package.Registers world.db.rbac final.db.rbac := by
  apply (setState_writes id .validating).deliversBind (by simp)
  intro _ validating sameValidating
  split
  · exact failAt_delivers id _ validating
  apply (setState_writes id .migrating).deliversBind (by simp)
  intro _ migrating sameMigrating
  apply Delivers.bind
  apply Delivers.handle
  · apply ((runMigrations_writes package).delivers (by simp) migrating).mono
    intro _ migrated sameMigrated
    have same : migrated.db.rbac = world.db.rbac :=
      sameMigrated.trans (sameMigrating.trans sameValidating)
    exact same ▸ installRegistering_delivers id package migrated
  · exact fun _ after => failAndDrop_delivers id package _ after

/-- No stage of a first install but REGISTERING touches the rules. -/
theorem firstInstall_delivers (provenance : Provenance) (world : World) :
    (firstInstall ctx id package provenance).Delivers World.apply world fun _ final =>
      package.Registers world.db.rbac final.db.rbac := by
  apply Delivers.bind
  apply Delivers.command
  intro inserted applied
  have sameInserted : inserted.db.rbac = world.db.rbac :=
    World.apply_agree applied .rbac (by simp)
  apply Delivers.bind
  apply (installThroughRegistering_delivers id package inserted).mono
  intro _ registered isRegistered
  apply (installExtracting_writes id package).deliversBind (by simp)
  intro _ extracted sameExtracted
  apply (installActivating_writes id package).deliversBind (by simp)
  intro _ activated sameActivated
  apply Delivers.bind
  apply Delivers.read
  apply delivers_pure.mpr
  rw [sameActivated, sameExtracted, ← sameInserted]
  exact isRegistered

/-- The statements of a transaction leave nothing before its commit. -/
theorem inTransaction_delivers (code : String) (statements : Database → Except String Database)
    (world : World) :
    (inTransaction newId code statements).Delivers World.apply world fun _ final =>
      final = world := by
  apply Delivers.bind
  apply Delivers.read
  split
  · exact delivers_fail
  · exact delivers_pure.mpr rfl

theorem upgradeStages_delivers (world : World) :
    (upgradeStages existing newId package).Delivers World.apply world fun _ final =>
      package.Upgrades world.db.rbac final.db.rbac := by
  apply Delivers.bind
  apply Delivers.handle
  case handled => exact fun failure _ => failAndMark_delivers newId failure
  apply ((upgradeMigrating_writes newId package).delivers (by simp) world).mono
  intro provides migrated sameMigrated
  apply Delivers.bind
  apply (inTransaction_delivers newId _ _ migrated).mono
  rintro _ _ rfl
  apply Delivers.bind
  apply Delivers.handle
  case handled => exact fun failure _ => failAndMark_delivers newId failure
  apply Delivers.command
  intro after applied
  have isRegistered : package.Upgrades world.db.rbac after.db.rbac := by
    rcases World.apply_commit applied with ⟨db, committed, rfl⟩
    rcases Database.runStageRegisteringUpgrade_ok committed with ⟨rbac, rules, registers⟩
    rw [sameMigrated] at rules
    rw [registers.rbac]
    exact RbacTables.registerUpgradeRbacRules_ok rules
  apply Delivers.bind
  apply Delivers.handle
  case handled => exact fun failure _ => failAndMark_delivers newId failure
  apply ((upgradeExtracting_writes newId package).delivers (by simp) after).mono
  intro _ extracted sameExtracted
  apply (inTransaction_delivers newId _ _ extracted).mono
  rintro _ _ rfl
  rw [sameExtracted]
  exact isRegistered

/-- An upgrade by a user registers the rules once, in its own transaction. -/
theorem upgradeByUser_delivers (world : World) :
    (upgradeByUser existing newId package).Delivers World.apply world fun _ final =>
      package.Upgrades world.db.rbac final.db.rbac := by
  apply Delivers.bind
  apply (upgradeStages_delivers existing newId package world).mono
  intro _ prepared isRegistered
  apply Delivers.bind
  apply Delivers.command
  intro swapped applied
  have sameSwapped : swapped.db.rbac = prepared.db.rbac :=
    World.apply_agree applied .rbac (by simp)
  apply (flipActive_writes newId package).deliversBind (by simp)
  intro _ flipped sameFlipped
  apply ((cutover_writes existing newId package .user).delivers (by simp) flipped).mono
  intro _ final sameFinal
  rw [sameFinal, sameFlipped, sameSwapped]
  exact isRegistered

/-- A bundled upgrade registers the rules with its only commit. -/
theorem upgradeBundled_delivers (world : World) :
    (upgradeBundled existing newId package).Delivers World.apply world fun _ final =>
      package.Upgrades world.db.rbac final.db.rbac := by
  apply Delivers.bind
  apply Delivers.handle
  case handled => exact fun failure _ => failAndMark_delivers newId failure
  apply ((bundledStatements_writes newId package).delivers (by simp) world).mono
  rintro ⟨provides, files⟩ stated sameStated
  apply Delivers.bind
  apply Delivers.handle
  case handled => exact fun failure _ => failAndMark_delivers newId failure
  apply ((createOwnedTree_writes newId package).delivers (by simp) stated).mono
  intro _ created sameCreated
  apply Delivers.bind
  apply Delivers.handle
  case handled =>
    exact fun _ _ => .bind (.of_forall _ fun _ _ => .bind (.of_forall _ fun _ _ => delivers_fail))
  apply ((bundledStages_writes existing newId package provides files).delivers (by simp)
    created).mono
  intro _ staged sameStaged
  apply Delivers.bind
  apply Delivers.attempt
  intro reply after replied
  cases replied with
  | lost | failed => exact restoreActive_delivers existing newId package _ _
  | taken applied =>
    apply ((cutover_writes existing newId package .bundled).delivers (by simp) after).mono
    intro _ final sameFinal
    rcases World.apply_commit applied with ⟨db, committed, rfl⟩
    have rules := Database.bundledUpgrade_ok committed
    rw [sameStaged, sameCreated, sameStated] at rules
    rw [sameFinal]
    exact RbacTables.registerUpgradeRbacRules_ok rules

end

theorem upgradeSubmitted_delivers (loaded : PackageRow) (newId : String) (package : Package)
    (provenance : Provenance) (world : World) :
    (upgradeSubmitted ctx loaded newId package provenance).Delivers World.apply world
      fun _ final =>
        package.Upgrades world.db.rbac final.db.rbac := by
  unfold upgradeSubmitted
  split_ifs
  · exact delivers_fail
  · exact delivers_fail
  · apply Delivers.bind
    apply Delivers.observe
    apply Delivers.bind
    apply Delivers.command
    intro inserted applied
    have sameInserted : inserted.db.rbac = world.db.rbac :=
      World.apply_agree applied .rbac (by simp)
    apply Delivers.bind
    apply Delivers.handle
    case handled => exact fun failure _ => failAndMark_delivers _ failure
    apply ((upgradePreparation_writes loaded _ package).delivers (by simp) inserted).mono
    intro _ prepared samePrepared
    rw [← sameInserted, ← samePrepared]
    cases provenance with
    | user => exact upgradeByUser_delivers loaded _ package prepared
    | bundled => exact upgradeBundled_delivers loaded _ package prepared

/-- An upgrade that finishes has registered the package it was given. -/
theorem upgradePackage_delivers (existing : PackageRow) (newId : String) (package : Package)
    (restaging : Option TransitionFailure) (provenance : Provenance) (world : World) :
    (upgradePackage ctx existing.id newId (restaging.elim (.ok package) .error)
      provenance).Delivers World.apply world fun _ final =>
        package.Upgrades world.db.rbac final.db.rbac := by
  apply Delivers.bind
  apply Delivers.read
  split
  case h_1 => exact delivers_fail
  case h_2 loaded _ =>
  split_ifs
  · exact delivers_fail
  · exact delivers_fail
  · apply Delivers.bind
    apply Delivers.read
    apply Delivers.bind
    apply Delivers.ofExcept
    intro submitted isSubmitted
    cases restaging with
    | some failure => cases isSubmitted
    | none =>
      cases isSubmitted
      exact upgradeSubmitted_delivers ctx loaded newId package provenance world

/-- An install that finishes has left the rules alone, registered the package, or upgraded it. -/
theorem installPackage_delivers (newId : String) (package : Package)
    (restaging : Option TransitionFailure) (provenance : Provenance) (dryRun : Bool)
    (world : World) :
    (installPackage ctx id newId (.ok package) restaging provenance dryRun).Delivers World.apply
      world fun _ final => Registered package world.db.rbac
        (classifyUploadingCollision world.db package.name package.version) dryRun
        final.db.rbac := by
  apply Delivers.bind
  apply Delivers.ofExcept
  intro submitted isSubmitted
  cases isSubmitted
  apply Delivers.bind
  apply Delivers.read
  apply Delivers.bind
  apply Delivers.read
  cases classifyUploadingCollision world.db package.name package.version with
  | firstInstall =>
    cases dryRun with
    | true =>
      change (dryRunInstall package provenance).Delivers World.apply world _
      unfold dryRunInstall
      split_ifs
      · exact delivers_fail
      · exact delivers_pure.mpr .dryRun
    | false =>
      exact (firstInstall_delivers ctx id package provenance world).mono
        fun _ _ registers => .first registers
  | disabledPresent | versionNotNewer => exact delivers_fail
  | upgradeCandidate existing =>
    apply Delivers.handle
    · exact (upgradePackage_delivers ctx existing newId package restaging provenance world).mono
        fun _ _ upgrades => .upgrade upgrades
    · exact fun _ _ => delivers_fail

end Success

/-- The change adds grants of declared rules only, and the rules that a user gains are the
package's own before and after it. -/
structure NoEscalation (package : Package) (before after : RbacTables) : Prop where
  grants : ∀ grant ∈ after.groupRules, grant ∉ before.groupRules →
    package.manifest.declares grant.rule
  gains : ∀ user rule, before.effective user rule = false → after.effective user rule = true →
    after.owner? rule = some package.name ∧
      ∀ owner, before.owner? rule = some owner → owner = package.name

def Package.grants (package : Package) : List GroupRule :=
  package.manifest.defaultGrants.map DefaultGrant.stored

/-- Every default grant that a first install can carry out is for a declared rule, unless it
was given before. -/
def Package.GrantsOwnRules (package : Package) (tables : RbacTables) : Prop :=
  ∀ grant ∈ package.grants, grant.group ∈ tables.groups →
    (tables.rules.find? grant.rule).isSome = true → grant ∉ tables.groupRules →
    package.manifest.declares grant.rule

instance (package : Package) (tables : RbacTables) : Decidable (package.GrantsOwnRules tables) :=
  inferInstanceAs (Decidable (∀ grant ∈ package.grants, _ → _ → _ → _))

variable {tables : RbacTables} {package : Package}

/-- A rule is effective for a user through a grant to one of their groups. -/
theorem effective_iff {user rule : String} :
    tables.effective user rule ↔ tables.inForce rule ∧
      ∃ grant ∈ tables.groupRules, grant.rule = rule ∧ tables.inGroup user grant.group := by
  simp [RbacTables.effective, RbacTables.granted]

/-- It is enough to look at the owners of the rules and at the new grants. -/
theorem NoEscalation.of_grants {before after : RbacTables}
    (own : before.Admits package.name package.manifest)
    (sameMembers : after.members = before.members)
    (declared : ∀ rule, package.manifest.declares rule → after.owner? rule = some package.name)
    (others : ∀ rule, ¬ package.manifest.declares rule → after.inForce rule → before.inForce rule)
    (grants : ∀ grant ∈ after.groupRules, grant ∉ before.groupRules →
      package.manifest.declares grant.rule) : NoEscalation package before after := by
  refine ⟨grants, fun user rule notBefore now => ?_⟩
  by_cases isDeclared : package.manifest.declares rule
  · exact ⟨declared rule isDeclared, own rule isDeclared⟩
  rcases effective_iff.mp now with ⟨inForce, grant, isGrant, rfl, member⟩
  have wasGranted : grant ∈ before.groupRules := by
    by_contra added
    exact isDeclared (grants grant isGrant added)
  have wasMember : before.inGroup user grant.group := by
    simpa [sameMembers] using member
  have wasEffective : before.effective user grant.rule :=
    effective_iff.mpr ⟨others _ isDeclared inForce, grant, wasGranted, rfl, wasMember⟩
  simp [wasEffective] at notBefore

theorem inForce_registered (package : Package) (tables : RbacTables) (rule : String) :
    (package.registered tables).inForce rule =
      (decide (package.manifest.declares rule) || tables.inForce rule) := by
  by_cases declared : package.manifest.declares rule
  · rcases tables.find?_upsertRules_of_declared package.name declared with
      ⟨row, isRow, -, inForce⟩
    simp [RbacTables.inForce, Package.registered, isRow, inForce, declared]
  · simp [RbacTables.inForce, Package.registered, declared,
      tables.find?_upsertRules_of_not_declared package.name fun r mem same =>
        declared ⟨r, mem, same⟩]

theorem inForce_upgraded_of_declared {rule : String} (declared : package.manifest.declares rule) :
    (package.upgraded tables).inForce rule := by
  rcases tables.find?_reconcileRbacOnUpgrade_of_declared package.name declared with
    ⟨row, isRow, -, inForce⟩
  simp [RbacTables.inForce, Package.upgraded, isRow, inForce]

theorem inForce_of_upgraded {rule : String} (notDeclared : ¬ package.manifest.declares rule)
    (inForce : (package.upgraded tables).inForce rule) : tables.inForce rule := by
  simp only [RbacTables.inForce, Package.upgraded,
    tables.find?_reconcileRbacOnUpgrade_of_not_declared package.name fun r mem same =>
      notDeclared ⟨r, mem, same⟩, Option.any_map] at inForce ⊢
  cases found : tables.rules.find? rule with
  | none => simp [found] at inForce
  | some row =>
    rw [found] at inForce
    by_cases own : row.extensionName = package.name
    · simp [own] at inForce
    · simpa [own] using inForce

/-- A first registration escalates nothing exactly if the default grants are of own rules. -/
theorem registered_noEscalation_iff (own : tables.Admits package.name package.manifest) :
    NoEscalation package tables (package.registered tables) ↔ package.GrantsOwnRules tables := by
  constructor
  · intro noEscalation grant isGrant group found absent
    apply noEscalation.grants grant _ absent
    apply RbacTables.mem_insertDefaultGrants.mpr
    refine .inr ⟨isGrant, by simpa using group, ?_⟩
    by_cases declared : package.manifest.declares grant.rule
    · rcases tables.find?_upsertRules_of_declared package.name declared with ⟨row, isRow, -⟩
      simp [isRow]
    · rw [tables.find?_upsertRules_of_not_declared package.name fun r mem same =>
        declared ⟨r, mem, same⟩]
      exact found
  · intro grantsOwn
    apply NoEscalation.of_grants own
    · simp [Package.registered]
    · intro rule declared
      rcases tables.find?_upsertRules_of_declared package.name declared with
        ⟨row, isRow, owned, -⟩
      simp [RbacTables.owner?, Package.registered, isRow, owned]
    · intro rule notDeclared inForce
      simpa [inForce_registered, notDeclared] using inForce
    · intro grant isGrant added
      rcases RbacTables.mem_insertDefaultGrants.mp isGrant with old | ⟨listed, group, found⟩
      · exact absurd (by simpa using old) added
      by_contra notDeclared
      rw [tables.find?_upsertRules_of_not_declared package.name fun r mem same =>
        notDeclared ⟨r, mem, same⟩] at found
      exact notDeclared (grantsOwn _ listed (by simpa using group) found added)

/-- The registration of an upgrade grants nothing, so it escalates nothing. -/
theorem upgraded_noEscalation (own : tables.Admits package.name package.manifest) :
    NoEscalation package tables (package.upgraded tables) := by
  apply NoEscalation.of_grants own
  · simp [Package.upgraded]
  · intro rule declared
    rcases tables.find?_reconcileRbacOnUpgrade_of_declared package.name declared with
      ⟨row, isRow, owned, -⟩
    simp [RbacTables.owner?, Package.upgraded, isRow, owned]
  · exact fun rule => inForce_of_upgraded
  · intro grant isGrant added
    exact absurd (by simpa [Package.upgraded] using isGrant) added

/-- A successful install escalates no one's privileges exactly when it is not a first install,
or a dry run, or its default grants are for rules that it declares. -/
theorem installPackage_noEscalation_iff (ctx : InstallerContext) (id newId : String)
    (package : Package) (restaging : Option TransitionFailure) (provenance : Provenance)
    (dryRun : Bool) (world : World) (answers : List Answer) (record : PackageRecord)
    (succeeds : ((installPackage ctx id newId (.ok package) restaging provenance dryRun).run
      World.apply answers world).outcome = .done record) :
    NoEscalation package world.db.rbac
        ((installPackage ctx id newId (.ok package) restaging provenance dryRun).run
          World.apply answers world).state.db.rbac ↔
      (classifyUploadingCollision world.db package.name package.version = .firstInstall →
        dryRun = false → package.GrantsOwnRules world.db.rbac) := by
  have registered := (installPackage_delivers ctx id newId package restaging provenance dryRun
    world).of_done succeeds
  revert registered
  generalize ((installPackage ctx id newId (.ok package) restaging provenance dryRun).run
    World.apply answers world).state.db.rbac = after
  generalize classifyUploadingCollision world.db package.name package.version = disposition
  intro registered
  cases registered with
  | dryRun =>
    simp only [Bool.true_eq_false, false_implies, implies_true, iff_true]
    exact ⟨fun grant isGrant added => absurd isGrant added,
      fun user rule notBefore now => by simp [now] at notBefore⟩
  | first registers =>
    rcases registers with ⟨own, rfl⟩
    simpa using registered_noEscalation_iff own
  | upgrade upgrades =>
    rcases upgrades with ⟨own, rfl⟩
    simpa using upgraded_noEscalation own

def plainInstaller : InstallerContext := ⟨id, fun _ => some []⟩

def notesPackage (version : String) (rbac : Json) : Package where
  name := "notes"
  version := version
  entryPoint := "server/index.js"
  manifestRaw := "\x7b\x7d"
  provides := some []
  rbac := .value rbac
  files := [⟨"manifest.json", "\x7b\x7d"⟩, ⟨"server/index.js", ""⟩]
  manifest_staged := by simp

def grantingEveryone (rules : List Json) (rule : String) : Json :=
  .object [("rules", .array rules),
    ("default_grants", .array [.object [("group", .string "everyone"), ("rule", .string rule)]])]

def ruleEntry (rule namespace_ : String) : Json :=
  .object [("rule", .string rule), ("namespace", .string namespace_), ("description", .string rule)]

/-- A package that declares no rule makes a user an administrator. -/
theorem installPackage_grants_kernelAdmin :
    let package := notesPackage "1.0.0" (grantingEveryone [] "kernel.admin")
    let result := (installPackage plainInstaller "p1" "p2" (.ok package) none .user false).run
      World.apply [] World.fresh
    result.outcome = .done (activeRecord "p1" package .user) ∧
      ⟨"everyone", "kernel.admin"⟩ ∉ World.fresh.db.rbac.groupRules ∧
      ⟨"everyone", "kernel.admin"⟩ ∈ result.state.db.rbac.groupRules ∧
      ¬ package.manifest.declares "kernel.admin" ∧
      World.fresh.db.rbac.effective "alice" "kernel.admin" = false ∧
      result.state.db.rbac.effective "alice" "kernel.admin" = true ∧
      result.state.db.rbac.owner? "kernel.admin" = some "kernel" := by
  decide +kernel

theorem installPackage_grants_own :
    let package := notesPackage "1.0.0"
      (grantingEveryone [ruleEntry "notes.edit" "kernel"] "notes.edit")
    package.GrantsOwnRules World.fresh.db.rbac ∧ NoEscalation package World.fresh.db.rbac
        ((installPackage plainInstaller "p1" "p2" (.ok package) none .user false).run
          World.apply [] World.fresh).state.db.rbac := by
  have own : (notesPackage "1.0.0" (grantingEveryone [ruleEntry "notes.edit" "kernel"]
      "notes.edit")).GrantsOwnRules World.fresh.db.rbac := by decide +kernel
  refine ⟨own, (installPackage_noEscalation_iff plainInstaller "p1" "p2" _ none .user false
    World.fresh [] (activeRecord "p1" (notesPackage "1.0.0" (grantingEveryone
      [ruleEntry "notes.edit" "kernel"] "notes.edit")) .user) ?_).mpr fun _ _ => own⟩
  decide +kernel

end Plinth.Packages
