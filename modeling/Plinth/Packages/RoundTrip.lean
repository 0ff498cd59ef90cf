import Plinth.Packages.Privileges
import Plinth.Packages.Transitions

/-!
# Disabling and enabling again

Disabling orphans all rules of a package and enabling puts all of them in force. Between the
two nothing remembers which rules an earlier upgrade had orphaned, so the round trip restores
the rules exactly when there were none.
-/

namespace Plinth.Packages

open Core Rbac
open Core.Procedure hiding pure bind

variable (ctx : InstallerContext) (kind : TransitionKind) (id : String) (world : World)
  (tables : RbacTables) (lp : PackageRow)

theorem loadPackageRow_delivers :
    (loadPackageRow kind id).Delivers World.apply world fun row final =>
      final = world ∧ world.db.packages.find? id = some row := by
  apply Delivers.bind
  apply Delivers.read
  split
  case h_1 => exact delivers_fail
  case h_2 row found => exact delivers_pure.mpr ⟨rfl, found⟩

theorem lockAndDrain_delivers :
    (lockAndDrain kind id).Delivers World.apply world fun _ final => final = world := by
  apply Delivers.bind
  apply Delivers.read
  apply Delivers.bind
  apply Delivers.read
  exact delivers_pure.mpr rfl

theorem recheck_delivers :
    (recheck kind id).Delivers World.apply world fun _ final => final = world := by
  apply Delivers.bind
  apply Delivers.read
  split
  case h_1 => exact delivers_fail
  case h_2 => exact delivers_pure.mpr rfl

theorem guardDisable_delivers (row : PackageRow) (message : String) (world : World) :
    (guardDisable id row message).Delivers World.apply world fun _ final => final = world := by
  unfold guardDisable
  split_ifs
  · exact delivers_fail
  · exact delivers_pure.mpr rfl
  · exact delivers_fail

theorem act_delivers {Error : Type} (operation : KernelOperation) (world : World) :
    (act (.kernel operation) : Lifecycle Error Unit).Delivers World.apply world
      fun _ final => final.db = world.db := by
  apply Ensures.perform
  · intro after applied
    rcases World.apply_kernel applied with ⟨memory, -, rfl⟩
    exact delivers_pure.mpr rfl
  · exact fun _ _ => delivers_pure.mpr rfl

/-- A disabled package has its rules orphaned and nothing else of the rules changed. -/
theorem disablePackage_delivers : (disablePackage id).Delivers World.apply world fun record final =>
      final.db.rbac = world.db.rbac.markExtensionRulesOrphaned record.name ∧
        (final.db.packages.find? id).map PackageRow.name = some record.name := by
  apply Delivers.bind
  apply (loadPackageRow_delivers .disable id world).mono
  rintro lp _ ⟨rfl, loaded⟩
  apply Delivers.bind
  apply (guardDisable_delivers id lp _ _).mono
  rintro _ _ rfl
  apply Delivers.bind
  apply (lockAndDrain_delivers .disable id _).mono
  rintro _ _ rfl
  apply Delivers.bind
  apply (recheck_delivers .disable id _).mono
  rintro current _ rfl
  apply Delivers.bind
  apply (guardDisable_delivers id current _ _).mono
  rintro _ _ rfl
  apply Delivers.bind
  apply Delivers.command
  intro after applied
  rcases World.apply_commit applied with ⟨db, committed, rfl⟩
  rcases Database.disable_ok committed with ⟨packages, capabilities, modified, rfl⟩
  apply Delivers.bind
  apply (act_delivers _ _).mono
  intro _ unrouted sameUnrouted
  apply Delivers.bind
  apply (act_delivers _ _).mono
  intro _ stopped sameStopped
  apply delivers_pure.mpr
  rw [sameStopped, sameUnrouted]
  refine ⟨rfl, ?_⟩
  have found := PackageTable.find?_modify modified id
  rw [loaded] at found
  have isRow : lp.id = id := (Table.find?_eq_some.mp loaded).2
  simp [found, PackageTable.Change.on, PackageTable.Change.toStateReady, isRow, transitionRecord]

/-- Enabling clears the orphan mark of every rule of the name. -/
theorem enableTransaction_delivers (world : World) :
    (enableTransaction ctx lp).Delivers World.apply world fun _ final =>
      final.db.rbac = world.db.rbac.clearExtensionRulesOrphaned lp.name := by
  apply Delivers.bind
  apply (recheck_delivers .enable lp.id world).mono
  rintro current _ rfl
  split
  · exact delivers_fail
  apply Delivers.bind
  apply (act_delivers _ _).mono
  intro _ routed sameRouted
  apply Delivers.bind
  apply Delivers.observe
  split
  case h_1 => exact .bind (.of_forall _ fun _ _ => delivers_fail)
  case h_2 provides _ =>
  apply Delivers.handle
  · apply Delivers.command
    intro after applied
    rcases World.apply_commit applied with ⟨db, committed, rfl⟩
    rcases Database.enable_ok committed with ⟨packages, capabilities, rfl⟩
    simp [sameRouted]
  · exact fun _ _ => .bind (.of_forall _ fun _ _ => delivers_fail)

theorem enableRuntime_writes : WritesOnly [.packages] (enableRuntime lp) := by
  apply Issues.bind (by simp)
  intro world
  apply Issues.bind (by simp)
  intro created
  split
  · simp
  split
  · simp
  apply Issues.bind (by simp)
  intro _
  apply Issues.bind (by simp)
  intro _
  split <;> simp

theorem guardEnable_delivers (row : PackageRow) (world : World) :
    (guardEnable id row).Delivers World.apply world fun _ final => final = world := by
  unfold guardEnable
  split_ifs
  · exact delivers_fail
  · exact delivers_pure.mpr rfl
  · exact delivers_fail

theorem verifyChecksum_delivers (world : World) :
    (verifyChecksum ctx lp).Delivers World.apply world fun _ final => final = world := by
  apply Delivers.bind
  apply Delivers.observe
  split
  · exact delivers_fail
  · split_ifs
    · exact delivers_pure.mpr rfl
    · exact delivers_fail

/-- The other steps of enabling leave the rules alone. -/
theorem enablePackage_delivers :
    (enablePackage ctx id).Delivers World.apply world fun record final =>
      (world.db.packages.find? id).map PackageRow.name = some record.name ∧
        final.db.rbac = world.db.rbac.clearExtensionRulesOrphaned record.name := by
  apply Delivers.bind
  apply (loadPackageRow_delivers .enable id world).mono
  rintro lp _ ⟨rfl, loaded⟩
  apply Delivers.bind
  apply (guardEnable_delivers id lp _).mono
  rintro _ _ rfl
  apply Delivers.bind
  apply (verifyChecksum_delivers ctx lp _).mono
  rintro _ _ rfl
  apply Delivers.bind
  apply (lockAndDrain_delivers .enable id _).mono
  rintro _ _ rfl
  apply Delivers.bind
  apply (enableTransaction_delivers ctx lp _).mono
  intro _ enabled isEnabled
  apply (enableRuntime_writes lp).deliversBind (by simp)
  intro _ started sameStarted
  apply Delivers.bind
  apply Delivers.read
  apply delivers_pure.mpr
  exact ⟨by simp [loaded, transitionRecord], sameStarted.trans isEnabled⟩

def OwnsInForce (name rule : String) : Prop :=
  tables.owner? rule = some name ∧ tables.inForce rule = true

structure Reenabled (name : String) (before after : RbacTables) : Prop where
  own : ∀ rule, OwnsInForce after name rule ↔ before.owner? rule = some name
  others : ∀ rule, before.owner? rule ≠ some name → after.rules.find? rule = before.rules.find? rule
  grants : after.groupRules = before.groupRules
  members : after.members = before.members

theorem find?_reenabled (name rule : String) :
    ((tables.markExtensionRulesOrphaned name).clearExtensionRulesOrphaned name).rules.find? rule =
      (tables.rules.find? rule).map fun row =>
        if row.extensionName = name then { row with orphaned := false } else row := by
  simp only [RbacTables.markExtensionRulesOrphaned, RbacTables.clearExtensionRulesOrphaned,
    RbacTables.find?_setOrphaned, Option.map_map]
  apply Option.map_congr
  intro row _
  by_cases own : row.extensionName = name <;> simp [own]

/-- Marking and clearing puts every rule of the extension in force. -/
theorem reenabled_marked_cleared (name : String) : Reenabled name tables
      ((tables.markExtensionRulesOrphaned name).clearExtensionRulesOrphaned name) := by
  refine ⟨fun rule => ?_, fun rule foreign => ?_, rfl, rfl⟩
  · unfold OwnsInForce RbacTables.owner? RbacTables.inForce
    rw [find?_reenabled]
    cases tables.rules.find? rule with
    | none => simp
    | some row => by_cases own : row.extensionName = name <;> simp [own]
  · rw [find?_reenabled]
    cases found : tables.rules.find? rule with
    | none => rfl
    | some row =>
      have other : row.extensionName ≠ name := by
        simpa [RbacTables.owner?, found] using foreign
      simp [other]

variable {name : String} {before after : RbacTables}

theorem Reenabled.granted_eq (reenabled : Reenabled name before after) (user rule : String) :
    after.granted user rule = before.granted user rule := by
  simp [RbacTables.granted, reenabled.grants, reenabled.members]

/-- The rules in force come back exactly if all of them were in force. -/
theorem Reenabled.rules_iff (reenabled : Reenabled name before after) :
    (∀ rule, OwnsInForce after name rule ↔ OwnsInForce before name rule) ↔
      ∀ rule, before.owner? rule = some name → before.inForce rule := by
  constructor
  · intro restored rule owned
    exact ((restored rule).mp ((reenabled.own rule).mpr owned)).2
  · intro allInForce rule
    rw [reenabled.own rule]
    exact ⟨fun owned => ⟨owned, allInForce rule owned⟩, fun inForce => inForce.1⟩

/-- What users may do comes back exactly if no rule that was granted was orphaned. -/
theorem Reenabled.effective_iff (reenabled : Reenabled name before after) :
    (∀ user rule, after.effective user rule = before.effective user rule) ↔
      ∀ user rule, before.owner? rule = some name → before.granted user rule →
        before.inForce rule := by
  constructor
  · intro restored user rule owned granted
    have now : after.inForce rule := ((reenabled.own rule).mpr owned).2
    have same := restored user rule
    simpa [RbacTables.effective, reenabled.granted_eq, granted, now] using same
  · intro allInForce user rule
    by_cases owned : before.owner? rule = some name
    · have now : after.inForce rule := ((reenabled.own rule).mpr owned).2
      cases granted : before.granted user rule with
      | false => simp [RbacTables.effective, reenabled.granted_eq, granted]
      | true =>
        simp [RbacTables.effective, reenabled.granted_eq, granted, now,
          allInForce user rule owned granted]
    · simp [RbacTables.effective, reenabled.granted_eq, RbacTables.inForce,
      reenabled.others rule owned]

/-- Disabling a package and enabling it again puts exactly the rules recorded for it in force.
The rules in force before are restored exactly when none of the package's rules was orphaned,
and every user's effective rules exactly when none of those was granted to a user. -/
theorem disable_enable_restores_iff (ctx : InstallerContext) (id : String) (world : World)
    (disabling enabling : List Answer) (disabled enabled : PackageRecord)
    (isDisabled : ((disablePackage id).run World.apply disabling world).outcome = .done disabled)
    (isEnabled : ((enablePackage ctx id).run World.apply enabling
      ((disablePackage id).run World.apply disabling world).state).outcome = .done enabled) :
    let before := world.db.rbac
    let after := ((enablePackage ctx id).run World.apply enabling
      ((disablePackage id).run World.apply disabling world).state).state.db.rbac
    Reenabled disabled.name before after ∧
      ((∀ rule, OwnsInForce after disabled.name rule ↔ OwnsInForce before disabled.name rule) ↔
        ∀ rule, before.owner? rule = some disabled.name → before.inForce rule = true) ∧
      ((∀ user rule, after.effective user rule = before.effective user rule) ↔
        ∀ user rule, before.owner? rule = some disabled.name → before.granted user rule = true →
          before.inForce rule = true) := by
  rcases (disablePackage_delivers id world).of_done isDisabled with ⟨marked, named⟩
  rcases (enablePackage_delivers ctx id _).of_done isEnabled with ⟨sameName, cleared⟩
  have isName : enabled.name = disabled.name := Option.some.inj (sameName.symm.trans named)
  rw [isName, marked] at cleared
  have reenabled := reenabled_marked_cleared world.db.rbac disabled.name
  rw [← cleared] at reenabled
  exact ⟨reenabled, reenabled.rules_iff, reenabled.effective_iff⟩

def sharingRbac : Json :=
  grantingEveryone [ruleEntry "notes.edit" "kernel", ruleEntry "notes.share" "kernel"] "notes.share"

def editingRbac : Json := .object [("rules", .array [ruleEntry "notes.edit" "kernel"])]

def sharingInstall : Result World InstallFailure PackageRecord :=
  (installPackage plainInstaller "p1" "q1" (.ok (notesPackage "1.0.0" sharingRbac)) none .user
    false).run World.apply [] World.fresh

def editingUpgrade : Result World InstallFailure PackageRecord :=
  (installPackage plainInstaller "q2" "p2" (.ok (notesPackage "2.0.0" editingRbac)) none .user
    false).run World.apply [] sharingInstall.state

/-- After disabling and enabling the upgraded package a user holds the dropped rule again. -/
theorem disable_enable_revives_dropped_rule :
    let upgraded := editingUpgrade.state
    let disabled := (disablePackage "p2").run World.apply [] upgraded
    let enabled := (enablePackage plainInstaller "p2").run World.apply [] disabled.state
    (sharingInstall.outcome.isDone = true ∧ editingUpgrade.outcome.isDone = true ∧
      disabled.outcome.isDone = true ∧ enabled.outcome.isDone = true) ∧
      upgraded.db.rbac.owner? "notes.share" = some "notes" ∧
      upgraded.db.rbac.inForce "notes.share" = false ∧
      enabled.state.db.rbac.inForce "notes.share" = true ∧
      upgraded.db.rbac.effective "alice" "notes.share" = false ∧
      enabled.state.db.rbac.effective "alice" "notes.share" = true := by
  decide +kernel

theorem disable_enable_restores_installed :
    let disabled := (disablePackage "p1").run World.apply [] sharingInstall.state
    let enabled := (enablePackage plainInstaller "p1").run World.apply [] disabled.state
    Reenabled "notes" sharingInstall.state.db.rbac enabled.state.db.rbac :=
  (disable_enable_restores_iff plainInstaller "p1" sharingInstall.state [] []
    ⟨"p1", "notes", "1.0.0", .disabled, .user, none⟩ ⟨"p1", "notes", "1.0.0", .active, .user, none⟩
    (by decide +kernel) (by decide +kernel)).1

end Plinth.Packages
