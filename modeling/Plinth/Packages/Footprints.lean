import Plinth.Packages.Effects
import Plinth.Packages.Install

/-!
# The tables that each stage can write

A procedure writes only some tables when all its commands do. Every run of it, whatever the
environment answers, then leaves the other tables as they were.
-/

namespace Plinth.Packages

open Core
open Core.Procedure hiding pure bind

variable {Error Value : Type}

def WritesOnly (parts : List Database.Part) (procedure : Lifecycle Error Value) : Prop :=
  procedure.Issues fun command => command.writes ⊆ parts

variable {parts : List Database.Part} {procedure : Lifecycle Error Value}

theorem WritesOnly.mono {more : List Database.Part} (writes : WritesOnly parts procedure)
    (wider : parts ⊆ more) : WritesOnly more procedure :=
  Issues.mono writes fun _ only => List.Subset.trans only wider

theorem Database.Agree.trans {db middle after : Database} {part : Database.Part}
    (first : db.Agree middle part) (second : middle.Agree after part) : db.Agree after part := by
  cases part <;> exact Eq.trans second first

theorem Database.Agree.refl (db : Database) (part : Database.Part) : db.Agree db part := by
  cases part <;> simp

/-- However a run goes, the parts that its procedure does not write are as before. -/
theorem WritesOnly.agree (writes : WritesOnly parts procedure)
    (world : World) : procedure.Ensures World.apply world fun _ final =>
      ∀ part ∉ parts, world.db.Agree final.db part := by
  apply writes.invariant fun reached => ∀ part ∉ parts, world.db.Agree reached.db part
  · intro command reached after only kept applied part other
    exact (kept part other).trans (World.apply_agree applied part fun mem => other (only mem))
  · exact fun part _ => .refl world.db part

/-- A part that does not write the rules may be passed in a proof about them. -/
theorem WritesOnly.deliversBind {Other : Type} {world : World}
    {continuation : Value → Lifecycle Error Other} {Post : Other → World → Prop}
    (writes : WritesOnly parts procedure) (quiet : Database.Part.rbac ∉ parts)
    (rest : ∀ value after, after.db.rbac = world.db.rbac →
      (continuation value).Delivers World.apply after Post) :
    (procedure >>= continuation).Delivers World.apply world Post :=
  .bind ((writes.agree world).mono fun _ final kept value _ => rest value final (kept .rbac quiet))

theorem WritesOnly.delivers (writes : WritesOnly parts procedure)
    (quiet : Database.Part.rbac ∉ parts) (world : World) :
    procedure.Delivers World.apply world fun _ final => final.db.rbac = world.db.rbac :=
  (writes.agree world).mono fun _ _ kept _ _ => kept .rbac quiet

section Stages

variable {Allowed : Command → Prop}

/-- The commands of MIGRATING: the schema and one migration after the other. -/
theorem runMigrations_issues (package : Package)
    (schema : Allowed (.commit (.ensureSchema package.name)))
    (migration : ∀ file, Allowed (.commit (.applyMigration package.name file))) :
    (runMigrations package).Issues Allowed := by
  apply Issues.bind (by simp)
  intro _
  apply Issues.bind (by simpa using schema)
  intro _
  apply Issues.bind (by simp)
  intro files
  apply Issues.each
  intro file _
  apply Issues.bind (by simp)
  intro world
  split
  · split <;> simp
  · simpa using migration file

/-- The commands of EXTRACTING: the tree and one file after the other. -/
theorem copyStaged_issues (package : Package)
    (tree : Allowed (.file (.createTree package.name package.version)))
    (copy : ∀ file, Allowed (.file (.copyFile package.name package.version file))) :
    (copyStaged package).Issues Allowed := by
  apply Issues.bind (by simpa using tree)
  intro _
  apply Issues.each
  intro file _
  simpa using copy file

/-- The commands of an upgrade in MIGRATING. -/
theorem upgradeMigrating_issues (newId : String) (package : Package)
    (migrating : Allowed (.commit (.setState newId .migrating)))
    (schema : Allowed (.commit (.ensureSchema package.name)))
    (migration : ∀ file, Allowed (.commit (.applyMigration package.name file))) :
    (upgradeMigrating newId package).Issues Allowed := by
  apply Issues.bind (issues_command.mpr migrating)
  intro _
  apply Issues.bind (Issues.handle (runMigrations_issues package schema migration)
    fun _ => issues_fail _)
  intro _
  split
  · simp
  · exact Issues.bind (by simp) fun _ => by simp

/-- The commands of an upgrade in EXTRACTING. -/
theorem upgradeExtracting_issues (newId : String) (package : Package)
    (state : ∀ state ∈ [InstallStage.extracting, .activating],
      Allowed (.commit (.setState newId state)))
    (tree : Allowed (.file (.createTree package.name package.version)))
    (copy : ∀ file, Allowed (.file (.copyFile package.name package.version file))) :
    (upgradeExtracting newId package).Issues Allowed := by
  apply Issues.bind (issues_command.mpr (state .extracting (by simp)))
  intro _
  apply Issues.bind (Issues.handle (copyStaged_issues package tree copy) fun _ => issues_fail _)
  intro _
  apply Issues.bind (issues_command.mpr (state .activating (by simp)))
  exact fun _ => Issues.bind (by simp) fun _ => by simp

/-- The commands of T4, all of them after the commit of the swap. -/
theorem cutover_issues (existing : PackageRow) (newId : String) (package : Package)
    (provenance : Provenance) (kernel : ∀ operation, Allowed (.kernel operation))
    (unregister : ∀ call, Allowed (.commit (.unregisterCapability call)))
    (ready : Allowed (.commit (.admitReady newId))) :
    (cutover existing newId package provenance).Issues Allowed := by
  apply Issues.bind (by simpa using kernel _)
  intro _
  apply Issues.bind (by simpa using kernel _)
  intro _
  apply Issues.bind (by simpa using kernel _)
  intro _
  apply Issues.bind (by simp)
  intro world
  apply Issues.bind (by simpa using kernel _)
  intro created
  split
  · simp
  split
  · simp
  apply Issues.bind
  · apply Issues.bind (by simp)
    intro answered
    split
    · simp
    · exact Issues.each fun call _ => by simpa using unregister call
  intro _
  apply Issues.bind (by simp)
  intro _
  apply Issues.bind
  · unfold admitApplication
    split
    · exact Issues.bind (by simp) fun _ => by simpa using ready
    · simp
  intro _
  exact Issues.bind (by simp) fun _ => by simp

end Stages

variable (id : String) (package : Package) (newId : String) (existing : PackageRow)

theorem runMigrations_writes : WritesOnly [.schemas] (runMigrations package) :=
  runMigrations_issues package (by simp) fun _ => by simp

theorem copyStaged_writes : WritesOnly [] (copyStaged package) :=
  copyStaged_issues package (by simp) fun _ => by simp

theorem setState_writes (state : InstallStage) : WritesOnly [.packages] (setState id state) :=
  issues_tryCommand.mpr (by simp)

theorem failAt_writes (failure : InstallFailure) :
    WritesOnly [.packages] (failAt id failure : Lifecycle InstallFailure Value) :=
  Issues.bind (setState_writes id .installFailed) fun _ => issues_fail _

/-- A failed stage writes the row and the schema. -/
theorem failAndDrop_writes (failure : InstallFailure) : WritesOnly [.packages, .schemas]
      (failAndDrop id package failure : Lifecycle InstallFailure Value) := by
  apply Issues.bind
  · exact issues_tryCommand.mpr (by simp)
  · exact fun _ => (failAt_writes id failure).mono (by simp)

theorem runStageExtracting_writes : WritesOnly [] (runStageExtracting package) := by
  apply Issues.bind (copyStaged_writes package)
  intro _
  apply Issues.bind (by simp)
  intro _
  simp

/-- EXTRACTING of a first install writes the database only when it fails. -/
theorem installExtracting_writes :
    WritesOnly [.packages, .schemas] (installExtracting id package) := by
  apply Issues.handle ((runStageExtracting_writes package).mono (by simp))
  intro detail
  apply Issues.bind (by simp)
  intro _
  apply Issues.bind (by simp)
  intro _
  exact failAndDrop_writes id package _

theorem activationFailed_writes (message : String) : WritesOnly [.packages]
      (activationFailed id package message : Lifecycle InstallFailure Value) := by
  apply Issues.bind (by simp)
  exact fun _ => failAt_writes id _

theorem activationStopped_writes (message : String) : WritesOnly [.packages]
      (activationStopped id package message : Lifecycle InstallFailure Value) := by
  apply Issues.bind (by simp)
  intro _
  apply Issues.bind (by simp)
  exact fun _ => failAt_writes id _

/-- Starting the runtime touches the row only when it fails. -/
theorem startRuntime_writes : WritesOnly [.packages] (startRuntime id package) := by
  apply Issues.bind (by simp)
  intro _
  apply Issues.bind (by simp)
  intro world
  apply Issues.bind (by simp)
  intro created
  split
  · exact activationFailed_writes id package _
  split
  · exact activationFailed_writes id package _
  apply Issues.bind (by simp)
  intro refreshed
  split
  · exact activationStopped_writes id package _
  · simp

theorem activationTransaction_writes :
    WritesOnly [.packages] (activationTransaction id package) := by
  apply Issues.bind (by simp)
  intro begun
  split
  · exact activationFailed_writes id package _
  apply Issues.bind (by simp)
  intro locked
  split
  · exact activationStopped_writes id package _
  · split
    · exact activationStopped_writes id package _
    · simp

/-- ACTIVATING writes the row of the package and nothing else. -/
theorem installActivating_writes : WritesOnly [.packages] (installActivating id package) := by
  apply Issues.bind (setState_writes id .activating)
  intro _
  apply Issues.bind (startRuntime_writes id package)
  exact fun _ => activationTransaction_writes id package

theorem setCandidateState_writes (state : InstallStage) :
    WritesOnly [.packages] (setCandidateState newId state) :=
  issues_command.mpr (by simp)

/-- A marked failure never finishes. -/
theorem failAndMark_delivers {world : World} {Post : Value → World → Prop}
    (failure : TransitionFailure) :
    (failAndMark newId failure).Delivers World.apply world Post :=
  .bind (.of_forall _ fun _ _ => delivers_fail)

theorem upgradeMigrating_writes (package : Package) :
    WritesOnly [.packages, .schemas] (upgradeMigrating newId package) :=
  upgradeMigrating_issues newId package (by simp) (by simp) fun _ => by simp

theorem upgradeExtracting_writes (package : Package) :
    WritesOnly [.packages] (upgradeExtracting newId package) :=
  upgradeExtracting_issues newId package (fun _ _ => by simp) (by simp) fun _ => by simp

/-- Until MIGRATING an upgrade writes rows of packages only. -/
theorem upgradePreparation_writes (newId : String) (package : Package) :
    WritesOnly [.packages] (upgradePreparation existing newId package) := by
  apply Issues.bind (setCandidateState_writes newId .validating)
  intro _
  split
  · simp
  · apply Issues.bind (by simp)
    intro _
    split <;> simp

theorem flipActive_writes (package : Package) : WritesOnly [] (flipActive newId package) := by
  apply Issues.bind (by simp)
  intro _
  apply Issues.bind (by simp)
  intro _
  simp

/-- T4 writes the rows and takes capabilities away. -/
theorem cutover_writes (newId : String) (package : Package) (provenance : Provenance) :
    WritesOnly [.packages, .capabilities] (cutover existing newId package provenance) :=
  cutover_issues existing newId package provenance (fun _ => by simp) (fun _ => by simp) (by simp)

theorem bundledStatements_writes (package : Package) :
    WritesOnly [] (bundledStatements newId package) := by
  apply Issues.bind (by simp)
  intro world
  split
  · simp
  · simp
  · split <;> simp

theorem createOwnedTree_writes (package : Package) :
    WritesOnly [] (createOwnedTree newId package) := by
  apply Issues.bind (by simp)
  intro world
  split <;> simp

/-- Before its commit a bundled upgrade has written nothing. -/
theorem bundledStages_writes (newId : String) (package : Package)
    (provides : List ProvidedCapability) (files : List MigrationFile) :
    WritesOnly [] (bundledStages existing newId package provides files) := by
  apply Issues.bind
  · exact Issues.handle (copyStaged_writes package) fun _ => issues_fail _
  intro _
  apply Issues.bind (by simp)
  intro world
  split
  · simp
  · exact flipActive_writes newId package

end Plinth.Packages
