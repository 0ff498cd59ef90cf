import Plinth.Packages.Semver
import Plinth.Packages.World

/-!
# Upgrading a package

Model of `upgrade_package` in `packages/install_lifecycle.cpp`, with the stages that it shares
with a first install. A step that fails outside a transaction marks the candidate as failed, up to
the commit of the swap; from that commit on nothing is marked.
-/

namespace Plinth.Packages

open Core
open Core.Procedure hiding pure bind

abbrev Lifecycle := Procedure Command World

/-- The digest and the parser that the installer applies to installed files. -/
structure InstallerContext where
  sha256Hex : String → String
  parseCapabilities : String → Option (List ProvidedCapability)

inductive TransitionKind where
  | disable
  | enable
  | uninstall
  | upgrade
  deriving DecidableEq

structure TransitionFailure where
  kind : TransitionKind
  packageId : String
  code : String
  message : String
  deriving DecidableEq

structure PackageRecord where
  id : String
  name : String
  version : String
  state : InstallStage
  provenance : Provenance
  frontendMount : Option String := none
  deriving DecidableEq

/-- One file of `run_migrations`, in a transaction of its own. -/
def runMigration (name : String) (file : MigrationFile) : Lifecycle String Unit := do
  let world ← read id
  match world.db.appliedChecksum? name file.filename with
  | some stored =>
    if stored = file.checksumHex then pure () else fail (ExtensionSchemas.checksumText file stored)
  | none =>
    command (.commit (.applyMigration name file)) fun detail =>
      "migration " ++ file.filename ++ " failed: " ++ detail

variable (existing : PackageRow) (newId : String) (package : Package) (provenance : Provenance)
  (ctx : InstallerContext)

def runMigrations : Lifecycle String Unit := do
  let _ ← read fun detail => "advisory lock query failed: " ++ detail
  command (.commit (.ensureSchema package.name)) fun detail =>
    "schema or role setup for ext_" ++ package.name ++ " failed: " ++ detail
  let files ← ofExcept package.migrations
  each (runMigration package.name) files

def copyStaged : Lifecycle String Unit := do
  command (.file (.createTree package.name package.version)) id
  each (fun file => command (.file (.copyFile package.name package.version file)) id) package.files

def upgradeFailure (packageId code message : String) : TransitionFailure :=
  ⟨.upgrade, packageId, code, message⟩

/-- The row of `insert_upgrade_row`. -/
def upgradeRow (newId : String) (existing : PackageRow) (package : Package)
    (provenance : Provenance) : PackageRow where
  id := newId
  name := package.name
  version := package.version
  state := .uploading
  provenance := provenance
  frontendMount := package.frontendMount
  entryPoint := package.entryPoint
  manifestChecksum := ctx.sha256Hex package.manifestRaw
  supersedesId := some existing.id

def failAndMark {Value : Type} (newId : String) (failure : TransitionFailure) :
    Lifecycle TransitionFailure Value := do
  tryCommand (.commit (.setState newId .installFailed))
  fail failure

def setCandidateState (state : InstallStage) : Lifecycle TransitionFailure Unit :=
  command (.commit (.setState newId state)) (upgradeFailure newId "db-error")

/-- Validation, the drain of the capability ingress, and the withdrawal of the predecessor from
the launcher. -/
def upgradePreparation : Lifecycle TransitionFailure Unit := do
  setCandidateState newId .validating
  if package.rejected then
    fail (upgradeFailure newId "validation-errors" "upgrade validation failed")
  else do
    let _ ← read fun _ =>
      upgradeFailure newId "upgrade-drain-timeout" "drain window expired"
    if existing.applicationReady then
      command (.commit (.withdraw existing.id)) (upgradeFailure newId "db-error")
    else pure ()

/-- The statements between the BEGIN and the COMMIT of a stage. `fail_and_mark` runs there too, but
the guard that rolls the transaction back takes the mark with it. -/
def inTransaction (code : String) (statements : Database → Except String Database) :
    Lifecycle TransitionFailure Unit := do
  let world ← read (upgradeFailure newId code)
  match statements world.db with
  | .error detail => fail (upgradeFailure newId code detail)
  | .ok _ => pure ()

/-- MIGRATING of an upgrade by a user, up to the BEGIN of REGISTERING. -/
def upgradeMigrating : Lifecycle TransitionFailure (List ProvidedCapability) := do
  setCandidateState newId .migrating
  (runMigrations package).handle fun detail =>
    fail (upgradeFailure newId "upgrade-migration-failed" detail)
  match package.provides with
  | none =>
    fail (upgradeFailure newId "capabilities-parse" "capabilities.json parse failed")
  | some provides => do
    let _ ← read (upgradeFailure newId "db-error")
    return provides

/-- EXTRACTING of an upgrade by a user, up to the BEGIN of the swap. -/
def upgradeExtracting : Lifecycle TransitionFailure Unit := do
  setCandidateState newId .extracting
  (copyStaged package).handle fun detail =>
    fail (upgradeFailure newId "extraction-failed" detail)
  setCandidateState newId .activating
  let _ ← read (upgradeFailure newId "upgrade-swap-failed")

def flipActive : Lifecycle TransitionFailure Unit := do
  tryCommand (.file (.removeStagedLink package.name))
  command (.file (.stageLink package.name package.version)) fun detail =>
    upgradeFailure newId "upgrade-swap-failed" ("symlink tmp: " ++ detail)
  command (.file (.renameLink package.name)) fun detail =>
    upgradeFailure newId "upgrade-swap-failed"
      ("rename(active.tmp → active) failed: " ++ detail)

def v1OnlyCapabilities (db : Database) (name : String) (provides : List ProvidedCapability) :
    List Rbac.ProvidedSignature :=
  ((db.capabilities.rows.filter fun row => row.extensionName = some name).map fun row =>
    (⟨row.namespace_, row.version.toNat, row.function⟩ : Rbac.ProvidedSignature)).dedup.filter
      fun call => !(provides.map ProvidedCapability.signature).contains call

def newApplicationReady : Bool :=
  package.panels.any fun manifest => !manifest.panels.isEmpty

def activeRecord (id : String) (package : Package) (provenance : Provenance) : PackageRecord where
  id := id
  name := package.name
  version := package.version
  state := .active
  provenance := provenance
  frontendMount := package.frontendMount

def lockReleaseMessage : String :=
  "Package is committed ACTIVE, but the name lock release was not acknowledged; RBAC testing " ++
    "was not scheduled. Inspect package state and explicitly rerun its RBAC test."

def unregisterV1Only : Lifecycle TransitionFailure Unit := do
  match ← probe with
  | .error _ => pure ()
  | .ok world =>
    each (fun call => tryCommand (.commit (.unregisterCapability call)))
      (v1OnlyCapabilities world.db package.name (package.provides.getD []))

def admitApplication : Lifecycle TransitionFailure Unit :=
  if newApplicationReady package then do
    let _ ← read (upgradeFailure newId "readiness-verification-failed")
    command (.commit (.admitReady newId)) (upgradeFailure newId "db-error")
  else pure ()

/-- The last part of T4, once the new runtime pool serves. -/
def finishUpgrade : Lifecycle TransitionFailure PackageRecord := do
  unregisterV1Only package
  let _ ← read fun _ => upgradeFailure newId "capability-refresh-failed"
    "capability cache refresh failed; application remains unready"
  admitApplication newId package
  let _ ← read fun _ => upgradeFailure newId "rbac-test-lock-release-failed" lockReleaseMessage
  return activeRecord newId package provenance

/-- T4: routes, runtime pool, capabilities and readiness. -/
def cutover : Lifecycle TransitionFailure PackageRecord := do
  act (.kernel (.unregisterRoutes existing.name existing.version))
  act (.kernel (.destroyPool package.name))
  act (.kernel (.registerRoutes package.name package.version))
  let world ← observe
  let created ← attempt (.kernel (.createPool package.name newId package.version))
  if !world.files.hasFile package.name package.version package.entryPoint then
    fail (upgradeFailure newId "runtime-start-failed"
      "declared entry point is unavailable; application remains unready")
  else
    match created with
    | .error _ =>
      fail (upgradeFailure newId "runtime-start-failed"
        "new extension runtime failed to start; application remains unready")
    | .ok _ => finishUpgrade newId package provenance

/-- The stages of an upgrade by a user up to the commit of the swap. -/
def upgradeStages : Lifecycle TransitionFailure Unit := do
  let provides ← (upgradeMigrating newId package).handle (failAndMark newId)
  inTransaction newId "db-error" fun db => db.runStageRegisteringUpgrade newId package provides
  (command (.commit (.registerUpgrade newId package provides))
    (upgradeFailure newId "db-error")).handle (failAndMark newId)
  (upgradeExtracting newId package).handle (failAndMark newId)
  inTransaction newId "upgrade-swap-failed" fun db => db.swap existing.id newId

/-- An upgrade by a user: every stage is committed on its own. -/
def upgradeByUser : Lifecycle TransitionFailure PackageRecord := do
  upgradeStages existing newId package
  command (.commit (.swap existing.id newId)) (upgradeFailure newId "upgrade-swap-failed")
  flipActive newId package
  cutover existing newId package .user

def createOwnedTree : Lifecycle TransitionFailure Unit := do
  let world ← observe
  if (world.files.trees package.name package.version).isSome then
    fail (upgradeFailure newId "extraction-failed" "incoming version directory already exists")
  else
    command (.file (.createTree package.name package.version))
      (upgradeFailure newId "extraction-failed")

/-- The statements of the open transaction up to the swap, the copy of the tree, and the flip of
the link. Nothing is committed yet. -/
def bundledStages (provides : List ProvidedCapability) (files : List MigrationFile) :
    Lifecycle TransitionFailure Unit := do
  (copyStaged package).handle fun detail =>
    fail (upgradeFailure newId "extraction-failed" detail)
  let world ← read (upgradeFailure newId "upgrade-swap-failed")
  match world.db.bundledUpgrade existing.id newId package provides files with
  | .error detail => fail (upgradeFailure newId "upgrade-swap-failed" detail)
  | .ok _ => flipActive newId package

def removeOwnedTree {Value : Type} (newId : String) (package : Package)
    (failure : TransitionFailure) : Lifecycle TransitionFailure Value := do
  tryCommand (.commit (.setState newId .installFailed))
  tryCommand (.file (.removeTree package.name package.version))
  fail failure

/-- The link is set back when the commit of a bundled upgrade fails; the new tree stays. -/
def restoreActive {Value : Type} (existing : PackageRow) (newId : String) (package : Package)
    (detail : String) : Lifecycle TransitionFailure Value := do
  let unrestored := fun _ => upgradeFailure newId "upgrade-recovery-required"
    "database commit failed and the active symlink could not be restored"
  command (.file (.stageLink package.name existing.version)) unrestored
  command (.file (.renameLink package.name)) unrestored
  let _ ← read fun _ => upgradeFailure newId "upgrade-recovery-required"
    ("database commit outcome is unknown; inspect installed version and retained files " ++
      "before restart")
  fail (upgradeFailure newId "upgrade-swap-failed" detail)

def bundledStatements :
    Lifecycle TransitionFailure (List ProvidedCapability × List MigrationFile) := do
  let world ← read (upgradeFailure newId "db-error")
  match package.migrations, package.provides with
  | .error detail, _ => fail (upgradeFailure newId "upgrade-migration-failed" detail)
  | .ok _, none =>
    fail (upgradeFailure newId "capabilities-parse" "capabilities.json parse failed")
  | .ok files, some provides =>
    match world.db.bundledRegistration newId package provides files with
    | .error detail => fail (upgradeFailure newId "db-error" detail)
    | .ok _ => return (provides, files)

/-- A bundled upgrade: one transaction from the migrations to the swap. -/
def upgradeBundled : Lifecycle TransitionFailure PackageRecord := do
  let (provides, files) ← (bundledStatements newId package).handle (failAndMark newId)
  (createOwnedTree newId package).handle (failAndMark newId)
  (bundledStages existing newId package provides files).handle (removeOwnedTree newId package)
  match ← attempt (.commit (.bundledUpgrade existing.id newId package provides files)) with
  | .error detail => restoreActive existing newId package detail
  | .ok _ => cutover existing newId package .bundled

def upgradeCandidate : Lifecycle TransitionFailure PackageRecord := do
  (upgradePreparation existing newId package).handle (failAndMark newId)
  match provenance with
  | .user => upgradeByUser existing newId package
  | .bundled => upgradeBundled existing newId package

/-- The checks against the predecessor, the candidate's row, and the stages. -/
def upgradeSubmitted (existing : PackageRow) (newId : String) (package : Package)
    (provenance : Provenance) : Lifecycle TransitionFailure PackageRecord := do
  if package.name ≠ existing.name then
    fail (upgradeFailure existing.id "name-mismatch"
      ("upgrade package name '" ++ package.name ++ "' does not match existing '" ++
        existing.name ++ "'"))
  else if compareSemver package.version existing.version ≠ .gt then
    fail (upgradeFailure existing.id "upgrade-version-not-newer"
      ("incoming " ++ package.version ++ " not > existing " ++ existing.version))
  else do
    let world ← observe
    let row := upgradeRow ctx newId existing package provenance
    command (.commit (.insertUpgrade row)) (upgradeFailure existing.id "db-error")
    upgradeCandidate existing (world.db.upgradeRowId row) package provenance

/-- `upgrade_package`. `submission` is what staging the upload and reading its manifest gave. -/
def upgradePackage (existingId newId : String) (submission : Except TransitionFailure Package)
    (provenance : Provenance) : Lifecycle TransitionFailure PackageRecord := do
  let world ← read (upgradeFailure existingId "db-error")
  match world.db.packages.find? existingId with
  | none => fail (upgradeFailure existingId "not-found" "not-found")
  | some existing =>
    if existing.provenance ≠ provenance then
      fail (upgradeFailure existingId "provenance-mismatch"
        "upgrade provenance must match the installed package")
    else if !existing.isServing then
      fail (upgradeFailure existingId "invalid-state-transition"
        ("cannot upgrade from state " ++ stageToString existing.state))
    else do
      let _ ← read (upgradeFailure existingId "in-flight-operation")
      let package ← ofExcept submission
      upgradeSubmitted ctx existing newId package provenance

end Plinth.Packages
