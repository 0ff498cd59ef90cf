import Plinth.Packages.Upgrade

/-!
# Installing a package

Model of `install_package` in `packages/install_lifecycle.cpp`. State changes between the
stages are made as far as possible: when one is refused the install goes on. A failed stage
drops the extension schema as long as EXTRACTING has not succeeded; nothing takes back the
registrations of the REGISTERING transaction. The `begin_drain` before the first stage of every
install, a dry run included, and the `end_drain` or `block_application` after the last one touch
only the fence of the capability ingress and are left out.
-/

namespace Plinth.Packages

open Core
open Core.Procedure hiding pure bind

structure InstallFailure where
  failedAt : InstallStage
  packageId : String := ""
  kind : String
  message : String
  deriving DecidableEq

inductive UploadingDisposition where
  | firstInstall
  | disabledPresent (existing : PackageRow)
  | upgradeCandidate (existing : PackageRow)
  | versionNotNewer (existing : PackageRow)

def classifyUploadingCollision (db : Database) (name incomingVersion : String) :
    UploadingDisposition :=
  match db.packages.rows.find? fun row => row.name = name && row.isLive && !row.uninstallingAt with
  | none => .firstInstall
  | some existing =>
    if existing.state = .disabled then .disabledPresent existing
    else if compareSemver incomingVersion existing.version = .gt then .upgradeCandidate existing
    else .versionNotNewer existing

variable (ctx : InstallerContext) (id : String) (package : Package) (provenance : Provenance)

/-- The row of `insert_packages_row`. -/
def installRow : PackageRow where
  id := id
  name := package.name
  version := package.version
  state := .uploading
  provenance := provenance
  frontendMount := package.frontendMount
  entryPoint := package.entryPoint
  manifestChecksum := ctx.sha256Hex package.manifestRaw

/-- A state change that the install does not insist on. -/
def setState (id : String) (state : InstallStage) : Lifecycle InstallFailure Unit :=
  tryCommand (.commit (.setState id state))

def failAt {Value : Type} (id : String) (failure : InstallFailure) :
    Lifecycle InstallFailure Value := do
  setState id .installFailed
  fail { failure with packageId := id }

def dropSchemaIfFirstInstall : Lifecycle InstallFailure Unit :=
  tryCommand (.commit (.dropSchema package.name))

def failAndDrop {Value : Type} (id : String) (package : Package) (failure : InstallFailure) :
    Lifecycle InstallFailure Value := do
  dropSchemaIfFirstInstall package
  failAt id failure

def validationFailure : InstallFailure :=
  ⟨.validating, "", "validation-errors", "validation failed"⟩

/-- A dry run stops after VALIDATING and leaves no row. -/
def dryRunInstall : Lifecycle InstallFailure PackageRecord :=
  if package.rejected then fail validationFailure
  else return { activeRecord "" package provenance with state := .validating }

def installRegistering : Lifecycle InstallFailure Unit :=
  match package.provides with
  | none =>
    failAndDrop id package ⟨.registering, "", "registration-failed",
      "capabilities.json failed to re-parse at REGISTERING"⟩
  | some provides =>
    (command (.commit (.register id package provides)) fun detail =>
      ⟨.registering, "", "registration-failed", detail⟩).handle (failAndDrop id package)

def installThroughRegistering : Lifecycle InstallFailure Unit := do
  setState id .validating
  if package.rejected then failAt id validationFailure
  else do
    setState id .migrating
    (runMigrations package).handle fun detail =>
      failAndDrop id package ⟨.migrating, "", "migration-failed", detail⟩
    installRegistering id package

def runStageExtracting : Lifecycle String Unit := do
  copyStaged package
  tryCommand (.file (.removeActive package.name))
  command (.file (.linkActive package.name package.version)) fun detail =>
    "symlink active failed: " ++ detail

def installExtracting : Lifecycle InstallFailure Unit :=
  (runStageExtracting package).handle fun detail => do
    tryCommand (.file (.removeTree package.name package.version))
    tryCommand (.file (.removeActive package.name))
    failAndDrop id package ⟨.extracting, "", "extraction-failed", detail⟩

/-- A failure of ACTIVATING keeps the schema and the registrations. -/
def activationFailed {Value : Type} (id : String) (package : Package) (message : String) :
    Lifecycle InstallFailure Value := do
  act (.kernel (.unregisterRoutes package.name package.version))
  failAt id ⟨.activating, "", "activation-failed", message⟩

def activationStopped {Value : Type} (id : String) (package : Package) (message : String) :
    Lifecycle InstallFailure Value := do
  act (.kernel (.unregisterRoutes package.name package.version))
  act (.kernel (.destroyPool package.name))
  failAt id ⟨.activating, "", "activation-failed", message⟩

def activationTransaction : Lifecycle InstallFailure Unit := do
  match ← probe with
  | .error detail => activationFailed id package detail
  | .ok _ =>
    match ← probe with
    | .error detail => activationStopped id package detail
    | .ok world =>
      match world.db.activate id (newApplicationReady package) with
      | .error detail => activationStopped id package detail
      | .ok _ =>
        command (.commit (.activate id (newApplicationReady package))) fun _ =>
          ⟨.activating, id, "activation-commit-unknown",
            "activation commit acknowledgement unavailable"⟩

/-- The runtime pool and the capability cache, before the activation transaction. -/
def startRuntime : Lifecycle InstallFailure Unit := do
  act (.kernel (.registerRoutes package.name package.version))
  let world ← observe
  let created ← attempt (.kernel (.createPool package.name id package.version))
  if !world.files.hasFile package.name package.version package.entryPoint then
    activationFailed id package "declared entry point is unavailable"
  else
    match created with
    | .error _ => activationFailed id package "extension runtime failed to start"
    | .ok _ =>
      match ← probe with
      | .error _ =>
        activationStopped id package
          "capability cache refresh failed; application remains unready"
      | .ok _ => pure ()

def installActivating : Lifecycle InstallFailure Unit := do
  setState id .activating
  startRuntime id package
  activationTransaction id package

def firstInstall : Lifecycle InstallFailure PackageRecord := do
  command (.commit (.insertPackage (installRow ctx id package provenance))) fun detail =>
    ⟨.uploading, "", "db-error", detail⟩
  installThroughRegistering id package
  installExtracting id package
  installActivating id package
  let _ ← read fun _ => ⟨.active, id, "rbac-test-lock-release-failed", lockReleaseMessage⟩
  return activeRecord id package provenance

/-- A dry run is decided only after the collision: an upgrade candidate is upgraded. -/
def installClassified (newId : String) (package : Package) (restaging : Option TransitionFailure)
    (provenance : Provenance) (dryRun : Bool) :
    UploadingDisposition → Lifecycle InstallFailure PackageRecord
  | .firstInstall =>
    if dryRun then dryRunInstall package provenance else firstInstall ctx id package provenance
  | .disabledPresent existing =>
    fail ⟨.uploading, "", "disabled-version-present",
      package.name ++ " is disabled at version " ++ existing.version ++
        "; re-enable or uninstall before upgrading"⟩
  | .versionNotNewer existing =>
    fail ⟨.uploading, "", "upgrade-version-not-newer",
      "incoming version " ++ package.version ++ " is not strictly newer than installed " ++
        existing.version⟩
  | .upgradeCandidate existing =>
    (upgradePackage ctx existing.id newId (restaging.elim (.ok package) .error)
      provenance).handle fun failure =>
        fail ⟨.uploading, failure.packageId, failure.code, failure.message⟩

/-- `install_package`. `submission` is what staging the upload and reading its manifest gave, and
`restaging` the failure of an upgrade's second staging, if any. -/
def installPackage (newId : String) (submission : Except InstallFailure Package)
    (restaging : Option TransitionFailure) (provenance : Provenance) (dryRun : Bool) :
    Lifecycle InstallFailure PackageRecord := do
  let package ← ofExcept submission
  let _ ← read fun detail => ⟨.uploading, "", "advisory-lock-held", detail⟩
  let world ← read fun detail => ⟨.uploading, "", "db-error", detail⟩
  installClassified ctx id newId package restaging provenance dryRun
    (classifyUploadingCollision world.db package.name package.version)

end Plinth.Packages
