import Plinth.Packages.Upgrade

/-!
# Disabling, enabling and uninstalling

Model of `disable_package`, `enable_package`, `uninstall_package` and `run_uninstall_cleanup`
in `packages/install_lifecycle.cpp`.
-/

namespace Plinth.Packages

open Core
open Core.Procedure hiding pure bind

def loadPackageRow (kind : TransitionKind) (id : String) :
    Lifecycle TransitionFailure PackageRow := do
  let world ← read fun detail => ⟨kind, id, "db-error", detail⟩
  match world.db.packages.find? id with
  | none => fail ⟨kind, id, "not-found", "not-found"⟩
  | some row => return row

def lockAndDrain (kind : TransitionKind) (id : String) : Lifecycle TransitionFailure Unit := do
  let _ ← read fun detail => ⟨kind, id, "in-flight-operation", detail⟩
  let _ ← read fun outstanding => ⟨kind, id, "drain-timeout",
    "capability ingress fence timed out with " ++ outstanding ++ " in-flight calls"⟩

def recheck (kind : TransitionKind) (id : String) : Lifecycle TransitionFailure PackageRow := do
  let world ← read fun detail => ⟨kind, id, "db-error", detail⟩
  match world.db.packages.find? id with
  | none => fail ⟨kind, id, "db-error", "recheck SELECT failed"⟩
  | some row => return row

variable (id : String) (ctx : InstallerContext) (row lp : PackageRow) (code message : String)

def transitionRecord (state : InstallStage) : PackageRecord where
  id := row.id
  name := row.name
  version := row.version
  state := state
  provenance := .user
  frontendMount := row.frontendMount

def disableFailure : TransitionFailure := ⟨.disable, id, code, message⟩

def guardDisable : Lifecycle TransitionFailure Unit :=
  if row.state = .disabled then fail (disableFailure id "already-disabled" message)
  else if row.isServing then pure ()
  else fail (disableFailure id "invalid-state-transition" message)

def disablePackage : Lifecycle TransitionFailure PackageRecord := do
  let lp ← loadPackageRow .disable id
  guardDisable id lp
    (if lp.state = .disabled then "package is already disabled"
      else "cannot disable from state " ++ stageToString lp.state)
  lockAndDrain .disable id
  let current ← recheck .disable id
  guardDisable id current
    ("state raced to " ++ stageToString current.state ++ " before disable tx opened")
  command (.commit (.disable id lp.name)) (disableFailure id "db-error")
  act (.kernel (.unregisterRoutes lp.name lp.version))
  act (.kernel (.destroyPool lp.name))
  return transitionRecord lp .disabled

def enableFailure : TransitionFailure := ⟨.enable, id, code, message⟩

def Files.contents? (files : Files) (name version path : String) : Option String :=
  (files.trees name version).bind fun tree =>
    (tree.find? fun file => file.path = path).map StagedFile.contents

def guardEnable : Lifecycle TransitionFailure Unit :=
  if row.isServing then fail (enableFailure id "already-enabled" "package is already enabled")
  else if row.state = .disabled then pure ()
  else fail (enableFailure id "invalid-state-transition"
    ("cannot enable from state " ++ stageToString row.state))

def verifyChecksum : Lifecycle TransitionFailure Unit := do
  let world ← observe
  match world.files.contents? lp.name lp.version "manifest.json" with
  | none =>
    fail (enableFailure lp.id "checksum-mismatch-on-enable" "manifest.json missing")
  | some raw =>
    if ctx.sha256Hex raw = lp.manifestChecksum then pure ()
    else fail (enableFailure lp.id "checksum-mismatch-on-enable"
      "on-disk manifest.json diverges from plinth.packages.manifest_checksum")

/-- The capabilities of the installed tree; a missing file provides none. -/
def installedCapabilities (files : Files) (lp : PackageRow) : Option (List ProvidedCapability) :=
  match files.contents? lp.name lp.version "capabilities.json" with
  | none => some []
  | some raw => ctx.parseCapabilities raw

/-- The enabling transaction; its failure takes the routes back. -/
def enableTransaction : Lifecycle TransitionFailure Unit := do
  let current ← recheck .enable lp.id
  if current.state ≠ .disabled then
    fail (enableFailure lp.id "invalid-state-transition"
      ("state raced to " ++ stageToString current.state ++ " before enable tx opened"))
  else do
    act (.kernel (.registerRoutes lp.name lp.version))
    let world ← observe
    match installedCapabilities ctx world.files lp with
    | none => do
        act (.kernel (.unregisterRoutes lp.name lp.version))
        fail (enableFailure lp.id "db-error" "capabilities.json failed to parse at enable")
    | some provides =>
      (command (.commit (.enable lp.id lp.name provides))
        (enableFailure lp.id "db-error")).handle fun failure => do
          act (.kernel (.unregisterRoutes lp.name lp.version))
          fail failure

def hasRegisteredSurfaces (db : Database) (id : String) : Bool :=
  db.panels.any fun panel => panel.packageId = id && (panel.panelType == .primary ||
    (panel.validatedFormatVersion == 2 && (panel.panelType == .float || panel.panelType == .tray)))

def enableRuntime : Lifecycle TransitionFailure Unit := do
  let world ← observe
  let created ← attempt (.kernel (.createPool lp.name lp.id lp.version))
  if !world.files.hasFile lp.name lp.version lp.entryPoint then
    fail (enableFailure lp.id "runtime-start-failed"
      "declared entry point is unavailable; application remains unready")
  else
    match created with
    | .error _ =>
      fail (enableFailure lp.id "runtime-start-failed"
        "extension runtime failed to start; application remains unready")
    | .ok _ => do
        let _ ← read fun _ => enableFailure lp.id "capability-refresh-failed"
          "capability cache refresh failed; application remains unready"
        let _ ← read (enableFailure lp.id "readiness-verification-failed")
        if hasRegisteredSurfaces world.db lp.id then
          command (.commit (.admitReady lp.id)) (enableFailure lp.id "db-error")
        else pure ()

def enablePackage (id : String) : Lifecycle TransitionFailure PackageRecord := do
  let lp ← loadPackageRow .enable id
  guardEnable id lp
  verifyChecksum ctx lp
  lockAndDrain .enable id
  enableTransaction ctx lp
  enableRuntime lp
  let _ ← read fun _ => enableFailure id "rbac-test-lock-release-failed" lockReleaseMessage
  return transitionRecord lp .active

def uninstallFailure : TransitionFailure :=
  ⟨.uninstall, id, code, message⟩

/-- `run_uninstall_cleanup`. The routes, the panels and the row belong to this version; the
other steps select by the package's name. -/
def runUninstallCleanup : Lifecycle TransitionFailure Unit := do
  act (.kernel (.unregisterRoutes lp.name lp.version))
  command (.commit (.deleteRegistrations lp.id lp.name)) (uninstallFailure lp.id "db-error")
  act (.kernel (.destroyPool lp.name))
  command (.commit (.dropSchema lp.name)) fun detail =>
    uninstallFailure lp.id "db-error" ("drop_schema_and_migrations failed: " ++ detail)
  tryCommand (.file (.removeExtension lp.name))
  command (.commit (.deletePackage lp.id)) (uninstallFailure lp.id "db-error")

def guardUninstall : Lifecycle TransitionFailure Unit :=
  if row.state = .uninstalling then
    fail (uninstallFailure row.id "already-uninstalling" message)
  else pure ()

/-- `uninstall_package` of a row in any state but UNINSTALLING. -/
def uninstallPackage (confirmed : Bool) : Lifecycle TransitionFailure Unit :=
  if !confirmed then
    fail (uninstallFailure id "confirmation-required" "uninstall requires ?confirm=true")
  else do
    let lp ← loadPackageRow .uninstall id
    guardUninstall lp "uninstall already in progress"
    lockAndDrain .uninstall id
    let current ← recheck .uninstall id
    guardUninstall current "state raced to UNINSTALLING before uninstall tx opened"
    command (.commit (.markUninstalling id)) (uninstallFailure id "db-error")
    runUninstallCleanup lp

end Plinth.Packages
