import Plinth.Packages.Transitions

/-!
# Recovery at startup

Model of `reconcile_in_flight_installs` in `packages/install_lifecycle.cpp`. Rows are settled
one after another in the order in which they were installed; the first row that cannot be
settled stops the recovery.
-/

namespace Plinth.Packages

open Core
open Core.Procedure hiding pure bind

variable (row : PackageRow)

def PackageRow.isInFlight : Bool :=
  match row.state with
  | .uploading | .validating | .migrating | .registering | .extracting | .activating
  | .uninstalling | .superseded => true
  | .active | .activeFlagged => row.supersedesId.isSome
  | .disabled | .installFailed => false

def cleanSchema (name : String) (dropSchema : Bool) : Lifecycle String Unit :=
  if dropSchema then
    command (.commit (.dropSchema name)) fun detail =>
      "reconcile schema cleanup failed for " ++ name ++ ": " ++ detail
  else pure ()

def markFailed (id name : String) (dropSchema : Bool) : Lifecycle String Unit := do
  cleanSchema name dropSchema
  command (.commit (.setState id .installFailed)) fun detail =>
    "reconcile terminal record failed for " ++ id ++ ": " ++ detail

def markActive (id name version : String) : Lifecycle String Unit := do
  command (.kernel (.createPool name id version)) fun _ =>
    "reconcile runtime pool creation failed for " ++ name
  (command (.commit (.setState id .active)) fun detail =>
    "reconcile active record failed for " ++ id ++ ": " ++ detail).handle fun message => do
      act (.kernel (.destroyPool name))
      fail message

/-- Forward completion once the link names the new version. -/
def completeSwap : Lifecycle String Unit :=
  if row.state = .activating then markActive row.id row.name row.version
  else command (.kernel (.createPool row.name row.id row.version)) fun _ =>
    "reconcile runtime pool recreation failed for " ++ row.name

def replayLink : Lifecycle String Unit := do
  tryCommand (.file (.removeStagedLink row.name))
  command (.file (.stageLink row.name row.version)) fun detail =>
    "reconcile mid-swap symlink creation failed for " ++ row.name ++ ": " ++ detail
  command (.file (.renameLink row.name)) fun detail =>
    "reconcile mid-swap rename failed for " ++ row.name ++ ": " ++ detail

/-- The predecessor is SUPERSEDED: the swap transaction was committed. -/
def completeCommittedSwap (oldVersion : String) : Lifecycle String Unit := do
  let world ← observe
  match world.files.active row.name with
  | some target =>
    if target = row.version then completeSwap row
    else if target = oldVersion then do
      replayLink row
      completeSwap row
    else
      fail ("reconcile active symlink for " ++ row.name ++ " points at '" ++ target ++
        "' (expected '" ++ oldVersion ++ "' or '" ++ row.version ++ "')")
  | none => do
      replayLink row
      completeSwap row

def resolveUpgradeMidSwap (supersedesId : String) : Lifecycle String Unit := do
  let world ← read fun detail => "reconcile upgrade predecessor lookup failed: " ++ detail
  match world.db.packages.find? supersedesId with
  | none => markFailed row.id row.name false
  | some old =>
    if old.isServing then
      if row.state = .activating then markFailed row.id row.name false
      else fail ("reconcile upgrade found active successor and predecessor for " ++ row.name)
    else if old.state ≠ .superseded then
      fail ("reconcile upgrade predecessor " ++ supersedesId ++ " has unexpected state '" ++
        stageToString old.state ++ "'")
    else completeCommittedSwap row old.version

/-- A first install is promoted when its directory and the manifest in it exist. -/
def resolveExtracted : Lifecycle String Unit := do
  let world ← observe
  if (world.files.trees row.name row.version).isSome &&
      world.files.hasFile row.name row.version "manifest.json" then
    markActive row.id row.name row.version
  else markFailed row.id row.name true

def reconcileUninstalling : Lifecycle String Unit := do
  let lp ← (loadPackageRow .uninstall row.id).handle fun failure =>
    fail ("reconcile UNINSTALLING load failed for " ++ row.id ++ ": " ++ failure.message)
  (runUninstallCleanup lp).handle fun failure =>
    fail ("reconcile UNINSTALLING cleanup failed for " ++ row.name ++ " " ++ row.version ++
      ": " ++ failure.message)

def reconcileRow : Lifecycle String Unit :=
  match row.state, row.supersedesId with
  | .uploading, _ | .validating, _ => markFailed row.id row.name false
  | .migrating, _ | .registering, _ => markFailed row.id row.name true
  | .activating, some supersedesId | .active, some supersedesId
  | .activeFlagged, some supersedesId => resolveUpgradeMidSwap row supersedesId
  | .extracting, _ | .activating, none => resolveExtracted row
  | .superseded, _ => do
      let _ ← read id
  | .uninstalling, _ => reconcileUninstalling row
  | _, _ =>
    fail ("reconcile encountered unexpected state '" ++ stageToString row.state ++
      "' for id=" ++ row.id ++ " name=" ++ row.name)

end Plinth.Packages
