import Plinth.Packages.Package

/-!
# The package tables

The rows that the package lifecycle keeps in PostgreSQL and the statements and transactions of
`packages/install_lifecycle.cpp`, `packages/migrations.cpp` and `capabilities/registration.cpp`
on them. A transaction is a function from the database before it to the database that it
commits, or to the error of the statement that stops it.

The constraints of `plinth.packages` are fields of the table, so a statement that would break
one of them fails. Rows stand in the order of `installed_at`.
-/

namespace Plinth.Packages

open Core Rbac Function
open Capabilities (CapabilityRegistration CapabilityError validateRegistration isLower isDigit
  isNamespaceTail)

inductive InstallStage where
  | uploading
  | validating
  | migrating
  | registering
  | extracting
  | activating
  | active
  | activeFlagged
  | disabled
  | installFailed
  | uninstalling
  | superseded
  deriving DecidableEq

def stageToString : InstallStage → String
  | .uploading => "UPLOADING"
  | .validating => "VALIDATING"
  | .migrating => "MIGRATING"
  | .registering => "REGISTERING"
  | .extracting => "EXTRACTING"
  | .activating => "ACTIVATING"
  | .active => "ACTIVE"
  | .activeFlagged => "ACTIVE_FLAGGED"
  | .disabled => "DISABLED"
  | .installFailed => "INSTALL_FAILED"
  | .uninstalling => "UNINSTALLING"
  | .superseded => "SUPERSEDED"

/-- A row of `plinth.packages`. `uninstallingAt` says whether the column is set. -/
structure PackageRow where
  id : String
  name : String
  version : String
  state : InstallStage
  provenance : Provenance
  frontendMount : Option String := none
  entryPoint : String
  manifestChecksum : String
  supersedesId : Option String := none
  uninstallingAt : Bool := false
  applicationReady : Bool := false
  deriving DecidableEq

namespace PackageRow

variable (row : PackageRow)

def isServing : Bool := row.state == .active || row.state == .activeFlagged

/-- The states of the index `uniq_packages_name_active`. -/
def isLive : Bool := row.isServing || row.state == .disabled

@[simp]
def liveName : Option String := if row.isLive then some row.name else none

@[simp]
def readyName : Option String :=
  if row.applicationReady then some row.name else none

@[simp]
def activeMount : Option String :=
  if row.isServing then row.frontendMount else none

end PackageRow

/-- `plinth.packages` with its constraints. -/
structure PackageTable extends Table PackageRow String PackageRow.id where
  versions : (rows.map fun row => (row.name, row.version)).Nodup
  liveNames : Table.UniqueOn PackageRow.liveName rows
  readyNames : Table.UniqueOn PackageRow.readyName rows
  activeMounts : Table.UniqueOn PackageRow.activeMount rows
  readyServing : ∀ row ∈ rows, row.applicationReady = true → row.isServing = true

namespace PackageTable

def check (table : Table PackageRow String PackageRow.id) : Except String PackageTable :=
  if versions : (table.rows.map fun row => (row.name, row.version)).Nodup then
    if liveNames : Table.UniqueOn PackageRow.liveName table.rows then
      if readyNames : Table.UniqueOn PackageRow.readyName table.rows then
        if activeMounts : Table.UniqueOn PackageRow.activeMount table.rows then
          if readyServing : ∀ row ∈ table.rows, row.applicationReady = true →
              row.isServing = true then
            .ok { table with versions, liveNames, readyNames, activeMounts, readyServing }
          else .error ("new row for relation \"packages\" violates check constraint " ++
            "\"chk_packages_application_ready_state\"")
        else .error ("duplicate key value violates unique constraint " ++
          "\"uniq_packages_mount_active\"")
      else .error ("duplicate key value violates unique constraint " ++
        "\"uniq_packages_name_application_ready\"")
    else .error "duplicate key value violates unique constraint \"uniq_packages_name_active\""
  else .error "duplicate key value violates unique constraint \"packages_name_version_key\""

theorem check_ok {table : Table PackageRow String PackageRow.id} {checked : PackageTable}
    (ok : check table = .ok checked) : checked.toTable = table := by
  unfold check at ok
  split_ifs at ok
  cases ok
  rfl

/-- A table that keeps the unique indexes and the check is accepted. -/
theorem check_isOk {table : Table PackageRow String PackageRow.id}
    (versions : (table.rows.map fun row => (row.name, row.version)).Nodup)
    (liveNames : Table.UniqueOn PackageRow.liveName table.rows)
    (readyNames : Table.UniqueOn PackageRow.readyName table.rows)
    (activeMounts : Table.UniqueOn PackageRow.activeMount table.rows)
    (readyServing : ∀ row ∈ table.rows, row.applicationReady → row.isServing) :
    ∃ checked, check table = .ok checked := by
  unfold check
  rw [dif_pos versions, dif_pos liveNames, dif_pos readyNames, dif_pos activeMounts,
    dif_pos readyServing]
  exact ⟨_, rfl⟩

def empty : PackageTable where
  toTable := Table.empty
  versions := List.nodup_nil
  liveNames := List.nodup_nil
  readyNames := List.nodup_nil
  activeMounts := List.nodup_nil
  readyServing := by simp [Table.empty]

/-- `INSERT INTO plinth.packages`. -/
def insert (packages : PackageTable) (row : PackageRow) : Except String PackageTable :=
  if fresh : packages.find? row.id = none then check (packages.toTable.insert row fresh)
  else .error "duplicate key value violates unique constraint \"packages_pkey\""

structure Change where
  apply : PackageRow → PackageRow
  keepsId : ∀ row, (apply row).id = row.id

@[simp]
def Change.on (change : Change) (id : String) (row : PackageRow) : PackageRow :=
  if row.id = id then change.apply row else row

theorem Change.on_id (change : Change) (id : String) (row : PackageRow) :
    (change.on id row).id = row.id := by
  unfold Change.on
  split
  · exact change.keepsId row
  · rfl

/-- `UPDATE plinth.packages … WHERE id = …`. -/
def modify (packages : PackageTable) (id : String) (change : Change) : Except String PackageTable :=
  check (packages.toTable.update (change.on id) (change.on_id id))

/-- `DELETE FROM plinth.packages WHERE id = …`; references to the row are set to NULL. -/
def delete (packages : PackageTable) (id : String) : Except String PackageTable :=
  check <| (packages.toTable.filter fun row => row.id != id).update
    (fun row => if row.supersedesId = some id then { row with supersedesId := none } else row)
    fun row => by split <;> rfl

@[simp]
def Change.toState (state : InstallStage) : Change := ⟨fun row => { row with state }, fun _ => rfl⟩

def Change.toReady (applicationReady : Bool) : Change :=
  ⟨fun row => { row with applicationReady }, fun _ => rfl⟩

def Change.toStateReady (state : InstallStage) (applicationReady : Bool) : Change :=
  ⟨fun row => { row with state, applicationReady }, fun _ => rfl⟩

def Change.toUninstalling : Change :=
  ⟨fun row => { row with
    state := .uninstalling
    uninstallingAt := true
    applicationReady := false }, fun _ => rfl⟩

end PackageTable

def capabilityKey (row : CapabilityRegistration) : String × Int × String × String :=
  (row.namespace_, row.version, row.function, row.scope)

abbrev CapabilityTable :=
  Table CapabilityRegistration (String × Int × String × String) capabilityKey

def ProvidedCapability.registration (cap : ProvidedCapability) (name : String) :
    CapabilityRegistration where
  namespace_ := cap.namespace_
  version := cap.version
  function := cap.function
  rbacRule := cap.rbacRule.getD ""
  providerType := "extension"
  scope := if cap.scope.isEmpty then "instance" else cap.scope
  description := cap.description
  extensionName := some name

structure PanelRow where
  packageId : String
  panelId : String
  panelType : PanelType
  declaration : Json
  validatedFormatVersion : Nat

structure MigrationRow where
  extensionName : String
  migrationFile : String
  checksum : String

section SchemaNames

variable (name : String)

/-- The expression `^[a-z][a-z0-9_]{2,62}$` of `provision_extension_database`. -/
def isProvisionable : Bool :=
  name.toList.head?.any isLower && (name.toList.drop 1).all isNamespaceTail &&
    decide (2 ≤ (name.toList.drop 1).length) && decide ((name.toList.drop 1).length ≤ 62)

def schemaText : List Char := "ext_".toList ++ name.toList

/-- `left('ext_' || extension_name, 63)`. -/
def createdSchema : List Char := (schemaText name).take 63

def isIdentifierPart (c : Char) : Bool :=
  c.isAlpha || isDigit c || c == '_' || c == '$' || decide (128 ≤ c.toNat)

/-- What `DROP SCHEMA IF EXISTS ext_<name> CASCADE` names: PostgreSQL reads a name without quotes in
lower case and cuts it, and does not parse the statement if it is not one word. -/
def droppedSchema : Option (List Char) :=
  if (schemaText name).all isIdentifierPart then some (((schemaText name).map Char.toLower).take 63)
  else none

variable {name}

theorem isIdentifierPart_of_isNamespaceTail {c : Char} (isTail : isNamespaceTail c) :
    isIdentifierPart c ∧ c.toLower = c := by
  have all : ∀ n : Fin 128, isNamespaceTail (Char.ofNat n) →
      isIdentifierPart (Char.ofNat n) ∧ (Char.ofNat n).toLower = Char.ofNat n := by
    decide +kernel
  have small : c.toNat < 128 := by
    simp only [isNamespaceTail, isLower, Capabilities.isDigit, Bool.or_eq_true, Bool.and_eq_true,
      decide_eq_true_eq, beq_iff_eq, Char.le_def, UInt32.le_iff_toNat_le] at isTail
    rcases isTail with (⟨-, le⟩ | ⟨-, le⟩) | rfl
    · exact Nat.lt_of_le_of_lt le (by decide)
    · exact Nat.lt_of_le_of_lt le (by decide)
    · decide
  have found := all ⟨c.toNat, small⟩
  rw [Char.ofNat_toNat] at found
  exact found isTail

/-- The schema of a provisioned name is written in lower case and needs no quotes. -/
theorem isIdentifierPart_of_isProvisionable (provisionable : isProvisionable name) :
    ∀ c ∈ schemaText name, isIdentifierPart c ∧ c.toLower = c := by
  have start : "ext_".toList.all isNamespaceTail := by decide
  intro c mem
  apply isIdentifierPart_of_isNamespaceTail
  rcases List.mem_append.mp mem with inStart | inName
  · exact List.all_eq_true.mp start c inStart
  simp only [isProvisionable, Bool.and_eq_true] at provisionable
  cases isName : name.toList with
  | nil => simp [isName] at inName
  | cons first tail =>
    rw [isName] at provisionable inName
    rcases List.mem_cons.mp inName with rfl | inTail
    · have lower : isLower c := provisionable.1.1.1
      simp [isNamespaceTail, lower]
    · exact List.all_eq_true.mp provisionable.1.1.2 c inTail

theorem map_toLower_schemaText (provisionable : isProvisionable name) :
    (schemaText name).map Char.toLower = schemaText name := by
  refine (List.map_congr_left fun c mem => ?_).trans (List.map_id _)
  exact (isIdentifierPart_of_isProvisionable provisionable c mem).2

theorem map_toLower_createdSchema (provisionable : isProvisionable name) :
    (createdSchema name).map Char.toLower = createdSchema name := by
  rw [createdSchema, List.map_take, map_toLower_schemaText provisionable]

end SchemaNames

/-- The schemas of the extensions by their cut names, each with the migrations applied to it, the
extensions in `plinth.extension_database_credentials`, and `plinth.migrations`. There is no schema
whose name would read otherwise without quotes. -/
structure ExtensionSchemas where
  namespaces : List Char → Option (List String)
  credentials : List String
  migrations : List MigrationRow
  folded : ∀ schema, (namespaces schema).isSome = true → schema.map Char.toLower = schema

namespace ExtensionSchemas

variable (store : ExtensionSchemas) (name : String)

theorem folded_update {schema : List Char} (applied : Option (List String))
    (isFolded : applied.isSome → schema.map Char.toLower = schema) {other : List Char}
    (isThere : (update store.namespaces schema applied other).isSome) :
    other.map Char.toLower = other := by
  rcases eq_or_ne other schema with rfl | apart
  · rw [update_self] at isThere
    exact isFolded isThere
  · rw [update_of_ne apart] at isThere
    exact store.folded other isThere

def schemas : Option (List String) := store.namespaces (createdSchema name)

/-- `provision_extension_database`. -/
def provision : Except String ExtensionSchemas :=
  if provisionable : isProvisionable name then
    if store.credentials.any fun other => other != name &&
        createdSchema other == createdSchema name then
      .error "extension schema identity collides after PostgreSQL identifier truncation"
    else .ok
      { namespaces := update store.namespaces (createdSchema name)
          (some ((store.schemas name).getD []))
        credentials := store.credentials.insert name
        migrations := store.migrations
        folded := fun _ => store.folded_update _ fun _ => map_toLower_createdSchema provisionable }
  else .error "extension identity cannot be represented as an isolated database role"

def applyOne (file : MigrationFile) : ExtensionSchemas where
  namespaces := update store.namespaces (createdSchema name)
    ((store.schemas name).map (· ++ [file.contents]))
  credentials := store.credentials
  migrations := store.migrations ++ [⟨name, file.filename, file.checksumHex⟩]
  folded _ := store.folded_update _ fun isThere =>
    store.folded _ (Option.isSome_map.symm.trans isThere)

/-- `drop_schema_and_migrations`. The statements are one text, so that none of them is carried out
if PostgreSQL cannot parse the name of the schema. -/
def dropSchemaAndMigrations : Except String ExtensionSchemas :=
  match droppedSchema name with
  | none => .error "syntax error at or near \"-\""
  | some schema => .ok
    { namespaces := update store.namespaces schema none
      credentials := store.credentials.filter (· != name)
      migrations := store.migrations.filter fun row => row.extensionName != name
      folded := fun _ => store.folded_update none Bool.noConfusion }

def appliedChecksum? (filename : String) : Option String :=
  (store.migrations.find? fun row =>
    row.extensionName = name && row.migrationFile = filename).map MigrationRow.checksum

def checksumText (file : MigrationFile) (stored : String) : String :=
  "migration " ++ file.filename ++ " was modified after being applied (expected checksum " ++
    stored ++ ", got " ++ file.checksumHex ++ ")"

def applyMigrations (name : String) :
    ExtensionSchemas → List MigrationFile → Except String ExtensionSchemas
  | store, [] => .ok store
  | store, file :: rest =>
    match store.appliedChecksum? name file.filename with
    | none => applyMigrations name (store.applyOne name file) rest
    | some stored =>
      if stored = file.checksumHex then applyMigrations name store rest
      else .error (checksumText file stored)

end ExtensionSchemas

structure Database extends ExtensionSchemas where
  packages : PackageTable
  rbac : RbacTables
  capabilities : CapabilityTable
  panels : List PanelRow

namespace Database

variable (db : Database) (id name : String) (row : PackageRow) (change : PackageTable.Change)
  (extensionName : String)

def insertPackagesRow : Except String Database := do
  return { db with packages := ← db.packages.insert row }

def modifyPackage : Except String Database := do
  return { db with packages := ← db.packages.modify id change }

def modifyMatched (unmatched : String) : Except String Database := do
  let after ← db.modifyPackage id change
  if (db.packages.find? id).isSome then return after else throw unmatched

def updatePackagesState (state : InstallStage) : Except String Database :=
  db.modifyMatched id (.toState state) "package report update matched no row"

/-- The row of `insert_upgrade_row`. A bundled candidate that failed before is taken up again,
under its own identity. -/
def insertUpgradeRow : Except String Database :=
  match db.packages.rows.find? fun old => old.name = row.name && old.version = row.version with
  | some old =>
    if row.provenance = .bundled then
      if old.state = .installFailed && old.provenance = .bundled &&
          old.supersedesId = row.supersedesId then
        db.modifyPackage old.id
          ⟨fun old => { old with
            state := .uploading
            frontendMount := row.frontendMount
            entryPoint := row.entryPoint
            manifestChecksum := row.manifestChecksum }, fun _ => rfl⟩
      else .error "existing candidate is not an eligible bundled retry"
    else .error "duplicate key value violates unique constraint \"packages_name_version_key\""
  | none => db.insertPackagesRow row

def upgradeRowId : String :=
  match db.packages.rows.find? fun old => old.name = row.name && old.version = row.version with
  | some old => if row.provenance = .bundled then old.id else row.id
  | none => row.id

def deletePackage : Except String Database := do
  let packages ← db.packages.delete id
  return { db with packages, panels := db.panels.filter fun panel => panel.packageId != id }

def registerCapabilityTx (reg : CapabilityRegistration) : Except CapabilityError Database :=
  match validateRegistration reg with
  | some e => .error e
  | none =>
    if (db.rbac.rules.find? reg.rbacRule).isNone then .error .rbacRuleNotFound
    else if fresh : db.capabilities.find? (capabilityKey reg) = none then
      .ok { db with capabilities := db.capabilities.insert reg fresh }
    else .error .capabilityExists

/-- The registration loop, with the text that its caller puts before an error. -/
def registerCapabilities (text name : String) :
    Database → List ProvidedCapability → Except String Database
  | db, [] => .ok db
  | db, cap :: rest =>
    match db.registerCapabilityTx (cap.registration name) with
    | .error e =>
      .error (text ++ cap.function ++ " (error=" ++ toString e.code ++ ")")
    | .ok db => registerCapabilities text name db rest

/-- `unregister_all_capabilities_for`: every call that a row of the extension serves is
deleted under all scopes. -/
@[simp]
def unregisterAllCapabilitiesFor : Database :=
  { db with
    capabilities := db.capabilities.filter fun row =>
      !db.capabilities.rows.any fun own => own.extensionName = some extensionName &&
        own.namespace_ = row.namespace_ && own.version = row.version &&
        own.function = row.function }

def unregisterCapability (call : ProvidedSignature) : Database :=
  { db with
    capabilities := db.capabilities.filter fun row =>
      !decide (row.namespace_ = call.namespace_ ∧ row.version = call.version ∧
        row.function = call.function) }

/-- `DELETE FROM plinth.capabilities WHERE extension_name = …`. -/
def deleteCapabilitiesOf : Database :=
  { db with
    capabilities := db.capabilities.filter fun row =>
      !decide (row.extensionName = some extensionName) }

def registerPanel (row : PanelRow) : Except String Database :=
  if db.panels.any fun old => old.packageId = row.packageId && old.panelId = row.panelId then
    .error ("panel insert failed: " ++ row.panelId)
  else .ok { db with panels := db.panels ++ [row] }

def registerPanels (id : String) (formatVersion : Option Nat) :
    Database → List PanelEntry → Except String Database
  | db, [] => .ok db
  | db, panel :: rest =>
    match db.registerPanel
        { packageId := id
          panelId := panel.id
          panelType := if formatVersion = some 2 then panel.type else .primary
          declaration := panel.declaration
          validatedFormatVersion := formatVersion.getD 0 } with
    | .error e => .error e
    | .ok db => registerPanels id formatVersion db rest

def registerPackagePanels (panels : Option PanelsManifest) : Except String Database :=
  match panels with
  | none => .ok db
  | some manifest => registerPanels id manifest.formatVersion db manifest.panels

def registrationText : String := "capability registration failed: "

def runStageRegistering (package : Package) (provides : List ProvidedCapability) :
    Except String Database := do
  let db ← db.updatePackagesState id .registering
  let rbac ← db.rbac.registerExtensionRbacRules package.rbac package.name
    (provides.map ProvidedCapability.signature)
  let db ← registerCapabilities registrationText package.name { db with rbac } provides
  let db ← db.registerPackagePanels id package.panels
  db.updatePackagesState id .extracting

def runStageRegisteringUpgrade (newId : String) (package : Package)
    (provides : List ProvidedCapability) : Except String Database := do
  let db ← db.updatePackagesState newId .registering
  let rbac ← db.rbac.registerUpgradeRbacRules package.rbac package.name
    (provides.map ProvidedCapability.signature)
  let db ← registerCapabilities registrationText package.name
    (deleteCapabilitiesOf { db with rbac } package.name) provides
  let db ← db.registerPackagePanels newId package.panels
  db.updatePackagesState newId .extracting

def activate (applicationReady : Bool) : Except String Database :=
  db.modifyMatched id (.toStateReady .active applicationReady)
    "application activation update failed"

def swap (oldId newId : String) : Except String Database := do
  let db ← db.modifyPackage oldId (.toState .superseded)
  db.modifyPackage newId (.toState .active)

def admitReady : Except String Database :=
  if (db.packages.find? id).any PackageRow.isServing then db.modifyPackage id (.toReady true)
  else .error "application readiness admission failed"

def disable : Except String Database :=
  (unregisterAllCapabilitiesFor { db with rbac := db.rbac.markExtensionRulesOrphaned name }
    name).modifyPackage id (.toStateReady .disabled false)

/-- The enabling transaction. A package without capabilities.json registers nothing. -/
def enable (provides : List ProvidedCapability) : Except String Database := do
  let db ← registerCapabilities "capability re-register failed: " name db provides
  modifyPackage { db with rbac := db.rbac.clearExtensionRulesOrphaned name } id
    (.toStateReady .active false)

/-- Transaction B of an uninstall. Only the panels are selected by the row's identity. -/
@[simp]
def deleteRegistrations : Database :=
  let rbac := (db.rbac.deleteGrantsOf name).deleteExtensionRules name
  let panels := db.panels.filter fun panel => panel.packageId != id
  unregisterAllCapabilitiesFor { db with rbac, panels } name

def withSchemas (change : ExtensionSchemas → Except String ExtensionSchemas) :
    Except String Database := do
  return { db with toExtensionSchemas := ← change db.toExtensionSchemas }

def bundledRegistration (newId : String) (package : Package) (provides : List ProvidedCapability)
    (files : List MigrationFile) : Except String Database := do
  let db ← db.updatePackagesState newId .migrating
  let db ← db.withSchemas fun store => do
    ExtensionSchemas.applyMigrations package.name (← store.provision package.name) files
  db.runStageRegisteringUpgrade newId package provides

def bundledUpgrade (oldId newId : String) (package : Package) (provides : List ProvidedCapability)
    (files : List MigrationFile) : Except String Database := do
  let db ← db.bundledRegistration newId package provides files
  let db ← db.updatePackagesState newId .activating
  db.swap oldId newId

end Database

inductive Transaction where
  | insertPackage (row : PackageRow)
  | insertUpgrade (row : PackageRow)
  | setState (id : String) (state : InstallStage)
  | register (id : String) (package : Package) (provides : List ProvidedCapability)
  | registerUpgrade (id : String) (package : Package) (provides : List ProvidedCapability)
  | activate (id : String) (applicationReady : Bool)
  | withdraw (id : String)
  | admitReady (id : String)
  | swap (oldId newId : String)
  | bundledUpgrade (oldId newId : String) (package : Package)
      (provides : List ProvidedCapability) (files : List MigrationFile)
  | disable (id name : String)
  | enable (id name : String) (provides : List ProvidedCapability)
  | unregisterCapability (call : ProvidedSignature)
  | markUninstalling (id : String)
  | deleteRegistrations (id name : String)
  | deletePackage (id : String)
  | ensureSchema (name : String)
  | applyMigration (name : String) (file : MigrationFile)
  | dropSchema (name : String)

def Database.commit (db : Database) : Transaction → Except String Database
  | .insertPackage row => db.insertPackagesRow row
  | .insertUpgrade row => db.insertUpgradeRow row
  | .setState id state => db.updatePackagesState id state
  | .register id package provides => db.runStageRegistering id package provides
  | .registerUpgrade id package provides => db.runStageRegisteringUpgrade id package provides
  | .activate id applicationReady => db.activate id applicationReady
  | .withdraw id => db.modifyPackage id (.toReady false)
  | .admitReady id => db.admitReady id
  | .swap oldId newId => db.swap oldId newId
  | .bundledUpgrade oldId newId package provides files =>
    db.bundledUpgrade oldId newId package provides files
  | .disable id name => db.disable id name
  | .enable id name provides => db.enable id name provides
  | .unregisterCapability call => .ok (db.unregisterCapability call)
  | .markUninstalling id => db.modifyPackage id .toUninstalling
  | .deleteRegistrations id name => .ok (db.deleteRegistrations id name)
  | .deletePackage id => db.deletePackage id
  | .ensureSchema name => db.withSchemas (·.provision name)
  | .applyMigration name file => db.withSchemas fun store => .ok (store.applyOne name file)
  | .dropSchema name => db.withSchemas (·.dropSchemaAndMigrations name)

end Plinth.Packages
