import Plinth.Packages.World

/-!
# What the atomic steps change

One inversion lemma for every statement and transaction says which tables a commit replaces.
`Transaction.writes` collects them, so that a proof about a run of the lifecycle does not look
into the transactions.
-/

namespace Plinth.Packages

open Core Rbac List
open Capabilities (CapabilityRegistration)

namespace PackageTable

section

variable {packages after : PackageTable} {id : String} {change : Change}
  (ok : packages.modify id change = .ok after)
include ok

/-- A modification changes the rows with the id and no other. -/
theorem modify_ok : after.rows = packages.rows.map (change.on id) :=
  congrArg Table.rows (check_ok ok)

theorem find?_modify (k : String) : after.find? k = (packages.find? k).map (change.on id) := by
  rw [check_ok ok, Table.find?_update]

end

/-- At most one row of a name is live. -/
theorem eq_of_live {packages : PackageTable} {first second : PackageRow}
    (firstMem : first ∈ packages.rows) (secondMem : second ∈ packages.rows)
    (firstLive : first.isLive) (secondLive : second.isLive)
    (same : first.name = second.name) : first = second := by
  have firstName : first.liveName = some second.name := by
    simp [firstLive, same]
  have secondName : second.liveName = some second.name := by
    simp [secondLive]
  exact packages.liveNames.eq_of_mem firstMem secondMem firstName secondName

/-- A change that leaves a row's name and version alone and gives no unique key to it. -/
structure Change.Releases (change : Change) (row : PackageRow) : Prop where
  name : (change.apply row).name = row.name
  version : (change.apply row).version = row.version
  liveName : (change.apply row).liveName = row.liveName ∨ (change.apply row).liveName = none
  readyName : (change.apply row).readyName = row.readyName ∨ (change.apply row).readyName = none
  activeMount : (change.apply row).activeMount = row.activeMount ∨
    (change.apply row).activeMount = none
  readyServing : (change.apply row).applicationReady = true → (change.apply row).isServing = true

/-- A change that releases unique keys only is never refused. -/
theorem modify_isOk (packages : PackageTable) (id : String) {change : Change}
    (releases : ∀ row ∈ packages.rows, row.id = id → change.Releases row) :
    ∃ after, packages.modify id change = .ok after := by
  have versions : ((packages.rows.map (change.on id)).map fun row =>
      (row.name, row.version)).Nodup := by
    rw [map_map, map_congr_left (g := fun row => (row.name, row.version))]
    · exact packages.versions
    · intro row mem
      simp only [Function.comp, Change.on]
      split
      case isTrue isRow => rw [(releases row mem isRow).name, (releases row mem isRow).version]
      case isFalse => rfl
  have index {Index : Type} {key : PackageRow → Option Index}
      (unique : Table.UniqueOn key packages.rows)
      (released : ∀ row, change.Releases row →
        key (change.apply row) = key row ∨ key (change.apply row) = none) :
      Table.UniqueOn key (packages.rows.map (change.on id)) := by
    apply unique.map
    intro row mem
    simp only [Change.on]
    split
    case isTrue isRow => exact released row (releases row mem isRow)
    case isFalse => exact .inl rfl
  have readyServing : ∀ row ∈ packages.rows.map (change.on id),
      row.applicationReady → row.isServing := by
    intro row mem ready
    rcases mem_map.mp mem with ⟨old, oldMem, rfl⟩
    simp only [Change.on] at ready ⊢
    split at ready
    case isTrue isOld =>
      rw [if_pos isOld]
      exact (releases old oldMem isOld).readyServing ready
    case isFalse other =>
      rw [if_neg other]
      exact packages.readyServing old oldMem ready
  exact check_isOk versions (index packages.liveNames fun _ released => released.liveName)
    (index packages.readyNames fun _ released => released.readyName)
    (index packages.activeMounts fun _ released => released.activeMount) readyServing

theorem delete_isOk (packages : PackageTable) (id : String) :
    ∃ after, packages.delete id = .ok after := by
  have sameKeys {Index : Type} {key : PackageRow → Option Index}
      (unique : Table.UniqueOn key packages.rows)
      (blind : ∀ row : PackageRow, key { row with supersedesId := none } = key row) :
      Table.UniqueOn key ((packages.rows.filter fun row => row.id != id).map fun row =>
        if row.supersedesId = some id then { row with supersedesId := none } else row) := by
    apply (unique.filter fun row => row.id != id).map
    intro row _
    split
    · exact .inl (blind row)
    · exact .inl rfl
  apply check_isOk
  · refine List.Nodup.sublist ?_ packages.versions
    simp only [Table.update, Table.filter, map_map]
    rw [map_congr_left (g := fun row => (row.name, row.version))]
    · exact filter_sublist.map _
    · intro row _
      simp only [Function.comp]
      split <;> rfl
  · exact sameKeys packages.liveNames fun _ => rfl
  · exact sameKeys packages.readyNames fun _ => rfl
  · exact sameKeys packages.activeMounts fun _ => rfl
  · intro row mem ready
    rcases mem_map.mp mem with ⟨old, oldMem, rfl⟩
    have serving := packages.readyServing old (mem_of_mem_filter oldMem)
    split at ready
    case isTrue isOld =>
      rw [if_pos isOld]
      exact serving ready
    case isFalse other =>
      rw [if_neg other]
      exact serving ready

theorem toUninstalling_releases (row : PackageRow) : Change.toUninstalling.Releases row := by
  constructor <;>
    simp [Change.toUninstalling, PackageRow.isLive, PackageRow.isServing]

end PackageTable

namespace ExtensionSchemas

variable {store after : ExtensionSchemas} {name : String}

/-- What provisioning creates, and for which names it does. -/
theorem provision_ok (ok : store.provision name = .ok after) :
    isProvisionable name ∧ after.migrations = store.migrations ∧
      after.namespaces = Function.update store.namespaces (createdSchema name)
        (some ((store.schemas name).getD [])) := by
  unfold provision at ok
  split_ifs at ok with provisionable
  cases ok
  exact ⟨provisionable, rfl, rfl⟩

/-- A provision takes no schema away. -/
theorem isSome_schemas_provision (ok : store.provision name = .ok after) {other : String}
    (was : (store.schemas other).isSome) : (after.schemas other).isSome := by
  rcases provision_ok ok with ⟨-, -, isAfter⟩
  by_cases same : createdSchema other = createdSchema name
  · simp [schemas, isAfter, same]
  · simpa [schemas, isAfter, same] using was

theorem droppedSchema_eq_of_isSome (isThere : (store.schemas name).isSome) {schema : List Char}
    (parsed : droppedSchema name = some schema) : schema = createdSchema name := by
  unfold droppedSchema at parsed
  split_ifs at parsed
  rw [← Option.some.inj parsed, ← map_take]
  exact store.folded (createdSchema name) isThere

/-- A drop takes the schema and the tracking rows of the name. -/
theorem dropSchemaAndMigrations_ok (ok : store.dropSchemaAndMigrations name = .ok after) :
    after.schemas name = none ∧
      after.migrations = store.migrations.filter fun row => row.extensionName != name := by
  unfold dropSchemaAndMigrations at ok
  split at ok
  case h_1 => cases ok
  case h_2 schema parsed =>
  cases ok
  refine ⟨?_, rfl⟩
  simp only [schemas, Function.update_apply]
  split
  case isTrue => rfl
  case isFalse apart =>
    rw [← Option.not_isSome_iff_eq_none]
    exact fun isThere => apart (droppedSchema_eq_of_isSome isThere parsed).symm

theorem isSome_schemas_applyOne (file : MigrationFile) {other : String}
    (was : (store.schemas other).isSome) : ((store.applyOne name file).schemas other).isSome := by
  by_cases same : createdSchema other = createdSchema name
  · simpa [schemas, applyOne, same] using was
  · simpa [schemas, applyOne, same] using was

end ExtensionSchemas

namespace Database

variable {db after : Database} {id : String} {provides : List ProvidedCapability}

theorem insertPackagesRow_ok {row : PackageRow} (ok : db.insertPackagesRow row = .ok after) :
    ∃ packages, db.packages.insert row = .ok packages ∧ after = { db with packages } :=
  of_bind_pure ok

theorem modifyPackage_ok {change : PackageTable.Change}
    (ok : db.modifyPackage id change = .ok after) :
    ∃ packages, db.packages.modify id change = .ok packages ∧ after = { db with packages } :=
  of_bind_pure ok

theorem modifyMatched_ok {unmatched : String} {change : PackageTable.Change}
    (ok : db.modifyMatched id change unmatched = .ok after) :
    (db.packages.find? id).isSome ∧ ∃ packages,
      db.packages.modify id change = .ok packages ∧ after = { db with packages } := by
  rcases bind_eq_ok.mp ok with ⟨changed, modified, rest⟩
  split_ifs at rest with found
  · cases rest
    exact ⟨found, modifyPackage_ok modified⟩

theorem updatePackagesState_ok {state : InstallStage}
    (ok : db.updatePackagesState id state = .ok after) :
    ∃ packages, db.packages.modify id (.toState state) = .ok packages ∧
      after = { db with packages } :=
  (modifyMatched_ok ok).2

theorem insertUpgradeRow_ok {row : PackageRow} (ok : db.insertUpgradeRow row = .ok after) :
    ∃ packages, after = { db with packages } := by
  unfold insertUpgradeRow at ok
  split at ok
  case h_1 old found =>
    split_ifs at ok
    rcases modifyPackage_ok ok with ⟨packages, -, rfl⟩
    exact ⟨packages, rfl⟩
  case h_2 =>
    rcases insertPackagesRow_ok ok with ⟨packages, -, rfl⟩
    exact ⟨packages, rfl⟩

/-- The swap retires the predecessor and activates the successor. -/
theorem swap_ok {oldId newId : String} (ok : db.swap oldId newId = .ok after) :
    ∃ retired packages, db.packages.modify oldId (.toState .superseded) = .ok retired ∧
      retired.modify newId (.toState .active) = .ok packages ∧ after = { db with packages } := by
  rcases bind_eq_ok.mp ok with ⟨middle, first, second⟩
  rcases modifyPackage_ok first with ⟨retired, isRetired, rfl⟩
  rcases modifyPackage_ok second with ⟨packages, isActive, rfl⟩
  exact ⟨retired, packages, isRetired, isActive, rfl⟩

theorem admitReady_ok (ok : db.admitReady id = .ok after) :
    ∃ packages, db.packages.modify id (.toReady true) = .ok packages ∧
      after = { db with packages } := by
  unfold admitReady at ok
  split_ifs at ok
  exact modifyPackage_ok ok

theorem deletePackage_ok (ok : db.deletePackage id = .ok after) :
    ∃ packages, db.packages.delete id = .ok packages ∧ after = { db with
      packages
      panels := db.panels.filter fun panel => panel.packageId != id } :=
  of_bind_pure ok

theorem registerCapabilityTx_ok {reg : CapabilityRegistration}
    (ok : db.registerCapabilityTx reg = .ok after) :
    ∃ capabilities : CapabilityTable, capabilities.rows = db.capabilities.rows ++ [reg] ∧
      after = { db with capabilities } := by
  unfold registerCapabilityTx at ok
  split at ok
  · cases ok
  · split_ifs at ok
    exact ⟨_, rfl, (Except.ok.inj ok).symm⟩

/-- Registering capabilities appends them for the extension. -/
theorem registerCapabilities_ok {text name : String}
    (ok : registerCapabilities text name db provides = .ok after) :
    ∃ capabilities : CapabilityTable,
      capabilities.rows = db.capabilities.rows ++ provides.map (·.registration name) ∧
      after = { db with capabilities } := by
  induction provides generalizing db with
  | nil => exact ⟨db.capabilities, by simp, (Except.ok.inj ok).symm⟩
  | cons cap rest ih =>
    unfold registerCapabilities at ok
    split at ok
    case h_1 => cases ok
    case h_2 middle registered =>
    rcases registerCapabilityTx_ok registered with ⟨first, firstRows, rfl⟩
    rcases ih ok with ⟨capabilities, rows, rfl⟩
    exact ⟨capabilities, by simp [rows, firstRows], rfl⟩

theorem registerPanel_ok {row : PanelRow} (ok : db.registerPanel row = .ok after) :
    ∃ panels, after = { db with panels } := by
  unfold registerPanel at ok
  split_ifs at ok
  exact ⟨db.panels ++ [row], (Except.ok.inj ok).symm⟩

theorem registerPanels_ok {formatVersion : Option Nat} {panels : List PanelEntry}
    (ok : registerPanels id formatVersion db panels = .ok after) :
    ∃ panels, after = { db with panels } := by
  induction panels generalizing db with
  | nil => exact ⟨db.panels, (Except.ok.inj ok).symm⟩
  | cons panel rest ih =>
    unfold registerPanels at ok
    split at ok
    case h_1 => cases ok
    case h_2 middle registered =>
    rcases ih ok with ⟨panels, rfl⟩
    rcases registerPanel_ok registered with ⟨_, rfl⟩
    exact ⟨panels, rfl⟩

theorem registerPackagePanels_ok {declared : Option PanelsManifest}
    (ok : db.registerPackagePanels id declared = .ok after) :
    ∃ panels, (declared.elim [] PanelsManifest.panels = [] → panels = db.panels) ∧
      after = { db with panels } := by
  cases declared with
  | none => exact ⟨db.panels, fun _ => rfl, (Except.ok.inj ok).symm⟩
  | some manifest =>
    cases entries : manifest.panels with
    | nil =>
      simp only [registerPackagePanels, entries] at ok
      exact ⟨db.panels, fun _ => rfl, (Except.ok.inj ok).symm⟩
    | cons entry rest =>
      rcases registerPanels_ok ok with ⟨panels, rfl⟩
      exact ⟨panels, by simp [entries], rfl⟩

/-- What both REGISTERING transactions do to the row, the capabilities and the panels. -/
structure Registers (db : Database) (id : String) (package : Package)
    (provides : List ProvidedCapability) (kept : List CapabilityRegistration)
    (rbac : RbacTables) (after : Database) : Prop where
  packages : ∃ registering, db.packages.modify id (.toState .registering) = .ok registering ∧
    registering.modify id (.toState .extracting) = .ok after.packages
  rbac : after.rbac = rbac
  capabilities : after.capabilities.rows = kept ++ provides.map (·.registration package.name)
  panels : package.panels.elim [] PanelsManifest.panels = [] → after.panels = db.panels
  schemas : after.toExtensionSchemas = db.toExtensionSchemas

/-- What the REGISTERING transaction of a first install writes. -/
theorem runStageRegistering_ok {package : Package}
    (ok : db.runStageRegistering id package provides = .ok after) :
    ∃ rbac, db.rbac.registerExtensionRbacRules package.rbac package.name
        (provides.map ProvidedCapability.signature) = .ok rbac ∧
      db.Registers id package provides db.capabilities.rows rbac after := by
  rcases bind_eq_ok.mp ok with ⟨_, registering, ok⟩
  rcases updatePackagesState_ok registering with ⟨started, isStarted, rfl⟩
  rcases bind_eq_ok.mp ok with ⟨rbac, rules, ok⟩
  rcases bind_eq_ok.mp ok with ⟨_, called, ok⟩
  rcases registerCapabilities_ok called with ⟨capabilities, rows, rfl⟩
  rcases bind_eq_ok.mp ok with ⟨_, shown, ok⟩
  rcases registerPackagePanels_ok shown with ⟨panels, none, rfl⟩
  rcases updatePackagesState_ok ok with ⟨packages, isExtracting, rfl⟩
  exact ⟨rbac, rules, ⟨started, isStarted, isExtracting⟩, rfl, rows, none, rfl⟩

/-- What the REGISTERING transaction of an upgrade writes. -/
theorem runStageRegisteringUpgrade_ok {newId : String} {package : Package}
    (ok : db.runStageRegisteringUpgrade newId package provides = .ok after) :
    ∃ rbac, db.rbac.registerUpgradeRbacRules package.rbac package.name
        (provides.map ProvidedCapability.signature) = .ok rbac ∧
      db.Registers newId package provides
        (db.deleteCapabilitiesOf package.name).capabilities.rows rbac after := by
  rcases bind_eq_ok.mp ok with ⟨_, registering, ok⟩
  rcases updatePackagesState_ok registering with ⟨started, isStarted, rfl⟩
  rcases bind_eq_ok.mp ok with ⟨rbac, rules, ok⟩
  rcases bind_eq_ok.mp ok with ⟨_, called, ok⟩
  rcases registerCapabilities_ok called with ⟨capabilities, rows, rfl⟩
  rcases bind_eq_ok.mp ok with ⟨_, shown, ok⟩
  rcases registerPackagePanels_ok shown with ⟨panels, none, rfl⟩
  rcases updatePackagesState_ok ok with ⟨packages, isExtracting, rfl⟩
  exact ⟨rbac, rules, ⟨started, isStarted, isExtracting⟩, rfl, rows, none, rfl⟩

theorem withSchemas_ok {change : ExtensionSchemas → Except String ExtensionSchemas}
    (ok : db.withSchemas change = .ok after) :
    ∃ store, change db.toExtensionSchemas = .ok store ∧
      after = { db with toExtensionSchemas := store } :=
  of_bind_pure ok

/-- A bundled upgrade registers the rules as an upgrade by a user does. -/
theorem bundledUpgrade_ok {oldId newId : String} {package : Package} {files : List MigrationFile}
    (ok : db.bundledUpgrade oldId newId package provides files = .ok after) :
    db.rbac.registerUpgradeRbacRules package.rbac package.name
      (provides.map ProvidedCapability.signature) = .ok after.rbac := by
  rcases bind_eq_ok.mp ok with ⟨_, registered, ok⟩
  rcases bind_eq_ok.mp registered with ⟨_, migrating, registered⟩
  rcases updatePackagesState_ok migrating with ⟨_, -, rfl⟩
  rcases bind_eq_ok.mp registered with ⟨_, migrated, registered⟩
  rcases withSchemas_ok migrated with ⟨_, -, rfl⟩
  rcases runStageRegisteringUpgrade_ok registered with ⟨rbac, rules, isRegistered⟩
  rcases bind_eq_ok.mp ok with ⟨_, activating, ok⟩
  rcases updatePackagesState_ok activating with ⟨_, -, rfl⟩
  rcases swap_ok ok with ⟨_, packages, -, -, rfl⟩
  exact rules.trans (congrArg Except.ok isRegistered.rbac.symm)

theorem disable_ok {name : String} (ok : db.disable id name = .ok after) :
    ∃ packages capabilities,
      db.packages.modify id (.toStateReady .disabled false) = .ok packages ∧
      after = { db with
        packages
        capabilities
        rbac := db.rbac.markExtensionRulesOrphaned name } := by
  rcases modifyPackage_ok ok with ⟨packages, modified, rfl⟩
  exact ⟨packages, _, modified, rfl⟩

theorem enable_ok {name : String} (ok : db.enable id name provides = .ok after) :
    ∃ packages capabilities, after = { db with
      packages
      capabilities
      rbac := db.rbac.clearExtensionRulesOrphaned name } := by
  rcases bind_eq_ok.mp ok with ⟨_, registered, ok⟩
  rcases registerCapabilities_ok registered with ⟨capabilities, -, rfl⟩
  rcases modifyPackage_ok ok with ⟨packages, -, rfl⟩
  exact ⟨packages, capabilities, rfl⟩

inductive Part where
  | packages
  | rbac
  | capabilities
  | panels
  | schemas

@[simp]
def Agree (db after : Database) : Part → Prop
  | .packages => after.packages = db.packages
  | .rbac => after.rbac = db.rbac
  | .capabilities => after.capabilities = db.capabilities
  | .panels => after.panels = db.panels
  | .schemas => after.toExtensionSchemas = db.toExtensionSchemas

theorem agree_packages {packages : PackageTable} {part : Part} (other : part ∉ [Part.packages]) :
    db.Agree { db with packages } part := by
  cases part <;> simp at other ⊢

end Database

@[simp]
def Transaction.writes : Transaction → List Database.Part
  | .insertPackage _ | .insertUpgrade _ | .setState _ _ | .activate _ _ | .withdraw _
  | .admitReady _ | .swap _ _ | .markUninstalling _ => [.packages]
  | .register _ _ _ | .registerUpgrade _ _ _ => [.packages, .rbac, .capabilities, .panels]
  | .bundledUpgrade _ _ _ _ _ => [.packages, .rbac, .capabilities, .panels, .schemas]
  | .disable _ _ | .enable _ _ _ => [.packages, .rbac, .capabilities]
  | .unregisterCapability _ => [.capabilities]
  | .deleteRegistrations _ _ => [.rbac, .capabilities, .panels]
  | .deletePackage _ => [.packages, .panels]
  | .ensureSchema _ | .applyMigration _ _ | .dropSchema _ => [.schemas]

/-- A transaction leaves every part alone that it does not write. -/
theorem Database.commit_agree {db after : Database} {transaction : Transaction}
    (ok : db.commit transaction = .ok after) {part : Database.Part}
    (untouched : part ∉ transaction.writes) : db.Agree after part := by
  cases transaction with
  | insertPackage row =>
    rcases insertPackagesRow_ok ok with ⟨_, -, rfl⟩
    exact agree_packages untouched
  | insertUpgrade row =>
    rcases insertUpgradeRow_ok ok with ⟨_, rfl⟩
    exact agree_packages untouched
  | register id package provides =>
    rcases runStageRegistering_ok ok with ⟨_, -, registers⟩
    cases part <;> simp at untouched
    exact registers.schemas
  | registerUpgrade id package provides =>
    rcases runStageRegisteringUpgrade_ok ok with ⟨_, -, registers⟩
    cases part <;> simp at untouched
    exact registers.schemas
  | setState | activate =>
    rcases (modifyMatched_ok ok).2 with ⟨_, -, rfl⟩
    exact agree_packages untouched
  | withdraw | markUninstalling =>
    rcases modifyPackage_ok ok with ⟨_, -, rfl⟩
    exact agree_packages untouched
  | admitReady id =>
    rcases admitReady_ok ok with ⟨_, -, rfl⟩
    exact agree_packages untouched
  | swap oldId newId =>
    rcases swap_ok ok with ⟨_, _, -, -, rfl⟩
    exact agree_packages untouched
  | bundledUpgrade oldId newId package provides files =>
    cases part <;> simp at untouched
  | disable id name =>
    rcases disable_ok ok with ⟨_, _, -, rfl⟩
    cases part <;> simp at untouched ⊢
  | enable id name provides =>
    rcases enable_ok ok with ⟨_, _, rfl⟩
    cases part <;> simp at untouched ⊢
  | unregisterCapability call =>
    cases ok
    cases part <;> simp [Database.unregisterCapability] at untouched ⊢
  | deleteRegistrations id name =>
    cases ok
    cases part <;> simp at untouched ⊢
  | deletePackage id =>
    rcases deletePackage_ok ok with ⟨_, -, rfl⟩
    cases part <;> simp at untouched ⊢
  | ensureSchema | applyMigration | dropSchema =>
    unfold commit at ok
    rcases withSchemas_ok ok with ⟨_, -, rfl⟩
    cases part <;> simp at untouched ⊢

variable {world after : World}

namespace World

theorem apply_commit {transaction : Transaction}
    (ok : world.apply (.commit transaction) = .ok after) :
    ∃ db, world.db.commit transaction = .ok db ∧ after = { world with db } :=
  of_bind_pure ok

theorem apply_file {operation : FileOperation} (ok : world.apply (.file operation) = .ok after) :
    ∃ files, world.files.perform operation = .ok files ∧ after = { world with files } :=
  of_bind_pure ok

theorem apply_kernel {operation : KernelOperation}
    (ok : world.apply (.kernel operation) = .ok after) :
    ∃ memory, world.operate operation = .ok memory ∧ after = { world with memory } :=
  of_bind_pure ok

end World

@[simp]
def Command.writes : Command → List Database.Part
  | .commit transaction => transaction.writes
  | .file _ | .kernel _ => []

/-- A command leaves every part of the database alone that it does not write. -/
theorem World.apply_agree {command : Command}
    (ok : world.apply command = .ok after) (part : Database.Part)
    (untouched : part ∉ command.writes) : world.db.Agree after.db part := by
  cases command with
  | commit transaction =>
    rcases apply_commit ok with ⟨db, committed, rfl⟩
    exact Database.commit_agree committed untouched
  | file operation =>
    rcases apply_file ok with ⟨files, -, rfl⟩
    cases part <;> simp
  | kernel operation =>
    rcases apply_kernel ok with ⟨memory, -, rfl⟩
    cases part <;> simp

end Plinth.Packages
