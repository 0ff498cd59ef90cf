import Plinth.Packages.RoundTrip

/-!
# Uninstalling one of several versions

A superseded or failed row can be uninstalled while another row of its name is live. The
cleanup selects rules, capabilities, the schema, the pool and the directory by name, so it takes
them from the live row as far as the environment lets it come.
-/

namespace Plinth.Packages

open Core Rbac PackageTable
open Core.Procedure hiding pure bind
open Capabilities (CapabilityRegistration)

structure Holdings where
  schema : Option (List String)
  migrations : List MigrationRow
  rules : List RuleRow
  grants : List GroupRule
  capabilities : List CapabilityRegistration
  tree : Option (List StagedFile)
  pool : Option PoolIdentity
  routed : Bool

@[simp]
def World.holdings (world : World) (row : PackageRow) : Holdings where
  schema := world.db.schemas row.name
  migrations := world.db.migrations.filter fun tracked => tracked.extensionName == row.name
  rules := world.db.rbac.rules.rows.filter fun rule => rule.extensionName == row.name
  grants := world.db.rbac.groupRules.filter fun grant =>
    world.db.rbac.owner? grant.rule == some row.name
  capabilities := world.db.capabilities.rows.filter fun registered =>
    registered.extensionName == some row.name
  tree := world.files.trees row.name row.version
  pool := world.memory.pools row.name
  routed := world.memory.routes.contains (row.name, row.version)

def World.advance (world : World) (took : Bool) (command : Command) : World :=
  if took then (world.apply command).toOption.getD world else world

structure UninstallProgress where
  marked : Bool
  unrouted : Bool
  deregistered : Bool
  stopped : Bool
  dropped : Bool
  removed : Bool
  deleted : Bool

/-- The progress under a schedule of answers: four reads, then the five steps that leave the
process. The drop of the schema fails under a name that is not one word, and a refused removal of
the directory is passed over. -/
def uninstallProgress (name : String) (answers : List Answer) : UninstallProgress :=
  let proceeds n := answerAt answers n == .proceed
  let takesEffect n := (answerAt answers n).takesEffect
  let loaded := proceeds 0 && proceeds 1 && proceeds 2 && proceeds 3
  let unrouted := loaded && proceeds 4
  let stopped := unrouted && proceeds 5
  let droppable := stopped && (droppedSchema name).isSome
  { marked := loaded && takesEffect 4
    unrouted := unrouted
    deregistered := unrouted && takesEffect 5
    stopped := stopped
    dropped := droppable && takesEffect 6
    removed := droppable && proceeds 6 && takesEffect 7
    deleted := droppable && proceeds 6 && answerAt answers 7 != .crash && takesEffect 8 }

def World.uninstalled (world : World) (progress : UninstallProgress) (lp : PackageRow) : World :=
  (((((((world.advance progress.marked (.commit (.markUninstalling lp.id))).advance
    progress.unrouted (.kernel (.unregisterRoutes lp.name lp.version))).advance
    progress.deregistered (.commit (.deleteRegistrations lp.id lp.name))).advance
    progress.stopped (.kernel (.destroyPool lp.name))).advance
    progress.dropped (.commit (.dropSchema lp.name))).advance
    progress.removed (.file (.removeExtension lp.name))).advance
    progress.deleted (.commit (.deletePackage lp.id)))

theorem apply_markUninstalling (world : World) (id : String) :
    ∃ after, world.apply (.commit (.markUninstalling id)) = .ok after := by
  rcases world.db.packages.modify_isOk id fun row _ _ =>
    toUninstalling_releases row with ⟨packages, modified⟩
  refine ⟨{ world with db := { world.db with packages } }, ?_⟩
  simp only [World.apply, Database.commit, Database.modifyPackage, modified]
  rfl

theorem apply_deletePackage (world : World) (id : String) :
    ∃ after, world.apply (.commit (.deletePackage id)) = .ok after := by
  rcases world.db.packages.delete_isOk id with ⟨packages, deleted⟩
  refine ⟨{ world with
    db := { world.db with
      packages
      panels := world.db.panels.filter fun panel => panel.packageId != id } }, ?_⟩
  simp only [World.apply, Database.commit, Database.deletePackage, deleted]
  rfl

theorem World.advance_true {world after : World} {command : Command}
    (applied : world.apply command = .ok after) : world.advance true command = after := by
  simp [advance, applied, Except.toOption]

open World (advance_true apply_commit)

@[simp]
theorem World.advance_false (world : World) (command : Command) :
    world.advance false command = world := rfl

variable {world : World}

/-- A drop is refused only for a name that the statement cannot hold. -/
theorem apply_dropSchema (world : World) (name : String) :
    (∃ schema, droppedSchema name = some schema ∧
      ∃ after, world.apply (.commit (.dropSchema name)) = .ok after) ∨
    (droppedSchema name = none ∧
      ∃ detail, world.apply (.commit (.dropSchema name)) = .error detail) := by
  simp only [World.apply, Database.commit, Database.withSchemas,
    ExtensionSchemas.dropSchemaAndMigrations]
  cases droppedSchema name with
  | none => exact .inr ⟨rfl, _, rfl⟩
  | some schema => exact .inl ⟨schema, rfl, _, rfl⟩

/-- The schema, the directory and the row. -/
theorem clear_state (world : World) (lp : PackageRow) (answers : List Answer)
    (undropped undeleted : String → TransitionFailure) :
    let droppable := (droppedSchema lp.name).isSome
    let cleared := droppable && answerAt answers 0 == .proceed
    ((do
      command (.commit (.dropSchema lp.name)) undropped
      tryCommand (.file (.removeExtension lp.name))
      command (.commit (.deletePackage lp.id)) undeleted :
        Lifecycle TransitionFailure Unit).run World.apply answers world).state =
      ((world.advance (droppable && (answerAt answers 0).takesEffect)
        (.commit (.dropSchema lp.name))).advance (cleared && (answerAt answers 1).takesEffect)
        (.file (.removeExtension lp.name))).advance
          (cleared && answerAt answers 1 != .crash && (answerAt answers 2).takesEffect)
          (.commit (.deletePackage lp.id)) := by
  rcases apply_dropSchema world lp.name with ⟨schema, parsed, dropped, isDropped⟩ |
    ⟨unparsed, detail, rejected⟩
  case inr =>
    rw [state_command_bind_error rejected, unparsed]
    rfl
  have ⟨removed, isRemoved⟩ : ∃ after, dropped.apply
    (.file (.removeExtension lp.name)) = .ok after := ⟨_, rfl⟩
  rcases apply_deletePackage removed lp.id with ⟨deleted, isDeleted⟩
  rcases apply_deletePackage dropped lp.id with ⟨deletedOnly, isDeletedOnly⟩
  simp only [state_command_bind isDropped, state_tryCommand_bind isRemoved,
    state_command isDeleted, state_command isDeletedOnly, headD_eq_answerAt, answerAt_tail,
    Nat.zero_add, Nat.reduceAdd, parsed, Option.isSome_some, Bool.true_and]
  rcases eq_or_ne (answerAt answers 0) .proceed with drops | stops
  case inr =>
    by_cases effect : (answerAt answers 0).takesEffect <;>
      simp [-Answer.takesEffect, stops, beq_false_of_ne stops, effect, advance_true isDropped]
  simp only [drops, if_true, beq_self_eq_true, Bool.true_and, Answer.takesEffect_proceed,
    advance_true isDropped]
  rcases eq_or_ne (answerAt answers 1) .crash with crashes | continues
  case inl => simp [crashes]
  by_cases removes : (answerAt answers 1).takesEffect <;>
    by_cases deletes : (answerAt answers 2).takesEffect <;>
    simp [-Answer.takesEffect, continues, bne, beq_false_of_ne continues, removes, deletes,
      advance_true isRemoved, advance_true isDeleted, advance_true isDeletedOnly]

/-- The state after an uninstall, from the steps that took effect. -/
theorem uninstall_state {id : String} {row : PackageRow}
    (found : world.db.packages.find? id = some row) (settled : row.state ≠ .uninstalling)
    (answers : List Answer) :
    ((uninstallPackage id true).run World.apply answers world).state =
      world.uninstalled (uninstallProgress row.name answers) row := by
  have isId : row.id = id := (Table.find?_eq_some.mp found).2
  subst isId
  rcases apply_markUninstalling world row.id with ⟨marked, isMarked⟩
  have ⟨unrouted, isUnrouted⟩ : ∃ after, marked.apply
    (.kernel (.unregisterRoutes row.name row.version)) = .ok after := ⟨_, rfl⟩
  have ⟨deregistered, isDeregistered⟩ : ∃ after, unrouted.apply
    (.commit (.deleteRegistrations row.id row.name)) = .ok after := ⟨_, rfl⟩
  have ⟨stopped, isStopped⟩ : ∃ after, deregistered.apply
    (.kernel (.destroyPool row.name)) = .ok after := ⟨_, rfl⟩
  simp only [uninstallPackage, loadPackageRow, guardUninstall, lockAndDrain, recheck,
    runUninstallCleanup, Bool.not_true, Bool.false_eq_true, if_false, bind_assoc, pure_bind,
    state_read_bind, found, settled, state_command_bind isMarked, state_act_bind isUnrouted,
    state_command_bind isDeregistered, state_act_bind isStopped, clear_state,
    headD_eq_answerAt, answerAt_tail, Nat.zero_add, Nat.reduceAdd]
  simp only [World.uninstalled, uninstallProgress]
  generalize answerAt answers 0 = loading, answerAt answers 1 = locking,
    answerAt answers 2 = draining, answerAt answers 3 = checking, answerAt answers 4 = marking,
    answerAt answers 5 = deregistering
  clear found settled
  rcases eq_or_ne loading .proceed with rfl | stops
  case inr => simp [stops, beq_false_of_ne stops]
  rcases eq_or_ne locking .proceed with rfl | stops
  case inr => simp [stops, beq_false_of_ne stops]
  rcases eq_or_ne draining .proceed with rfl | stops
  case inr => simp [stops, beq_false_of_ne stops]
  rcases eq_or_ne checking .proceed with rfl | stops
  case inr => simp [stops, beq_false_of_ne stops]
  rcases eq_or_ne marking .proceed with rfl | stops
  case inr =>
    cases marking.takesEffect <;>
      simp [stops, beq_false_of_ne stops, advance_true isMarked]
  simp only [if_true, beq_self_eq_true, Bool.and_self, Bool.true_and, Answer.takesEffect_proceed,
    advance_true isMarked, advance_true isUnrouted]
  rcases eq_or_ne deregistering .proceed with rfl | stops
  case inr =>
    cases deregistering.takesEffect <;>
      simp [stops, beq_false_of_ne stops, advance_true isDeregistered]
  simp only [if_true, beq_self_eq_true, Bool.true_and, Answer.takesEffect_proceed,
    advance_true isDeregistered, advance_true isStopped]

section Holdings

variable (world : World) (took : Bool) (row : PackageRow)

theorem holdings_advance {command : Command} {after : World}
    (applied : world.apply command = .ok after) :
    (world.advance took command).holdings row =
      if took then after.holdings row else world.holdings row := by
  cases took with
  | false => rfl
  | true => rw [advance_true applied, if_pos rfl]

theorem holdings_mark (id : String) :
    (world.advance took (.commit (.markUninstalling id))).holdings row = world.holdings row := by
  rcases apply_markUninstalling world id with ⟨after, applied⟩
  rw [holdings_advance world took row applied]
  rcases apply_commit applied with ⟨db, committed, rfl⟩
  rcases Database.modifyPackage_ok committed with ⟨packages, -, rfl⟩
  exact ite_self _

theorem holdings_unroute {version : String} (other : version ≠ row.version) :
    (world.advance took (.kernel (.unregisterRoutes row.name version))).holdings row =
      world.holdings row := by
  have kept : (row.name, row.version) ≠ (row.name, version) := by simp [other.symm]
  rw [holdings_advance world took row rfl]
  simp [kept]

theorem owner?_deleteExtensionRules (tables : RbacTables) (name rule : String) :
    (tables.deleteExtensionRules name).owner? rule ≠ some name := by
  simp only [RbacTables.owner?, RbacTables.deleteExtensionRules, Table.find?_filter, ne_eq,
    Option.map_eq_some_iff, Option.filter_eq_some_iff]
  rintro ⟨found, ⟨-, other⟩, same⟩
  simp [same] at other

/-- Deregistering takes the rules, grants and capabilities of the name. -/
theorem holdings_deregister (id : String) :
    (world.advance took (.commit (.deleteRegistrations id row.name))).holdings row =
      if took then { world.holdings row with
        rules := []
        grants := []
        capabilities := [] }
      else world.holdings row := by
  rw [holdings_advance world took row rfl]
  congr 1
  simp only [World.holdings, Holdings.mk.injEq, and_true]
  refine ⟨rfl, rfl, ?_, ?_, ?_⟩
  · simp [RbacTables.deleteExtensionRules, RbacTables.deleteGrantsOf, Table.filter]
  · rw [List.filter_eq_nil_iff]
    intro grant _
    simp only [beq_iff_eq]
    exact owner?_deleteExtensionRules (world.db.rbac.deleteGrantsOf row.name) row.name
      grant.rule
  · rw [List.filter_eq_nil_iff]
    intro registered mem
    rcases List.mem_filter.mp mem with ⟨isRow, other⟩
    simp only [Bool.not_eq_true', List.any_eq_false] at other
    have apart := other registered isRow
    simpa using apart

theorem holdings_stop :
    (world.advance took (.kernel (.destroyPool row.name))).holdings row =
      if took then { world.holdings row with pool := none } else world.holdings row := by
  rw [holdings_advance world took row rfl]
  simp

/-- A drop takes the schema of the name. -/
theorem holdings_drop (droppable : took → (droppedSchema row.name).isSome) :
    (world.advance took (.commit (.dropSchema row.name))).holdings row =
      if took then { world.holdings row with
        schema := none
        migrations := [] }
      else world.holdings row := by
  cases took with
  | false => rfl
  | true =>
    rcases apply_dropSchema world row.name with ⟨_, _, after, applied⟩ | ⟨unparsed, -⟩
    case inr => simp [unparsed] at droppable
    rw [advance_true applied, if_pos rfl]
    rcases apply_commit applied with ⟨db, committed, rfl⟩
    unfold Database.commit at committed
    rcases Database.withSchemas_ok committed with ⟨store, isDropped, rfl⟩
    rcases ExtensionSchemas.dropSchemaAndMigrations_ok isDropped with ⟨noSchema, rows⟩
    simp [noSchema, rows]

theorem holdings_remove :
    (world.advance took (.file (.removeExtension row.name))).holdings row =
      if took then { world.holdings row with tree := none } else world.holdings row := by
  rw [holdings_advance world took row rfl]
  simp [Files.removeExtension]

theorem holdings_delete (id : String) :
    (world.advance took (.commit (.deletePackage id))).holdings row = world.holdings row := by
  rcases apply_deletePackage world id with ⟨after, applied⟩
  rw [holdings_advance world took row applied]
  rcases apply_commit applied with ⟨db, committed, rfl⟩
  rcases Database.deletePackage_ok committed with ⟨packages, -, rfl⟩
  exact ite_self _

end Holdings

theorem grants_eq_nil {row : PackageRow} (noRules : (world.holdings row).rules = []) :
    (world.holdings row).grants = [] := by
  simp only [World.holdings, List.filter_eq_nil_iff, beq_iff_eq] at noRules ⊢
  intro grant _ owned
  rcases Option.map_eq_some_iff.mp owned with ⟨rule, found, isOwner⟩
  exact noRules rule (Table.find?_eq_some.mp found).1 isOwner

theorem advance_packages (world : World) (took : Bool) {command : Command}
    (untouched : .packages ∉ command.writes) :
    (world.advance took command).db.packages = world.db.packages := by
  cases took with
  | false => rfl
  | true =>
    simp only [World.advance, if_true]
    cases applied : world.apply command with
    | error detail => rfl
    | ok after => exact World.apply_agree applied .packages untouched

theorem find?_mark (world : World) (took : Bool) {id other : String} (apart : other ≠ id) :
    (world.advance took (.commit (.markUninstalling id))).db.packages.find? other =
      world.db.packages.find? other := by
  cases took with
  | false => rfl
  | true =>
    rcases apply_markUninstalling world id with ⟨after, applied⟩
    rw [advance_true applied]
    rcases apply_commit applied with ⟨db, committed, rfl⟩
    rcases Database.modifyPackage_ok committed with ⟨packages, modified, rfl⟩
    rw [find?_modify modified]
    cases found : world.db.packages.find? other with
    | none => rfl
    | some row =>
      have isOther : row.id = other := (Table.find?_eq_some.mp found).2
      simp [isOther, apart]

/-- Deleting a row changes exactly the rows that name it as their predecessor. -/
theorem find?_advanceDelete {took : Bool} {id : String} {other : PackageRow}
    (found : world.db.packages.find? other.id = some other) (apart : other.id ≠ id) :
    (world.advance took (.commit (.deletePackage id))).db.packages.find? other.id = some other ↔
      (took → other.supersedesId ≠ some id) := by
  cases took with
  | false => simpa using found
  | true =>
    rcases apply_deletePackage world id with ⟨after, applied⟩
    rw [advance_true applied]
    rcases apply_commit applied with ⟨db, committed, rfl⟩
    rcases Database.deletePackage_ok committed with ⟨packages, deleted, rfl⟩
    rw [check_ok deleted, Table.find?_update, Table.find?_filter, found]
    rcases other with ⟨_, _, _, _, _, _, _, _, supersedesId, _, _⟩
    by_cases linked : supersedesId = some id <;> simp [linked, apart, Option.filter]

def Unharmed (other : PackageRow) (before after : World) : Prop :=
  after.db.packages.find? other.id = some other ∧ after.holdings other = before.holdings other

/-- The row has nothing that the steps which take effect would take from it. -/
structure HasNothingToLose (world : World) (progress : UninstallProgress) (id : String)
    (other : PackageRow) : Prop where
  registrations : progress.deregistered = true →
    (world.holdings other).rules = [] ∧ (world.holdings other).capabilities = []
  pool : progress.stopped = true → (world.holdings other).pool = none
  schema : progress.dropped = true →
    (world.holdings other).schema = none ∧ (world.holdings other).migrations = []
  tree : progress.removed = true → (world.holdings other).tree = none
  predecessor : progress.deleted = true → other.supersedesId ≠ some id

/-- Another row stays unless the deleted row is its predecessor. -/
theorem uninstalled_row_iff {progress : UninstallProgress}
    {lp other : PackageRow} (found : world.db.packages.find? other.id = some other)
    (apart : other.id ≠ lp.id) :
    (world.uninstalled progress lp).db.packages.find? other.id = some other ↔
      (progress.deleted → other.supersedesId ≠ some lp.id) := by
  apply find?_advanceDelete _ apart
  rw [advance_packages _ _ (by simp), advance_packages _ _ (by simp),
    advance_packages _ _ (by simp),
    advance_packages _ _ (by simp),
    advance_packages _ _ (by simp), find?_mark _ _ apart]
  exact found

/-- Another version keeps what it holds unless a step took something of its name. -/
theorem uninstalled_holdings_iff {progress : UninstallProgress}
    {lp other : PackageRow} (sameName : other.name = lp.name)
    (otherVersion : lp.version ≠ other.version)
    (droppable : progress.dropped → (droppedSchema other.name).isSome) :
    (world.uninstalled progress lp).holdings other = world.holdings other ↔
      (progress.deregistered →
        (world.holdings other).rules = [] ∧ (world.holdings other).capabilities = []) ∧
      (progress.stopped → (world.holdings other).pool = none) ∧
      (progress.dropped →
        (world.holdings other).schema = none ∧ (world.holdings other).migrations = []) ∧
      (progress.removed → (world.holdings other).tree = none) := by
  have noGrants := @grants_eq_nil world other
  simp only [World.uninstalled, ← sameName, holdings_delete, holdings_remove,
    holdings_drop _ _ _ droppable, holdings_stop, holdings_deregister,
    holdings_unroute _ _ _ otherVersion, holdings_mark]
  clear droppable
  generalize world.holdings other = holdings at noGrants
  rcases holdings with ⟨schema, migrations, rules, grants, capabilities, tree, pool, routed⟩
  cases progress.deregistered <;> cases progress.stopped <;> cases progress.dropped <;>
    cases progress.removed <;> simp at noGrants ⊢ <;> grind

/-- A confirmed uninstall of a superseded or failed row leaves a live row of the same name
alone exactly when that row has nothing to lose. -/
theorem uninstallPackage_unharmed_iff (world : World) (row other : PackageRow)
    (answers : List Answer) (found : world.db.packages.find? row.id = some row)
    (retired : row.state = .superseded ∨ row.state = .installFailed)
    (present : world.db.packages.find? other.id = some other) (live : other.isLive = true)
    (sameName : other.name = row.name) :
    Unharmed other world ((uninstallPackage row.id true).run World.apply answers world).state ↔
      HasNothingToLose world (uninstallProgress row.name answers) row.id other := by
  have settled : row.state ≠ .uninstalling := by
    rcases retired with state | state <;> simp [state]
  have notLive : row.isLive = false := by
    rcases retired with state | state <;> simp [PackageRow.isLive, PackageRow.isServing, state]
  have different : other ≠ row := by
    rintro rfl
    simp [live] at notLive
  have apart : other.id ≠ row.id := by
    intro same
    rw [same, found] at present
    exact different (Option.some.inj present).symm
  have otherVersion : row.version ≠ other.version := by
    intro same
    have isSame := List.inj_on_of_nodup_map world.db.packages.versions
      (Table.find?_eq_some.mp present).1 (Table.find?_eq_some.mp found).1
      (Prod.ext sameName same.symm)
    exact different isSame
  have droppable : (uninstallProgress row.name answers).dropped →
      (droppedSchema other.name).isSome := by
    simp only [uninstallProgress, Bool.and_eq_true, sameName]
    exact fun dropped => dropped.1.2
  rw [uninstall_state found settled, Unharmed, uninstalled_row_iff present apart,
    uninstalled_holdings_iff sameName otherVersion droppable]
  constructor
  · rintro ⟨predecessor, registrations, pool, schema, tree⟩
    exact ⟨registrations, pool, schema, tree, predecessor⟩
  · rintro ⟨registrations, pool, schema, tree, predecessor⟩
    exact ⟨predecessor, registrations, pool, schema, tree⟩

/-- Uninstalling the superseded version of an upgraded package leaves the active row without
its rules, schema, directory and pool. -/
theorem uninstallPackage_harms_successor :
    let before := editingUpgrade.state
    let result := (uninstallPackage "p1" true).run World.apply [] before
    (before.db.packages.rows.map fun row => (row.id, row.name, row.state)) =
        [("p1", "notes", .superseded), ("p2", "notes", .active)] ∧
      result.outcome = .done () ∧
      (result.state.db.packages.rows.map fun row => (row.id, row.name, row.state)) =
        [("p2", "notes", .active)] ∧
      (before.db.schemas "notes" = some [] ∧ result.state.db.schemas "notes" = none) ∧
      (before.db.rbac.owner? "notes.edit" = some "notes" ∧
        result.state.db.rbac.owner? "notes.edit" = none) ∧
      ((before.files.trees "notes" "2.0.0").isSome = true ∧
        result.state.files.trees "notes" "2.0.0" = none) ∧
      (before.memory.pools "notes" = some ⟨"p2", "2.0.0"⟩ ∧
        result.state.memory.pools "notes" = none) := by
  decide +kernel

def failedRow : PackageRow where
  id := "p1"
  name := "notes"
  version := "1.0.0"
  state := .installFailed
  provenance := .user
  entryPoint := "server/index.js"
  manifestChecksum := ""

def bareRow : PackageRow := { failedRow with
  id := "p2"
  version := "2.0.0"
  state := .disabled }

def bareWorld : World := { World.fresh with
  db := { World.fresh.db with
    packages :=
      { rows := [failedRow, bareRow]
        unique := by decide
        versions := by decide
        liveNames := by decide
        readyNames := by decide
        activeMounts := by decide
        readyServing := by decide } } }

theorem uninstallPackage_unharmed_bare :
    Unharmed bareRow bareWorld ((uninstallPackage "p1" true).run World.apply [] bareWorld).state :=
  (uninstallPackage_unharmed_iff bareWorld failedRow bareRow [] (by decide) (.inr rfl)
    (by decide) rfl rfl).mpr
    ⟨fun _ => ⟨by decide +kernel, by decide +kernel⟩, fun _ => rfl, fun _ => ⟨rfl, rfl⟩,
      fun _ => rfl, fun _ => by decide⟩

end Plinth.Packages
