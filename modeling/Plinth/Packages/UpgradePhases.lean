import Plinth.Packages.Footprints

/-!
# The phases of an upgrade

An upgrade by a user goes through two phases. Until its swap transaction is committed there is
one more row than before and everything else stands as it stood; from then on the predecessor is
SUPERSEDED and the candidate ACTIVE. Both descriptions hold after every prefix of a run,
whatever the environment answers, and they are what recovery finds after a crash.
-/

namespace Plinth.Packages

open Core List Function PackageTable
open Core.Procedure hiding pure bind
open World (apply_commit apply_file)

/-- A row apart from its readiness, which recovery does not look at. -/
@[simp]
def PackageRow.standing (row : PackageRow) : PackageRow := { row with applicationReady := false }

open PackageRow (standing)

def World.standings (world : World) : List PackageRow :=
  world.db.packages.rows.map standing

namespace PackageTable

variable {packages after : PackageTable}

theorem standings_toState {id : String} {state : InstallStage}
    (ok : packages.modify id (.toState state) = .ok after) :
    after.rows.map standing =
      (packages.rows.map standing).map ((Change.toState state).on id) := by
  rw [modify_ok ok, map_map, map_map]
  apply map_congr_left
  intro row _
  by_cases isRow : row.id = id <;>
    simp [isRow]

/-- The readiness of a row does not show in its standing. -/
theorem standings_toReady {id : String} {ready : Bool}
    (ok : packages.modify id (.toReady ready) = .ok after) :
    after.rows.map standing = packages.rows.map standing := by
  rw [modify_ok ok, map_map]
  apply map_congr_left
  intro row _
  by_cases isRow : row.id = id <;>
    simp [Change.toReady, isRow]

theorem map_on_of_absent {rows : List PackageRow} {id : String} (change : Change)
    (absent : ∀ row ∈ rows, row.id ≠ id) : rows.map (change.on id) = rows := by
  refine (map_congr_left fun row mem => ?_).trans (map_id rows)
  simp [absent row mem]

end PackageTable

def StagedFile.isServer (file : StagedFile) : Bool :=
  file.path = "server" || "server/".toList.isPrefixOf file.path.toList

namespace Files

/-- The link leads to a version with a file of the server. -/
theorem hasServerRoot_iff {files : Files} {name : String} :
    files.hasServerRoot name ↔ ∃ version tree file, files.active name = some version ∧
      files.trees name version = some tree ∧ file ∈ tree ∧ file.isServer := by
  change ((files.active name).any fun version =>
    (files.trees name version).any fun tree => tree.any StagedFile.isServer) ↔ _
  simp only [Option.any_eq_true, any_eq_true]
  constructor
  · rintro ⟨version, linked, tree, found, file, mem, isServer⟩
    exact ⟨version, tree, file, linked, found, mem, isServer⟩
  · rintro ⟨version, tree, file, linked, found, mem, isServer⟩
    exact ⟨version, linked, tree, found, file, mem, isServer⟩

variable (files : Files)

def Grows (after : Files) : Prop :=
  ∀ name version tree, files.trees name version = some tree →
    ∃ larger, after.trees name version = some larger ∧ tree ⊆ larger

theorem Grows.refl : files.Grows files :=
  fun _ _ tree found => ⟨tree, found, List.Subset.refl tree⟩

theorem Grows.trans {first second third : Files} (before : first.Grows second)
    (after : second.Grows third) : first.Grows third := by
  intro name version tree found
  rcases before name version tree found with ⟨middle, isMiddle, more⟩
  rcases after name version middle isMiddle with ⟨larger, isLarger, evenMore⟩
  exact ⟨larger, isLarger, List.Subset.trans more evenMore⟩

theorem setTree_trees (name version : String) (tree : Option (List StagedFile))
    (name' version' : String) :
    (files.setTree name version tree).trees name' version' =
      if name' = name ∧ version' = version then tree else files.trees name' version' := by
  rcases eq_or_ne name' name with rfl | isName
  · by_cases isVersion : version' = version <;> simp [setTree, isVersion]
  · simp [setTree, isName]

theorem grows_setTree {files : Files} {name version : String} {tree : List StagedFile}
    (more : ∀ old, files.trees name version = some old → old ⊆ tree) :
    files.Grows (files.setTree name version (some tree)) := by
  intro name' version' old found
  rw [setTree_trees]
  split
  case isTrue same =>
    rcases same with ⟨rfl, rfl⟩
    exact ⟨tree, rfl, more old found⟩
  case isFalse => exact ⟨old, found, List.Subset.refl old⟩

theorem copyFile_ok {files after : Files} {name version : String} {file : StagedFile}
    (ok : files.copyFile name version file = .ok after) :
    ∃ tree, files.trees name version = some tree ∧
      after = files.setTree name version (some (tree ++ [file])) := by
  unfold copyFile at ok
  split at ok
  case h_1 => cases ok
  case h_2 tree found =>
    split_ifs at ok
    exact ⟨tree, found, (Except.ok.inj ok).symm⟩

def Holds (package : Package) : Prop :=
  ∃ tree, files.trees package.name package.version = some tree ∧ package.files ⊆ tree

end Files

def preparationStates : List InstallStage :=
  [.uploading, .validating, .migrating, .extracting, .activating, .installFailed]

/-- The steps of an upgrade between its row and its swap. -/
inductive PreparationStep (oldId newId : String) (package : Package) : Command → Prop where
  | setState {state : InstallStage} (early : state ∈ preparationStates) :
      PreparationStep oldId newId package (.commit (.setState newId state))
  | withdraw : PreparationStep oldId newId package (.commit (.withdraw oldId))
  | ensureSchema : PreparationStep oldId newId package (.commit (.ensureSchema package.name))
  | applyMigration (file : MigrationFile) :
      PreparationStep oldId newId package (.commit (.applyMigration package.name file))
  | register (provides : List ProvidedCapability) :
      PreparationStep oldId newId package (.commit (.registerUpgrade newId package provides))
  | createTree :
      PreparationStep oldId newId package (.file (.createTree package.name package.version))
  | copyFile (file : StagedFile) :
      PreparationStep oldId newId package (.file (.copyFile package.name package.version file))

/-- The state of a run before its swap: the candidate's row is the last one, the links are as
they were, and no directory lost a file and no extension its schema. -/
structure Preparing (start : World) (candidate : PackageRow) (world : World) : Prop where
  rows : ∃ state ∈ preparationStates,
    world.standings = start.standings ++ [{ candidate with state }]
  links : world.files.active = start.files.active
  trees : start.files.Grows world.files
  schemas : ∀ name, (start.db.schemas name).isSome = true → (world.db.schemas name).isSome = true

section Phases

variable {start world after : World} {candidate : PackageRow}

theorem standings_fresh {id : String} (fresh : start.db.packages.find? id = none) :
    ∀ row ∈ start.standings, row.id ≠ id := by
  intro row mem
  rcases mem_map.mp mem with ⟨old, oldMem, rfl⟩
  exact Table.find?_eq_none.mp fresh old oldMem

theorem map_toState_append (fresh : ∀ row ∈ start.standings, row.id ≠ candidate.id)
    (state next : InstallStage) :
    (start.standings ++ [{ candidate with state }]).map
        ((Change.toState next).on candidate.id) =
      start.standings ++ [{ candidate with state := next }] := by
  rw [map_append, map_on_of_absent _ fresh]
  simp

section

variable (preparing : Preparing start candidate world)
include preparing

/-- The candidate may change between the states before the swap. -/
theorem Preparing.moves {db : Database} {next : InstallStage}
    (fresh : ∀ row ∈ start.standings, row.id ≠ candidate.id) (early : next ∈ preparationStates)
    (modified : world.db.packages.modify candidate.id (.toState next) = .ok db.packages)
    (sameSchemas : db.toExtensionSchemas = world.db.toExtensionSchemas) :
    Preparing start candidate { world with db } := by
  rcases preparing with ⟨⟨state, -, rows⟩, links, trees, schemas⟩
  refine ⟨⟨next, early, ?_⟩, links, trees, sameSchemas ▸ schemas⟩
  refine (standings_toState modified).trans ?_
  refine (congrArg (List.map _) rows).trans (map_toState_append fresh state next)

theorem Preparing.stands {db : Database}
    (same : db.packages.rows.map standing = world.standings)
    (kept : ∀ name, (world.db.schemas name).isSome → (db.schemas name).isSome) :
    Preparing start candidate { world with db } := by
  rcases preparing with ⟨⟨state, early, rows⟩, links, trees, schemas⟩
  exact ⟨⟨state, early, same.trans rows⟩, links, trees,
    fun name was => kept name (schemas name was)⟩

theorem Preparing.grows {files : Files}
    (links : files.active = world.files.active) (grows : world.files.Grows files) :
    Preparing start candidate { world with files } :=
  ⟨preparing.rows, links.trans preparing.links, preparing.trees.trans grows, preparing.schemas⟩

/-- Every command before the swap keeps the first phase. -/
theorem Preparing.step {oldId : String} {package : Package} {step : Command}
    (fresh : ∀ row ∈ start.standings, row.id ≠ candidate.id)
    (allowed : PreparationStep oldId candidate.id package step)
    (applied : world.apply step = .ok after) : Preparing start candidate after := by
  cases allowed with
  | setState early =>
    rcases apply_commit applied with ⟨db, committed, rfl⟩
    rcases Database.updatePackagesState_ok committed with ⟨packages, modified, rfl⟩
    exact preparing.moves fresh early modified rfl
  | withdraw =>
    rcases apply_commit applied with ⟨db, committed, rfl⟩
    rcases Database.modifyPackage_ok committed with ⟨packages, modified, rfl⟩
    exact preparing.stands (standings_toReady modified) fun _ was => was
  | ensureSchema =>
    rcases apply_commit applied with ⟨db, committed, rfl⟩
    unfold Database.commit at committed
    rcases Database.withSchemas_ok committed with ⟨store, provisioned, rfl⟩
    exact preparing.stands rfl fun _ => ExtensionSchemas.isSome_schemas_provision provisioned
  | applyMigration file =>
    rcases apply_commit applied with ⟨db, ⟨⟩, rfl⟩
    exact preparing.stands rfl fun _ => ExtensionSchemas.isSome_schemas_applyOne file
  | register provides =>
    rcases apply_commit applied with ⟨db, committed, rfl⟩
    rcases Database.runStageRegisteringUpgrade_ok committed with ⟨rbac, -, registers⟩
    rcases registers.packages with ⟨registering, first, second⟩
    rcases preparing with ⟨⟨state, -, rows⟩, links, trees, schemas⟩
    refine ⟨⟨.extracting, by decide, ?_⟩, links, trees, registers.schemas ▸ schemas⟩
    have started : registering.rows.map standing =
        start.standings ++ [{ candidate with state := .registering }] :=
      (standings_toState first).trans
        ((congrArg (List.map _) rows).trans (map_toState_append fresh state .registering))
    refine (standings_toState second).trans ?_
    rw [started]
    exact map_toState_append fresh .registering .extracting
  | createTree =>
    rcases apply_file applied with ⟨files, ⟨⟩, rfl⟩
    refine preparing.grows rfl (Files.grows_setTree fun old found => ?_)
    rw [found]
    exact List.Subset.refl old
  | copyFile file =>
    rcases apply_file applied with ⟨files, performed, rfl⟩
    rcases Files.copyFile_ok performed with ⟨tree, found, rfl⟩
    refine preparing.grows rfl (Files.grows_setTree fun old isOld => ?_)
    rcases Option.some.inj (found.symm.trans isOld) with rfl
    exact subset_append_left tree [file]

end

/-- The state of a run after its swap: the predecessor is SUPERSEDED and the candidate ACTIVE with
a complete directory; the link may still name the predecessor's version. -/
structure Swapped (start : World) (oldId : String) (candidate : PackageRow) (package : Package)
    (world : World) : Prop where
  rows : world.standings =
    start.standings.map ((Change.toState .superseded).on oldId) ++
      [{ candidate with state := .active }]
  links : ∀ name ≠ candidate.name, world.files.active name = start.files.active name
  link : world.files.active candidate.name = start.files.active candidate.name ∨
    world.files.active candidate.name = some candidate.version
  trees : start.files.Grows world.files
  tree : world.files.Holds package

variable {oldId : String} {package : Package}

/-- The commit of the swap leads from the first phase to the second. -/
theorem Preparing.swap (preparing : Preparing start candidate world)
    (fresh : ∀ row ∈ start.standings, row.id ≠ candidate.id) (other : candidate.id ≠ oldId)
    (holds : world.files.Holds package)
    (applied : world.apply (.commit (.swap oldId candidate.id)) = .ok after) :
    Swapped start oldId candidate package after := by
  rcases apply_commit applied with ⟨db, committed, rfl⟩
  rcases Database.swap_ok committed with ⟨retired, packages, isRetired, isActive, rfl⟩
  rcases preparing with ⟨⟨state, -, rows⟩, links, trees, -⟩
  have first : retired.rows.map standing =
      start.standings.map ((Change.toState .superseded).on oldId) ++
        [{ candidate with state }] := by
    refine (standings_toState isRetired).trans ?_
    refine (congrArg (List.map _) rows).trans ?_
    rw [map_append]
    simp [other]
  have second : packages.rows.map standing =
      start.standings.map ((Change.toState .superseded).on oldId) ++
        [{ candidate with state := .active }] := by
    refine (standings_toState isActive).trans ?_
    rw [first, map_append, map_on_of_absent]
    · simp
    · intro row mem
      rcases mem_map.mp mem with ⟨old, oldMem, rfl⟩
      rw [Change.on_id]
      exact fresh old oldMem
  exact ⟨second, fun name _ => congrFun links name, .inl (congrFun links _), trees, holds⟩

section

variable (swapped : Swapped start oldId candidate package world)
include swapped

theorem Swapped.stages (activeTmp : String → Option String) : Swapped start oldId candidate package
      { world with files := { world.files with activeTmp } } :=
  ⟨swapped.rows, swapped.links, swapped.link, swapped.trees, swapped.tree⟩

theorem Swapped.relink : Swapped start oldId candidate package
      { world with
        files := { world.files with
          active := update world.files.active candidate.name (some candidate.version) } }
    where
  rows := swapped.rows
  links name other := by
    simp only [update_of_ne other]
    exact swapped.links name other
  link := .inr (by simp)
  trees := swapped.trees
  tree := swapped.tree

end

/-- The steps of an upgrade after its link names the new version. -/
inductive CutoverStep (newId : String) : Command → Prop where
  | kernel (operation : KernelOperation) : CutoverStep newId (.kernel operation)
  | unregister (call : Rbac.ProvidedSignature) :
      CutoverStep newId (.commit (.unregisterCapability call))
  | ready : CutoverStep newId (.commit (.admitReady newId))

/-- Every command of T4 keeps the second phase. -/
theorem Swapped.step {newId : String} {step : Command}
    (swapped : Swapped start oldId candidate package world) (allowed : CutoverStep newId step)
    (applied : world.apply step = .ok after) : Swapped start oldId candidate package after := by
  cases allowed with
  | kernel operation =>
    rcases World.apply_kernel applied with ⟨memory, -, rfl⟩
    exact { swapped with }
  | unregister call =>
    rcases apply_commit applied with ⟨db, ⟨⟩, rfl⟩
    exact { swapped with }
  | ready =>
    rcases apply_commit applied with ⟨db, committed, rfl⟩
    rcases Database.admitReady_ok committed with ⟨packages, modified, rfl⟩
    exact { swapped with rows := (standings_toReady modified).trans swapped.rows }

/-- Flipping the link keeps the second phase, wherever it stops. -/
theorem Swapped.flipActive {newId : String} (swapped : Swapped start oldId candidate package world)
    (sameName : candidate.name = package.name) (sameVersion : candidate.version = package.version) :
    (flipActive newId package).Ensures World.apply world fun _ final =>
      Swapped start oldId candidate package final := by
  have staged {reached : World} (holds : Swapped start oldId candidate package reached) :
      (do
        command (.file (.stageLink package.name package.version)) fun detail =>
          upgradeFailure newId "upgrade-swap-failed" ("symlink tmp: " ++ detail)
        command (.file (.renameLink package.name)) fun detail =>
          upgradeFailure newId "upgrade-swap-failed"
            ("rename(active.tmp → active) failed: " ++ detail) :
        Lifecycle TransitionFailure Unit).Ensures World.apply reached fun _ final =>
          Swapped start oldId candidate package final := by
    apply Ensures.bind
    apply Ensures.command holds (fun _ => holds)
    · intro after applied
      rcases apply_file applied with ⟨files, performed, rfl⟩
      rcases bind_eq_ok.mp performed with ⟨links, linked, ⟨⟩⟩
      have renamed {final : World}
          (applied : World.apply (.file (.renameLink package.name))
            { reached with files := { reached.files with activeTmp := links } } = .ok final) :
          Swapped start oldId candidate package final := by
        rcases apply_file applied with ⟨files, performed, rfl⟩
        simp only [Files.createSymlink] at linked
        split_ifs at linked
        cases linked
        simp only [Files.perform, Files.renameLink, update_self] at performed
        cases performed
        have relinked := (holds.relink).stages
          (update (update reached.files.activeTmp package.name
            (some package.version)) package.name none)
        rw [sameName, sameVersion] at relinked
        exact relinked
      exact Ensures.command (holds.stages links) (fun _ => holds.stages links)
        (fun _ => renamed) fun _ _ => renamed
    · intro detail after applied
      rcases apply_file applied with ⟨files, performed, rfl⟩
      rcases bind_eq_ok.mp performed with ⟨links, linked, ⟨⟩⟩
      exact holds.stages links
  apply Ensures.bind
  apply Ensures.tryCommand swapped (staged swapped)
  intro after applied
  rcases apply_file applied with ⟨files, ⟨⟩, rfl⟩
  exact staged (swapped.stages _)

end Phases

section Upgrade

variable {oldId : String} (newId : String) (package : Package)

variable (existing : PackageRow)

variable {start : World} {candidate : PackageRow} {newId : String} {package : Package}

/-- A procedure of such commands stays in the first phase, wherever it stops. -/
theorem Preparing.ensures {Error Value : Type} {world : World} {procedure : Lifecycle Error Value}
    (issues : procedure.Issues (PreparationStep oldId candidate.id package))
    (fresh : start.db.packages.find? candidate.id = none)
    (preparing : Preparing start candidate world) :
    procedure.Ensures World.apply world fun _ final => Preparing start candidate final :=
  issues.invariant (Preparing start candidate)
    (fun allowed holds => holds.step (standings_fresh fresh) allowed) preparing

theorem Swapped.cutover {world : World} (swapped : Swapped start oldId candidate package world)
    (existing : PackageRow) :
    (cutover existing candidate.id package .user).Ensures World.apply world fun _ final =>
      Swapped start oldId candidate package final := by
  have issues : (Packages.cutover existing candidate.id package .user).Issues
      (CutoverStep candidate.id) :=
    cutover_issues existing candidate.id package .user .kernel .unregister .ready
  exact issues.invariant (Swapped start oldId candidate package)
    (fun allowed holds => holds.step allowed) swapped

end Upgrade

end Plinth.Packages
