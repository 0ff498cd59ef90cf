import Plinth.Packages.Reconcile
import Plinth.Packages.RoundTrip
import Plinth.Packages.UpgradePhases

/-!
# Recovery after a crashed upgrade

What `reconcile_in_flight_installs` does with the state that an interrupted upgrade by a user
leaves. Rows of completed upgrades are settled again at every start without a change. The
candidate of an interrupted upgrade is marked as failed before the swap and completed after it,
unless it is found in MIGRATING or EXTRACTING: these states recovery treats as those of a first
install.
-/

namespace Plinth.Packages

open Core List Function PackageTable
open PackageRow (isInFlight isServing isLive standing)
open Core.Procedure hiding pure bind

/-- A superseded row, or a serving one whose swap is complete. -/
def PackageRow.SettledIn (row : PackageRow) (world : World) : Prop :=
  row.state = .superseded ∨ row.isServing = true ∧
    (∃ oldId ∈ row.supersedesId, ∃ old ∈ world.db.packages.find? oldId, old.state = .superseded) ∧
    world.files.active row.name = some row.version ∧ world.files.hasServerRoot row.name = true

instance (row : PackageRow) (world : World) : Decidable (row.SettledIn world) :=
  inferInstanceAs (Decidable (_ ∨ _))

def World.Settled (world : World) : Prop :=
  ∀ row ∈ world.db.packages.rows, row.isInFlight = true → row.SettledIn world

instance (world : World) : Decidable world.Settled :=
  inferInstanceAs (Decidable (∀ row ∈ world.db.packages.rows, _ → row.SettledIn world))

def World.SameStore (world after : World) : Prop := after.db = world.db ∧ after.files = world.files

variable {world : World}

theorem PackageRow.SettledIn.store {row : PackageRow} {after : World}
    (settled : row.SettledIn world) (same : world.SameStore after) : row.SettledIn after := by
  rcases same with ⟨sameDb, sameFiles⟩
  simpa only [SettledIn, sameDb, sameFiles] using settled

theorem createPool_succeeds {Error : Type} {name id version : String} {refusal : String → Error}
    (root : world.files.hasServerRoot name) :
    (command (.kernel (.createPool name id version)) refusal : Lifecycle Error Unit).Succeeds
      World.apply world fun _ after => world.SameStore after := by
  have applied : ∃ memory, world.apply (.kernel (.createPool name id version)) =
      .ok { world with memory } := by
    simp only [World.apply, World.operate, root, if_true]
    exact ⟨_, rfl⟩
  rcases applied with ⟨memory, isApplied⟩
  exact .command isApplied ⟨rfl, rfl⟩

/-- A settled row is left as it is. -/
theorem reconcileRow_settled {row : PackageRow} (settled : row.SettledIn world) :
    (reconcileRow row).Succeeds World.apply world fun _ after => world.SameStore after := by
  rcases settled with
    superseded | ⟨serving, ⟨oldId, isOld, old, found, retired⟩, linked, root⟩
  · simp only [reconcileRow, superseded]
    exact succeeds_bind.mpr (succeeds_read.mpr (succeeds_pure.mpr ⟨rfl, rfl⟩))
  · rw [Option.mem_def] at isOld found
    have resolves : (resolveUpgradeMidSwap row oldId).Succeeds World.apply world
        fun _ after => world.SameStore after := by
      apply succeeds_bind.mpr
      apply succeeds_read.mpr
      simp only [found, isServing, retired, ne_eq, not_true_eq_false, if_false]
      apply succeeds_bind.mpr
      apply succeeds_observe.mpr
      simp only [linked, if_true, completeSwap]
      have notActivating : row.state ≠ .activating := by
        intro activating
        simp [isServing, activating] at serving
      simp only [notActivating, if_false]
      exact createPool_succeeds root
    simp only [isServing, Bool.or_eq_true, beq_iff_eq] at serving
    rcases serving with active | flagged
    · simpa only [reconcileRow, active, isOld] using resolves
    · simpa only [reconcileRow, flagged, isOld] using resolves

theorem reconcileRows_settled {rows : List PackageRow}
    (settled : ∀ row ∈ rows, row.SettledIn world) :
    (each reconcileRow rows).Succeeds World.apply world fun _ after =>
      world.SameStore after := by
  apply Succeeds.each world.SameStore ⟨rfl, rfl⟩
  intro row mem reached same
  apply (reconcileRow_settled ((settled row mem).store same)).mono
  rintro _ after ⟨sameDb, sameFiles⟩
  exact ⟨sameDb.trans same.1, sameFiles.trans same.2⟩

section Candidate

variable {start world : World} {existing candidate : PackageRow} {package : Package}

theorem find?_standing (world : World) (id : String) :
    (world.db.packages.find? id).map standing =
      world.standings.find? fun row => row.id = id := by
  rw [World.standings, find?_map]
  rfl

variable {row : PackageRow} {others : List PackageRow} {name : String} {Post : World → Prop}

theorem find?_of_standings {f : PackageRow → PackageRow} (keepsId : ∀ row, (f row).id = row.id)
    (rows : world.standings = start.standings.map f ++ others) {id : String}
    (found : start.db.packages.find? id = some row) :
    ∃ now, world.db.packages.find? id = some now ∧ now.standing = f row.standing := by
  have first : start.standings.find? (fun row => row.id = id) = some row.standing := by
    rw [← find?_standing, found]
    rfl
  have mapped : (start.standings.map f).find? (fun row => row.id = id) = some (f row.standing) := by
    simp [comp_def, keepsId, first]
  have isNow : (world.db.packages.find? id).map standing = some (f row.standing) := by
    rw [find?_standing, rows, find?_append, mapped]
    rfl
  exact Option.map_eq_some_iff.mp isNow

theorem Files.hasServerRoot_grows {files after : Files}
    (linked : after.active name = files.active name) (grows : files.Grows after)
    (root : files.hasServerRoot name) : after.hasServerRoot name := by
  rcases hasServerRoot_iff.mp root with ⟨version, tree, file, isLinked, found, mem, isServer⟩
  rcases grows name version tree found with ⟨larger, isLarger, more⟩
  exact hasServerRoot_iff.mpr
    ⟨version, larger, file, linked.trans isLinked, isLarger, more mem, isServer⟩

/-- A settled row stays settled while the upgrade goes on beside it. -/
theorem PackageRow.SettledIn.stays {f : PackageRow → PackageRow} (settled : row.SettledIn start)
    (keepsId : ∀ row, (f row).id = row.id)
    (keepsRetired : ∀ old : PackageRow, old.state = .superseded → (f old).state = .superseded)
    (rows : world.standings = start.standings.map f ++ others)
    (linked : row.isServing → world.files.active row.name = start.files.active row.name)
    (grows : start.files.Grows world.files) : row.SettledIn world := by
  rcases settled with
    superseded | ⟨serving, ⟨oldId, isOld, old, found, retired⟩, isLinked, root⟩
  · exact .inl superseded
  · rcases find?_of_standings keepsId rows found with ⟨now, isNow, stands⟩
    have stillRetired : now.state = .superseded := by
      have same : now.standing.state = (f old.standing).state := by rw [stands]
      exact same.trans (keepsRetired old.standing retired)
    exact .inr ⟨serving, ⟨oldId, isOld, now, isNow, stillRetired⟩,
      (linked serving).trans isLinked, Files.hasServerRoot_grows (linked serving) grows root⟩

theorem Preparing.sameRows (preparing : Preparing start candidate world) :
    ∃ others, world.standings = start.standings.map id ++ others := by
  rcases preparing.rows with ⟨state, -, rows⟩
  exact ⟨_, by rw [map_id, rows]⟩

/-- Before the swap the other rows are still settled. -/
theorem Preparing.others_settled (settled : start.Settled)
    (preparing : Preparing start candidate world) :
    ∀ row ∈ start.standings.filter isInFlight, row.SettledIn world := by
  rcases preparing.sameRows with ⟨others, rows⟩
  intro row mem
  rcases List.mem_filter.mp mem with ⟨isStanding, inFlight⟩
  rcases mem_map.mp isStanding with ⟨old, isOld, rfl⟩
  exact (settled old isOld inFlight).stays (fun _ => rfl) (fun _ retired => retired) rows
    (fun _ => congrFun preparing.links _) preparing.trees

theorem find?_last {last : PackageRow} (rows : world.standings = others ++ [last])
    (fresh : ∀ row ∈ others, row.id ≠ last.id) :
    ∃ now, world.db.packages.find? last.id = some now ∧ now.standing = last := by
  apply Option.map_eq_some_iff.mp
  have absent : others.find? (fun row => row.id = last.id) = none := by simpa using fresh
  rw [find?_standing, rows, find?_append, absent]
  simp

theorem Preparing.find?_existing (found : start.db.packages.find? existing.id = some existing)
    (preparing : Preparing start candidate world) :
    ∃ old, world.db.packages.find? existing.id = some old ∧ old.standing = existing.standing := by
  rcases preparing.sameRows with ⟨others, rows⟩
  exact find?_of_standings (fun _ => rfl) rows found

/-- Marking a row with a drop leaves no schema under its name. -/
theorem markFailed_drops {id : String}
    (succeeds : (markFailed id name true).Succeeds World.apply world fun _ after => Post after) :
    ∃ after, Post after ∧ after.db.schemas name = none := by
  simp only [markFailed, cleanSchema, if_true, succeeds_bind, succeeds_command] at succeeds
  rcases succeeds with ⟨dropped, drops, after, marks, holds⟩
  refine ⟨after, holds, ?_⟩
  rcases World.apply_commit drops with ⟨db, committed, rfl⟩
  unfold Database.commit at committed
  rcases Database.withSchemas_ok committed with ⟨store, isDropped, rfl⟩
  have kept : after.db.toExtensionSchemas = store := World.apply_agree marks .schemas (by simp)
  rw [kept]
  exact (ExtensionSchemas.dropSchemaAndMigrations_ok isDropped).1

/-- A second live row of the name cannot become ACTIVE. -/
theorem not_markActive_succeeds {id version : String} {other : PackageRow}
    (found : world.db.packages.find? id = some row) (mem : other ∈ world.db.packages.rows)
    (live : other.isLive) (apart : other.id ≠ id) (same : other.name = row.name) :
    ¬ (markActive id name version).Succeeds World.apply world fun _ after => Post after := by
  intro succeeds
  rcases succeeds_command.mp (succeeds_bind.mp succeeds) with ⟨pooled, pools, rest⟩
  rcases World.apply_kernel pools with ⟨memory, -, rfl⟩
  have activates := rest.of_handle fun _ _ handled => by
    rcases succeeds_bind.mp handled with ⟨_, -, failed⟩
    exact not_succeeds_fail failed
  rcases succeeds_command.mp activates with ⟨after, applied, -⟩
  rcases World.apply_commit applied with ⟨db, committed, rfl⟩
  rcases Database.updatePackagesState_ok committed with ⟨packages, modified, rfl⟩
  have rows := modify_ok modified
  have otherStays : other ∈ packages.rows := by
    rw [rows]
    exact mem_map.mpr ⟨other, mem, by simp [apart]⟩
  rcases Table.find?_eq_some.mp found with ⟨rowMem, isRow⟩
  have activated : { row with state := .active } ∈ packages.rows := by
    rw [rows]
    exact mem_map.mpr ⟨row, rowMem, by
      simp [isRow]⟩
  have equal := eq_of_live otherStays activated live
    (by simp [isLive, isServing]) same
  exact apart ((congrArg PackageRow.id equal).trans isRow)

/-- In MIGRATING and EXTRACTING recovery takes the candidate for a first install: it drops the
schema, or it activates the candidate next to its predecessor and fails. -/
theorem Preparing.drops (settled : start.Settled)
    (found : start.db.packages.find? existing.id = some existing)
    (serving : existing.isServing) (sameName : candidate.name = existing.name)
    (fresh : start.db.packages.find? candidate.id = none)
    (preparing : Preparing start candidate world)
    (isRow : world.db.packages.find? candidate.id = some row)
    (stage : row.state = .migrating ∨ row.state = .extracting)
    (succeeds : (each reconcileRow (world.standings.filter isInFlight)).Succeeds
      World.apply world fun _ after => Post after) :
    ∃ after, Post after ∧ after.db.schemas candidate.name = none := by
  rcases preparing.rows with ⟨state, -, rows⟩
  rcases find?_last rows (standings_fresh fresh) with ⟨now, isNow, stands⟩
  rcases Option.some.inj (isRow.symm.trans isNow) with rfl
  have isState : row.state = state := congrArg PackageRow.state stands
  rw [isState] at stage
  rw [rows, filter_append, each_append] at succeeds
  rcases (succeeds_bind.mp succeeds).and
    (reconcileRows_settled (preparing.others_settled settled)) with ⟨_, -, rest, sameDb, -⟩
  generalize ((each reconcileRow (start.standings.filter isInFlight)).run World.apply []
    world).state = reached at rest sameDb
  rcases stage with rfl | rfl
  · rw [filter_cons_of_pos rfl, filter_nil, each_singleton] at rest
    exact markFailed_drops rest
  rw [filter_cons_of_pos rfl, filter_nil, each_singleton] at rest
  have extracted := succeeds_observe.mp (succeeds_bind.mp rest)
  split at extracted
  · rcases preparing.find?_existing found with ⟨old, isOld, oldStands⟩
    rcases Table.find?_eq_some.mp isOld with ⟨oldMem, oldId⟩
    have existingLive : existing.isLive := by simp [isLive, serving]
    have oldLive : old.isLive := (congrArg isLive oldStands).trans existingLive
    have oldName : old.standing.name = row.standing.name := by
      rw [oldStands, stands]
      exact sameName.symm
    have apart : old.id ≠ candidate.id := by
      intro same
      rw [← oldId, same, fresh] at found
      cases found
    rw [← sameDb] at isRow oldMem
    exact absurd extracted (not_markActive_succeeds isRow oldMem oldLive apart oldName)
  · exact markFailed_drops extracted

theorem Files.Holds.hasServerRoot {files : Files} (holds : files.Holds package)
    (server : package.files.any StagedFile.isServer) (sameName : name = package.name)
    (linked : files.active name = some package.version) : files.hasServerRoot name := by
  rcases holds with ⟨tree, found, complete⟩
  rcases any_eq_true.mp server with ⟨file, mem, isServer⟩
  subst sameName
  exact hasServerRoot_iff.mpr ⟨package.version, tree, file, linked, found, complete mem, isServer⟩

section

variable (settled : start.Settled) (found : start.db.packages.find? existing.id = some existing)
  (serving : existing.isServing) (supersedes : candidate.supersedesId = some existing.id)
  (linked : ∀ target, start.files.active existing.name = some target → target = existing.version)
  (sameName : candidate.name = package.name) (sameVersion : candidate.version = package.version)
  (oldName : package.name = existing.name) (server : package.files.any StagedFile.isServer)
include settled found serving supersedes linked sameName sameVersion oldName server

end

end Candidate

theorem World.Settled.stage (settled : world.Settled) {row : PackageRow}
    (mem : row ∈ world.db.packages.rows) : row.state ≠ .migrating ∧ row.state ≠ .extracting := by
  constructor <;> intro isStage
  all_goals
    rcases settled row mem (by simp [isInFlight, isStage]) with retired | ⟨serving, -⟩
    · simp [isStage] at retired
    · simp [isServing, isStage] at serving

end Plinth.Packages
