import Plinth.Core.Ensures
import Plinth.Packages.Database
import Plinth.Packages.Semver

/-!
# Migrations

Model of `packages/migrations.cpp` in its per-file mode, statement by statement. A file is executed
and recorded in one transaction, so after a run that stops anywhere its effects are there exactly if
its tracking row is.
-/

namespace Plinth.Packages

open Core List
open Core.Procedure hiding pure bind

namespace Migrations

inductive MigrationError where
  | duplicateSequence
  | invalidFilename
  | checksumMismatch
  | schemaCreateFailed
  | migrationApplyFailed
  | readFailed
  | advisoryLockFailed
  | dropFailed
  | unqualifiedDdl
  deriving DecidableEq

structure MigrationFailure where
  kind : MigrationError
  migrationFile : Option String := none
  message : String
  deriving DecidableEq

/-- An entry of the migrations directory; reading it may fail. -/
structure DirectoryEntry where
  filename : String
  isRegularFile : Bool
  contents : Except String String

/-- What is found at `migrations` below the package root. -/
inductive Directory where
  | absent
  | unreadable (message : String)
  | listed (entries : List DirectoryEntry)

structure DiscoveredFile extends MigrationFile where
  sequence : Nat
  deriving DecidableEq

structure Tools where
  sha256Hex : String → String
  checkQualifiedDdl : String → Option String

def isStemChar (c : Char) : Bool :=
  ('a' ≤ c && c ≤ 'z') || isDecimal c || c == '_' || c == '-'

variable (filename : String)

/-- The digits of a name that has the form of a migration file. -/
def versionDigits : Option (List Char) :=
  let digits := filename.toList.takeWhile isDecimal
  match filename.toList.dropWhile isDecimal with
  | '_' :: rest =>
    if digits.isEmpty || (rest.takeWhile isStemChar).isEmpty ||
        rest.dropWhile isStemChar != ".sql".toList then none
    else some digits
  | _ => none

def parseMigrationFilename : Option Nat :=
  (versionDigits filename).map readUInt64

def version : Nat := ((versionDigits filename).map number).getD 0

def looksLikeMigrationCandidate : Bool :=
  filename.toList.head?.any isDecimal && filename.endsWith ".sql"

def stripUtf8Bom (contents : String) : String :=
  if contents.toList.head? = some '\uFEFF' then String.ofList contents.toList.tail else contents

def buildMigrationFile (tools : Tools) (entry : DirectoryEntry) :
    Except MigrationFailure (Option DiscoveredFile) :=
  if !entry.isRegularFile then .ok none
  else
    match parseMigrationFilename entry.filename with
    | none =>
      if looksLikeMigrationCandidate entry.filename then
        .error { kind := .invalidFilename
                 migrationFile := entry.filename
                 message := "invalid migration filename: " ++ entry.filename ++
                   " (expected NNN_description.sql)" }
      else .ok none
    | some sequence =>
      match entry.contents with
      | .error err =>
        .error { kind := .readFailed
                 migrationFile := entry.filename
                 message := "failed to read migration file " ++ entry.filename ++ ": " ++ err }
      | .ok contents =>
        let contents := stripUtf8Bom contents
        .ok (some ⟨⟨entry.filename, contents, tools.sha256Hex contents⟩, sequence⟩)

def buildMigrationFiles (tools : Tools) :
    List DirectoryEntry → Except MigrationFailure (List DiscoveredFile)
  | [] => .ok []
  | entry :: entries => do
      let file ← buildMigrationFile tools entry
      let files ← buildMigrationFiles tools entries
      return file.toList ++ files

def detectDuplicate : List DiscoveredFile → Option MigrationFailure
  | first :: second :: rest =>
    if second.sequence = first.sequence then
      some { kind := .duplicateSequence
             migrationFile := second.filename
             message := "duplicate migration sequence " ++ toString second.sequence ++ ": " ++
               first.filename ++ ", " ++ second.filename }
    else detectDuplicate (second :: rest)
  | _ => none

def detectUnqualified (tools : Tools) (files : List DiscoveredFile) : Option MigrationFailure :=
  files.findSome? fun file => (tools.checkQualifiedDdl file.contents).map fun err =>
    { kind := .unqualifiedDdl
      migrationFile := file.filename
      message := "migration " ++ file.filename ++ ": " ++ err }

def discoverMigrations (tools : Tools) : Directory → Except MigrationFailure (List DiscoveredFile)
  | .absent => .ok []
  | .unreadable message => .error { kind := .readFailed, message := message }
  | .listed entries => do
      let built ← buildMigrationFiles tools
        (entries.insertionSort fun first second => first.filename ≤ second.filename)
      let files := built.insertionSort fun first second => first.sequence ≤ second.sequence
      match detectDuplicate files, detectUnqualified tools files with
      | some failure, _ => throw failure
      | none, some failure => throw failure
      | none, none => return files

theorem discoverMigrations_listed {tools : Tools} {entries : List DirectoryEntry}
    {built files : List DiscoveredFile} (isBuilt : buildMigrationFiles tools
      (entries.insertionSort fun first second => first.filename ≤ second.filename) = .ok built)
    (sorted : (built.insertionSort fun first second => first.sequence ≤ second.sequence) = files) :
    discoverMigrations tools (.listed entries) =
      match detectDuplicate files, detectUnqualified tools files with
      | some failure, _ => .error failure
      | none, some failure => .error failure
      | none, none => .ok files := by
  simp only [discoverMigrations, isBuilt, ← sorted]
  rfl

/-- What the database holds for one extension: the files whose statements its schema has gone
through, the rows of `plinth.migrations`, and whether the guard function exists. -/
structure Store where
  effects : List MigrationFile
  tracking : List MigrationRow
  guardExists : Bool

/-- The primary key of `plinth.migrations`. -/
def Store.tracks (store : Store) (name filename : String) : Bool :=
  store.tracking.any fun row => row.extensionName = name && row.migrationFile = filename

structure Session where
  committed : Store
  working : Option Store

inductive Statement where
  | provision
  | begin
  | createGuard
  | execute (file : MigrationFile)
  | dropGuard
  | insertTracking (row : MigrationRow)
  | commit
  | rollback
  | dropSchema

/-- A statement inside of the open transaction, or in one of its own. -/
@[simp]
def Session.modify (session : Session) (change : Store → Except String Store) :
    Except String Session :=
  match session.working with
  | some store => do return { session with working := some (← change store) }
  | none => do return { session with committed := ← change session.committed }

@[simp]
def Session.apply : Statement → Session → Except String Session
  | .provision, session => .ok session
  | .begin, session => .ok { session with working := some (session.working.getD session.committed) }
  | .createGuard, session => session.modify fun store =>
    if store.guardExists then .error "function already exists"
    else .ok { store with guardExists := true }
  | .execute file, session => session.modify fun store =>
    if store.guardExists then .ok { store with effects := store.effects ++ [file] }
    else .error "function does not exist"
  | .dropGuard, session => session.modify fun store =>
    if store.guardExists then .ok { store with guardExists := false }
    else .error "function does not exist"
  | .insertTracking row, session => session.modify fun store =>
    if store.tracks row.extensionName row.migrationFile then
      .error "duplicate key value violates unique constraint"
    else .ok { store with tracking := store.tracking ++ [row] }
  | .commit, session => .ok ⟨session.working.getD session.committed, none⟩
  | .rollback, session => .ok { session with working := none }
  | .dropSchema, session => .ok ⟨{ session.committed with effects := [], tracking := [] }, none⟩

abbrev Migrator := Procedure Statement Session MigrationFailure

def applyFailed (file : MigrationFile) (text detail : String) : MigrationFailure :=
  { kind := .migrationApplyFailed, migrationFile := file.filename, message := text ++ detail }

def orRollback (statement : Statement) (refusal : String → MigrationFailure) : Migrator Unit :=
  exec statement fun
    | .ok _ => pure ()
    | .error detail => tryCommand .rollback >>= fun _ => fail (refusal detail)

def applyOne (name : String) (file : MigrationFile) : Migrator Unit := do
  command .begin (applyFailed file "BEGIN failed: ")
  orRollback .createGuard (applyFailed file "migration privilege guard setup failed: ")
  orRollback (.execute file) (applyFailed file ("migration " ++ file.filename ++ " failed: "))
  orRollback .dropGuard (applyFailed file "migration privilege guard cleanup failed: ")
  orRollback (.insertTracking ⟨name, file.filename, file.checksumHex⟩)
    (applyFailed file ("tracking-row insert failed for " ++ file.filename ++ ": "))
  orRollback .commit (applyFailed file "COMMIT failed: ")

def Store.appliedChecksum? (store : Store) (name filename : String) : Option String :=
  (store.tracking.find? fun row => row.extensionName = name && row.migrationFile = filename).map
    MigrationRow.checksum

def runFile (name : String) (file : MigrationFile) : Migrator Unit := do
  let session ← read (applyFailed file "checksum lookup failed: ")
  match session.committed.appliedChecksum? name file.filename with
  | none => applyOne name file
  | some stored =>
    if stored = file.checksumHex then pure ()
    else fail { kind := .checksumMismatch
                migrationFile := file.filename
                message := ExtensionSchemas.checksumText file stored }

def runMigrations (tools : Tools) (name : String) (directory : Directory) : Migrator Unit := do
  let _ ← read fun detail =>
    { kind := .advisoryLockFailed, message := "advisory lock query failed: " ++ detail }
  orRollback .provision fun detail =>
    { kind := .schemaCreateFailed
      message := "schema or role setup for ext_" ++ name ++ " failed: " ++ detail }
  let files ← ofExcept (discoverMigrations tools directory)
  each (fun file => runFile name file.toMigrationFile) files

def dropSchemaAndMigrations (name : String) : Migrator Unit :=
  orRollback .dropSchema fun detail =>
    { kind := .dropFailed, message := "teardown of ext_" ++ name ++ " failed: " ++ detail }

def trackingRow (name : String) (file : MigrationFile) : MigrationRow :=
  ⟨name, file.filename, file.checksumHex⟩

@[simp]
def Store.record (store : Store) (name : String) (files : List MigrationFile) : Store :=
  { store with
    effects := store.effects ++ files
    tracking := store.tracking ++ files.map (trackingRow name) }

def Store.Untracked (store : Store) (name : String) (file : MigrationFile) : Prop :=
  ∀ row ∈ store.tracking, ¬ (row.extensionName = name ∧ row.migrationFile = file.filename)

@[simp]
theorem Store.record_nil (store : Store) (name : String) : store.record name [] = store := by
  simp [record]

variable {store : Store} {name : String} {files : List DiscoveredFile} {tools : Tools}

section

variable {statement : Statement} {refusal : String → MigrationFailure} {session after : Session}

/-- A statement is done, or it is rolled back and nothing is committed. -/
theorem orRollback_ensures (applied : Session.apply statement session = .ok after) :
    (orRollback statement refusal).Ensures Session.apply session fun outcome final =>
      outcome = .done () ∧ final = after ∨ outcome.isDone = false ∧
        (final.committed = session.committed ∨ final.committed = after.committed) := by
  have rolledBack {reached : Session} {detail : String}
      (kept : reached.committed = session.committed ∨ reached.committed = after.committed) :
      (do
        tryCommand .rollback
        fail (refusal detail) : Migrator Unit).Ensures Session.apply reached fun outcome final =>
        outcome = .done () ∧ final = after ∨ outcome.isDone = false ∧
          (final.committed = session.committed ∨ final.committed = after.committed) := by
    apply Ensures.bind
    apply Ensures.tryCommand
    · exact .inr ⟨rfl, kept⟩
    · exact ensures_fail.mpr (.inr ⟨rfl, kept⟩)
    · intro final isFinal
      cases isFinal
      exact ensures_fail.mpr (.inr ⟨rfl, kept⟩)
  apply Ensures.exec (.inr ⟨rfl, .inl rfl⟩)
  intro reply reached replied
  cases replied with
  | taken isApplied =>
    rw [applied] at isApplied
    cases isApplied
    exact ensures_pure.mpr (.inl ⟨rfl, rfl⟩)
  | lost isApplied =>
    rw [applied] at isApplied
    cases isApplied
    exact rolledBack (.inr rfl)
  | failed => exact rolledBack (.inl rfl)

theorem orRollback_bind {rest : Migrator Unit}
    (applied : Session.apply statement session = .ok after)
    (inside : after.committed = session.committed)
    {Post : Outcome MigrationFailure Unit → Session → Prop}
    (stopped : ∀ outcome final, outcome.isDone = false → final.committed = session.committed →
      Post outcome final)
    (continued : rest.Ensures Session.apply after Post) :
    (orRollback statement refusal >>= fun _ => rest).Ensures Session.apply session Post := by
  apply Ensures.bind
  apply (orRollback_ensures applied).mono
  rintro outcome reached (⟨rfl, rfl⟩ | ⟨notDone, unchanged⟩)
  · exact continued
  · have same : reached.committed = session.committed := by
      rcases unchanged with same | same
      · exact same
      · rw [same, inside]
    cases outcome with
    | done value => cases notDone
    | failed | crashed => exact stopped _ _ rfl same

end

/-- How the work on a list of files may end: with a part of them recorded, all of it durable, and
without an open transaction if the work is done. -/
def Recorded (store : Store) (name : String) (files : List MigrationFile)
    (outcome : Outcome MigrationFailure Unit) (final : Session) : Prop :=
  ∃ new, new.Sublist files ∧ (∀ file ∈ new, store.Untracked name file) ∧
    final.committed = store.record name new ∧ (outcome.isDone = true → final.working = none)

theorem recorded_nil {files : List MigrationFile} {outcome : Outcome MigrationFailure Unit}
    {final : Session} (same : final.committed = store)
    (closed : outcome.isDone → final.working = none) :
    Recorded store name files outcome final :=
  ⟨[], by simp, by simp, by simpa using same, closed⟩

/-- One file is applied and tracked in one transaction, or not at all. -/
theorem applyOne_ensures {file : MigrationFile} (noGuard : store.guardExists = false)
    (untracked : store.Untracked name file) :
    (applyOne name file).Ensures Session.apply ⟨store, none⟩
      (Recorded store name [file]) := by
  have stopped : ∀ outcome (final : Session), outcome.isDone = false →
      final.committed = store → Recorded store name [file] outcome final :=
    fun outcome final notDone same => recorded_nil same (by simp [notDone])
  have newKey : store.tracks name file.filename = false := by
    simpa [Store.tracks, Store.Untracked] using untracked
  let guarded : Store := { store with guardExists := true }
  let executed : Store := { guarded with effects := store.effects ++ [file] }
  have creates : Session.apply .createGuard ⟨store, some store⟩ = .ok ⟨store, some guarded⟩ := by
    simp [noGuard, guarded]
  have executes : Session.apply (.execute file) ⟨store, some guarded⟩ =
      .ok ⟨store, some executed⟩ := by
    simp [guarded, executed]
  have drops : Session.apply .dropGuard ⟨store, some executed⟩ =
      .ok ⟨store, some { executed with guardExists := false }⟩ := by
    simp [guarded, executed]
  have inserts : Session.apply (.insertTracking (trackingRow name file))
      ⟨store, some { executed with guardExists := false }⟩ =
      .ok ⟨store, some (store.record name [file])⟩ := by
    have sameKey : Store.tracks { executed with guardExists := false } name file.filename = false :=
      newKey
    simp [trackingRow, sameKey, guarded, executed, noGuard]
  apply Ensures.bind
  apply Ensures.command
  · exact stopped _ _ rfl rfl
  · exact fun _ => stopped _ _ rfl rfl
  · intro began isBegun
    cases isBegun
    apply orRollback_bind creates rfl stopped
    apply orRollback_bind executes rfl stopped
    apply orRollback_bind drops rfl stopped
    apply orRollback_bind inserts rfl stopped
    apply (orRollback_ensures rfl).mono
    rintro outcome final (⟨rfl, rfl⟩ | ⟨notDone, same | same⟩)
    · exact ⟨[file], by simp, by simpa using untracked, rfl, fun _ => rfl⟩
    · exact stopped _ _ notDone same
    · exact ⟨[file], by simp, by simpa using untracked, same, by simp [notDone]⟩
  · intro detail began isBegun
    cases isBegun
    exact stopped _ _ rfl rfl

/-- A file that is tracked already is not applied again. -/
theorem runFile_ensures {file : MigrationFile} (noGuard : store.guardExists = false) :
    (runFile name file).Ensures Session.apply ⟨store, none⟩
      (Recorded store name [file]) := by
  apply Ensures.readBind
  · exact recorded_nil rfl fun _ => rfl
  · exact fun _ => recorded_nil rfl fun _ => rfl
  · cases isApplied : store.appliedChecksum? name file.filename with
    | none =>
      exact applyOne_ensures noGuard
        (by simpa [Store.appliedChecksum?, Store.Untracked] using isApplied)
    | some stored =>
      dsimp only
      split
      · exact ensures_pure.mpr (recorded_nil rfl fun _ => rfl)
      · exact ensures_fail.mpr (recorded_nil rfl fun _ => rfl)

/-- The files are applied in order, up to the one that stops the run. -/
theorem eachFile_ensures (noGuard : store.guardExists = false) :
    (each (fun file : DiscoveredFile => runFile name file.toMigrationFile) files).Ensures
      Session.apply ⟨store, none⟩
        (Recorded store name (files.map DiscoveredFile.toMigrationFile)) := by
  induction files generalizing store with
  | nil => exact ensures_pure.mpr (recorded_nil rfl fun _ => rfl)
  | cons file files ih =>
    apply Ensures.bind
    apply (runFile_ensures noGuard).mono
    rintro outcome ⟨committed, working⟩ ⟨new, isPart, untracked, rfl, closed⟩
    have listed : new.Sublist (file.toMigrationFile :: files.map DiscoveredFile.toMigrationFile) :=
      isPart.trans (by simp)
    cases outcome with
    | failed | crashed => exact ⟨new, listed, untracked, rfl, by simp [Outcome.isDone]⟩
    | done value =>
      cases closed rfl
      apply (@ih (store.record name new) noGuard).mono
      rintro outcome final ⟨later, isLater, alsoUntracked, isFinal, closed⟩
      refine ⟨new ++ later, isPart.append isLater, ?_, ?_, closed⟩
      · intro other mem
        rcases mem_append.mp mem with old | next
        · exact untracked other old
        · exact fun row stored => alsoUntracked other next row (by simp [stored])
      · simp [isFinal]

/-- Without duplicates the sorted sequence numbers increase. -/
theorem isChain_of_detectDuplicate
    (sorted : files.IsChain fun first second => first.sequence ≤ second.sequence)
    (distinct : detectDuplicate files = none) :
    files.IsChain fun first second => first.sequence < second.sequence := by
  fun_induction detectDuplicate files with
  | case1 => cases distinct
  | case2 first second rest different ih =>
    rw [isChain_cons_cons] at sorted ⊢
    exact ⟨lt_of_le_of_ne sorted.1 (Ne.symm different), ih sorted.2 distinct⟩
  | case3 files short =>
    match files, short with
    | [], _ => exact .nil
    | [file], _ => exact .singleton file
    | first :: second :: rest, short => exact absurd rfl (short first second rest)

theorem pairwise_of_detectDuplicate (built : List DiscoveredFile)
    (distinct : detectDuplicate (built.insertionSort fun first second =>
      first.sequence ≤ second.sequence) = none) :
    (built.insertionSort fun first second => first.sequence ≤ second.sequence).Pairwise
      fun first second => first.sequence < second.sequence := by
  let AtMost := fun first second : DiscoveredFile => first.sequence ≤ second.sequence
  let Before := fun first second : DiscoveredFile => first.sequence < second.sequence
  have total : Std.Total AtMost := ⟨fun _ _ => Nat.le_total _ _⟩
  have trans : IsTrans DiscoveredFile AtMost := ⟨fun _ _ _ => Nat.le_trans⟩
  have strict : Trans Before Before Before := ⟨Nat.lt_trans⟩
  have sorted := pairwise_insertionSort AtMost built
  exact isChain_iff_pairwise.mp (isChain_of_detectDuplicate sorted.isChain distinct)

theorem buildMigrationFile_ok {entry : DirectoryEntry} {file : DiscoveredFile}
    (built : buildMigrationFile tools entry = .ok (some file)) :
    parseMigrationFilename file.filename = some file.sequence := by
  simp only [buildMigrationFile] at built
  split at built
  · cases built
  split at built
  · split at built <;> cases built
  rename_i sequence parsed
  split at built <;> cases built
  exact parsed

theorem buildMigrationFiles_ok {entries : List DirectoryEntry}
    (built : buildMigrationFiles tools entries = .ok files) :
    ∀ file ∈ files, parseMigrationFilename file.filename = some file.sequence := by
  induction entries generalizing files with
  | nil =>
    cases built
    simp
  | cons entry entries ih =>
    rcases bind_eq_ok.mp built with ⟨first, isFirst, built⟩
    rcases bind_eq_ok.mp built with ⟨rest, isRest, ⟨⟩⟩
    intro file mem
    rcases mem_append.mp mem with mem | mem
    · cases first with
      | none => cases mem
      | some built =>
        rw [mem_singleton.mp mem]
        exact buildMigrationFile_ok isFirst
    · exact ih isRest file mem

/-- What is discovered is in order and named as its number says. -/
theorem discoverMigrations_ok {directory : Directory}
    (found : discoverMigrations tools directory = .ok files) :
    (files.Pairwise fun first second => first.sequence < second.sequence) ∧
      ∀ file ∈ files, parseMigrationFilename file.filename = some file.sequence := by
  cases directory with
  | absent =>
    cases found
    simp
  | unreadable message => cases found
  | listed entries =>
    rcases bind_eq_ok.mp found with ⟨built, isBuilt, found⟩
    dsimp only at found
    split at found
    · cases found
    · cases found
    · rename_i distinct _
      cases found
      refine ⟨pairwise_of_detectDuplicate built distinct, ?_⟩
      intro file mem
      exact buildMigrationFiles_ok isBuilt file (mem_insertionSort _ |>.mp mem)

/-- The sequence number is the number in the name, wrapped to 64 bits. -/
theorem sequence_eq_version {filename : String} {sequence : Nat}
    (parsed : parseMigrationFilename filename = some sequence) :
    sequence = version filename % 2 ^ 64 := by
  simp only [parseMigrationFilename, Option.map_eq_some_iff] at parsed
  rcases parsed with ⟨digits, isDigits, rfl⟩
  simp [version, isDigits, readUInt64_eq_number]

/-- A run of the migrations of a package, or a teardown, under the answers of the environment. -/
inductive Event where
  | run (directory : Directory) (answers : List Answer)
  | drop (answers : List Answer)

/-- What is committed after an event, which starts without an open transaction: the database rolls
back what a stopped run leaves open, and with one the first query fails. -/
def Store.after (tools : Tools) (name : String) (store : Store) : Event → Store
  | .run directory answers =>
    ((runMigrations tools name directory).run Session.apply answers ⟨store, none⟩).state.committed
  | .drop answers =>
    ((dropSchemaAndMigrations name).run Session.apply answers ⟨store, none⟩).state.committed

def history (tools : Tools) (name : String) : TransitionSystem Store Event where
  initial store := store = ⟨[], [], false⟩
  step store event next := next = store.after tools name event

/-- A whole run commits a start of the discovered files, or nothing. -/
theorem runMigrations_ensures (tools : Tools) (name : String) (directory : Directory)
    (noGuard : store.guardExists = false) :
    (runMigrations tools name directory).Ensures Session.apply ⟨store, none⟩ fun _ final =>
      final.committed = store ∨ ∃ files, discoverMigrations tools directory = .ok files ∧
        ∃ new, new.Sublist (files.map DiscoveredFile.toMigrationFile) ∧
          (∀ file ∈ new, store.Untracked name file) ∧ final.committed = store.record name new := by
  apply Ensures.readBind
  · exact .inl rfl
  · exact fun _ => .inl rfl
  apply Ensures.bind
  apply (orRollback_ensures rfl).mono
  rintro outcome reached (⟨rfl, rfl⟩ | ⟨notDone, same⟩)
  · cases found : discoverMigrations tools directory with
    | error failure =>
      apply Ensures.bind
      exact ensures_fail.mpr (.inl rfl)
    | ok files =>
      apply Ensures.bind
      apply ensures_pure.mpr
      apply (eachFile_ensures noGuard).mono
      rintro outcome final ⟨new, isPart, untracked, isFinal, -⟩
      exact .inr ⟨files, rfl, new, isPart, untracked, isFinal⟩
  · have unchanged : reached.committed = store := same.elim id id
    cases outcome with
    | done value => cases notDone
    | failed | crashed => exact .inl unchanged

/-- The order of two files by the numbers at the start of their names, up to 64 bits. -/
def Earlier (first second : MigrationFile) : Prop :=
  version first.filename < 2 ^ 64 → version second.filename < 2 ^ 64 →
    version first.filename < version second.filename

theorem discoverMigrations_order {directory : Directory}
    (found : discoverMigrations tools directory = .ok files) :
    (files.map DiscoveredFile.toMigrationFile).Pairwise fun first second =>
      Earlier first second ∧ first.filename ≠ second.filename := by
  rcases discoverMigrations_ok found with ⟨sorted, parsed⟩
  rw [pairwise_map]
  refine sorted.imp_of_mem ?_
  intro first second isFirst isSecond before
  have isSequence := sequence_eq_version (parsed first isFirst)
  have alsoSequence := sequence_eq_version (parsed second isSecond)
  constructor
  · intro small alsoSmall
    rw [Nat.mod_eq_of_lt small] at isSequence
    rw [Nat.mod_eq_of_lt alsoSmall] at alsoSequence
    omega
  · intro same
    rw [same, ← alsoSequence] at isSequence
    omega

/-- Between two events the files in the schema are the recorded ones, once each. -/
structure Store.Sound (store : Store) (name : String) : Prop where
  noGuard : store.guardExists = false
  tracked : store.tracking = store.effects.map (trackingRow name)
  once : (store.effects.map MigrationFile.filename).Nodup

/-- A run extends the history by files of its directory. -/
theorem after_run (tools : Tools) (sound : store.Sound name) (directory : Directory)
    (answers : List Answer) :
    ∃ new, store.after tools name (.run directory answers) = store.record name new ∧
      (new.Pairwise fun first second => Earlier first second ∧ first.filename ≠ second.filename) ∧
      ∀ file ∈ new, store.Untracked name file := by
  rcases (runMigrations_ensures tools name directory sound.noGuard).holds answers with
    same | ⟨files, found, new, isPart, untracked, isFinal⟩
  · exact ⟨[], by rw [Store.record_nil]; exact same, .nil, by simp⟩
  · exact ⟨new, isFinal, (discoverMigrations_order found).sublist isPart, untracked⟩

/-- Every event keeps the tracking table in step with the effects. -/
theorem Store.Sound.after (sound : store.Sound name) (event : Event) :
    (store.after tools name event).Sound name := by
  cases event with
  | run directory answers =>
    rcases after_run tools sound directory answers with ⟨new, isAfter, ordered, untracked⟩
    rw [isAfter]
    refine ⟨sound.noGuard, by simp [record, sound.tracked], ?_⟩
    simp only [record, map_append]
    refine nodup_append'.mpr ⟨sound.once, ?_, ?_⟩
    · exact pairwise_map.mpr (ordered.imp And.right)
    · intro filename isOld isNew
      rcases mem_map.mp isNew with ⟨file, isFile, rfl⟩
      rcases mem_map.mp isOld with ⟨old, isEffect, same⟩
      refine untracked file isFile (trackingRow name old) ?_ ⟨rfl, same⟩
      rw [sound.tracked]
      exact mem_map_of_mem isEffect
  | drop answers =>
    have dropped : (dropSchemaAndMigrations name).Ensures Session.apply ⟨store, none⟩
        fun _ final => final.committed.Sound name := by
      apply (orRollback_ensures rfl).mono
      have empty : Store.Sound { store with effects := [], tracking := [] } name :=
        ⟨sound.noGuard, rfl, .nil⟩
      rintro outcome final (⟨-, rfl⟩ | ⟨-, same | same⟩)
      · exact empty
      · rw [same]
        exact sound
      · rw [same]
        exact empty
    exact dropped.holds answers

theorem history_sound (reachable : (history tools name).Reachable store) : store.Sound name := by
  refine TransitionSystem.Reachable.invariant (fun store => store.Sound name) ?_ ?_ reachable
  · rintro store rfl
    exact ⟨rfl, rfl, .nil⟩
  · rintro store event next sound rfl
    exact sound.after event

/-- The package lifecycle's migrations, over files without a row. -/
theorem applyMigrations_new {db : ExtensionSchemas} {new : List MigrationFile}
    {applied : List String} (schema : db.schemas name = some applied)
    (once : (new.map MigrationFile.filename).Nodup)
    (untracked : ∀ file ∈ new, db.appliedChecksum? name file.filename = none) :
    ∃ next, ExtensionSchemas.applyMigrations name db new = .ok next ∧
      next.schemas name = some (applied ++ new.map MigrationFile.contents) ∧
      next.migrations = db.migrations ++ new.map (trackingRow name) := by
  induction new generalizing db applied with
  | nil => exact ⟨db, rfl, by simpa using schema, by simp⟩
  | cons file new ih =>
    rw [map_cons, nodup_cons] at once
    have later : ∀ other ∈ new,
        (db.applyOne name file).appliedChecksum? name other.filename = none := by
      intro other mem
      have different : file.filename ≠ other.filename :=
        fun same => once.1 (same ▸ mem_map_of_mem mem)
      simpa [ExtensionSchemas.appliedChecksum?, ExtensionSchemas.applyOne, different]
        using untracked other (mem_cons_of_mem _ mem)
    have extended : (db.applyOne name file).schemas name = some (applied ++ [file.contents]) := by
      simp [ExtensionSchemas.schemas, ExtensionSchemas.applyOne, ← schema]
    rcases ih extended once.2 later with ⟨next, applies, schemas, rows⟩
    refine ⟨next, ?_, by simpa using schemas,
      by simpa [trackingRow, ExtensionSchemas.applyOne] using rows⟩
    rw [ExtensionSchemas.applyMigrations, untracked file mem_cons_self]
    exact applies

/-- Whatever fails in a history of runs and teardowns, it leaves what one run of the lifecycle's
database leaves over the files that took effect, from an empty schema. -/
theorem history_refines_database {db : ExtensionSchemas}
    (reachable : (history tools name).Reachable store)
    (schema : db.schemas name = some [])
    (untracked : ∀ row ∈ db.migrations, row.extensionName ≠ name) :
    ∃ next, ExtensionSchemas.applyMigrations name db store.effects = .ok next ∧
      next.schemas name = some (store.effects.map MigrationFile.contents) ∧
      next.migrations = db.migrations ++ store.tracking := by
  have sound := history_sound reachable
  rw [sound.tracked]
  refine applyMigrations_new schema sound.once ?_
  intro file mem
  simp_all [ExtensionSchemas.appliedChecksum?]

/-- Two runs, with a file added between them below a recorded one. -/
def sampleTools : Tools := ⟨id, fun _ => none⟩

def sampleEntry : DirectoryEntry := ⟨filename, true, .ok filename⟩

def sampleDirectory (filenames : List String) : Directory := .listed (filenames.map sampleEntry)

def sampleStore : Store :=
  (Store.after sampleTools "notes" ⟨[], [], false⟩
    (.run (sampleDirectory ["1_a.sql", "3_c.sql"]) [])).after sampleTools "notes"
      (.run (sampleDirectory ["1_a.sql", "2_b.sql", "3_c.sql"]) [])

theorem sampleStore_reachable : (history sampleTools "notes").Reachable sampleStore :=
  ⟨_, _, rfl, .step (.step (.refl _) rfl) rfl⟩

def sampleSchemas : ExtensionSchemas where
  namespaces := Function.update (fun _ => none) (createdSchema "notes") (some [])
  credentials := ["notes"]
  migrations := []
  folded schema isThere := by
    rcases eq_or_ne schema (createdSchema "notes") with rfl | apart
    · exact map_toLower_createdSchema (by decide)
    · simp [apart] at isThere

theorem sampleStore_refines : ∃ db next,
    ExtensionSchemas.applyMigrations "notes" db sampleStore.effects = .ok next := by
  have refines := @history_refines_database _ _ _ sampleSchemas sampleStore_reachable rfl
    (by simp [sampleSchemas])
  exact ⟨_, refines.imp fun _ => And.left⟩

end Migrations

end Plinth.Packages
