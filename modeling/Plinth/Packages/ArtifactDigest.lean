import Plinth.Core.Filesystem
import Plinth.Core.PrefixCode
import Plinth.Packages.RestoreJson

/-!
# Digests of artifacts

The files and directories of an installed artifact have one digest, which a restore policy names.
The records are checked against the limits of an inventory, sorted by their paths, checked for
repeated paths and for parents that are no directories, and hashed one after the other.
-/

namespace Plinth.Packages.Restore

open Core Core.JsonText List
open Core.Path (slash)

structure Sha256 where
  hash : Bytes → Bytes
  length : ∀ message, (hash message).length = 32

def hexText (bytes : Bytes) : Bytes :=
  bytes.flatMap fun c => [hexByte (c.toNat / 16), hexByte (c.toNat % 16)]

def hashDomain (value : Bytes) : Bytes := value ++ [0, 0, 0, 0, 1]

inductive ArtifactKind where
  | directory
  | regular
  deriving DecidableEq

def ArtifactKind.byte : ArtifactKind → UInt8
  | .directory => 1
  | .regular => 2

structure ArtifactRecord where
  kind : ArtifactKind := .regular
  path : Bytes
  mode : UInt32 := 0
  content : Bytes

def inventoryMaxRecords : ℕ := 4096

def inventoryMaxComponents : ℕ := 32

def inventoryPathMaxBytes : ℕ := 1024

def inventoryMetadataMaxBytes : ℕ := 1024 * 1024

def inventoryContentMaxBytes : ℕ := 50 * 1024 * 1024

def artifactDomain : Bytes := utf8 "plinth.restore.artifact"

def validateComponents (components : ℕ) (path : Bytes) : Except CodecError Unit :=
  if path.isEmpty then .ok ()
  else
    let component : Name := path.takeWhile (· != slash)
    if component = [] ∨ component = Name.dot ∨ component = Name.dotDot then
      .error .invalidInventory
    else if inventoryMaxComponents < components + 1 then .error .limitExceeded
    else
      match isRest : path.dropWhile (· != slash) with
      | [] => .ok ()
      | _ :: rest => validateComponents (components + 1) rest
termination_by path.length
decreasing_by
  have shorter := (dropWhile_sublist (l := path) (· != slash)).length_le
  rw [isRest, length_cons] at shorter
  omega

def allowedPathByte (c : UInt8) : Bool := !(c < 0x20 || c = 0x7f || c = backslash)

def validatePath (path : Bytes) : Except CodecError Unit :=
  if inventoryPathMaxBytes < path.length then .error .limitExceeded
  else if path.isEmpty || path.head? = some slash || path.getLast? = some slash ||
      !isUnicode path then
    .error .invalidInventory
  else if !path.all allowedPathByte then .error .invalidInventory
  else validateComponents 0 path

def addBounded (total amount cap : ℕ) : Except CodecError ℕ :=
  if cap - total < amount then .error .limitExceeded else .ok (total + amount)

def addContent (cap content : ℕ) (record : ArtifactRecord) : Except CodecError ℕ :=
  match record.kind with
  | .directory => if record.content.isEmpty then .ok content else .error .invalidInventory
  | .regular => addBounded content record.content.length cap

def addMetadata (metadata : ℕ) (record : ArtifactRecord) : Except CodecError ℕ := do
  let metadata ← addBounded metadata (1 + 4 + 4) inventoryMetadataMaxBytes
  let metadata ← addBounded metadata record.path.length inventoryMetadataMaxBytes
  match record.kind with
  | .directory => return metadata
  | .regular => addBounded metadata 8 inventoryMetadataMaxBytes

def validateRecord (contentCap metadata content : ℕ) (record : ArtifactRecord) :
    Except CodecError (ℕ × ℕ) := do
  validatePath record.path
  if 0o777 < record.mode then throw .invalidInventory
  let content ← addContent contentCap content record
  let metadata ← addMetadata metadata record
  return (metadata, content)

/-- The records one after the other, with the sizes counted so far. -/
def validateRecordsFrom (contentCap : ℕ) : ℕ → ℕ → List ArtifactRecord → Except CodecError Unit
  | _, _, [] => .ok ()
  | metadata, content, record :: records => do
      let (metadata, content) ← validateRecord contentCap metadata content record
      validateRecordsFrom contentCap metadata content records

def validateRecords (contentCap : ℕ) (records : List ArtifactRecord) : Except CodecError Unit :=
  if inventoryMaxRecords < records.length then .error .limitExceeded
  else validateRecordsFrom contentCap (artifactDomain.length + 1 + 4 + 4) 0 records

def sortRecords (records : List ArtifactRecord) : List ArtifactRecord :=
  records.insertionSort (Bytes.LeBy ArtifactRecord.path)

def parentPath (path : Bytes) : Option Bytes :=
  match path.reverse.dropWhile (· != slash) with
  | [] => none
  | _ :: front => some front.reverse

theorem slash_not_mem_takeWhile (text : Bytes) : slash ∉ text.takeWhile (· != slash) := by
  intro mem
  simpa using all_eq_true.mp (all_takeWhile (p := (· != slash))) slash mem

variable {path : Bytes} {record : ArtifactRecord} {records : List ArtifactRecord}

/-- A path is its parent, a slash and a name. -/
theorem eq_append_of_parentPath {parent : Bytes} (isParent : parentPath path = some parent) :
    ∃ name, slash ∉ name ∧ path = parent ++ slash :: name := by
  rw [parentPath] at isParent
  cases isRest : path.reverse.dropWhile (· != slash) with
  | nil => simp [isRest] at isParent
  | cons separator front =>
    have isSlash : separator = slash := by
      have head := head?_dropWhile_not (· != slash) path.reverse
      simpa [isRest] using head
    have cut := takeWhile_append_dropWhile (p := (· != slash)) (l := path.reverse)
    have noSlash := slash_not_mem_takeWhile path.reverse
    simp only [isRest, Option.some.injEq] at isParent
    refine ⟨(path.reverse.takeWhile (· != slash)).reverse, by simpa using noSlash, ?_⟩
    rw [isRest, isSlash] at cut
    rw [← isParent, ← reverse_inj]
    simpa using cut.symm

theorem slash_not_mem_of_parentPath (isNone : parentPath path = none) : slash ∉ path := by
  rw [parentPath] at isNone
  cases isRest : path.reverse.dropWhile (· != slash) with
  | nil =>
    have cut := takeWhile_append_dropWhile (p := (· != slash)) (l := path.reverse)
    rw [isRest, append_nil] at cut
    rw [← mem_reverse, ← cut]
    exact slash_not_mem_takeWhile path.reverse
  | cons separator front => simp [isRest] at isNone

def hasDirectory (sorted : List ArtifactRecord) (path : Bytes) : Bool :=
  (Bytes.lowerBound ArtifactRecord.path sorted path).any fun found =>
    found.path = path && found.kind = .directory

def parentsPresent (sorted : List ArtifactRecord) (path : Bytes) : Bool :=
  match _isParent : parentPath path with
  | none => true
  | some parent => hasDirectory sorted parent && parentsPresent sorted parent
termination_by path.length
decreasing_by
  rcases eq_append_of_parentPath _isParent with ⟨name, -, rfl⟩
  simp

/-- The sorted records one after the other, with the path of the one before. -/
def checkSorted (sorted : List ArtifactRecord) : Bytes → List ArtifactRecord → Bool
  | _, [] => true
  | previous, record :: records =>
    record.path ≠ previous && parentsPresent sorted record.path &&
      checkSorted sorted record.path records

def recordText (record : ArtifactRecord) : Bytes :=
  record.kind.byte :: framed 4 record.path ++ bigEndian 4 record.mode.toNat ++
    match record.kind with
    | .directory => []
    | .regular => framed 8 record.content

def artifactText (sorted : List ArtifactRecord) : Bytes :=
  hashDomain artifactDomain ++ bigEndian 4 sorted.length ++ sorted.flatMap recordText

def Sha256.artifactDigest (sha : Sha256) (records : List ArtifactRecord) (contentByteCap : ℕ) :
    Except CodecError Bytes := do
  validateRecords (min contentByteCap inventoryContentMaxBytes) records
  let sorted := sortRecords records
  if checkSorted sorted [] sorted then
    return hexText (sha.hash (artifactText sorted))
  else throw .invalidInventory

structure ValidPath (path : Bytes) : Prop where
  short : path.length ≤ inventoryPathMaxBytes
  notNil : path ≠ []
  relative : path.head? ≠ some slash
  named : path.getLast? ≠ some slash
  unicode : isUnicode path = true
  bytes : ∀ c ∈ path, allowedPathByte c = true
  components : ∀ name ∈ Path.components path, name.Plain
  shallow : (Path.components path).length ≤ inventoryMaxComponents

/-- The loop over the components accepts few and plain ones. -/
theorem validateComponents_eq_ok_iff {seen : ℕ} (few : seen ≤ inventoryMaxComponents) :
    validateComponents seen path = .ok () ↔
      (∀ name ∈ Path.components path, name.Plain) ∧
        seen + (Path.components path).length ≤ inventoryMaxComponents := by
  fun_induction validateComponents seen path with
  | case1 seen path isNil =>
    rw [List.isEmpty_iff.mp isNil]
    simpa [Path.components] using few
  | case2 seen path notNil component refused =>
    rw [Path.components_cut path (by simpa using notNil)]
    simp only [reduceCtorEq, false_iff]
    rintro ⟨plain, -⟩
    have isPlain := plain component mem_cons_self
    rcases refused with isNil | isDot | isDotDot
    · exact isPlain.1 isNil
    · exact isPlain.2.1 isDot
    · exact isPlain.2.2 isDotDot
  | case3 seen path notNil component accepted many =>
    rw [Path.components_cut path (by simpa using notNil)]
    simp only [reduceCtorEq, false_iff, length_cons]
    rintro ⟨-, few⟩
    omega
  | case4 seen path notNil component accepted few' isRest =>
    rw [Path.components_cut path (by simpa using notNil), isRest]
    simp only [not_or] at accepted
    simp only [mem_singleton, forall_eq, length_singleton, true_iff]
    exact ⟨accepted, by omega⟩
  | case5 seen path notNil component accepted few' separator rest isRest ih =>
    rw [Path.components_cut path (by simpa using notNil), isRest, ih (by omega)]
    simp only [not_or] at accepted
    simp only [forall_mem_cons, length_cons]
    constructor
    · rintro ⟨plain, few⟩
      exact ⟨⟨accepted, plain⟩, by omega⟩
    · rintro ⟨⟨-, plain⟩, few⟩
      exact ⟨plain, by omega⟩

/-- Exactly the valid paths pass. -/
theorem validatePath_eq_ok_iff : validatePath path = .ok () ↔ ValidPath path := by
  simp only [validatePath, guard_eq_ok, validateComponents_eq_ok_iff (Nat.zero_le _), Nat.zero_add,
    not_lt, Bool.or_eq_true, List.isEmpty_iff, decide_eq_true_eq, Bool.not_eq_true', not_or,
    Bool.not_eq_false, all_eq_true]
  constructor
  · rintro ⟨short, ⟨⟨⟨notNil, relative⟩, named⟩, unicode⟩, bytes, components, shallow⟩
    exact ⟨short, notNil, relative, named, unicode, bytes, components, shallow⟩
  · rintro ⟨short, notNil, relative, named, unicode, bytes, components, shallow⟩
    exact ⟨short, ⟨⟨⟨notNil, relative⟩, named⟩, unicode⟩, bytes, components, shallow⟩

theorem addBounded_eq_ok_iff {total amount cap sum : ℕ} :
    addBounded total amount cap = .ok sum ↔ amount ≤ cap - total ∧ total + amount = sum := by
  rw [addBounded, guard_eq_ok, not_lt, Except.ok.injEq]

@[simp]
def ArtifactRecord.contentSize (record : ArtifactRecord) : ℕ :=
  match record.kind with
  | .directory => 0
  | .regular => record.content.length

def ArtifactRecord.metadataSize (record : ArtifactRecord) : ℕ :=
  match record.kind with
  | .directory => 9 + record.path.length
  | .regular => 17 + record.path.length

open ArtifactRecord (contentSize metadataSize)

structure ArtifactRecord.Valid (record : ArtifactRecord) : Prop where
  path : ValidPath record.path
  mode : record.mode ≤ 0o777
  content : record.kind = .directory → record.content = []

theorem addContent_eq_ok_iff {cap content sum : ℕ} (inside : content ≤ cap) :
    addContent cap content record = .ok sum ↔
      (record.kind = .directory → record.content = []) ∧ content + record.contentSize ≤ cap ∧
        sum = content + record.contentSize := by
  rcases record with ⟨kind, path, mode, text⟩
  cases kind with
  | regular =>
    simp [addContent, addBounded_eq_ok_iff]
    omega
  | directory =>
    cases text with
    | nil => simp [addContent, inside, eq_comm]
    | cons c text => simp [addContent]

theorem addMetadata_eq_ok_iff {metadata sum : ℕ} (inside : metadata ≤ inventoryMetadataMaxBytes) :
    addMetadata metadata record = .ok sum ↔
      metadata + record.metadataSize ≤ inventoryMetadataMaxBytes ∧
        sum = metadata + record.metadataSize := by
  cases isKind : record.kind with
  | directory | regular =>
    simp only [addMetadata, metadataSize, isKind, bind_eq_ok, addBounded_eq_ok_iff,
      and_assoc, exists_and_left, exists_eq_left', pure, Except.pure, Except.ok.injEq]
    omega

theorem validateRecord_eq_ok_iff {contentCap metadata content : ℕ} {sizes : ℕ × ℕ}
    (metadataInside : metadata ≤ inventoryMetadataMaxBytes) (contentInside : content ≤ contentCap) :
    validateRecord contentCap metadata content record = .ok sizes ↔
      record.Valid ∧ content + record.contentSize ≤ contentCap ∧
        metadata + record.metadataSize ≤ inventoryMetadataMaxBytes ∧
        sizes = (metadata + record.metadataSize, content + record.contentSize) := by
  rw [validateRecord, bind_eq_ok]
  constructor
  · rintro ⟨⟨⟩, isPath, rest⟩
    split at rest
    case isTrue => cases rest
    case isFalse small =>
    rcases bind_eq_ok.mp rest with ⟨total, isContent, rest⟩
    rcases bind_eq_ok.mp rest with ⟨sum, isMetadata, same⟩
    rcases (addContent_eq_ok_iff contentInside).mp isContent with ⟨noContent, contentFits, rfl⟩
    rcases (addMetadata_eq_ok_iff metadataInside).mp isMetadata with ⟨metadataFits, rfl⟩
    cases same
    exact ⟨⟨validatePath_eq_ok_iff.mp isPath, UInt32.not_lt.mp small, noContent⟩, contentFits,
      metadataFits, rfl⟩
  · rintro ⟨valid, contentFits, metadataFits, rfl⟩
    refine ⟨(), validatePath_eq_ok_iff.mpr valid.path, ?_⟩
    rw [if_neg (UInt32.not_lt.mpr valid.mode), bind_eq_ok]
    refine ⟨_, (addContent_eq_ok_iff contentInside).mpr ⟨valid.content, contentFits, rfl⟩, ?_⟩
    rw [bind_eq_ok]
    exact ⟨_, (addMetadata_eq_ok_iff metadataInside).mpr ⟨metadataFits, rfl⟩, rfl⟩

/-- The loop over the records accepts valid paths within the limits. -/
theorem validateRecordsFrom_eq_ok_iff {contentCap metadata content : ℕ}
    (metadataInside : metadata ≤ inventoryMetadataMaxBytes) (contentInside : content ≤ contentCap) :
    validateRecordsFrom contentCap metadata content records = .ok () ↔
      (∀ record ∈ records, record.Valid) ∧
        content + (records.map contentSize).sum ≤ contentCap ∧
        metadata + (records.map metadataSize).sum ≤ inventoryMetadataMaxBytes := by
  induction records generalizing metadata content with
  | nil => simp [validateRecordsFrom, metadataInside, contentInside]
  | cons record records ih =>
    rw [validateRecordsFrom, bind_eq_ok, forall_mem_cons, map_cons, map_cons, sum_cons, sum_cons]
    constructor
    · rintro ⟨sizes, isRecord, rest⟩
      rcases (validateRecord_eq_ok_iff metadataInside contentInside).mp isRecord with
        ⟨valid, contentFits, metadataFits, rfl⟩
      rcases (ih metadataFits contentFits).mp rest with ⟨laterValid, laterContent, laterMetadata⟩
      exact ⟨⟨valid, laterValid⟩, by omega, by omega⟩
    · rintro ⟨⟨valid, laterValid⟩, contentFits, metadataFits⟩
      have recordContent : content + record.contentSize ≤ contentCap := by omega
      have recordMetadata : metadata + record.metadataSize ≤ inventoryMetadataMaxBytes := by
        omega
      refine ⟨_, (validateRecord_eq_ok_iff metadataInside contentInside).mpr
        ⟨valid, recordContent, recordMetadata, rfl⟩, ?_⟩
      exact (ih recordMetadata recordContent).mpr ⟨laterValid, by omega, by omega⟩

section Sorted

variable {sorted records : List ArtifactRecord}

theorem parentsPresent_iff {path : Bytes} :
    parentsPresent sorted path ↔
      ∀ parent rest, path = parent ++ slash :: rest → hasDirectory sorted parent := by
  fun_induction parentsPresent sorted path with
  | case1 path isNone =>
    have noSlash := slash_not_mem_of_parentPath isNone
    simp only [true_iff]
    rintro parent rest rfl
    simp at noSlash
  | case2 path parent isParent ih =>
    rcases eq_append_of_parentPath isParent with ⟨name, noSlash, rfl⟩
    rw [Bool.and_eq_true, ih]
    constructor
    · rintro ⟨present, earlier⟩ other rest same
      -- another slash stands before the last one
      rcases append_eq_append_iff.mp same with
        ⟨middle, rfl, isName⟩ | ⟨middle, rfl, isRest⟩
      · cases middle with
        | nil => simpa using present
        | cons separator middle =>
          rw [cons_append, List.cons.injEq] at isName
          simp [isName.2] at noSlash
      · cases middle with
        | nil => simpa using present
        | cons separator middle =>
          rw [cons_append, List.cons.injEq] at isRest
          exact earlier other middle (by rw [isRest.1])
    · intro all
      refine ⟨all parent name rfl, ?_⟩
      rintro other rest rfl
      exact all other (rest ++ slash :: name) (by simp)

/-- In a sorted inventory the search finds every directory. -/
theorem hasDirectory_iff (inOrder : sorted.Pairwise (Bytes.LeBy ArtifactRecord.path))
    (unique : (sorted.map ArtifactRecord.path).Nodup) {path : Bytes} :
    hasDirectory sorted path ↔
      ∃ directory ∈ sorted, directory.path = path ∧ directory.kind = .directory := by
  constructor
  · intro present
    rcases (Option.any_eq_true _ _).mp present with ⟨found, isFound, matched⟩
    simp only [Bool.and_eq_true, decide_eq_true_eq] at matched
    exact ⟨found, Bytes.mem_of_lowerBound isFound, matched⟩
  · rintro ⟨directory, mem, rfl, isDirectory⟩
    rw [hasDirectory, Bytes.lowerBound_eq_of_mem inOrder unique mem]
    simp [isDirectory]

/-- The second loop accepts distinct paths whose parents are directories. -/
theorem checkSorted_iff {previous : Bytes}
    (inOrder : (previous :: records.map ArtifactRecord.path).Pairwise Bytes.Le) :
    checkSorted sorted previous records ↔
      (previous :: records.map ArtifactRecord.path).Nodup ∧
        ∀ record ∈ records, parentsPresent sorted record.path := by
  induction records generalizing previous with
  | nil => simp [checkSorted]
  | cons record records ih =>
    rw [map_cons, pairwise_cons] at inOrder
    rw [checkSorted, Bool.and_eq_true, Bool.and_eq_true, ih inOrder.2, decide_eq_true_eq,
      forall_mem_cons, map_cons]
    constructor
    · rintro ⟨⟨different, present⟩, unique, later⟩
      refine ⟨nodup_cons.mpr ⟨?_, unique⟩, present, later⟩
      intro mem
      rcases mem_cons.mp mem with same | mem
      · exact different same.symm
      · have forward := inOrder.1 record.path mem_cons_self
        have backward := (pairwise_cons.mp inOrder.2).1 previous mem
        exact different (backward.antisymm forward)
    · rintro ⟨unique, present, later⟩
      rw [nodup_cons] at unique
      exact ⟨⟨fun same => unique.1 (same ▸ mem_cons_self), present⟩, unique.2, later⟩

end Sorted

/-- An artifact: valid paths, none of them twice, and every parent of a path a directory. -/
structure Inventory (records : List ArtifactRecord) : Prop where
  paths : ∀ record ∈ records, ValidPath record.path
  unique : (records.map ArtifactRecord.path).Nodup
  parents : ∀ record ∈ records, ∀ parent rest, record.path = parent ++ slash :: rest →
    ∃ directory ∈ records, directory.path = parent ∧ directory.kind = .directory

structure WithinLimits (contentByteCap : ℕ) (records : List ArtifactRecord) : Prop where
  count : records.length ≤ inventoryMaxRecords
  modes : ∀ record ∈ records, record.mode ≤ 0o777
  directories : ∀ record ∈ records, record.kind = .directory → record.content = []
  content : (records.map contentSize).sum ≤
    min contentByteCap inventoryContentMaxBytes
  metadata : 32 + (records.map metadataSize).sum ≤ inventoryMetadataMaxBytes

/-- What the first loop accepts, from the start. -/
theorem validateRecords_eq_ok_iff {contentByteCap : ℕ} :
    validateRecords (min contentByteCap inventoryContentMaxBytes) records = .ok () ↔
      (∀ record ∈ records, ValidPath record.path) ∧ WithinLimits contentByteCap records := by
  have header : artifactDomain.length + 1 + 4 + 4 = 32 := by decide +kernel
  rw [validateRecords, header]
  split
  case isTrue many =>
    simp only [reduceCtorEq, false_iff]
    rintro ⟨-, within⟩
    have few := within.count
    omega
  case isFalse few =>
    rw [validateRecordsFrom_eq_ok_iff (by decide) (Nat.zero_le _), Nat.zero_add]
    constructor
    · rintro ⟨valid, content, metadata⟩
      exact ⟨fun record mem => (valid record mem).path, by omega,
        fun record mem => (valid record mem).mode, fun record mem => (valid record mem).content,
        content, metadata⟩
    · rintro ⟨paths, within⟩
      exact ⟨fun record mem => ⟨paths record mem, within.modes record mem,
        within.directories record mem⟩, within.content, within.metadata⟩

theorem perm_sortRecords (records : List ArtifactRecord) : (sortRecords records).Perm records :=
  perm_insertionSort _ records

theorem pairwise_sortRecords (records : List ArtifactRecord) :
    (sortRecords records).Pairwise (Bytes.LeBy ArtifactRecord.path) :=
  pairwise_insertionSort _ records

/-- Sorted records pass exactly if they are an inventory. -/
theorem checkSorted_sortRecords_iff (paths : ∀ record ∈ records, ValidPath record.path) :
    checkSorted (sortRecords records) [] (sortRecords records) ↔ Inventory records := by
  have sameRecords (record : ArtifactRecord) : record ∈ sortRecords records ↔ record ∈ records :=
    (perm_sortRecords records).mem_iff
  have inOrder := pairwise_sortRecords records
  have pathsInOrder : ([] :: (sortRecords records).map ArtifactRecord.path).Pairwise Bytes.Le := by
    rw [pairwise_cons, pairwise_map]
    exact ⟨fun path _ => Bytes.nil_le path, inOrder⟩
  have nilAbsent : [] ∉ (sortRecords records).map ArtifactRecord.path := by
    rintro mem
    rcases mem_map.mp mem with ⟨record, mem, isNil⟩
    exact (paths record ((sameRecords record).mp mem)).notNil isNil
  have sameUnique : ((sortRecords records).map ArtifactRecord.path).Nodup ↔
      (records.map ArtifactRecord.path).Nodup := ((perm_sortRecords records).map _).nodup_iff
  rw [checkSorted_iff pathsInOrder, nodup_cons]
  constructor
  · rintro ⟨⟨-, unique⟩, present⟩
    refine ⟨paths, sameUnique.mp unique, ?_⟩
    intro record mem parent rest isPath
    have found := parentsPresent_iff.mp (present record ((sameRecords record).mpr mem)) parent rest
      isPath
    rcases (hasDirectory_iff inOrder unique).mp found with ⟨directory, mem, isDirectory⟩
    exact ⟨directory, (sameRecords directory).mp mem, isDirectory⟩
  · intro inventory
    have unique := sameUnique.mpr inventory.unique
    refine ⟨⟨nilAbsent, unique⟩, ?_⟩
    intro record mem
    rw [parentsPresent_iff]
    intro parent rest isPath
    rcases inventory.parents record ((sameRecords record).mp mem) parent rest isPath with
      ⟨directory, mem, isDirectory⟩
    exact (hasDirectory_iff inOrder unique).mpr
      ⟨directory, (sameRecords directory).mpr mem, isDirectory⟩

/-- The records are accepted exactly if they are an inventory within the limits, and then the
digest is the hash of their text. -/
theorem artifactDigest_eq_ok_iff {sha : Sha256} {contentByteCap : ℕ} {digest : Bytes} :
    sha.artifactDigest records contentByteCap = .ok digest ↔
      (Inventory records ∧ WithinLimits contentByteCap records) ∧
        digest = hexText (sha.hash (artifactText (sortRecords records))) := by
  rw [Sha256.artifactDigest, bind_eq_ok]
  constructor
  · rintro ⟨⟨⟩, validated, rest⟩
    dsimp only at rest
    rcases validateRecords_eq_ok_iff.mp validated with ⟨paths, within⟩
    split at rest <;> cases rest
    rename_i checked
    exact ⟨⟨(checkSorted_sortRecords_iff paths).mp checked, within⟩, rfl⟩
  · rintro ⟨⟨inventory, within⟩, rfl⟩
    refine ⟨(), validateRecords_eq_ok_iff.mpr ⟨inventory.paths, within⟩, ?_⟩
    rw [if_pos ((checkSorted_sortRecords_iff inventory.paths).mpr inventory)]
    rfl

theorem ArtifactKind.byte_inj {first second : ArtifactKind} (same : first.byte = second.byte) :
    first = second := by
  cases first <;> cases second <;> first | rfl | cases same

/-- No text of a record starts the text of another. -/
theorem prefixCode_recordText :
    PrefixCode (fun record => record.Valid ∧ record.content.length < 256 ^ 8) recordText := by
  rintro ⟨kind, path, mode, content⟩ ⟨kind', path', mode', content'⟩ ⟨valid, contentSmall⟩
    ⟨valid', contentSmall'⟩ rest rest' same
  have pathSmall {text : Bytes} (isPath : ValidPath text) : text.length < 256 ^ 4 :=
    lt_of_le_of_lt isPath.short (by decide)
  simp only [recordText, cons_append, append_assoc, List.cons.injEq] at same
  rcases same with ⟨sameByte, same⟩
  cases ArtifactKind.byte_inj sameByte
  rcases prefixCode_framed 4 path path' (pathSmall valid.path) (pathSmall valid'.path) _ _ same
    with ⟨rfl, sameEnd⟩
  rcases prefixCode_bigEndian 4 _ _ mode.toNat_lt mode'.toNat_lt _ _ sameEnd with
    ⟨sameMode, sameContent⟩
  cases UInt32.toNat_inj.mp sameMode
  cases kind with
  | directory =>
    have noContent : content = [] := valid.content rfl
    have noContent' : content' = [] := valid'.content rfl
    rw [noContent, noContent']
    exact ⟨rfl, sameContent⟩
  | regular =>
    rcases prefixCode_framed 8 content content' contentSmall contentSmall' _ _ sameContent with
      ⟨rfl, sameRest⟩
    exact ⟨rfl, sameRest⟩

section Text

variable {first second : List ArtifactRecord} {capFirst capSecond : ℕ}

/-- The order of an inventory does not matter. -/
theorem Inventory.sortRecords_eq (inFirst : Inventory first) (same : first.Perm second) :
    sortRecords first = sortRecords second := by
  have together := (perm_sortRecords first).trans (same.trans (perm_sortRecords second).symm)
  refine together.eq_of_pairwise ?_ (pairwise_sortRecords first) (pairwise_sortRecords second)
  intro record other mem mem' forward backward
  have isRecord := (perm_sortRecords first).mem_iff.mp mem
  have isOther := same.mem_iff.mpr ((perm_sortRecords second).mem_iff.mp mem')
  exact inj_on_of_nodup_map inFirst.unique isRecord isOther
    (Bytes.Le.antisymm forward backward)

theorem Inventory.of_perm (inFirst : Inventory first) (same : second.Perm first) :
    Inventory second where
  paths record mem := inFirst.paths record (same.mem_iff.mp mem)
  unique := (same.map _).nodup_iff.mpr inFirst.unique
  parents record mem parent rest isPath := by
    rcases inFirst.parents record (same.mem_iff.mp mem) parent rest isPath with
      ⟨directory, mem, isDirectory⟩
    exact ⟨directory, same.mem_iff.mpr mem, isDirectory⟩

theorem WithinLimits.of_perm (within : WithinLimits capFirst first) (same : second.Perm first) :
    WithinLimits capFirst second where
  count := same.length_eq ▸ within.count
  modes record mem := within.modes record (same.mem_iff.mp mem)
  directories record mem := within.directories record (same.mem_iff.mp mem)
  content := (same.map contentSize).sum_nat ▸ within.content
  metadata := (same.map metadataSize).sum_nat ▸ within.metadata

theorem contentSize_lt (within : WithinLimits capFirst first)
    {record : ArtifactRecord} (mem : record ∈ first) : record.content.length < 256 ^ 8 := by
  have noMore : record.content.length ≤ record.contentSize := by
    cases isKind : record.kind with
    | directory => simp [within.directories record mem isKind]
    | regular => simp [isKind]
  have counted := le_sum_of_mem (mem_map_of_mem (f := contentSize) mem)
  have capped := within.content.trans (min_le_right capFirst inventoryContentMaxBytes)
  have small : inventoryContentMaxBytes < 256 ^ 8 := by decide
  omega

/-- The hashed text determines the records. -/
theorem artifactText_inj (inFirst : Inventory first) (withinFirst : WithinLimits capFirst first)
    (inSecond : Inventory second) (withinSecond : WithinLimits capSecond second)
    (same : artifactText (sortRecords first) = artifactText (sortRecords second)) :
    first.Perm second := by
  have sameLength := (perm_sortRecords first).length_eq
  have sameLength' := (perm_sortRecords second).length_eq
  have few {records : List ArtifactRecord} {cap : ℕ} (within : WithinLimits cap records) :
      records.length < 256 ^ 4 := lt_of_le_of_lt within.count (by decide)
  have small {records : List ArtifactRecord} {cap : ℕ} (inventory : Inventory records)
      (within : WithinLimits cap records) :
      ∀ record ∈ sortRecords records, record.Valid ∧ record.content.length < 256 ^ 8 := by
    intro record mem
    have mem := (perm_sortRecords records).mem_iff.mp mem
    exact ⟨⟨inventory.paths record mem, within.modes record mem, within.directories record mem⟩,
      contentSize_lt within mem⟩
  simp only [artifactText, append_assoc, append_cancel_left_eq] at same
  rcases prefixCode_bigEndian 4 _ _ (by rw [sameLength]; exact few withinFirst)
    (by rw [sameLength']; exact few withinSecond) _ _ same with ⟨lengths, records⟩
  have sorted := prefixCode_recordText.flatMap lengths (small inFirst withinFirst)
    (small inSecond withinSecond) records
  exact (perm_sortRecords first).symm.trans (sorted ▸ perm_sortRecords second)

end Text

/-- Digests of one length are told apart by their digits. -/
theorem hexText_inj {first second : Bytes} (sameLength : first.length = second.length)
    (same : hexText first = hexText second) : first = second := by
  have code : PrefixCode (fun _ => True)
      fun c : UInt8 => [hexByte (c.toNat / 16), hexByte (c.toNat % 16)] := by
    have length : ∀ c : UInt8,
        [hexByte (c.toNat / 16), hexByte (c.toNat % 16)].length = 2 := fun _ => rfl
    refine .of_length length ?_
    have digits : ∀ m n : Fin 16, hexByte m = hexByte n → m.val = n.val := by decide
    intro c d _ _ same
    simp only [List.cons.injEq, and_true] at same
    have inByte := c.toNat_lt
    have inByte' := d.toNat_lt
    have high := digits ⟨c.toNat / 16, by omega⟩ ⟨d.toNat / 16, by omega⟩ same.1
    have low := digits ⟨c.toNat % 16, by omega⟩ ⟨d.toNat % 16, by omega⟩ same.2
    exact UInt8.toNat_inj.mp (by simp only at high low; omega)
  exact code.flatMap sameLength (fun _ _ => trivial) (fun _ _ => trivial) same

/-- Accepted are the inventories within the limits. Their hashed text depends on the set of the
records alone and determines it, and where the hash has no collision so does the digest. -/
theorem artifactDigest_identifies (sha : Sha256) :
    (∀ records contentByteCap, (∃ digest, sha.artifactDigest records contentByteCap = .ok digest) ↔
      Inventory records ∧ WithinLimits contentByteCap records) ∧
    ∀ first capFirst digestFirst, sha.artifactDigest first capFirst = .ok digestFirst →
      (∀ second, second.Perm first →
        artifactText (sortRecords second) = artifactText (sortRecords first) ∧
          sha.artifactDigest second capFirst = .ok digestFirst) ∧
      ∀ second capSecond digestSecond, sha.artifactDigest second capSecond = .ok digestSecond →
        (artifactText (sortRecords first) = artifactText (sortRecords second) ↔
          ∀ record, record ∈ first ↔ record ∈ second) ∧
        ∀ messages, Set.InjOn sha.hash messages →
          artifactText (sortRecords first) ∈ messages →
          artifactText (sortRecords second) ∈ messages →
          (digestFirst = digestSecond ↔ ∀ record, record ∈ first ↔ record ∈ second) := by
  refine ⟨?_, ?_⟩
  · intro records contentByteCap
    simp [artifactDigest_eq_ok_iff]
  · intro first capFirst digestFirst isFirst
    rcases artifactDigest_eq_ok_iff.mp isFirst with ⟨⟨inFirst, withinFirst⟩, rfl⟩
    refine ⟨?_, ?_⟩
    · intro second same
      have sameSorted := inFirst.sortRecords_eq same.symm
      refine ⟨by rw [sameSorted], artifactDigest_eq_ok_iff.mpr ⟨?_, by rw [sameSorted]⟩⟩
      exact ⟨inFirst.of_perm same, withinFirst.of_perm same⟩
    · intro second capSecond digestSecond isSecond
      rcases artifactDigest_eq_ok_iff.mp isSecond with ⟨⟨inSecond, withinSecond⟩, rfl⟩
      have determined : artifactText (sortRecords first) = artifactText (sortRecords second) ↔
          ∀ record, record ∈ first ↔ record ∈ second := by
        rw [← perm_ext_iff_of_nodup (List.Nodup.of_map _ inFirst.unique)
          (List.Nodup.of_map _ inSecond.unique)]
        exact ⟨artifactText_inj inFirst withinFirst inSecond withinSecond,
          fun same => by rw [inFirst.sortRecords_eq same]⟩
      refine ⟨determined, ?_⟩
      intro messages noCollision isMessage isMessage'
      rw [← determined]
      constructor
      · intro sameDigest
        have sameHash := hexText_inj (by rw [sha.length, sha.length]) sameDigest
        exact noCollision isMessage isMessage' sameHash
      · intro sameText
        rw [sameText]

def privilegedFile : List ArtifactRecord :=
  [{ path := utf8 "bin", mode := 0o4755, content := utf8 "1" }]

/-- An inventory beyond a limit is refused, although its paths are valid and unique. -/
theorem privilegedFile_refused :
    Inventory privilegedFile ∧ ∀ (sha : Sha256) contentByteCap,
        sha.artifactDigest privilegedFile contentByteCap = .error .invalidInventory := by
  have isPath : ValidPath (utf8 "bin") := validatePath_eq_ok_iff.mp (by decide +kernel)
  refine ⟨⟨?_, by decide +kernel, ?_⟩, ?_⟩
  · intro record mem
    rw [mem_singleton.mp mem]
    exact isPath
  · intro record mem parent rest same
    rw [mem_singleton.mp mem] at same
    change utf8 "bin" = _ at same
    have noSlash : slash ∉ utf8 "bin" := by decide +kernel
    simp [same] at noSlash
  · intro sha contentByteCap
    have valid : validatePath (utf8 "bin") = .ok () := by decide +kernel
    simp only [Sha256.artifactDigest, validateRecords, validateRecordsFrom, privilegedFile,
      validateRecord, valid]
    rfl

def firstVersion : List ArtifactRecord :=
  [{ path := utf8 "lib/a", mode := 0o644, content := utf8 "1" },
    { kind := .directory, path := utf8 "lib", mode := 0o755, content := [] }]

def secondVersion : List ArtifactRecord :=
  [{ path := utf8 "lib/a", mode := 0o644, content := utf8 "2" },
    { kind := .directory, path := utf8 "lib", mode := 0o755, content := [] }]

def versionsSha : Sha256 where
  hash message :=
    if message = artifactText (sortRecords firstVersion) then
      [87, 244, 47, 216, 217, 38, 92, 68, 72, 191, 98, 221, 102, 238, 70, 115, 25, 109, 84, 173,
        217, 88, 171, 24, 77, 107, 47, 35, 87, 5, 154, 255]
    else
      [5, 94, 95, 76, 54, 31, 236, 14, 52, 144, 4, 212, 170, 46, 56, 116, 210, 0, 82, 142, 151,
        130, 136, 187, 60, 207, 91, 114, 150, 34, 33, 132]
  length message := by split <;> rfl

theorem versions_identified :
    versionsSha.artifactDigest firstVersion.reverse 1 =
        .ok (utf8 "57f42fd8d9265c4448bf62dd66ee4673196d54add958ab184d6b2f2357059aff") ∧
      ¬ ∀ record, record ∈ firstVersion ↔ record ∈ secondVersion := by
  have isFirst : versionsSha.artifactDigest firstVersion 1 =
      .ok (utf8 "57f42fd8d9265c4448bf62dd66ee4673196d54add958ab184d6b2f2357059aff") := by
    decide +kernel
  have isSecond : versionsSha.artifactDigest secondVersion 1 =
      .ok (utf8 "055e5f4c361fec0e349004d4aa2e3874d200528e978288bb3ccf5b7296222184") := by
    decide +kernel
  have noCollision : Set.InjOn versionsSha.hash
      {artifactText (sortRecords firstVersion), artifactText (sortRecords secondVersion)} := by
    rintro message (rfl | rfl) other (rfl | rfl) same
    · rfl
    · exact absurd same (by decide +kernel)
    · exact absurd same (by decide +kernel)
    · rfl
  rcases (artifactDigest_identifies versionsSha).2 firstVersion 1 _ isFirst with
    ⟨reordered, determined⟩
  refine ⟨(reordered firstVersion.reverse (reverse_perm _)).2, ?_⟩
  rw [← (determined secondVersion 1 _ isSecond).2 _ noCollision (by simp) (by simp)]
  decide +kernel

end Plinth.Packages.Restore
