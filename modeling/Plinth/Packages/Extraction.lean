import Plinth.Core.Decimal
import Plinth.Core.FileCreation
import Plinth.Core.Procedure
import Plinth.Packages.Database

/-!
# Extracting an uploaded archive

Model of `entry_name_is_safe` and `extract_zip_to` in `packages/install_lifecycle.cpp`. A first pass
over the entries tests their names and adds up the declared sizes, a second one writes the files.
The sum is kept in 64 bits, so the bound on the written bytes holds as long as the declared sizes do
not wrap it around.
-/

namespace Plinth.Packages

open Core List
open Core.Filesystem (FileError Session createDirectories createDirectories_within makeDirectories
  maxSymlinks openForWriting openForWriting_within walk_cons_of_none walk_cons_of_some walk_nil
  walk_nil_cons)

namespace Extraction

/-- The fields of `zip_stat_t` that are marked valid. -/
structure ZipStat where
  size : Option UInt64
  name : Option Bytes

/-- The results of `zip_fread`: some bytes each, and then the end or an error. -/
structure ZipFile where
  reads : List Bytes
  ends : Bool

structure ZipEntry where
  stat : Option ZipStat
  file : Option ZipFile

inductive Archive where
  | noSource
  | unreadable
  | opened (entries : List ZipEntry)

structure ExtractionFailure where
  failedAt : InstallStage := .uploading
  kind : String
  message : Bytes

/-- The system that files are written to: what it refuses, and its texts for errors. -/
structure Host where
  refused : List Name → Bool
  writeFails : List Name → Nat → Bool
  message : FileError → Bytes

structure Progress where
  session : Session
  written : Nat

def entryNameIsSafe (raw : Bytes) : Bool :=
  if raw.isEmpty || raw.head? == some Path.slash then false
  else Path.scan (fun component => !(component == Name.dotDot || component == Name.dot)) raw

def checkEntry (bombCap total : UInt64) (entry : ZipEntry) : Except ExtractionFailure UInt64 :=
  match entry.stat with
  | none => .error { kind := "not-a-zip", message := utf8 "zip_stat_index failed" }
  | some stat =>
    match stat.size with
    | none =>
      .error { kind := "not-a-zip", message := utf8 "zip entry missing uncompressed size" }
    | some size =>
      if size = 0xFFFFFFFFFFFFFFFF then
        .error { kind := "not-a-zip", message := utf8 "zip entry missing uncompressed size" }
      else
        match stat.name with
        | none => .error { kind := "not-a-zip", message := utf8 "zip entry missing name" }
        | some name =>
          if !entryNameIsSafe name then
            .error { kind := "path-traversal"
                     message := utf8 "entry escapes staging root: " ++ name }
          else if total + size > bombCap then
            .error { kind := "upload-too-large"
                     message := utf8 "uncompressed total exceeds 2× max_package_size" }
          else .ok (total + size)

def checkEntries (bombCap : UInt64) : UInt64 → List ZipEntry → Except ExtractionFailure Unit
  | _, [] => .ok ()
  | total, entry :: entries =>
    checkEntry bombCap total entry >>= fun total => checkEntries bombCap total entries

def extractionFailed (message : Bytes) : ExtractionFailure :=
  { kind := "extraction-failed", message := message }

def outText (destination name : Bytes) : Bytes :=
  if destination = [] ∨ destination.getLast? = some Path.slash then destination ++ name
  else destination ++ Path.slash :: name

def copy (host : Host) (names : List Name) (text : Bytes) :
    List Bytes → Nat → Except ExtractionFailure Nat
  | [], written => .ok written
  | buffer :: reads, written =>
    if host.writeFails names written then
      .error (extractionFailed (utf8 "write to " ++ text ++ utf8 " failed"))
    else copy host names text reads (written + buffer.length)

def extractFile (host : Host) (destination name : Bytes) (file : Option ZipFile)
    (progress : Progress) : Except ExtractionFailure Progress :=
  let outPath := (Path.parse destination).append (.parse name)
  let parentPath := { outPath with names := outPath.names.dropLast }
  match createDirectories host.refused parentPath progress.session with
  | .error error => .error (extractionFailed (host.message error))
  | .ok session =>
    match file with
    | none =>
      .error { kind := "not-a-zip", message := utf8 "zip_fopen_index failed for " ++ name }
    | some file =>
      match openForWriting host.refused outPath session with
      | .error _ =>
        .error (extractionFailed (utf8 "cannot open " ++ outText destination name))
      | .ok (session, names) =>
        copy host names (outText destination name) file.reads progress.written >>= fun written =>
            if file.ends then .ok ⟨session, written⟩
            else .error { kind := "not-a-zip"
                          message := utf8 "zip_fread failed for " ++ name }

def extractEntry (host : Host) (destination : Bytes) (entry : ZipEntry) (progress : Progress) :
    Except ExtractionFailure Progress :=
  match entry.stat with
  | none => .ok progress
  | some stat =>
    let name := stat.name.getD []
    if name.getLast? = some Path.slash then
      match createDirectories host.refused ((Path.parse destination).append (.parse name))
        progress.session with
      | .error error => .error (extractionFailed (host.message error))
      | .ok session => .ok { progress with session := session }
    else extractFile host destination name entry.file progress

def extractEntries (host : Host) (destination : Bytes) :
    List ZipEntry → Progress → Except ExtractionFailure Progress
  | [], progress => .ok progress
  | entry :: entries, progress =>
    extractEntry host destination entry progress >>= extractEntries host destination entries

def extractZipTo (host : Host) (archive : Archive) (destination : Bytes)
    (maxUncompressedBytes : UInt64) (fs : Filesystem) : Except ExtractionFailure Progress :=
  match archive with
  | .noSource => .error { kind := "not-a-zip", message := utf8 "zip_source_buffer_create failed" }
  | .unreadable => .error { kind := "not-a-zip", message := utf8 "zip_open_from_source failed" }
  | .opened entries =>
    checkEntries (maxUncompressedBytes * 2) 0 entries >>= fun _ =>
      extractEntries host destination entries ⟨⟨fs, []⟩, 0⟩

structure Checked (entry : ZipEntry) (size : UInt64) (name : Bytes) : Prop where
  stat : entry.stat = some ⟨some size, some name⟩
  known : size ≠ 0xFFFFFFFFFFFFFFFF
  safe : entryNameIsSafe name = true

/-- What the first pass has checked of an entry. -/
theorem checkEntry_ok {bombCap total later : UInt64} {entry : ZipEntry}
    (checked : checkEntry bombCap total entry = .ok later) :
    ∃ size name, Checked entry size name ∧ later = total + size ∧ total + size ≤ bombCap := by
  simp only [checkEntry] at checked
  split at checked
  · cases checked
  rename_i stat isStat
  split at checked
  · cases checked
  rename_i size isSize
  split at checked
  · cases checked
  rename_i known
  split at checked
  · cases checked
  rename_i name isName
  split at checked
  · cases checked
  rename_i safe
  split at checked
  · cases checked
  rename_i small
  cases checked
  refine ⟨size, name, ⟨?_, known, by simpa using safe⟩, rfl, UInt64.not_lt.mp small⟩
  rw [isStat, ← isSize, ← isName]

/-- A safe name only goes down. -/
theorem descent_of_safe {name : Bytes} (safe : entryNameIsSafe name) :
    Path.Descent (Path.parse name).names ∧ (Path.parse name).absolute = false := by
  simp only [entryNameIsSafe] at safe
  split at safe
  · cases safe
  rename_i relative
  simp only [Bool.or_eq_true, List.isEmpty_iff, beq_iff_eq, not_or] at relative
  rw [Path.scan_eq_all, all_eq_true] at safe
  refine ⟨Path.descent_parse relative.1 relative.2 ?_, by simpa [Path.parse] using relative.2⟩
  intro component mem
  rcases eq_or_ne component [] with isNil | notNil
  · exact .inl isNil
  · have allowed := safe component mem
    simp only [Bool.not_eq_true', Bool.or_eq_false_iff, beq_eq_false_iff_ne] at allowed
    exact .inr ⟨notNil, allowed.2, allowed.1⟩

variable {progress later : Progress} {entries : List ZipEntry}

section Within

variable {host : Host} {destination : Bytes} {root : List Name}

section

variable (named : (Path.parse destination).HasFilename)
include named

theorem append_parse_of_safe {name : Bytes} (safe : entryNameIsSafe name) :
    (Path.parse destination).append (.parse name) =
      ⟨(Path.parse destination).absolute,
        (Path.parse destination).names ++ (Path.parse name).names⟩ := by
  rcases descent_of_safe safe with ⟨descent, relative⟩
  rcases descent.head_plain with ⟨first, rest, isNames, -⟩
  simp [Path.append, relative, isNames, named.base_eq]

/-- One entry is extracted within the root. -/
theorem extractEntry_within {entry : ZipEntry}
    {size : UInt64} {name : Bytes} (checked : Checked entry size name)
    (within : progress.session.Within (.parse destination) root)
    (extracted : extractEntry host destination entry progress = .ok later) :
    later.session.Within (.parse destination) root := by
  have descent := (descent_of_safe checked.safe).1
  simp only [extractEntry, checked.stat, Option.getD_some] at extracted
  split at extracted
  case isTrue =>
    rw [append_parse_of_safe named checked.safe] at extracted
    split at extracted
    · cases extracted
    rename_i session made
    cases extracted
    exact createDirectories_within named.names_ne_nil descent.plain_or_nil within made
  case isFalse isFile =>
    have plain := descent.plain isFile
    rcases descent.head_plain with ⟨first, rest, someNames, -⟩
    rcases eq_nil_or_concat (Path.parse name).names with isNil | ⟨front, last, isNames⟩
    · simp [isNil] at someNames
    rw [concat_eq_append] at isNames
    have isParent : ((Path.parse destination).names ++ (Path.parse name).names).dropLast =
        (Path.parse destination).names ++ front := by
      rw [isNames, ← append_assoc, dropLast_concat]
    rw [isNames] at plain
    have frontPlain : ∀ name ∈ front, name = [] ∨ name.Plain :=
      fun name mem => .inr (plain name (by simp [mem]))
    simp only [extractFile, append_parse_of_safe named checked.safe, isParent] at extracted
    split at extracted
    · cases extracted
    rename_i session made
    split at extracted
    · cases extracted
    rename_i file
    split at extracted
    · cases extracted
    rename_i opened names isOpen
    rw [isNames] at isOpen
    have nowWithin := createDirectories_within named.names_ne_nil frontPlain within made
    have thenWithin := openForWriting_within named.names_ne_nil frontPlain
      (plain last (by simp)) nowWithin isOpen
    rcases bind_eq_ok.mp extracted with ⟨written, -, isLater⟩
    split at isLater <;> cases isLater
    exact thenWithin

/-- All entries are extracted within the root. -/
theorem extractEntries_within (checked : ∀ entry ∈ entries, ∃ size name, Checked entry size name)
    (within : progress.session.Within (.parse destination) root)
    (extracted : extractEntries host destination entries progress = .ok later) :
    later.session.Within (.parse destination) root := by
  induction entries generalizing progress with
  | nil =>
    cases extracted
    exact within
  | cons entry entries ih =>
    rcases bind_eq_ok.mp extracted with ⟨next, isNext, isLater⟩
    rcases checked entry (by simp) with ⟨size, name, isChecked⟩
    exact ih (fun entry mem => checked entry (by simp [mem]))
      (extractEntry_within named isChecked within isNext) isLater

end

end Within

/-- What the sum of the first pass sees of an entry, and whether its name is one of a directory. -/
structure Shape where
  isDirectory : Bool
  size : Option UInt64

def ZipEntry.shape (entry : ZipEntry) : Shape where
  isDirectory := (entry.stat.bind ZipStat.name).any fun name => name.getLast? == some Path.slash
  size := entry.stat.bind ZipStat.size

/-- The library yields no more bytes for an entry than its declared size. -/
def ZipEntry.Truthful (entry : ZipEntry) : Prop :=
  ∀ file size, entry.file = some file → entry.shape.size = some size →
    (file.reads.map List.length).sum ≤ size.toNat

@[simp]
def Shape.declared (shape : Shape) : Nat := (shape.size.getD 0).toNat

/-- The bytes that are declared for a file; a directory is never opened. -/
def Shape.fileBytes (shape : Shape) : Nat := if shape.isDirectory then 0 else shape.declared

variable (shapes : List Shape)

def declaredTotal : Nat := (shapes.map Shape.declared).sum

def fileTotal : Nat := (shapes.map Shape.fileBytes).sum

def admits (bombCap : UInt64) : UInt64 → List Shape → Bool
  | _, [] => true
  | total, shape :: shapes =>
    match shape.size with
    | none => false
    | some size =>
      size != 0xFFFFFFFFFFFFFFFF && decide (total + size ≤ bombCap) &&
        admits bombCap (total + size) shapes

theorem Checked.shape_eq {entry : ZipEntry} {size : UInt64} {name : Bytes}
    (checked : Checked entry size name) :
    entry.shape = ⟨name.getLast? == some Path.slash, some size⟩ := by
  simp [ZipEntry.shape, checked.stat]

/-- What the first pass has checked of all entries. -/
theorem checkEntries_ok {bombCap total : UInt64}
    (checked : checkEntries bombCap total entries = .ok ()) :
    (∀ entry ∈ entries, ∃ size name, Checked entry size name) ∧
      admits bombCap total (entries.map ZipEntry.shape) := by
  induction entries generalizing total with
  | nil => simp [admits]
  | cons entry entries ih =>
    rcases bind_eq_ok.mp checked with ⟨later, isChecked, rest⟩
    rcases checkEntry_ok isChecked with ⟨size, name, isEntry, rfl, small⟩
    rcases ih rest with ⟨others, admitted⟩
    constructor
    · intro other mem
      rcases mem_cons.mp mem with rfl | mem
      · exact ⟨size, name, isEntry⟩
      · exact others other mem
    · simp [admits, isEntry.shape_eq, isEntry.known, small, admitted]

/-- Without a wrap the declared total is below the cap. -/
theorem admits_total {bombCap total : UInt64} {shapes : List Shape}
    (admitted : admits bombCap total shapes) (small : total ≤ bombCap)
    (fits : total.toNat + declaredTotal shapes < 2 ^ 64) :
    total.toNat + declaredTotal shapes ≤ bombCap.toNat := by
  induction shapes generalizing total with
  | nil => simpa [declaredTotal] using UInt64.le_iff_toNat_le.mp small
  | cons shape shapes ih =>
    cases isSize : shape.size with
    | none => simp [admits, isSize] at admitted
    | some size =>
      simp only [admits, isSize, Bool.and_eq_true, decide_eq_true_eq] at admitted
      have declared : declaredTotal (shape :: shapes) = size.toNat + declaredTotal shapes := by
        simp [declaredTotal, isSize]
      have added : (total + size).toNat = total.toNat + size.toNat := by
        rw [UInt64.toNat_add]
        exact Nat.mod_eq_of_lt (by omega)
      have rest := ih admitted.2 admitted.1.2 (by omega)
      omega

theorem copy_ok {host : Host} {names : List Name} {text : Bytes} {reads : List Bytes}
    {written later : Nat} (copied : copy host names text reads written = .ok later) :
    later = written + (reads.map List.length).sum := by
  induction reads generalizing written with
  | nil =>
    cases copied
    simp
  | cons buffer reads ih =>
    simp only [copy] at copied
    split at copied
    · cases copied
    · have rest := ih copied
      simp only [map_cons, sum_cons]
      omega

theorem extractEntry_written {host : Host} {destination : Bytes} {entry : ZipEntry}
    {size : UInt64} {name : Bytes} (checked : Checked entry size name)
    (truthful : entry.Truthful)
    (extracted : extractEntry host destination entry progress = .ok later) :
    later.written ≤ progress.written + entry.shape.fileBytes := by
  simp only [extractEntry, checked.stat, Option.getD_some] at extracted
  split at extracted
  case isTrue =>
    split at extracted <;> cases extracted
    exact Nat.le_add_right _ _
  case isFalse isFile =>
    simp only [extractFile] at extracted
    split at extracted
    · cases extracted
    split at extracted
    · cases extracted
    rename_i file isContents
    split at extracted
    · cases extracted
    rcases bind_eq_ok.mp extracted with ⟨written, isCopied, isLater⟩
    have total := copy_ok isCopied
    have bounded := truthful file size isContents (by rw [checked.shape_eq])
    split at isLater <;> cases isLater
    simp only [checked.shape_eq, Shape.fileBytes, Shape.declared, beq_iff_eq, isFile, if_false,
      Option.getD_some]
    omega

/-- Truthful entries write what they declare. -/
theorem extractEntries_written {host : Host} {destination : Bytes}
    (checked : ∀ entry ∈ entries, ∃ size name, Checked entry size name)
    (truthful : ∀ entry ∈ entries, entry.Truthful)
    (extracted : extractEntries host destination entries progress = .ok later) :
    later.written ≤ progress.written + fileTotal (entries.map ZipEntry.shape) := by
  induction entries generalizing progress with
  | nil =>
    cases extracted
    exact Nat.le_add_right _ _
  | cons entry entries ih =>
    rcases bind_eq_ok.mp extracted with ⟨next, isNext, isLater⟩
    rcases checked entry (by simp) with ⟨size, name, isChecked⟩
    have first := extractEntry_written isChecked (truthful entry (by simp)) isNext
    have rest := ih (fun entry mem => checked entry (by simp [mem]))
      (fun entry mem => truthful entry (by simp [mem])) isLater
    simp only [fileTotal, map_cons, sum_cons] at rest ⊢
    omega

theorem fileTotal_le_declaredTotal : fileTotal shapes ≤ declaredTotal shapes := by
  induction shapes with
  | nil => exact le_rfl
  | cons shape shapes ih =>
    have one : shape.fileBytes ≤ shape.declared := by
      simp only [Shape.fileBytes]
      split
      · exact Nat.zero_le _
      · exact le_rfl
    simp only [fileTotal, declaredTotal, map_cons, sum_cons] at ih ⊢
    omega

structure EmptyAt (fs : Filesystem) (destination : Bytes) (root : List Name) : Prop where
  named : (Path.parse destination).HasFilename
  found : fs.status (.parse destination) = .found root
  directory : fs.entry root = some .directory
  empty : ∀ below, below ≠ [] → fs.entry (root ++ below) = none

theorem EmptyAt.within {fs : Filesystem} {destination : Bytes} {root : List Name}
    (isEmpty : EmptyAt fs destination root) :
    (⟨fs, []⟩ : Session).Within (.parse destination) root where
  found := isEmpty.found
  symlinkFree := by
    intro below target
    rcases eq_or_ne below [] with rfl | someBelow
    · simp [isEmpty.directory]
    · simp [isEmpty.empty below someBelow]
  inside := by simp

/-- Every successful extraction of entries with these shapes is contained and bounded. -/
def Bounded (maxUncompressedBytes : UInt64) : Prop :=
  ∀ (host : Host) (entries : List ZipEntry) (destination : Bytes) (fs : Filesystem)
    (root : List Name) (result : Progress),
    entries.map ZipEntry.shape = shapes → (∀ entry ∈ entries, entry.Truthful) →
    EmptyAt fs destination root →
    extractZipTo host (.opened entries) destination maxUncompressedBytes fs = .ok result →
    (∀ names ∈ result.session.touched, ∃ below, below ≠ [] ∧ names = root ++ below) ∧
      result.written ≤ 2 * maxUncompressedBytes.toNat

namespace Sample

/-- Archives with given shapes, whose entries are numbered. -/
def name (index : ℕ) (isDirectory : Bool) : Bytes :=
  decimal index ++ if isDirectory then [Path.slash] else []

def entry (index : ℕ) (shape : Shape) : ZipEntry where
  stat := some ⟨shape.size, some (name index shape.isDirectory)⟩
  file := some ⟨List.replicate shape.declared [0], true⟩

def archive (index : ℕ) : List Shape → List ZipEntry
  | [] => []
  | shape :: shapes => entry index shape :: archive (index + 1) shapes

def host : Host where
  refused _ := false
  writeFails _ _ := false
  message _ := []

def fs : Filesystem where
  entry names := if names = [] ∨ names = [utf8 "t"] then some .directory else none
  unreadable _ := false
  workingDirectory := []
  isCanonical := forall_plain_nil

/-- The destination, in which nothing has the name of a later entry. -/
structure State (fs : Filesystem) (index : ℕ) : Prop where
  top : fs.entry [] = some .directory
  destination : fs.entry [utf8 "t"] = some .directory
  free : ∀ later, index ≤ later → fs.entry [utf8 "t", decimal later] = none
  readable : ∀ names, fs.unreadable names = false

theorem state_fs : State fs 0 := ⟨rfl, by decide, fun _ _ => by simp [fs], fun _ => rfl⟩

section Names

variable (index : ℕ)

theorem slash_notMem : Path.slash ∉ decimal index :=
  fun mem => absurd (isDigit_of_mem_decimal mem) (by decide)

theorem plain : Name.Plain (decimal index) := by
  have noDot : (0x2e : UInt8) ∉ decimal index :=
    fun mem => absurd (isDigit_of_mem_decimal mem) (by decide)
  refine ⟨decimal_ne_nil index, ?_, ?_⟩
  · intro isDot
    simp [isDot, Name.dot] at noDot
  · intro isDots
    simp [isDots, Name.dotDot] at noDot

theorem getLast?_name (isDirectory : Bool) :
    ((name index isDirectory).getLast? == some Path.slash) = isDirectory := by
  cases isDirectory with
  | true => simp [name]
  | false =>
    have notSlash : (decimal index).getLast? ≠ some Path.slash :=
      fun isLast => slash_notMem index (mem_of_getLast? isLast)
    simpa [name] using notSlash

theorem head?_name (isDirectory : Bool) : (name index isDirectory).head? ≠ some Path.slash := by
  intro isFirst
  rw [name, head?_append_of_ne_nil _ (decimal_ne_nil index)] at isFirst
  exact slash_notMem index (mem_of_mem_head? isFirst)

theorem splitOn_name (isDirectory : Bool) :
    (name index isDirectory).splitOn Path.slash =
      decimal index :: if isDirectory then [[]] else [] := by
  cases isDirectory with
  | true => exact splitOn_append_cons_self_of_not_mem (slash_notMem index) _
  | false => simpa [name] using splitOn_eq_singleton (slash_notMem index)

theorem parse_name (isDirectory : Bool) :
    (Path.parse (utf8 "/t")).append (.parse (name index isDirectory)) =
      ⟨true, utf8 "t" :: decimal index :: if isDirectory then [[]] else []⟩ := by
  have notNil := decimal_ne_nil index
  have relative := head?_name index isDirectory
  have isRoot : Path.parse (utf8 "/t") = ⟨true, [utf8 "t"]⟩ := by decide
  have parsed : Path.parse (name index isDirectory) =
      ⟨false, decimal index :: if isDirectory then [[]] else []⟩ := by
    simp only [Path.parse, splitOn_name, getLast?_name]
    cases isDirectory <;> simp [relative, notNil]
  simp [isRoot, parsed, Path.append, Path.base, show utf8 "t" ≠ [] by decide]

theorem name_isSafe (isDirectory : Bool) : entryNameIsSafe (name index isDirectory) := by
  rcases plain index with ⟨notNil, notDot, notDots⟩
  have relative := head?_name index isDirectory
  simp only [entryNameIsSafe, Path.scan_eq_all, Path.components, splitOn_name]
  cases isDirectory <;> simp_all [name]

end Names

def created (fs : Filesystem) (touched : List (List Name)) (index : ℕ) (entry : Entry) : Session :=
  ⟨fs.put [utf8 "t", decimal index] entry, touched ++ [[utf8 "t", decimal index]]⟩

section State

variable {fs : Filesystem} {index : ℕ} (state : State fs index)
include state

theorem State.status_below (rest : List Name) :
    fs.status ⟨true, utf8 "t" :: rest⟩ = fs.walk maxSymlinks [utf8 "t"] rest :=
  walk_cons_of_some state.top (by decide) (state.readable _) state.destination (by simp)

theorem State.missing (rest : List Name) :
    fs.walk maxSymlinks [utf8 "t"] (decimal index :: rest) = .missing :=
  walk_cons_of_none state.destination (plain index) (state.readable _) (state.free index le_rfl)

variable (touched : List (List Name))

theorem State.makeDestination (rest : List Name) :
    makeDirectories host.refused true [] (utf8 "t" :: rest) ⟨fs, touched⟩ =
      makeDirectories host.refused true [utf8 "t"] rest ⟨fs, touched⟩ := by
  simp [makeDirectories, state.status_below, state.destination]

theorem State.put (entry : Entry) : State (fs.put [utf8 "t", decimal index] entry) (index + 1) where
  top := state.top
  destination := state.destination
  free := by
    intro later isLater
    have different : [utf8 "t", decimal later] ≠ [utf8 "t", decimal index] := by
      intro same
      have sameNumber := congrArg undecimal (cons.inj (cons.inj same).2).1
      rw [undecimal_decimal, undecimal_decimal] at sameNumber
      omega
    simpa only [Filesystem.put, if_neg different] using state.free later (by omega)
  readable := state.readable

/-- A free name of the directory can be created. -/
theorem State.create (entry : Entry) :
    (⟨fs, touched⟩ : Session).create host.refused true [utf8 "t"] (decimal index) entry =
      .ok (created fs touched index entry, [utf8 "t", decimal index]) := by
  have found := state.status_below []
  simp only [walk_nil] at found
  have isWalk : fs.walk maxSymlinks (fs.start true) [utf8 "t"] =
      .found [utf8 "t"] := found
  simp [Session.create, isWalk, state.destination, plain index, state.free index le_rfl, host,
    created]

theorem State.openFile :
    openForWriting host.refused ⟨true, [utf8 "t", decimal index]⟩ ⟨fs, touched⟩ =
      .ok (created fs touched index .file, [utf8 "t", decimal index]) := by
  simp only [openForWriting, state.status_below, state.missing]
  exact state.create touched .file

theorem State.makeDirectory :
    createDirectories host.refused ⟨true, [utf8 "t", decimal index, []]⟩ ⟨fs, touched⟩ =
      .ok (created fs touched index .directory) := by
  simp only [createDirectories, state.makeDestination]
  rw [makeDirectories, singleton_append, state.status_below, state.missing]
  simp only [state.create touched .directory, Except.bind]
  have next := state.put .directory
  have isDirectory : (fs.put [utf8 "t", decimal index] .directory).entry
      [utf8 "t", decimal index] = some .directory := by simp
  have found : (fs.put [utf8 "t", decimal index] .directory).status
      ⟨true, [utf8 "t", decimal index, []]⟩ = .found [utf8 "t", decimal index] := by
    rw [next.status_below, walk_cons_of_some next.destination (plain index) (next.readable _)
      isDirectory (by simp)]
    exact (walk_nil_cons isDirectory).trans (walk_nil _ _)
  simp [makeDirectories, created, found]

end State

theorem copy_ok (names : List Name) (text : Bytes) (reads : List Bytes) (written : Nat) :
    copy host names text reads written = .ok (written + (reads.map List.length).sum) := by
  induction reads generalizing written with
  | nil => simp [copy]
  | cons buffer reads ih =>
    have step : copy host names text (buffer :: reads) written =
        copy host names text reads (written + buffer.length) := rfl
    rw [step, ih, map_cons, sum_cons, Nat.add_assoc]

/-- An entry of the sample archive is extracted. -/
theorem extractEntry_ok (shape : Shape) {progress : Progress} {index : ℕ}
    (state : State progress.session.fs index) :
    ∃ later, extractEntry host (utf8 "/t") (entry index shape) progress = .ok later ∧
      State later.session.fs (index + 1) ∧ later.written = progress.written + shape.fileBytes := by
  rcases progress with ⟨⟨fs, touched⟩, written⟩
  rcases shape with ⟨isDirectory, size⟩
  have isLast := getLast?_name index isDirectory
  have path := parse_name index isDirectory
  cases isDirectory with
  | true =>
    refine ⟨⟨created fs touched index .directory, written⟩, ?_, state.put .directory,
      by simp [Shape.fileBytes]⟩
    simp_all [extractEntry, entry, state.makeDirectory touched]
  | false =>
    refine ⟨⟨created fs touched index .file, written + (size.getD 0).toNat⟩, ?_, state.put .file,
      by simp [Shape.fileBytes]⟩
    have parent : createDirectories host.refused ⟨true, [utf8 "t"]⟩ ⟨fs, touched⟩ =
        .ok ⟨fs, touched⟩ := state.makeDestination touched []
    simp_all [extractEntry, entry, extractFile, state.openFile touched, copy_ok, bind, Except.bind]

/-- The whole sample archive is extracted, and writes what it declares. -/
theorem extractEntries_ok (shapes : List Shape) {progress : Progress} {index : ℕ}
    (state : State progress.session.fs index) :
    ∃ later, extractEntries host (utf8 "/t") (archive index shapes) progress = .ok later ∧
      later.written = progress.written + fileTotal shapes := by
  induction shapes generalizing progress index with
  | nil => exact ⟨progress, rfl, rfl⟩
  | cons shape shapes ih =>
    rcases extractEntry_ok shape state with ⟨next, isNext, nextState, first⟩
    rcases ih nextState with ⟨later, isLater, rest⟩
    refine ⟨later, bind_eq_ok.mpr ⟨next, isNext, isLater⟩, ?_⟩
    simp only [fileTotal, map_cons, sum_cons] at rest ⊢
    omega

theorem checkEntries_ok {bombCap total : UInt64} {shapes : List Shape} {index : ℕ}
    (admitted : admits bombCap total shapes) :
    checkEntries bombCap total (archive index shapes) = .ok () := by
  induction shapes generalizing total index with
  | nil => rfl
  | cons shape shapes ih =>
    cases isSize : shape.size with
    | none => simp [admits, isSize] at admitted
    | some size =>
      simp only [admits, isSize, Bool.and_eq_true, decide_eq_true_eq, bne_iff_ne] at admitted
      refine bind_eq_ok.mpr ⟨total + size, ?_, ih admitted.2⟩
      simp [checkEntry, entry, isSize, admitted.1.1, name_isSafe, UInt64.not_lt.mpr admitted.1.2]

theorem shape_entry (index : ℕ) (shape : Shape) : (entry index shape).shape = shape := by
  simp [entry, ZipEntry.shape, getLast?_name]

theorem truthful_entry (index : ℕ) (shape : Shape) : (entry index shape).Truthful := by
  intro file size isFile isSize
  rw [shape_entry] at isSize
  cases isFile
  simp [isSize]

/-- The sample archive has the given shapes and is truthful. -/
theorem archive_spec (index : ℕ) (shapes : List Shape) :
    (archive index shapes).map ZipEntry.shape = shapes ∧
      ∀ entry ∈ archive index shapes, entry.Truthful := by
  induction shapes generalizing index with
  | nil => simp [archive]
  | cons shape shapes ih =>
    rcases ih (index + 1) with ⟨isShapes, truthful⟩
    exact ⟨by simp [archive, shape_entry, isShapes],
      forall_mem_cons.mpr ⟨truthful_entry index shape, truthful⟩⟩

theorem emptyAt_fs : EmptyAt fs (utf8 "/t") [utf8 "t"] where
  named := ⟨utf8 "t", by decide, by decide⟩
  found := by decide
  directory := by decide
  empty := by
    intro below someBelow
    simp [fs, someBelow]

end Sample

/-- If extraction is bounded, the sample archive shows the condition. -/
theorem fits_of_bounded {shapes : List Shape} {maxUncompressedBytes : UInt64}
    (bounded : Bounded shapes maxUncompressedBytes)
    (admitted : admits (maxUncompressedBytes * 2) 0 shapes) :
    declaredTotal shapes < 2 ^ 64 ∨ fileTotal shapes ≤ 2 * maxUncompressedBytes.toNat := by
  have started : Sample.State (⟨⟨Sample.fs, []⟩, 0⟩ : Progress).session.fs 0 := Sample.state_fs
  rcases Sample.extractEntries_ok shapes started with ⟨result, extracted, written⟩
  have succeeds : extractZipTo Sample.host (.opened (Sample.archive 0 shapes)) (utf8 "/t")
      maxUncompressedBytes Sample.fs = .ok result :=
    bind_eq_ok.mpr ⟨(), Sample.checkEntries_ok admitted, extracted⟩
  rcases Sample.archive_spec 0 shapes with ⟨isShapes, truthful⟩
  have small := (bounded _ _ _ _ _ _ isShapes truthful Sample.emptyAt_fs succeeds).2
  rw [written] at small
  exact .inr (by simpa using small)

/-- Extractions are contained and bounded for exactly those shapes that the first pass refuses,
or whose declared sizes fit into 64 bits together, or whose files alone are within the bound. -/
theorem bounded_iff (shapes : List Shape) (maxUncompressedBytes : UInt64) :
    Bounded shapes maxUncompressedBytes ↔
      (admits (maxUncompressedBytes * 2) 0 shapes = true →
        declaredTotal shapes < 2 ^ 64 ∨ fileTotal shapes ≤ 2 * maxUncompressedBytes.toNat) := by
  refine ⟨fits_of_bounded, ?_⟩
  intro condition host entries destination fs root result isShapes truthful isEmpty succeeds
  rcases bind_eq_ok.mp succeeds with ⟨_, checked, extracted⟩
  rcases checkEntries_ok checked with ⟨allChecked, admitted⟩
  rw [isShapes] at admitted
  refine ⟨(extractEntries_within isEmpty.named allChecked isEmpty.within extracted).inside, ?_⟩
  have written := extractEntries_written allChecked truthful extracted
  rw [isShapes, Nat.zero_add] at written
  rcases condition admitted with fits | small
  · have total := admits_total admitted UInt64.zero_le (by simpa using fits)
    have files := fileTotal_le_declaredTotal shapes
    have cap : (maxUncompressedBytes * 2).toNat ≤ maxUncompressedBytes.toNat * 2 := by
      rw [UInt64.toNat_mul]
      exact Nat.mod_le _ _
    rw [UInt64.toNat_zero, Nat.zero_add] at total
    omega
  · exact written.trans small

theorem bounded_oneFile : Bounded [⟨false, some 2⟩] 1 :=
  (bounded_iff [⟨false, some 2⟩] 1).mpr (by decide)

/-- An upload limit of one byte, two files of two bytes, and between them a directory whose declared
size takes the sum back to zero. -/
theorem not_bounded_wrapped :
    ¬ Bounded [⟨false, some 2⟩, ⟨true, some 0xFFFFFFFFFFFFFFFE⟩, ⟨false, some 2⟩] 1 := by
  intro bounded
  have fits := fits_of_bounded bounded (by decide)
  exact absurd fits (by decide)

end Extraction

end Plinth.Packages
