import Plinth.Core.Decimal
import Plinth.Packages.Migrations

/-!
# The order of discovered migrations

`discover_migrations` orders files and finds duplicates by the numbers at the start of their
names, which it reads into 64 bits, and `build_gap_warning` counts from the least to the greatest
of them. The wrapping decides where the order is that of the numbers, and their distance how long
the counting takes.
-/

namespace Plinth.Packages.Migrations

open Core List

def sortEntries (entries : List DirectoryEntry) : List DirectoryEntry :=
  entries.insertionSort fun first second => first.filename ≤ second.filename

def values (files : List DiscoveredFile) : List Nat :=
  files.map fun file => version file.filename

/-- The files of a directory are discovered by the values of their numbers. -/
structure ByValue (tools : Tools) (entries : List DirectoryEntry) (built : List DiscoveredFile) :
    Prop where
  increasing : ∀ files, discoverMigrations tools (.listed entries) = .ok files →
    (values files).Pairwise (· < ·)
  reported : (∃ failure, discoverMigrations tools (.listed entries) = .error failure ∧
    failure.kind = .duplicateSequence) ↔ ¬ (values built).Nodup

/-- Wrapping to 64 bits keeps the order of the numbers. -/
def KeepsOrder (numbers : List Nat) : Prop :=
  ∀ first ∈ numbers, ∀ second ∈ numbers, first < second → first % 2 ^ 64 < second % 2 ^ 64

def Distinct (numbers : List Nat) : Prop := (numbers.map (· % 2 ^ 64)).Nodup

section Order

variable {tools : Tools} {entries : List DirectoryEntry} {files built : List DiscoveredFile}
  {numbers : List Nat}

theorem KeepsOrder.distinct (keeps : KeepsOrder numbers) (different : numbers.Nodup) :
    Distinct numbers := by
  refine different.map_on ?_
  intro first isFirst second isSecond same
  rcases Nat.lt_trichotomy first second with less | equal | greater
  · exact absurd same (keeps first isFirst second isSecond less).ne
  · exact equal
  · exact absurd same (keeps second isSecond first isFirst greater).ne'

/-- Numbers sorted by their wrapped values are in order exactly if wrapping keeps it. -/
theorem pairwise_lt_iff_keepsOrder
    (sorted : numbers.Pairwise fun first second => first % 2 ^ 64 < second % 2 ^ 64) :
    numbers.Pairwise (· < ·) ↔ KeepsOrder numbers := by
  constructor
  · intro increasing
    apply Pairwise.forall_of_forall_of_flip
    · exact fun number _ less => absurd less (lt_irrefl _)
    · refine sorted.imp ?_
      exact fun before _ => before
    · refine increasing.imp ?_
      exact fun less greater => absurd greater less.asymm
  · intro keeps
    refine sorted.imp_of_mem ?_
    intro first second isFirst isSecond before
    by_contra notLess
    rcases Nat.lt_or_eq_of_le (not_lt.mp notLess) with greater | equal
    · have := keeps second isSecond first isFirst greater
      omega
    · rw [equal] at before
      omega

/-- A duplicate is reported only if two files have one number. -/
theorem detectDuplicate_some {failure : MigrationFailure}
    (found : detectDuplicate files = some failure) :
    failure.kind = .duplicateSequence ∧ ¬ (files.map DiscoveredFile.sequence).Nodup := by
  fun_induction detectDuplicate files with
  | case1 first second rest same =>
    cases found
    simp [same]
  | case2 first second rest different ih =>
    refine ⟨(ih found).1, fun distinct => (ih found).2 ?_⟩
    rw [map_cons] at distinct
    exact distinct.of_cons
  | case3 => cases found

theorem detectUnqualified_kind {failure : MigrationFailure}
    (found : detectUnqualified tools files = some failure) : failure.kind = .unqualifiedDdl := by
  rcases exists_of_findSome?_eq_some found with ⟨file, -, isFailure⟩
  rcases Option.map_eq_some_iff.mp isFailure with ⟨_, -, rfl⟩
  rfl

/-- Files are ordered, and duplicates found, by the values of their numbers exactly if two of the
numbers are equal, wrapping to 64 bits keeps their order, or it keeps them apart and nothing is
discovered because a file has an unqualified statement. -/
theorem byValue_iff (isBuilt : buildMigrationFiles tools (sortEntries entries) = .ok built) :
    ByValue tools entries built ↔ ¬ (values built).Nodup ∨ KeepsOrder (values built) ∨
      Distinct (values built) ∧ ∃ file ∈ built, (tools.checkQualifiedDdl file.contents).isSome := by
  let files := built.insertionSort fun first second => first.sequence ≤ second.sequence
  have discovered := discoverMigrations_listed isBuilt (rfl : _ = files)
  have permuted : files.Perm built := perm_insertionSort _ _
  have sequences : files.map DiscoveredFile.sequence = (values files).map (· % 2 ^ 64) := by
    rw [values, map_map]
    refine map_congr_left fun file mem => ?_
    exact sequence_eq_version (buildMigrationFiles_ok isBuilt file (permuted.mem_iff.mp mem))
  have isPerm : (values files).Perm (values built) := permuted.map _
  have different : (values files).Nodup ↔ (values built).Nodup := isPerm.nodup_iff
  have keeps : KeepsOrder (values files) ↔ KeepsOrder (values built) := by
    simp only [KeepsOrder, isPerm.mem_iff]
  have distinct : Distinct (values files) ↔ Distinct (values built) := (isPerm.map _).nodup_iff
  have unqualified : (detectUnqualified tools files).isSome ↔
      ∃ file ∈ built, (tools.checkQualifiedDdl file.contents).isSome := by
    simp [detectUnqualified, findSome?_isSome_iff, permuted.mem_iff]
  rw [← different, ← keeps, ← distinct, ← unqualified]
  cases duplicate : detectDuplicate files with
  | some failure =>
    rcases detectDuplicate_some duplicate with ⟨isDuplicate, repeated⟩
    rw [sequences] at repeated
    simp only [duplicate] at discovered
    constructor
    · exact fun byValue => .inl (different.not.mpr
        (byValue.reported.mp ⟨failure, discovered, isDuplicate⟩))
    · intro condition
      have equal : ¬ (values files).Nodup := by
        rcases condition with equal | keeps | ⟨apart, -⟩
        · exact equal
        · exact fun differ => repeated (keeps.distinct differ)
        · exact absurd apart repeated
      refine ⟨?_, iff_of_true ⟨failure, discovered, isDuplicate⟩ (different.not.mp equal)⟩
      simp [discovered]
  | none =>
    have sorted : (values files).Pairwise fun first second => first % 2 ^ 64 < second % 2 ^ 64 := by
      rw [← pairwise_map (f := (· % 2 ^ 64)) (R := (· < ·)), ← sequences, pairwise_map]
      exact pairwise_of_detectDuplicate built duplicate
    have apart : Distinct (values files) := pairwise_map.mpr (sorted.imp Nat.ne_of_lt)
    have differ : (values files).Nodup := apart.of_map _
    cases unqualified : detectUnqualified tools files with
    | some failure =>
      simp only [duplicate, unqualified] at discovered
      refine iff_of_true ⟨by simp [discovered], ?_⟩ (.inr (.inr ⟨apart, rfl⟩))
      simp [discovered, detectUnqualified_kind unqualified, ← different, differ]
    | none =>
      simp only [duplicate, unqualified] at discovered
      rw [or_iff_right (not_not.mpr differ)]
      constructor
      · exact fun byValue => .inl ((pairwise_lt_iff_keepsOrder sorted).mp
          (byValue.increasing files discovered))
      · intro condition
        have increasing : (values files).Pairwise (· < ·) :=
          (pairwise_lt_iff_keepsOrder sorted).mpr (condition.resolve_right (by simp))
        exact ⟨by simpa [discovered] using increasing, by simp [discovered, ← different, differ]⟩

theorem byValue_of_two_files :
    ByValue ⟨fun _ => "", fun _ => none⟩ [⟨"10_b.sql", true, .ok ""⟩, ⟨"9_a.sql", true, .ok ""⟩]
      [⟨⟨"10_b.sql", "", ""⟩, 10⟩, ⟨⟨"9_a.sql", "", ""⟩, 9⟩] := by
  refine (byValue_iff (by decide +kernel)).mpr (.inr (.inl ?_))
  unfold KeepsOrder
  decide +kernel

/-- A number past 64 bits is wrapped to one below all others. -/
theorem wrappedNumber_first :
    let early : DirectoryEntry := ⟨"1_early.sql", true, .ok ""⟩
    let late : DirectoryEntry := ⟨"18446744073709551616_late.sql", true, .ok ""⟩
    ∃ tools built, buildMigrationFiles tools (sortEntries [early, late]) = .ok built ∧
      ¬ ByValue tools [early, late] built := by
  refine ⟨⟨fun _ => "", fun _ => none⟩, _, rfl, fun byValue => ?_⟩
  have increasing := byValue.increasing
    [⟨⟨"18446744073709551616_late.sql", "", ""⟩, 0⟩, ⟨⟨"1_early.sql", "", ""⟩, 1⟩]
    (by decide +kernel)
  revert increasing
  decide +kernel

end Order

structure MigrationWarning where
  kind : Bytes
  detail : Bytes

/-- The loop that counts from `s` up to the last number in 64 bits, for at most `fuel` turns:
the numbers on its way that no file has. -/
def missingNumbers (sequences : List Nat) (lastSeq : Nat) : (fuel s cursor : Nat) →
    Option (List Nat)
  | 0, s, _ => if s ≤ lastSeq then none else some []
  | fuel + 1, s, cursor =>
    if s ≤ lastSeq then
      if sequences[cursor]? = some s then
        missingNumbers sequences lastSeq fuel ((s + 1) % 2 ^ 64) (cursor + 1)
      else (missingNumbers sequences lastSeq fuel ((s + 1) % 2 ^ 64) cursor).map (s :: ·)
    else some []

def listed : List Nat → Bytes
  | [] => []
  | first :: rest => decimal first ++ rest.flatMap fun number => utf8 ", " ++ decimal number

def gapWarning (firstSeq lastSeq : Nat) (missing : List Nat) : Option MigrationWarning :=
  if missing.isEmpty then none
  else some ⟨utf8 "migration-gap", utf8 "migration sequence " ++ decimal firstSeq ++ utf8 " → " ++
    decimal lastSeq ++ utf8 " skips numbers: " ++ listed missing⟩

/-- `none` where the loop takes more than `fuel` turns. -/
def buildGapWarning (fuel : Nat) (sorted : List DiscoveredFile) :
    Option (Option MigrationWarning) :=
  match sorted.head?, sorted.getLast? with
  | some first, some last =>
    if sorted.length < 2 then some none
    else
      (missingNumbers (sorted.map DiscoveredFile.sequence) last.sequence fuel first.sequence 0).map
        (gapWarning first.sequence last.sequence)
  | _, _ => some none

def outputSize (warning : Option MigrationWarning) : Nat :=
  (warning.map fun w => w.kind.length + w.detail.length).getD 0

def nameLength (files : List DiscoveredFile) : Nat :=
  (files.map fun file => byteSize file.filename).sum

/-- The loop ends within the bound for the number of the files and the length of their names,
and the text it leaves is within 22 bytes for each turn and 100 more. -/
def Bounded (bound : Nat → Nat → Nat) (files : List DiscoveredFile) : Prop :=
  ∃ warning, buildGapWarning (bound files.length (nameLength files)) files = some warning ∧
    outputSize warning ≤ 22 * bound files.length (nameLength files) + 100

section Gaps

variable {sequences : List Nat} {lastSeq fuel s cursor : Nat}

/-- With the greatest number last the loop never ends. -/
theorem missingNumbers_wraps (small : s < 2 ^ 64) :
    missingNumbers sequences (2 ^ 64 - 1) fuel s cursor = none := by
  induction fuel generalizing s cursor with
  | zero => simp [missingNumbers]; omega
  | succ fuel ih =>
    have within : s ≤ 2 ^ 64 - 1 := by omega
    have next : (s + 1) % 2 ^ 64 < 2 ^ 64 := Nat.mod_lt _ (by decide)
    rw [missingNumbers, if_pos within, ih next, ih next]
    split <;> rfl

theorem missingNumbers_short (below : lastSeq < 2 ^ 64 - 1) (long : fuel + s ≤ lastSeq) :
    missingNumbers sequences lastSeq fuel s cursor = none := by
  induction fuel generalizing s cursor with
  | zero => simp [missingNumbers]; omega
  | succ fuel ih =>
    have within : s ≤ lastSeq := by omega
    have next : (s + 1) % 2 ^ 64 = s + 1 := Nat.mod_eq_of_lt (by omega)
    rw [missingNumbers, if_pos within, next, ih (by omega), ih (by omega)]
    split <;> rfl

/-- Below it enough turns end the loop. -/
theorem missingNumbers_ends (below : lastSeq < 2 ^ 64 - 1) (enough : lastSeq < fuel + s) :
    ∃ missing, missingNumbers sequences lastSeq fuel s cursor = some missing ∧
      missing.length ≤ fuel ∧ ∀ number ∈ missing, number < 2 ^ 64 := by
  induction fuel generalizing s cursor with
  | zero => exact ⟨[], by simp [missingNumbers]; omega, by simp, by simp⟩
  | succ fuel ih =>
    rw [missingNumbers]
    split
    case isFalse => exact ⟨[], rfl, by simp, by simp⟩
    case isTrue within =>
    have next : (s + 1) % 2 ^ 64 = s + 1 := Nat.mod_eq_of_lt (by omega)
    rw [next]
    split
    · rcases @ih (s + 1) (cursor + 1) (by omega) with ⟨missing, isMissing, short, small⟩
      exact ⟨missing, isMissing, by omega, small⟩
    · rcases @ih (s + 1) cursor (by omega) with ⟨missing, isMissing, short, small⟩
      exact ⟨s :: missing, by rw [isMissing]; rfl, by simpa using short,
        forall_mem_cons.mpr ⟨by omega, small⟩⟩

theorem length_decimal_small {number : Nat} (small : number < 2 ^ 64) :
    (decimal number).length ≤ 20 :=
  length_decimal_le (by decide) (small.trans (by decide))

theorem length_later {numbers : List Nat} (small : ∀ number ∈ numbers, number < 2 ^ 64) :
    (numbers.flatMap fun number => utf8 ", " ++ decimal number).length ≤ 22 * numbers.length := by
  induction numbers with
  | nil => simp
  | cons number numbers ih =>
    rcases forall_mem_cons.mp small with ⟨isSmall, areSmall⟩
    have digits := length_decimal_small isSmall
    have separator : (utf8 ", ").length = 2 := rfl
    have rest := ih areSmall
    simp only [flatMap_cons, length_append, length_cons, separator] at rest ⊢
    omega

theorem outputSize_gapWarning {firstSeq : Nat} {missing : List Nat} (firstSmall : firstSeq < 2 ^ 64)
    (lastSmall : lastSeq < 2 ^ 64) (small : ∀ number ∈ missing, number < 2 ^ 64) :
    outputSize (gapWarning firstSeq lastSeq missing) ≤ 22 * missing.length + 100 := by
  cases missing with
  | nil => simp [gapWarning, outputSize]
  | cons number missing =>
    rcases forall_mem_cons.mp small with ⟨isSmall, areSmall⟩
    have texts : (utf8 "migration-gap").length = 13 ∧ (utf8 "migration sequence ").length = 19 ∧
      (utf8 " → ").length = 5 ∧ (utf8 " skips numbers: ").length = 16 := by decide +kernel
    have first := length_decimal_small firstSmall
    have last := length_decimal_small lastSmall
    have head := length_decimal_small isSmall
    have later := length_later areSmall
    simp only [gapWarning, isEmpty_cons, Bool.false_eq_true, if_false, outputSize, Option.map_some,
      Option.getD_some, listed, length_append, length_cons, texts] at later ⊢
    omega

end Gaps

/-- The loop of a gap warning stays within a bound exactly if there are fewer than two files, or
the greatest number is not the last one of 64 bits and lies within the bound of the least. -/
theorem buildGapWarning_bounded_iff (bound : Nat → Nat → Nat) {tools : Tools}
    {directory : Directory} {files : List DiscoveredFile}
    (found : discoverMigrations tools directory = .ok files) :
    Bounded bound files ↔ ∀ first ∈ files.head?, ∀ last ∈ files.getLast?, 2 ≤ files.length →
      last.sequence ≠ 2 ^ 64 - 1 ∧
        last.sequence < bound files.length (nameLength files) + first.sequence := by
  have small : ∀ file ∈ files, file.sequence < 2 ^ 64 := by
    intro file mem
    rw [sequence_eq_version ((discoverMigrations_ok found).2 file mem)]
    exact Nat.mod_lt _ (by decide)
  cases files with
  | nil => simp [Bounded, buildGapWarning, outputSize]
  | cons first rest =>
    rcases getLast?_isSome.mpr (cons_ne_nil first rest) |> Option.isSome_iff_exists.mp with
      ⟨last, isLast⟩
    have firstSmall := small first mem_cons_self
    have lastSmall := small last (mem_of_getLast? isLast)
    generalize isBound : bound (first :: rest).length (nameLength (first :: rest)) = fuel
    simp only [Bounded, isBound, buildGapWarning, head?_cons, isLast, Option.mem_some_iff,
      forall_eq']
    by_cases short : (first :: rest).length < 2
    · rw [if_pos short]
      exact iff_of_true ⟨none, rfl, Nat.zero_le _⟩ fun long => absurd short (not_lt.mpr long)
    rw [if_neg short, forall_prop_of_true (not_lt.mp short)]
    by_cases top : last.sequence = 2 ^ 64 - 1
    · rw [top, missingNumbers_wraps firstSmall]
      simp
    have below : last.sequence < 2 ^ 64 - 1 := by omega
    by_cases within : last.sequence < fuel + first.sequence
    · rcases @missingNumbers_ends ((first :: rest).map DiscoveredFile.sequence) _ _ _ 0 below
        within with ⟨missing, isMissing, few, areSmall⟩
      have size := outputSize_gapWarning firstSmall lastSmall areSmall
      simp only [isMissing, top, within, ne_eq, not_false_eq_true, and_self, iff_true]
      exact ⟨_, rfl, by omega⟩
    · simp [missingNumbers_short below (not_lt.mp within), within]

theorem gapWarning_of_two_files : Bounded (fun count length => count + length)
      [⟨⟨"1_a.sql", "", ""⟩, 1⟩, ⟨⟨"3_b.sql", "", ""⟩, 3⟩] := by
  have found : discoverMigrations ⟨fun _ => "", fun _ => none⟩
      (.listed (["3_b.sql", "1_a.sql"].map fun name => ⟨name, true, .ok ""⟩)) =
        .ok [⟨⟨"1_a.sql", "", ""⟩, 1⟩, ⟨⟨"3_b.sql", "", ""⟩, 3⟩] := by decide +kernel
  refine (buildGapWarning_bounded_iff _ found).mpr ?_
  rintro first ⟨⟩ last ⟨⟩ -
  decide +kernel

/-- The last number of 64 bits is never passed, and between two others there can be nearly as
many turns. -/
theorem gapWarning_unbounded :
    let tools : Tools := ⟨fun _ => "", fun _ => none⟩
    (∃ files, discoverMigrations tools (.listed (["18446744073709551614_a.sql",
        "18446744073709551615_b.sql"].map fun name => ⟨name, true, .ok ""⟩)) = .ok files ∧
      nameLength files = 52 ∧ ∀ fuel, buildGapWarning fuel files = none) ∧
    ∃ files, discoverMigrations tools (.listed (["0_a.sql",
        "18446744073709551614_b.sql"].map fun name => ⟨name, true, .ok ""⟩)) = .ok files ∧
      nameLength files = 33 ∧ ∀ fuel ≤ 2 ^ 64 - 2, buildGapWarning fuel files = none := by
  refine ⟨⟨[⟨⟨"18446744073709551614_a.sql", "", ""⟩, 2 ^ 64 - 2⟩,
    ⟨⟨"18446744073709551615_b.sql", "", ""⟩, 2 ^ 64 - 1⟩], by decide +kernel, by decide +kernel,
    fun fuel => ?_⟩, [⟨⟨"0_a.sql", "", ""⟩, 0⟩,
    ⟨⟨"18446744073709551614_b.sql", "", ""⟩, 2 ^ 64 - 2⟩], by decide +kernel, by decide +kernel,
    fun fuel few => ?_⟩
  · exact congrArg (Option.map _) (missingNumbers_wraps (by decide))
  · exact congrArg (Option.map _) (missingNumbers_short (by decide) few)

end Plinth.Packages.Migrations
