import Plinth.Core.Decimal
import Plinth.Packages.Install

/-!
# Version precedence

Model of `is_semver_valid` in `packages/manifest.cpp`, and the precedence of section 11 of the
version standard that `compare_semver` is documented to compute. The comparison reads numbers into
64 bits, so it agrees with the precedence on the versions whose numbers are below `2 ^ 64`, and
disagrees on every other one with some version.
-/

namespace Plinth.Packages

open List Core

def isAlnumOrDash (c : Char) : Bool :=
  isDecimal c || ('a' ≤ c && c ≤ 'z') || ('A' ≤ c && c ≤ 'Z') || c == '-'

def isNumeric (digits : List Char) : Bool :=
  isAllDigits digits && (digits.length == 1 || digits.head? != some '0')

def consumeNumeric (s : List Char) : Option (List Char) :=
  if isNumeric (s.takeWhile isDecimal) then some (s.dropWhile isDecimal) else none

def consumeDot : List Char → Option (List Char)
  | '.' :: rest => some rest
  | _ => none

def consumeMajorMinorPatch (s : List Char) : Option (List Char) :=
  (consumeNumeric s).bind fun s => (consumeDot s).bind fun s =>
    (consumeNumeric s).bind fun s => (consumeDot s).bind consumeNumeric

def isPrereleaseIdent (ident : List Char) : Bool :=
  ident.all isAlnumOrDash && !ident.isEmpty &&
    (!ident.all isDecimal || ident.length == 1 || ident.head? != some '0')

def isBuildIdent (ident : List Char) : Bool := ident.all isAlnumOrDash && !ident.isEmpty

/-- What follows the identifiers of a prerelease, which end at a plus sign. -/
def consumePrerelease (s : List Char) : Option (List Char) :=
  if ((s.takeWhile (· != '+')).splitOn '.').all isPrereleaseIdent then some (s.dropWhile (· != '+'))
  else none

def isBuild (s : List Char) : Bool := (s.splitOn '.').all isBuildIdent

def isSemverValid (s : String) : Bool :=
  match consumeMajorMinorPatch s.toList with
  | none => false
  | some rest =>
    let afterPrerelease :=
      match rest with
      | '-' :: rest => consumePrerelease rest
      | rest => some rest
    match afterPrerelease with
    | none => false
    | some [] => true
    | some (c :: build) => c == '+' && isBuild build

theorem isSemverValid_iff {s : String} : isSemverValid s ↔
    ∃ after mid, consumeMajorMinorPatch s.toList = some after ∧
      (if after.head? = some '-' then consumePrerelease after.tail else some after) = some mid ∧
      (mid = [] ∨ ∃ build, mid = '+' :: build ∧ isBuild build) := by
  simp only [isSemverValid]
  cases consumeMajorMinorPatch s.toList with
  | none => simp
  | some after =>
    cases after with
    | nil => simp
    | cons c rest =>
      by_cases isDash : c = '-'
      · subst isDash
        cases consumed : consumePrerelease rest with
        | none => simp [consumed]
        | some mid => cases mid <;> simp [consumed]
      · simp [isDash]

inductive Identifier where
  | numeric (value : Nat)
  | alphanumeric (text : List Char)
  deriving DecidableEq

/-- Numeric identifiers are compared by value and rank below the others. -/
instance : Ord Identifier where
  compare
    | .numeric a, .numeric b => compare a b
    | .numeric _, .alphanumeric _ => .lt
    | .alphanumeric _, .numeric _ => .gt
    | .alphanumeric a, .alphanumeric b => compare a b

def Identifier.ofText (text : List Char) : Identifier :=
  if text.all isDecimal then .numeric (number text) else .alphanumeric text

open Identifier (ofText)

structure Version where
  major : Nat
  minor : Nat
  patch : Nat
  prerelease : List Identifier
  deriving DecidableEq

namespace Version

def isRelease (version : Version) : Bool := version.prerelease.isEmpty

/-- The numbers decide first, then that a prerelease ranks below its release, then the
identifiers from left to right, where the longer list ranks higher. -/
def precedence : Version → Version → Ordering :=
  compareLex (compareOn major) <| compareLex (compareOn minor) <| compareLex (compareOn patch) <|
    compareLex (compareOn isRelease) (compareOn prerelease)

end Version

structure Spelling where
  major : List Char
  minor : List Char
  patch : List Char
  prerelease : List (List Char)
  build : Option (List Char)

namespace Spelling

variable (spelling : Spelling)

def prereleaseText : List Char := ['.'].intercalate spelling.prerelease

def core : List Char :=
  spelling.major ++ '.' :: (spelling.minor ++ '.' :: (spelling.patch ++
    if spelling.prerelease.isEmpty then [] else '-' :: spelling.prereleaseText))

def text : List Char :=
  spelling.core ++ match spelling.build with
    | none => []
    | some build => '+' :: build

def version : Version where
  major := number spelling.major
  minor := number spelling.minor
  patch := number spelling.patch
  prerelease := spelling.prerelease.map ofText

structure Valid : Prop where
  major : isNumeric spelling.major = true
  minor : isNumeric spelling.minor = true
  patch : isNumeric spelling.patch = true
  prerelease : ∀ ident ∈ spelling.prerelease, isPrereleaseIdent ident = true
  build : ∀ build ∈ spelling.build, isBuild build = true

end Spelling

variable {digits : List Char} {ident : List Char}

section Texts

theorem isDecimal_of_isNumeric (numeric : isNumeric digits) :
    digits ≠ [] ∧ ∀ c ∈ digits, isDecimal c := by
  simp only [isNumeric, isAllDigits, Bool.and_eq_true, Bool.not_eq_true', isEmpty_eq_false_iff,
    all_eq_true] at numeric
  exact numeric.1

/-- The reader takes the longest number, without a leading zero. -/
theorem consumeNumeric_eq_some {s rest : List Char} :
    consumeNumeric s = some rest ↔ ∃ digits, isNumeric digits ∧ s = digits ++ rest ∧
      ∀ c ∈ rest.head?, isDecimal c = false := by
  constructor
  · intro consumed
    rcases of_guard consumed with ⟨numeric, rfl⟩
    refine ⟨_, numeric, (takeWhile_append_dropWhile).symm, ?_⟩
    intro c isHead
    have dropped := head?_dropWhile_not isDecimal s
    rw [isHead] at dropped
    simpa using dropped
  · rintro ⟨digits, numeric, rfl, stops⟩
    rcases takeWhile_append_stop (isDecimal_of_isNumeric numeric).2
      ((Option.any_eq_false _ _).mpr stops) with ⟨taken, dropped⟩
    simp [consumeNumeric, taken, dropped, numeric]

theorem consumeDot_eq_some {s rest : List Char} : consumeDot s = some rest ↔ s = '.' :: rest := by
  simp only [consumeDot]
  split
  · simp
  · rename_i other
    simp only [reduceCtorEq, false_iff]
    exact fun isDot => other rest isDot

theorem ne_of_isAlnumOrDash {c : Char} (alnum : isAlnumOrDash c) : c ≠ '.' ∧ c ≠ '+' := by
  constructor
  · rintro rfl
    exact absurd alnum (by decide)
  · rintro rfl
    exact absurd alnum (by decide)

theorem isPrereleaseIdent_alnum (valid : isPrereleaseIdent ident) :
    ident ≠ [] ∧ ∀ c ∈ ident, isAlnumOrDash c := by
  simp only [isPrereleaseIdent, Bool.and_eq_true, all_eq_true, Bool.not_eq_true',
    isEmpty_eq_false_iff] at valid
  exact ⟨valid.1.2, valid.1.1⟩

theorem dot_not_mem (valid : isPrereleaseIdent ident) : '.' ∉ ident := by
  intro mem
  exact (ne_of_isAlnumOrDash ((isPrereleaseIdent_alnum valid).2 '.' mem)).1 rfl

theorem not_mem_digits (numeric : isNumeric digits) {c : Char}
    (other : isDecimal c = false) : c ∉ digits := by
  intro mem
  have decimal := (isDecimal_of_isNumeric numeric).2 c mem
  rw [other] at decimal
  cases decimal

theorem takeWhile_ne {c : Char} {first rest : List Char} (absent : c ∉ first)
    (stops : ∀ d ∈ rest.head?, d = c) :
    (first ++ rest).takeWhile (· != c) = first ∧ (first ++ rest).dropWhile (· != c) = rest := by
  apply takeWhile_append_stop
  · intro d mem
    exact bne_iff_ne.mpr fun same => absent (same ▸ mem)
  · refine (Option.any_eq_false _ _).mpr fun d isHead => ?_
    simp [stops d isHead]

namespace Spelling

variable {spelling : Spelling}

/-- The prerelease is split at the dots it was joined with. -/
theorem Valid.splitOn_prereleaseText (valid : spelling.Valid) (some : spelling.prerelease ≠ []) :
    spelling.prereleaseText.splitOn '.' = spelling.prerelease :=
  splitOn_intercalate '.' (fun ident mem => dot_not_mem (valid.prerelease ident mem)) some

theorem mem_prereleaseText {c : Char} (mem : c ∈ spelling.prereleaseText) :
    c = '.' ∨ ∃ ident ∈ spelling.prerelease, c ∈ ident := by
  rw [prereleaseText] at mem
  generalize spelling.prerelease = idents at mem
  induction idents with
  | nil => simp at mem
  | cons ident idents ih =>
    cases idents with
    | nil => exact .inr ⟨ident, by simp, by simpa using mem⟩
    | cons next idents =>
      rw [intercalate_cons_cons] at mem
      rcases mem_append.mp mem with first | later
      · rcases mem_append.mp first with inIdent | isDot
        · exact .inr ⟨ident, by simp, inIdent⟩
        · exact .inl (mem_singleton.mp isDot)
      · rcases ih later with isDot | ⟨other, isOther, inOther⟩
        · exact .inl isDot
        · exact .inr ⟨other, mem_cons_of_mem _ isOther, inOther⟩

theorem Valid.plus_not_mem_prereleaseText (valid : spelling.Valid) :
    '+' ∉ spelling.prereleaseText := by
  intro mem
  rcases mem_prereleaseText mem with isDot | ⟨ident, isIdent, inIdent⟩
  · exact absurd isDot (by decide)
  · have alnum := (isPrereleaseIdent_alnum (valid.prerelease ident isIdent)).2 '+' inIdent
    exact absurd alnum (by decide)

end Spelling

theorem exists_idents {rest after : List Char}
    (isAfter : (match rest with
      | '-' :: rest => consumePrerelease rest
      | rest => some rest) = some after) :
    ∃ idents : List (List Char), (∀ ident ∈ idents, isPrereleaseIdent ident) ∧
      rest = (if idents.isEmpty then [] else '-' :: ['.'].intercalate idents) ++ after := by
  split at isAfter
  · rename_i prerelease
    rcases of_guard isAfter with ⟨idents, rfl⟩
    refine ⟨_, all_eq_true.mp idents, ?_⟩
    simp
  · cases isAfter
    exact ⟨[], by simp, rfl⟩

/-- A valid version is spelled from valid parts. -/
theorem exists_spelling {s : String} (valid : isSemverValid s) :
    ∃ spelling : Spelling, spelling.Valid ∧ s.toList = spelling.text := by
  simp only [isSemverValid] at valid
  split at valid
  · cases valid
  rename_i rest consumed
  simp only [consumeMajorMinorPatch, Option.bind_eq_some_iff, consumeNumeric_eq_some,
    consumeDot_eq_some] at consumed
  rcases consumed with ⟨_, ⟨major, isMajor, isText, -⟩, _, rfl, _, ⟨minor, isMinor, rfl, -⟩, _,
    rfl, patch, isPatch, rfl, -⟩
  rw [isText]
  split at valid
  · cases valid
  · rename_i isEnd
    rcases exists_idents isEnd with ⟨idents, isPrerelease, rfl⟩
    exact ⟨⟨major, minor, patch, idents, none⟩, ⟨isMajor, isMinor, isPatch, isPrerelease, by simp⟩,
      by simp [Spelling.text, Spelling.core, Spelling.prereleaseText]⟩
  · rename_i c build isEnd
    simp only [Bool.and_eq_true, beq_iff_eq] at valid
    rcases valid with ⟨rfl, isBuild⟩
    rcases exists_idents isEnd with ⟨idents, isPrerelease, rfl⟩
    exact ⟨⟨major, minor, patch, idents, some build⟩,
      ⟨isMajor, isMinor, isPatch, isPrerelease, by simpa using isBuild⟩,
      by simp [Spelling.text, Spelling.core, Spelling.prereleaseText]⟩

end Texts

def Identifier.wrap : Identifier → Identifier
  | .numeric value => .numeric (value % 2 ^ 64)
  | .alphanumeric text => .alphanumeric text

def Version.wrap (version : Version) : Version where
  major := version.major % 2 ^ 64
  minor := version.minor % 2 ^ 64
  patch := version.patch % 2 ^ 64
  prerelease := version.prerelease.map Identifier.wrap

section Comparison

theorem compareOfLessAndEq_eq_compare (a b : List Char) : compareOfLessAndEq a b = compare a b := by
  induction a generalizing b with
  | nil =>
    cases b with
    | nil | cons => simp [compareOfLessAndEq]
  | cons c a ih =>
    cases b with
    | nil => simp [compareOfLessAndEq]
    | cons d b =>
      rw [List.compare_cons_cons, ← ih]
      simp only [compareOfLessAndEq, cons_lt_cons_iff, List.cons.injEq]
      rcases lt_trichotomy c d with less | rfl | greater
      · simp [less, compare_lt_iff_lt.mpr less]
      · simp
      · simp [compare_gt_iff_gt.mpr greater, not_lt_of_gt greater, ne_of_gt greater]

/-- Identifiers are compared as their wrapped readings are. -/
theorem comparePrereleaseIdent_eq {a b : List Char} (validA : isPrereleaseIdent a)
    (validB : isPrereleaseIdent b) :
    comparePrereleaseIdent a b = compare (ofText a).wrap (ofText b).wrap := by
  have digits : ∀ {ident : List Char}, isPrereleaseIdent ident →
      isAllDigits ident = ident.all isDecimal := by
    intro ident valid
    simp [isAllDigits, (isPrereleaseIdent_alnum valid).1]
  rw [comparePrereleaseIdent, digits validA, digits validB]
  cases allA : a.all isDecimal <;> cases allB : b.all isDecimal
  · simp only [ofText, allA, allB, Bool.false_eq_true, if_false, Identifier.wrap]
    exact compareOfLessAndEq_eq_compare a b
  · simp [ofText, allA, allB, Identifier.wrap, compare]
  · simp [ofText, allA, allB, Identifier.wrap, compare]
  · simp only [ofText, allA, allB, if_true, Identifier.wrap, readUInt64_eq_number]
    rfl

theorem comparePrereleaseIdents_eq {as bs : List (List Char)}
    (validA : ∀ ident ∈ as, isPrereleaseIdent ident)
    (validB : ∀ ident ∈ bs, isPrereleaseIdent ident) :
    comparePrereleaseIdents as bs = compare (as.map fun a => (ofText a).wrap)
        (bs.map fun b => (ofText b).wrap) := by
  induction as generalizing bs with
  | nil => cases bs <;> simp [comparePrereleaseIdents]
  | cons a as ih =>
    cases bs with
    | nil => simp [comparePrereleaseIdents]
    | cons b bs =>
      have rest := ih (fun ident mem => validA ident (mem_cons_of_mem _ mem))
        fun ident mem => validB ident (mem_cons_of_mem _ mem)
      simp [comparePrereleaseIdents, rest,
        comparePrereleaseIdent_eq (validA a (by simp)) (validB b (by simp))]

namespace Spelling

variable {spelling : Spelling}

theorem Valid.plus_not_mem_core (valid : spelling.Valid) : '+' ∉ spelling.core := by
  have notDigit : isDecimal '+' = false := by decide
  have prerelease := valid.plus_not_mem_prereleaseText
  simp only [core, mem_append, mem_cons, not_mem_digits valid.major notDigit,
    not_mem_digits valid.minor notDigit, not_mem_digits valid.patch notDigit, false_or, not_or]
  refine ⟨by decide, by decide, ?_⟩
  split
  · simp
  · simpa using prerelease

@[simp]
def numbersText (spelling : Spelling) : List Char :=
  spelling.major ++ '.' :: (spelling.minor ++ '.' :: spelling.patch)

section

variable (valid : spelling.Valid)
include valid

theorem Valid.takeWhile_plus : spelling.text.takeWhile (· != '+') = spelling.core := by
  refine (takeWhile_ne valid.plus_not_mem_core ?_).1
  cases spelling.build <;> simp

theorem Valid.takeWhile_dash :
    spelling.core.takeWhile (· != '-') = spelling.numbersText ∧
      spelling.core.dropWhile (· != '-') =
        if spelling.prerelease.isEmpty then [] else '-' :: spelling.prereleaseText := by
  have dash : '-' ∉ spelling.numbersText := by
    have notDigit : isDecimal '-' = false := by decide
    simp only [numbersText, mem_append, mem_cons, not_mem_digits valid.major notDigit,
      not_mem_digits valid.minor notDigit, not_mem_digits valid.patch notDigit]
    decide
  have parts : spelling.core = spelling.numbersText ++
      if spelling.prerelease.isEmpty then [] else '-' :: spelling.prereleaseText := by
    simp [core]
  rw [parts]
  refine takeWhile_ne dash ?_
  split <;> simp

theorem Valid.splitOn_numbersText :
    spelling.numbersText.splitOn '.' = [spelling.major, spelling.minor, spelling.patch] := by
  have noDot : ∀ part ∈ [spelling.major, spelling.minor, spelling.patch], '.' ∉ part := by
    have notDigit : isDecimal '.' = false := by decide
    simp [not_mem_digits valid.major notDigit, not_mem_digits valid.minor notDigit,
      not_mem_digits valid.patch notDigit]
  have parts := splitOn_intercalate '.' noDot (by simp)
  simpa [List.intercalate, List.intersperse] using parts

/-- The text is cut at its dash and its plus. -/
theorem Valid.splitSemver_text :
    splitSemver spelling.text = (spelling.numbersText, spelling.prereleaseText, true) := by
  simp only [splitSemver, valid.takeWhile_plus, valid.takeWhile_dash]
  cases isEmpty : spelling.prerelease.isEmpty with
  | true =>
    have none : spelling.prereleaseText = [] := by
      simp [prereleaseText, List.isEmpty_iff.mp isEmpty]
    simp [none, core, isEmpty]
  | false => simp

/-- The three numbers are read modulo `2 ^ 64`. -/
theorem Valid.parseMmp_eq :
    parseMmp spelling.numbersText =
      some (spelling.version.wrap.major, spelling.version.wrap.minor,
        spelling.version.wrap.patch) := by
  have digits : ∀ {digits : List Char}, isNumeric digits → isAllDigits digits := by
    intro digits numeric
    simp only [isNumeric, Bool.and_eq_true] at numeric
    exact numeric.1
  simp only [parseMmp, valid.splitOn_numbersText, digits valid.major, digits valid.minor,
    digits valid.patch, Bool.and_self, if_true, readUInt64_eq_number]
  rfl

theorem Valid.prereleaseIdents_eq (some : spelling.prerelease ≠ []) :
    prereleaseIdents spelling.prereleaseText = spelling.prerelease := by
  simp only [prereleaseIdents, valid.splitOn_prereleaseText some]
  split
  · rename_i last
    have mem := mem_of_getLast? last
    exact absurd rfl (isPrereleaseIdent_alnum (valid.prerelease [] mem)).1
  · rfl

theorem Valid.prereleaseText_eq_nil : spelling.prereleaseText = [] ↔ spelling.prerelease = [] := by
  constructor
  · intro none
    by_contra some
    have idents := valid.splitOn_prereleaseText some
    rw [none, splitOn_nil] at idents
    have nonempty := isPrereleaseIdent_alnum (valid.prerelease [] (by simp [← idents]))
    exact nonempty.1 rfl
  · intro none
    simp [prereleaseText, none]

end

end Spelling

/-- The comparison of two valid texts is the precedence of the versions that they spell, with
their numbers read into 64 bits. -/
theorem compareSemver_eq_wrap {a b : String} {first second : Spelling} (validA : first.Valid)
    (validB : second.Valid) (isA : a.toList = first.text) (isB : b.toList = second.text) :
    compareSemver a b = first.version.wrap.precedence second.version.wrap := by
  have release : ∀ spelling : Spelling, spelling.version.wrap.isRelease =
      spelling.prerelease.isEmpty := by
    simp [Version.isRelease, Version.wrap, Spelling.version]
  have idents : ∀ spelling : Spelling, spelling.version.wrap.prerelease =
      spelling.prerelease.map fun ident => (ofText ident).wrap := by
    simp [Version.wrap, Spelling.version]
  simp only [compareSemver, isA, isB, validA.splitSemver_text, validB.splitSemver_text,
    Bool.not_true, Bool.or_self, Bool.false_eq_true, if_false, validA.parseMmp_eq,
    validB.parseMmp_eq, Version.precedence, compareLex, compareOn, release, idents]
  congr 3
  split
  case h_1 noneA noneB =>
    simp [validA.prereleaseText_eq_nil.mp noneA, validB.prereleaseText_eq_nil.mp noneB]
  case h_2 noneA someB =>
    rw [validB.prereleaseText_eq_nil] at someB
    rw [validA.prereleaseText_eq_nil.mp noneA, isEmpty_eq_false_iff.mpr someB]
    rfl
  case h_3 noneB someA =>
    rw [validA.prereleaseText_eq_nil] at someA
    rw [validB.prereleaseText_eq_nil.mp noneB, isEmpty_eq_false_iff.mpr someA]
    rfl
  case h_4 someA someB _ =>
    rw [validA.prereleaseText_eq_nil] at someA
    rw [validB.prereleaseText_eq_nil] at someB
    rw [comparePrerelease, validA.prereleaseIdents_eq someA, validB.prereleaseIdents_eq someB,
      comparePrereleaseIdents_eq validA.prerelease validB.prerelease,
      isEmpty_eq_false_iff.mpr someA, isEmpty_eq_false_iff.mpr someB]
    rfl

end Comparison

def versionOf (s : String) : Version :=
  let core := s.toList.takeWhile (· != '+')
  let numbers := (core.takeWhile (· != '-')).splitOn '.'
  let prerelease := (core.dropWhile (· != '-')).drop 1
  { major := number (numbers.getD 0 [])
    minor := number (numbers.getD 1 [])
    patch := number (numbers.getD 2 [])
    prerelease := if prerelease.isEmpty then [] else (prerelease.splitOn '.').map ofText }

def withoutBuild (s : String) : List Char := s.toList.takeWhile (· != '+')

def Identifier.Fits : Identifier → Prop
  | .numeric value => value < 2 ^ 64
  | .alphanumeric _ => True

structure Version.Fits (version : Version) : Prop where
  major : version.major < 2 ^ 64
  minor : version.minor < 2 ^ 64
  patch : version.patch < 2 ^ 64
  prerelease : ∀ ident ∈ version.prerelease, ident.Fits

instance : Std.TransOrd Identifier where
  eq_swap {a b} := by
    cases a <;> cases b
    · exact Nat.compare_swap _ _ |>.symm
    · rfl
    · rfl
    · exact Std.OrientedOrd.eq_swap (a := (_ : List Char))
  isLE_trans {a b c} ab bc := by
    -- A text is never below a number, so the kinds can only go up along the chain.
    cases a with
    | numeric a =>
      cases c with
      | numeric c =>
        cases b with
        | numeric b => exact Std.TransOrd.isLE_trans (a := a) ab bc
        | alphanumeric b => cases bc
      | alphanumeric c => rfl
    | alphanumeric a =>
      cases b with
      | numeric b => cases ab
      | alphanumeric b =>
        cases c with
        | numeric c => cases bc
        | alphanumeric c => exact Std.TransOrd.isLE_trans (a := a) ab bc

instance : Std.LawfulEqOrd Identifier where
  compare_self {a} := by
    cases a <;> exact Std.ReflOrd.compare_self
  eq_of_compare {a b} same := by
    cases a <;> cases b
    · exact congrArg _ (Std.LawfulEqOrd.eq_of_compare same)
    · cases same
    · cases same
    · exact congrArg _ (Std.LawfulEqOrd.eq_of_compare same)

instance : Std.TransCmp Version.precedence :=
  inferInstanceAs (Std.TransCmp (compareLex _ _))

/-- Versions of one precedence are one version. -/
theorem Version.eq_of_precedence {a b : Version} (same : a.precedence b = .eq) : a = b := by
  simp only [precedence, compareLex, compareOn, Ordering.then_eq_eq,
    Std.LawfulEqOrd.compare_eq_iff_eq]
    at same
  rcases a with ⟨_, _, _, _⟩
  rcases b with ⟨_, _, _, _⟩
  simp_all

section Order

theorem number_eq_ofDigitChars (digits : List Char) :
    number digits = Nat.ofDigitChars 10 digits 0 := by
  simp only [number, Nat.ofDigitChars_eq_foldl, Nat.mul_comm]

theorem toDigits_number (numeric : isNumeric digits) :
    Nat.toDigits 10 (number digits) = digits := by
  rcases isDecimal_of_isNumeric numeric with ⟨nonempty, all⟩
  by_cases zero : digits.head? = some '0'
  · simp only [isNumeric, zero, bne_self_eq_false, Bool.or_false, Bool.and_eq_true, beq_iff_eq]
      at numeric
    rcases length_eq_one_iff.mp numeric.2 with ⟨c, rfl⟩
    cases zero
    rfl
  · rw [number_eq_ofDigitChars]
    exact toDigits_ofDigitChars nonempty all zero

theorem isNumeric_of_isPrereleaseIdent (valid : isPrereleaseIdent ident)
    (all : ident.all isDecimal) : isNumeric ident := by
  have nonempty := (isPrereleaseIdent_alnum valid).1
  simp only [isPrereleaseIdent, all, Bool.not_true, Bool.false_or, Bool.and_eq_true] at valid
  simp [isNumeric, isAllDigits, nonempty, all, valid.2]

def Identifier.text : Identifier → List Char
  | .numeric value => Nat.toDigits 10 value
  | .alphanumeric text => text

theorem Identifier.text_ofText (valid : isPrereleaseIdent ident) : (ofText ident).text = ident := by
  rw [ofText]
  split
  case isTrue all => exact toDigits_number (isNumeric_of_isPrereleaseIdent valid all)
  case isFalse => rfl

namespace Spelling

variable {spelling : Spelling} {s : String}

section

variable (valid : spelling.Valid)
include valid

theorem Valid.withoutBuild_eq (isText : s.toList = spelling.text) :
    withoutBuild s = spelling.core := by
  rw [withoutBuild, isText, valid.takeWhile_plus]

theorem Valid.versionOf_eq (isText : s.toList = spelling.text) :
    versionOf s = spelling.version := by
  simp only [versionOf, isText, valid.takeWhile_plus, valid.takeWhile_dash,
    valid.splitOn_numbersText]
  cases isEmpty : spelling.prerelease.isEmpty with
  | true => simp [version, List.isEmpty_iff.mp isEmpty]
  | false =>
    have some : spelling.prerelease ≠ [] := by simpa using isEmpty
    simp [version, valid.prereleaseText_eq_nil, some, valid.splitOn_prereleaseText some]

theorem Valid.isSemverValid (isText : s.toList = spelling.text) : isSemverValid s := by
  have consumed : ∀ tail : List Char, (∀ c ∈ tail.head?, isDecimal c = false) →
      consumeMajorMinorPatch (spelling.major ++ '.' :: (spelling.minor ++ '.' ::
        (spelling.patch ++ tail))) = some tail := by
    intro tail stops
    have dot : ∀ rest : List Char, ∀ c ∈ ('.' :: rest).head?, isDecimal c = false := by
      intro rest c isHead
      cases isHead
      decide
    simp [consumeMajorMinorPatch,
      consumeNumeric_eq_some.mpr ⟨spelling.major, valid.major, rfl, dot _⟩,
      consumeNumeric_eq_some.mpr ⟨spelling.minor, valid.minor, rfl, dot _⟩,
      consumeNumeric_eq_some.mpr ⟨spelling.patch, valid.patch, rfl, stops⟩, consumeDot]
  have ends : ∃ tail, spelling.text = spelling.core ++ tail ∧
      (tail = [] ∨ ∃ build, tail = '+' :: build ∧ isBuild build) := by
    cases build : spelling.build with
    | none => exact ⟨[], by simp [text, build], .inl rfl⟩
    | some text => exact ⟨_, by simp [Spelling.text, build],
        .inr ⟨text, rfl, valid.build text build⟩⟩
  rcases ends with ⟨tail, isTail, isEnd⟩
  have plus : ∀ c ∈ tail.head?, c = '+' := by
    rcases isEnd with rfl | ⟨build, rfl, -⟩ <;> simp
  simp only [Packages.isSemverValid, isText, isTail, core, append_assoc, cons_append]
  cases isEmpty : spelling.prerelease.isEmpty with
  | true =>
    simp only [if_true, nil_append]
    rw [consumed tail fun c isHead => by rw [plus c isHead]; decide]
    rcases isEnd with rfl | ⟨build, rfl, isBuild⟩
    · rfl
    · simp [isBuild]
  | false =>
    have some : spelling.prerelease ≠ [] := by simpa using isEmpty
    rcases takeWhile_ne valid.plus_not_mem_prereleaseText plus with ⟨taken, dropped⟩
    simp only [Bool.false_eq_true, if_false, cons_append]
    rw [consumed _ (by simp; decide)]
    simp only [consumePrerelease, taken, dropped, valid.splitOn_prereleaseText some,
      all_eq_true.mpr valid.prerelease, if_true]
    rcases isEnd with rfl | ⟨build, rfl, isBuild⟩
    · rfl
    · simp [isBuild]

theorem Valid.prerelease_eq :
    spelling.prerelease = spelling.version.prerelease.map Identifier.text := by
  rw [version, map_map]
  refine ((map_congr_left fun ident mem => ?_).trans (map_id _)).symm
  exact Identifier.text_ofText (valid.prerelease ident mem)

/-- A version has one spelling, its build apart. -/
theorem Valid.core_injective {other : Spelling} (validOther : other.Valid)
    (same : spelling.version = other.version) : spelling.core = other.core := by
  have written {digits others : List Char} (numeric : isNumeric digits)
      (numericOther : isNumeric others) (same : number digits = number others) :
      digits = others := by
    rw [← toDigits_number numeric, same, toDigits_number numericOther]
  have major := written valid.major validOther.major (congrArg Version.major same)
  have minor := written valid.minor validOther.minor (congrArg Version.minor same)
  have patch := written valid.patch validOther.patch (congrArg Version.patch same)
  have prerelease : spelling.prerelease = other.prerelease := by
    rw [valid.prerelease_eq, same, ← validOther.prerelease_eq]
  simp only [core, prereleaseText, major, minor, patch, prerelease]

end

end Spelling

theorem Identifier.wrap_of_fits {ident : Identifier} (fits : ident.Fits) : ident.wrap = ident := by
  cases ident with
  | numeric value => exact congrArg _ (Nat.mod_eq_of_lt fits)
  | alphanumeric => rfl

theorem Version.Fits.wrap_eq {version : Version} (fits : version.Fits) :
    version.wrap = version := by
  have prerelease : version.prerelease.map Identifier.wrap = version.prerelease :=
    (map_congr_left fun ident mem =>
      Identifier.wrap_of_fits (fits.prerelease ident mem)).trans (map_id _)
  simp only [wrap, Nat.mod_eq_of_lt fits.major, Nat.mod_eq_of_lt fits.minor,
    Nat.mod_eq_of_lt fits.patch, prerelease]

/-- Versions whose numbers fit are compared by precedence. -/
theorem compareSemver_of_fits {a b : String} (validA : isSemverValid a)
    (validB : isSemverValid b) (fitsA : (versionOf a).Fits) (fitsB : (versionOf b).Fits) :
    compareSemver a b = (versionOf a).precedence (versionOf b) := by
  rcases exists_spelling validA with ⟨first, isFirst, textA⟩
  rcases exists_spelling validB with ⟨second, isSecond, textB⟩
  rw [compareSemver_eq_wrap isFirst isSecond textA textB, ← isFirst.versionOf_eq textA,
    ← isSecond.versionOf_eq textB, fitsA.wrap_eq, fitsB.wrap_eq]

theorem isNumeric_toDigits (n : Nat) : isNumeric (Nat.toDigits 10 n) := by
  have decimals : ∀ c ∈ Nat.toDigits 10 n, isDecimal c := fun c mem =>
    Nat.isDigit_of_mem_toDigits (by decide) (by decide) mem
  rcases Nat.eq_zero_or_pos n with rfl | positive
  · decide
  · simpa [isNumeric, isAllDigits, head?_toDigits positive] using decimals

theorem isPrereleaseIdent_of_isNumeric (numeric : isNumeric digits) : isPrereleaseIdent digits := by
  rcases isDecimal_of_isNumeric numeric with ⟨nonempty, all⟩
  have alnum : ∀ c ∈ digits, isAlnumOrDash c := fun c mem => by simp [isAlnumOrDash, all c mem]
  simp only [isNumeric, Bool.and_eq_true] at numeric
  simpa [isPrereleaseIdent, nonempty, numeric.2, Bool.or_assoc] using alnum

theorem number_toDigits (n : Nat) : number (Nat.toDigits 10 n) = n := by
  rw [number_eq_ofDigitChars, Nat.ofDigitChars_toDigits (by decide) (by decide)]

theorem Identifier.ofText_wrap_text (ident : List Char) :
    ofText (ofText ident).wrap.text = (ofText ident).wrap := by
  by_cases all : ident.all isDecimal
  · have decimals := (isDecimal_of_isNumeric (isNumeric_toDigits (number ident % 2 ^ 64))).2
    simp only [ofText, all, if_true, wrap, text, all_eq_true.mpr decimals, number_toDigits]
  · simp [ofText, all, wrap, text]

theorem Identifier.isPrereleaseIdent_wrap_text (valid : isPrereleaseIdent ident) :
    isPrereleaseIdent (ofText ident).wrap.text := by
  by_cases all : ident.all isDecimal
  · simp only [ofText, all, if_true, wrap, text]
    exact isPrereleaseIdent_of_isNumeric (isNumeric_toDigits _)
  · simpa [ofText, all, wrap, text] using valid

theorem Version.wrap_fits (version : Version) : version.wrap.Fits := by
  have bound : ∀ value, value % 2 ^ 64 < 2 ^ 64 := fun value => Nat.mod_lt value (by decide)
  refine ⟨bound _, bound _, bound _, ?_⟩
  intro ident mem
  rcases mem_map.mp mem with ⟨read, -, rfl⟩
  cases read with
  | numeric => exact bound _
  | alphanumeric => trivial

def Spelling.wrapped (spelling : Spelling) : Spelling where
  major := Nat.toDigits 10 spelling.version.wrap.major
  minor := Nat.toDigits 10 spelling.version.wrap.minor
  patch := Nat.toDigits 10 spelling.version.wrap.patch
  prerelease := spelling.prerelease.map fun ident => (ofText ident).wrap.text
  build := none

/-- The wrapped spelling spells the wrapped version. -/
theorem Spelling.version_wrapped (spelling : Spelling) :
    spelling.wrapped.version = spelling.version.wrap := by
  simp [wrapped, version, Version.wrap, number_toDigits, Identifier.ofText_wrap_text]

theorem Spelling.Valid.wrapped {spelling : Spelling} (valid : spelling.Valid) :
    spelling.wrapped.Valid := by
  refine ⟨isNumeric_toDigits _, isNumeric_toDigits _, isNumeric_toDigits _, ?_, by rintro _ ⟨⟩⟩
  intro ident mem
  rcases mem_map.mp mem with ⟨read, isRead, rfl⟩
  exact Identifier.isPrereleaseIdent_wrap_text (valid.prerelease read isRead)

/-- An upload over a live version whose numbers fit is an upgrade exactly if it ranks higher. -/
theorem classifyUploadingCollision_of_fits {db : Database} {name incoming : String}
    {existing : PackageRow}
    (found : classifyUploadingCollision db name incoming = .upgradeCandidate existing ∨
      classifyUploadingCollision db name incoming = .versionNotNewer existing)
    (validIncoming : isSemverValid incoming)
    (validExisting : isSemverValid existing.version)
    (fitsIncoming : (versionOf incoming).Fits) (fitsExisting : (versionOf existing.version).Fits) :
    classifyUploadingCollision db name incoming = .upgradeCandidate existing ↔
      (versionOf incoming).precedence (versionOf existing.version) = .gt := by
  rw [← compareSemver_of_fits validIncoming validExisting fitsIncoming fitsExisting]
  simp only [classifyUploadingCollision] at found ⊢
  split at found
  case h_1 => simp at found
  case h_2 row isRow =>
  split at found
  case isTrue => simp at found
  case isFalse enabled =>
  have same : row = existing := by
    split at found <;> simpa using found
  subst same
  simp only [enabled, ↓reduceIte]
  split <;> rename_i newer <;> simp [newer]

/-- The comparison of a valid version with the versions whose numbers fit into 64 bits is the
precedence exactly if its own numbers fit. On those versions it is a total preorder whose equal
versions differ in build metadata only, and an upload is an upgrade if it ranks higher. -/
theorem compareSemver_isPrecedence_iff (a : String) (validA : isSemverValid a = true) :
    ((∀ b : String, isSemverValid b = true → (versionOf b).Fits →
      compareSemver a b = (versionOf a).precedence (versionOf b)) ↔ (versionOf a).Fits) ∧
    (∀ b c : String, isSemverValid b = true → isSemverValid c = true →
      (versionOf a).Fits → (versionOf b).Fits → (versionOf c).Fits →
      (compareSemver a b = .eq ↔ withoutBuild a = withoutBuild b) ∧
        compareSemver b a = (compareSemver a b).swap ∧
        ((compareSemver a b).isLE = true → (compareSemver b c).isLE = true →
          (compareSemver a c).isLE = true)) ∧
    ∀ (db : Database) (name : String) (existing : PackageRow),
      classifyUploadingCollision db name a = .upgradeCandidate existing ∨
        classifyUploadingCollision db name a = .versionNotNewer existing →
      isSemverValid existing.version = true →
      (versionOf a).Fits → (versionOf existing.version).Fits →
      (classifyUploadingCollision db name a = .upgradeCandidate existing ↔
        (versionOf a).precedence (versionOf existing.version) = .gt) := by
  refine ⟨?_, ?_, ?_⟩
  · constructor
    · intro agrees
      rcases exists_spelling validA with ⟨spelling, valid, isText⟩
      -- compared with the version that is read for it, the version is equal
      have textB : (String.ofList spelling.wrapped.text).toList = spelling.wrapped.text :=
        String.toList_ofList
      have versionB := (valid.wrapped.versionOf_eq textB).trans spelling.version_wrapped
      have fitsB := spelling.version.wrap_fits
      have compared := agrees _ (valid.wrapped.isSemverValid textB) (versionB ▸ fitsB)
      rw [compareSemver_eq_wrap valid valid.wrapped isText textB, valid.versionOf_eq isText,
        versionB, spelling.version_wrapped, fitsB.wrap_eq] at compared
      rw [valid.versionOf_eq isText,
        Version.eq_of_precedence (compared.symm.trans Std.ReflCmp.compare_self)]
      exact fitsB
    · intro fitsA b validB fitsB
      exact compareSemver_of_fits validA validB fitsA fitsB
  · intro b c validB validC fitsA fitsB fitsC
    rw [compareSemver_of_fits validA validB fitsA fitsB,
      compareSemver_of_fits validB validA fitsB fitsA,
      compareSemver_of_fits validB validC fitsB fitsC,
      compareSemver_of_fits validA validC fitsA fitsC]
    refine ⟨?_, Std.OrientedCmp.eq_swap, Std.TransCmp.isLE_trans⟩
    rcases exists_spelling validA with ⟨first, isFirst, textA⟩
    rcases exists_spelling validB with ⟨second, isSecond, textB⟩
    constructor
    · intro same
      have versions := Version.eq_of_precedence same
      rw [isFirst.versionOf_eq textA, isSecond.versionOf_eq textB] at versions
      rw [isFirst.withoutBuild_eq textA, isSecond.withoutBuild_eq textB,
        isFirst.core_injective isSecond versions]
    · intro same
      have versions : versionOf a = versionOf b := by
        have cores : a.toList.takeWhile (· != '+') = b.toList.takeWhile (· != '+') := same
        simp only [versionOf, cores]
      rw [versions]
      exact Std.ReflCmp.compare_self
  · intro db name existing found validExisting fitsA fitsExisting
    exact classifyUploadingCollision_of_fits found validA validExisting fitsA fitsExisting

def candidateDatabase : Database := { World.fresh.db with
  packages :=
    { rows := [{
        id := "p1"
        name := "notes"
        version := "1.2.0-rc.1+x"
        state := .active
        provenance := .user
        entryPoint := "server/index.js"
        manifestChecksum := "" }]
      unique := by decide
      versions := by decide
      liveNames := by decide
      readyNames := by decide
      activeMounts := by decide
      readyServing := by decide } }

theorem compareSemver_isPrecedence_candidate :
    ((∀ b : String, isSemverValid b = true → (versionOf b).Fits →
      compareSemver "1.2.0-rc.1+x" b = (versionOf "1.2.0-rc.1+x").precedence (versionOf b)) ↔
        (versionOf "1.2.0-rc.1+x").Fits) ∧
      (compareSemver "1.2.0-rc.1+x" "1.2.0-rc.1+y" = .eq ↔
        withoutBuild "1.2.0-rc.1+x" = withoutBuild "1.2.0-rc.1+y") ∧
      ∃ existing, classifyUploadingCollision candidateDatabase "notes" "1.2.0-rc.1+y" =
          .versionNotNewer existing ∧
        (classifyUploadingCollision candidateDatabase "notes" "1.2.0-rc.1+y" =
            .upgradeCandidate existing ↔
          (versionOf "1.2.0-rc.1+y").precedence (versionOf existing.version) = .gt) := by
  have fits : ∀ version : Version, version = ⟨1, 2, 0, [.alphanumeric ['r', 'c'], .numeric 1]⟩ →
      version.Fits := by
    rintro _ rfl
    refine ⟨by decide, by decide, by decide, ?_⟩
    intro ident mem
    simp only [mem_cons, not_mem_nil, or_false] at mem
    rcases mem with rfl | rfl
    · trivial
    · exact (by decide : 1 < 2 ^ 64)
  have first := fits (versionOf "1.2.0-rc.1+x") (by decide)
  have second := fits (versionOf "1.2.0-rc.1+y") (by decide)
  rcases compareSemver_isPrecedence_iff "1.2.0-rc.1+x" (by decide) with ⟨iff, order, -⟩
  rcases compareSemver_isPrecedence_iff "1.2.0-rc.1+y" (by decide) with ⟨-, -, uploads⟩
  exact ⟨iff, (order "1.2.0-rc.1+y" "1.2.0-rc.1+y" (by decide) (by decide) first second second).1,
    _, rfl, uploads _ _ _ (.inr rfl) (by decide) second first⟩

/-- A major number of `2 ^ 64` is read as zero. -/
theorem compareSemver_wraps :
    isSemverValid "18446744073709551616.0.0" = true ∧ isSemverValid "1.0.0" = true ∧
      compareSemver "18446744073709551616.0.0" "1.0.0" = .lt ∧
      (versionOf "18446744073709551616.0.0").precedence (versionOf "1.0.0") = .gt := by
  decide

end Order

end Plinth.Packages
