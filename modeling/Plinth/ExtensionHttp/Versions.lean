import Plinth.Packages.SemverPrecedence

/-!
# Versions in dispatch contexts

Model of `valid_version` in `extension_http/codec.cpp`, which scans a version once more when it is
sent to an extension. A text is the list of its bytes, each as the character of its code.
-/

namespace Plinth.ExtensionHttp

open List Core Packages

def versionField (text : List Char) : Option (List Char) :=
  let digits := text.takeWhile isDecimal
  if digits.isEmpty || (1 < digits.length && digits.head? == some '0') then none
  else some (text.dropWhile isDecimal)

/-- The loop over the fields, with the number of those that follow. -/
def versionFields : ℕ → List Char → Option (List Char)
  | 0, text => versionField text
  | following + 1, text =>
    match versionField text with
    | some ('.' :: rest) => versionFields following rest
    | _ => none

def isVersionIdentifier (delimiter : Char) (ident : List Char) : Bool :=
  !ident.isEmpty && !(delimiter == '-' && ident.all isDecimal && 1 < ident.length &&
    ident.head? == some '0')

/-- The loop over the identifiers after a delimiter, with what it has read of the current one. -/
def versionIdentifiers (delimiter : Char) (ident : List Char) : List Char → Option (List Char)
  | [] => if isVersionIdentifier delimiter ident then some [] else none
  | c :: rest =>
    if isAlnumOrDash c then versionIdentifiers delimiter (ident ++ [c]) rest
    else if !isVersionIdentifier delimiter ident then none
    else if c = '.' then versionIdentifiers delimiter [] rest
    else some (c :: rest)

def versionSuffix (delimiter : Char) : List Char → Option (List Char)
  | [] => some []
  | c :: rest => if c = delimiter then versionIdentifiers delimiter [] rest else some (c :: rest)

def validVersion (text : List Char) : Bool :=
  !text.isEmpty && text.length ≤ 256 &&
    ((versionFields 2 text).bind (versionSuffix '-')).bind (versionSuffix '+') == some []

variable {text rest ident : List Char} {delimiter : Char}

theorem versionField_eq (text : List Char) : versionField text = consumeNumeric text := by
  have decimal : (text.takeWhile isDecimal).all isDecimal := all_takeWhile
  simp only [versionField, consumeNumeric, isNumeric, isAllDigits, decimal]
  cases text.takeWhile isDecimal with
  | nil => simp
  | cons c digits =>
    cases digits with
    | nil => simp
    | cons d digits => by_cases isZero : c = '0' <;> simp [isZero]

/-- The three numbers are read as the kernel reads them. -/
theorem versionFields_eq (text : List Char) :
    versionFields 2 text = consumeMajorMinorPatch text := by
  have dot (following : ℕ) (text : List Char) : versionFields (following + 1) text =
      (consumeNumeric text).bind fun s => (consumeDot s).bind (versionFields following) := by
    rw [versionFields, versionField_eq]
    cases consumeNumeric text with
    | none => rfl
    | some s =>
      simp only [consumeDot, Option.bind_some]
      split <;> simp_all
  have last : versionFields 0 = consumeNumeric := funext versionField_eq
  simp only [dot, last, consumeMajorMinorPatch]

def isVersionPart (delimiter : Char) (part : List Char) : Bool :=
  part.all isAlnumOrDash && isVersionIdentifier delimiter part

theorem isPrereleaseIdent_eq : isPrereleaseIdent = isVersionPart '-' := by
  funext ident
  cases ident with
  | nil => rfl
  | cons c rest =>
    cases rest <;> by_cases isZero : c = '0' <;>
      simp [isVersionPart, isVersionIdentifier, isPrereleaseIdent, isZero, bne]

theorem isBuildIdent_eq : isBuildIdent = isVersionPart '+' := by
  funext ident
  simp [isBuildIdent, isVersionPart, isVersionIdentifier]

/-- The loop against the manifest's rule, which looks for what ends the identifiers first. -/
theorem versionIdentifiers_eq_some {keeps : Char → Bool}
    (apart : ∀ c, keeps c = false → isAlnumOrDash c = false ∧ c ≠ '.')
    (alnum : ident.all isAlnumOrDash) (ends : ∀ c ∈ rest.head?, keeps c = false) :
    versionIdentifiers delimiter ident text = some rest ↔
      ((ident ++ text.takeWhile keeps).splitOn '.').all (isVersionPart delimiter) ∧
        text.dropWhile keeps = rest := by
  have noDot {ident : List Char} (alnum : ident.all isAlnumOrDash) : '.' ∉ ident :=
    fun mem => absurd (all_eq_true.mp alnum _ mem) (by decide)
  induction text generalizing ident with
  | nil => simp [versionIdentifiers, splitOn_eq_singleton (noDot alnum), isVersionPart, alnum]
  | cons c text ih =>
    rw [versionIdentifiers]
    by_cases isAlnum : isAlnumOrDash c
    · have goesOn : keeps c := by
        by_contra stops
        simp [(apart c (by simpa using stops)).1] at isAlnum
      simpa [goesOn, isAlnum] using @ih (ident ++ [c]) (by simp_all)
    rw [if_neg isAlnum]
    cases isKept : keeps c with
    | false =>
      simp [isKept, (apart c isKept).2, splitOn_eq_singleton (noDot alnum), isVersionPart, alnum]
    | true =>
      by_cases isDot : c = '.'
      · have later := @ih [] rfl
        simp_all [splitOn_append_cons_self_of_not_mem (noDot alnum), isVersionPart, and_assoc]
      · refine iff_of_false ?_ fun ⟨valid, _⟩ => ?_
        · have other : c :: text ≠ rest := by
            rintro rfl
            simp [ends c rfl] at isKept
          simp [isDot, other]
        have inText : c ∈ ident ++ (c :: text).takeWhile keeps := by simp [isKept]
        rcases exists_mem_splitOn_iff.mpr ⟨inText, isDot⟩ with ⟨part, isPart, inPart⟩
        have isValid := all_eq_true.mp valid part isPart
        rw [isVersionPart, Bool.and_eq_true, all_eq_true] at isValid
        exact isAlnum (isValid.1 c inPart)

/-- The codec and the manifest accept the same versions, up to the length. -/
theorem validVersion_iff (text : List Char) :
    validVersion text ↔ isSemverValid (String.ofList text) ∧ text.length ≤ 256 := by
  have build (mid : List Char) : versionSuffix '+' mid = some [] ↔
      mid = [] ∨ ∃ build, mid = '+' :: build ∧ isBuild build := by
    cases mid with
    | nil => simp [versionSuffix]
    | cons c build =>
      have reads := @versionIdentifiers_eq_some build [] [] '+' (fun _ => true) nofun rfl (by simp)
      rw [takeWhile_eq_self_iff.mpr (by simp), dropWhile_eq_nil_iff.mpr (by simp)] at reads
      by_cases isPlus : c = '+' <;> simp_all [versionSuffix, isBuild, isBuildIdent_eq]
  have mids (after mid : List Char) (isBuild : versionSuffix '+' mid = some []) :
      versionSuffix '-' after = some mid ↔
        (if after.head? = some '-' then consumePrerelease after.tail else some after) =
          some mid := by
    have apart (c : Char) (ends : (c != '+') = false) : isAlnumOrDash c = false ∧ c ≠ '.' := by
      rcases bne_eq_false_iff_eq.mp ends with rfl
      decide
    have plus : ∀ c ∈ mid.head?, (c != '+') = false := by
      rcases (build mid).mp isBuild with rfl | ⟨text, rfl, -⟩ <;> simp
    cases after with
    | nil => simp [versionSuffix]
    | cons c rest =>
      by_cases isDash : c = '-'
      · simp only [versionSuffix, isDash, head?_cons, tail_cons, if_true]
        rw [consumePrerelease, isPrereleaseIdent_eq, Option.ite_none_right_eq_some, Option.some_inj]
        exact versionIdentifiers_eq_some apart rfl plus
      · simp [versionSuffix, isDash]
  have nonempty (after : List Char) (consumed : consumeMajorMinorPatch text = some after) :
      text.isEmpty = false := by
    cases text with
    | nil => cases consumed
    | cons c text => rfl
  simp only [isSemverValid_iff, validVersion, versionFields_eq, String.toList_ofList,
    Bool.and_eq_true, beq_iff_eq, Option.bind_eq_some_iff, decide_eq_true_eq]
  constructor
  · rintro ⟨⟨-, short⟩, mid, ⟨after, consumed, isMid⟩, isBuild⟩
    exact ⟨⟨after, mid, consumed, (mids after mid isBuild).mp isMid, (build mid).mp isBuild⟩, short⟩
  · rintro ⟨⟨after, mid, consumed, isMid, ends⟩, short⟩
    have isBuild := (build mid).mpr ends
    refine ⟨⟨?_, short⟩, mid, ⟨after, consumed, (mids after mid isBuild).mpr isMid⟩, isBuild⟩
    rw [nonempty after consumed]
    rfl

end Plinth.ExtensionHttp
