import Plinth.Capabilities.Signature
import Plinth.Core.Decimal

/-!
# The spelling of capability signatures

`make_signature` writes what `parse_signature` reads. The other way round a text is written back
as it was read exactly if its version has no leading zero.
-/

namespace Plinth.Capabilities

open List

def spell (ns : String) (version : Int) (fn : String) : String :=
  ns ++ ":" ++ toString version ++ ":" ++ fn

def makeSignature (reg : CapabilityRegistration) : String :=
  spell reg.namespace_ reg.version reg.function

section Decimals

variable {digits : List Char} {n : Nat}

theorem isDigit_of_mem_toDigits {c : Char} (mem : c ∈ Nat.toDigits 10 n) : isDigit c := by
  have digit := Nat.isDigit_of_mem_toDigits (by decide) (by decide) mem
  simpa [Char.isDigit, isDigit, Char.le_def] using digit

/-- A version is a number of digits that fits an `int`, leading zeros included. -/
theorem decimalInt?_eq_some : decimalInt? digits = some n ↔
    digits ≠ [] ∧ (∀ c ∈ digits, isDigit c) ∧ n < 2 ^ 31 ∧ Nat.ofDigitChars 10 digits 0 = n := by
  have value : digits.foldl (fun acc c => acc * 10 + (c.toNat - '0'.toNat)) 0 =
      Nat.ofDigitChars 10 digits 0 := by
    simp only [Nat.ofDigitChars_eq_foldl, Nat.mul_comm]
  simp only [decimalInt?, value, Option.ite_none_right_eq_some, Bool.and_eq_true, Bool.not_eq_true',
    isEmpty_eq_false_iff, all_eq_true, decide_eq_true_eq, Option.some.injEq]
  constructor
  · rintro ⟨⟨⟨nonempty, all⟩, small⟩, rfl⟩
    exact ⟨nonempty, all, small, rfl⟩
  · rintro ⟨nonempty, all, small, rfl⟩
    exact ⟨⟨⟨nonempty, all⟩, small⟩, rfl⟩

end Decimals

theorem colon_not_mem {text : List Char} {isPart : Char → Bool} (all : ∀ c ∈ text, isPart c)
    (excluded : isPart ':' = false) : ':' ∉ text := by
  intro mem
  have := all ':' mem
  rw [excluded] at this
  cases this

theorem validateNamespace_none {ns : String} (valid : validateNamespace ns = none) :
    ns.toList ≠ [] ∧ ':' ∉ ns.toList := by
  rw [validateNamespace] at valid
  split at valid
  case h_2 => cases valid
  case h_1 first tail isList =>
  simp only [ite_eq_left_iff, reduceCtorEq, imp_false, not_not, Bool.and_eq_true,
    all_eq_true] at valid
  rw [isList]
  refine ⟨cons_ne_nil _ _, @colon_not_mem _ isNamespaceTail ?_ rfl⟩
  exact forall_mem_cons.mpr ⟨by simp [isNamespaceTail, valid.1.2], valid.2⟩

theorem validateFunction_none {fn : String} (valid : validateFunction fn = none) :
    fn.toList ≠ [] ∧ ':' ∉ fn.toList := by
  rw [validateFunction] at valid
  split at valid
  case h_2 => cases valid
  case h_1 first tail isList =>
  simp only [ite_eq_left_iff, reduceCtorEq, imp_false, not_not, Bool.and_eq_true,
    all_eq_true] at valid
  rw [isList]
  refine ⟨cons_ne_nil _ _, @colon_not_mem _ isFunctionTail ?_ rfl⟩
  exact forall_mem_cons.mpr ⟨by simp [isFunctionTail, valid.1.1.1.2], valid.1.2⟩

theorem toList_spell (ns : String) (version : Nat) (fn : String) :
    (spell ns version fn).toList =
      [':'].intercalate [ns.toList, Nat.toDigits 10 version, fn.toList] := by
  have isDecimal : toString (version : Int) = String.ofList (Nat.toDigits 10 version) :=
    Nat.toString_eq_ofList_toDigits
  simp [spell, isDecimal, intercalate]

/-- What is accepted: three parts that pass their checks. -/
theorem parseSignature_eq_ok {signature : String} {parsed : ParsedSignature} :
    parseSignature signature = .ok parsed ↔ ∃ digits,
      signature.toList.splitOn ':' = [parsed.namespace_.toList, digits, parsed.function.toList] ∧
      decimalInt? digits = some parsed.version ∧ validateNamespace parsed.namespace_ = none ∧
      0 < parsed.version ∧ validateFunction parsed.function = none := by
  constructor
  · intro accepted
    rw [parseSignature] at accepted
    split at accepted
    case h_2 => cases accepted
    case h_1 ns version fn split =>
    split at accepted
    · cases accepted
    split at accepted
    · cases accepted
    case h_2 value isValue =>
    dsimp only at accepted
    split at accepted
    · cases accepted
    case h_2 valid =>
    cases accepted
    simp only [Option.or_eq_none_iff, validateVersion, ite_eq_right_iff, reduceCtorEq,
      imp_false] at valid
    refine ⟨version, ?_, isValue, valid.1, ?_, valid.2.2⟩
    · simpa using split
    · have := valid.2.1
      dsimp only
      omega
  · rintro ⟨digits, split, isVersion, validNs, positive, validFn⟩
    have version : validateVersion parsed.version = none := if_neg (by omega)
    have nonempty := (decimalInt?_eq_some.mp isVersion).1
    simp [parseSignature, split, isVersion, version, validNs, validFn, nonempty,
      (validateNamespace_none validNs).1, (validateFunction_none validFn).1]

/-- A registration that the validators accept; its version is an `int`. -/
structure Registrable (reg : CapabilityRegistration) : Prop where
  valid : validateRegistration reg = none
  fits : reg.version < 2 ^ 31

def CapabilityRegistration.triple (reg : CapabilityRegistration) : ParsedSignature :=
  ⟨reg.namespace_, reg.version.toNat, reg.function⟩

open CapabilityRegistration (triple)

theorem Registrable.make_eq {reg : CapabilityRegistration} (registrable : Registrable reg) :
    makeSignature reg = spell reg.triple.namespace_ reg.triple.version reg.triple.function := by
  have valid := registrable.valid
  simp only [validateRegistration, Option.or_eq_none_iff, validateVersion, ite_eq_right_iff,
    reduceCtorEq, imp_false] at valid
  have isNat : (reg.version.toNat : Int) = reg.version := Int.toNat_of_nonneg (by omega)
  simp only [makeSignature, triple, isNat]

/-- What registration writes, resolution reads back. -/
theorem Registrable.parse_make {reg : CapabilityRegistration} (registrable : Registrable reg) :
    parseSignature (makeSignature reg) = .ok reg.triple := by
  have valid := registrable.valid
  have fits := registrable.fits
  simp only [validateRegistration, Option.or_eq_none_iff, validateVersion, ite_eq_right_iff,
    reduceCtorEq, imp_false] at valid
  rcases valid with ⟨⟨⟨⟨⟨⟨⟨⟨validNs, positive⟩, validFn⟩, -⟩, -⟩, -⟩, -⟩, -⟩, -⟩
  refine parseSignature_eq_ok.mpr ⟨Nat.toDigits 10 reg.triple.version, ?_, ?_, validNs, ?_, validFn⟩
  · rw [registrable.make_eq, toList_spell]
    refine splitOn_intercalate ':' ?_ (by simp)
    simp only [mem_cons, not_mem_nil, or_false, forall_eq_or_imp, forall_eq]
    exact ⟨(validateNamespace_none validNs).2,
      colon_not_mem (fun c mem => isDigit_of_mem_toDigits mem) rfl,
      (validateFunction_none validFn).2⟩
  · refine decimalInt?_eq_some.mpr ⟨Nat.toDigits_ne_nil, fun c mem => isDigit_of_mem_toDigits mem,
      ?_, Nat.ofDigitChars_ten_toDigits⟩
    simp only [triple]
    omega
  · simp only [triple]
    omega

def versionStart (signature : String) : Option Char :=
  (signature.toList.splitOn ':')[1]?.bind head?

/-- A text is what is written for what is read from it, and it stands for the registrations with
these parts. -/
structure Spelled (signature : String) (parsed : ParsedSignature) : Prop where
  written : spell parsed.namespace_ parsed.version parsed.function = signature
  found : ∀ regs : List CapabilityRegistration, (∀ reg ∈ regs, Registrable reg) →
    regs.filter (fun reg => makeSignature reg = signature) =
      regs.filter fun reg => reg.triple = parsed

/-- Resolution reads a written signature back, and an accepted text is the spelling of what it names
exactly if its version has no leading zero. -/
theorem spelled_iff {reg : CapabilityRegistration} (registrable : Registrable reg)
    {signature : String} {parsed : ParsedSignature}
    (accepted : parseSignature signature = .ok parsed) :
    parseSignature (makeSignature reg) = .ok reg.triple ∧
      (Spelled signature parsed ↔ versionStart signature ≠ some '0') := by
  refine ⟨registrable.parse_make, ?_⟩
  rcases parseSignature_eq_ok.mp accepted with ⟨digits, split, isVersion, -, positive, -⟩
  rcases decimalInt?_eq_some.mp isVersion with ⟨nonempty, all, -, value⟩
  have start : versionStart signature = digits.head? := by simp [versionStart, split]
  have written : spell parsed.namespace_ parsed.version parsed.function = signature ↔
      digits.head? ≠ some '0' := by
    have whole : [':'].intercalate (signature.toList.splitOn ':') = signature.toList :=
      intercalate_splitOn ':'
    rw [split] at whole
    have digitsOf : Nat.toDigits 10 parsed.version = digits ↔ digits.head? ≠ some '0' := by
      constructor
      · rintro rfl
        exact Core.head?_toDigits positive
      · exact fun noZero => value ▸ Core.toDigits_ofDigitChars nonempty all noZero
    rw [← String.toList_inj, toList_spell, ← whole, ← digitsOf]
    simp [intercalate]
  rw [start, ← written]
  refine ⟨Spelled.written, fun isWritten => ⟨isWritten, fun regs registrable => ?_⟩⟩
  refine filter_congr fun other mem => decide_eq_decide.mpr ?_
  constructor
  · rintro rfl
    exact Except.ok.inj ((registrable other mem).parse_make.symm.trans accepted)
  · rintro rfl
    rw [(registrable other mem).make_eq, isWritten]

theorem spelled_shell :
    parseSignature "fs:1:read" = .ok ⟨"fs", 1, "read"⟩ ∧
      Spelled "terminal:12:shell" ⟨"terminal", 12, "shell"⟩ := by
  have registrable : Registrable ⟨"fs", 1, "read", "fs.read", "kernel", "instance", "", none⟩ :=
    ⟨by decide +kernel, by decide⟩
  have accepted : parseSignature "terminal:12:shell" = .ok ⟨"terminal", 12, "shell"⟩ := by
    decide +kernel
  exact ⟨(spelled_iff registrable accepted).1,
    (spelled_iff registrable accepted).2.mpr (by decide +kernel)⟩

theorem leadingZero_accepted :
    parseSignature "fs:01:read" = parseSignature "fs:1:read" ∧
      parseSignature "fs:01:read" = .ok ⟨"fs", 1, "read"⟩ ∧
      spell "fs" 1 "read" ≠ "fs:01:read" := by
  decide +kernel

end Plinth.Capabilities
