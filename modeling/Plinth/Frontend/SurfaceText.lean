import Plinth.Packages.RestoreJson

/-!
# Texts of the surface protocol

The grammars of the identifiers, digests and names that the surface protocol reads and writes.
Every one of them is a text of plain bytes, which JSON writes as they are.
-/

namespace Plinth.Frontend

open Plinth.Core Plinth.Core.JsonText Plinth.Packages List

/-- A byte that JSON writes as it is and that is a scalar value of its own. -/
def isPlain (c : UInt8) : Bool := 0x20 ≤ c && c < 0x80 && c != quote && c != backslash

def Plain (text : Bytes) : Prop := ∀ c ∈ text, isPlain c = true

instance : DecidablePred Plain := fun text =>
  inferInstanceAs (Decidable (∀ c ∈ text, isPlain c = true))

theorem isPlain_spec : ∀ c, isPlain c → c < 0x80 ∧ escapeByte c = [c] := by
  decide +kernel

variable {text value : Bytes}

theorem Plain.cons {c : UInt8} (first : isPlain c) (rest : Plain text) : Plain (c :: text) :=
  forall_mem_cons.mpr ⟨first, rest⟩

theorem Plain.isUnicode (plain : Plain text) : isUnicode text := by
  rw [Packages.isUnicode,
    unicodeScalarCount_of_isAscii fun c mem => (isPlain_spec c (plain c mem)).1]
  rfl

/-- Plain text is written without escapes. -/
theorem Plain.escape_eq (plain : Plain text) : escape text = text := by
  induction text with
  | nil => rfl
  | cons c text ih =>
    rw [escape_cons, (isPlain_spec c (plain c mem_cons_self)).2,
      ih fun other mem => plain other (mem_cons_of_mem _ mem)]
    rfl

theorem Plain.length_dump (plain : Plain text) :
    (Value.string text).dump.length = text.length + 2 := by
  simp [Value.dump, quoted, plain.escape_eq]

theorem Plain.append {first second : Bytes} (one : Plain first) (other : Plain second) :
    Plain (first ++ second) := by
  intro c mem
  rcases mem_append.mp mem with inFirst | inSecond
  · exact one c inFirst
  · exact other c inSecond

def isLower (c : UInt8) : Bool := 'a'.toUInt8 ≤ c && c ≤ 'z'.toUInt8

def hexDigit (c : UInt8) : Bool := isDigit c || ('a'.toUInt8 ≤ c && c ≤ 'f'.toUInt8)

def identifierByte (underscore : Bool) (c : UInt8) : Bool :=
  isLower c || isDigit c || c == '-'.toUInt8 || (underscore && c == '_'.toUInt8)

def identifier (value : Bytes) (minimum : Nat) (underscore : Bool) : Bool :=
  minimum ≤ value.length && value.length ≤ 64 && value.head?.any isLower &&
    value.all (identifierByte underscore)

def digest (value : Bytes) : Bool := value.length == 64 && value.all hexDigit

def uuid (value : Bytes) : Bool :=
  value.length == 36 && value.zipIdx.all fun (c, index) =>
    if index ∈ [8, 13, 18, 23] then c == '-'.toUInt8 else hexDigit c

def positiveUint64 (text : Bytes) : Bool :=
  !text.isEmpty && text.length ≤ 20 && text.head? != some '0'.toUInt8 && text.all isDigit &&
    undecimal text < 2 ^ 64 && undecimal text != 0

def profile (value : Bytes) : Bool :=
  value.length == 104 && (utf8 "v1:").isPrefixOf value && uuid ((value.drop 3).take 36) &&
    value.getD 39 0 == ':'.toUInt8 && digest (value.drop 40)

def contentTypeSymbols : Bytes := utf8 "!#$&^_.+-"

/-- The loop of `is_canonical_content_type`, at the start of a component or not. -/
def scanContentType (componentStart : Bool) (separators : Nat) : Bytes → Bool
  | [] => separators == 1 && !componentStart
  | c :: rest =>
    if c == '/'.toUInt8 then
      !componentStart && separators + 1 == 1 && scanContentType true (separators + 1) rest
    else
      (isLower c || isDigit c || (!componentStart && contentTypeSymbols.contains c)) &&
        scanContentType false separators rest

def isCanonicalContentType (value : Bytes) : Bool :=
  !value.isEmpty && value.length ≤ 128 && scanContentType true 0 value

theorem isPlain_of_grammar : ∀ c, (identifierByte true c || hexDigit c || c == '/'.toUInt8 ||
    c == ':'.toUInt8 || contentTypeSymbols.contains c) → isPlain c := by
  decide +kernel

theorem plain_of_all {holds : UInt8 → Bool} (all : text.all holds)
    (grammar : ∀ c, holds c → (identifierByte true c || hexDigit c)) :
    Plain text := by
  intro c mem
  apply isPlain_of_grammar
  simp [grammar c (all_eq_true.mp all c mem)]

/-- Identifiers are plain. -/
theorem plain_of_identifier {minimum : Nat} {underscore : Bool}
    (valid : identifier value minimum underscore) : Plain value ∧ value.length ≤ 64 := by
  simp only [identifier, Bool.and_eq_true, decide_eq_true_eq] at valid
  refine ⟨plain_of_all valid.2 fun c isByte => ?_, valid.1.1.2⟩
  simp only [identifierByte, Bool.or_eq_true, Bool.and_eq_true] at isByte ⊢
  rcases isByte with byte | ⟨-, underscore⟩
  · exact .inl (.inl byte)
  · exact .inl (.inr ⟨trivial, underscore⟩)

theorem plain_of_digest (valid : digest value) : Plain value ∧ value.length = 64 := by
  simp only [digest, Bool.and_eq_true, beq_iff_eq] at valid
  exact ⟨plain_of_all valid.2 fun c isHex => by simp [isHex], valid.1⟩

theorem plain_of_uuid (valid : uuid value) : Plain value ∧ value.length = 36 := by
  simp only [uuid, Bool.and_eq_true, beq_iff_eq] at valid
  refine ⟨fun c mem => isPlain_of_grammar c ?_, valid.1⟩
  rcases mem_iff_getElem.mp mem with ⟨index, bound, rfl⟩
  have here := all_eq_true.mp valid.2 (value[index], index)
    (mk_mem_zipIdx_iff_getElem?.mpr (by simp))
  split at here
  · simp [identifierByte, here]
  · simp [here]

theorem plain_of_positiveUint64 (valid : positiveUint64 text) : Plain text ∧ text.length ≤ 20 := by
  simp only [positiveUint64, Bool.and_eq_true, decide_eq_true_eq] at valid
  exact ⟨plain_of_all valid.1.1.2 fun c isDecimal => by simp [hexDigit, isDecimal], valid.1.1.1.1.2⟩

theorem plain_of_isCanonicalContentType (valid : isCanonicalContentType value) :
    Plain value ∧ value.length ≤ 128 := by
  have scanned : ∀ (text : Bytes) (componentStart : Bool) (separators : Nat),
      scanContentType componentStart separators text → Plain text := by
    intro text
    induction text with
    | nil => exact fun _ _ _ c mem => absurd mem not_mem_nil
    | cons first text ih =>
      intro componentStart separators isScanned
      rw [scanContentType] at isScanned
      split at isScanned
      case isTrue isSlash =>
        rw [Bool.and_eq_true] at isScanned
        exact .cons (isPlain_of_grammar first (by simp [isSlash])) (ih _ _ isScanned.2)
      case isFalse =>
        simp only [Bool.and_eq_true, Bool.or_eq_true] at isScanned
        refine .cons (isPlain_of_grammar first ?_) (ih _ _ isScanned.2)
        rcases isScanned.1 with (isLower | isDecimal) | ⟨-, symbol⟩
        · simp [identifierByte, isLower]
        · simp [identifierByte, isDecimal]
        · simp [contains_iff_mem.mp symbol]
  simp only [isCanonicalContentType, Bool.and_eq_true, decide_eq_true_eq] at valid
  exact ⟨scanned value true 0 valid.2, valid.1.2⟩

theorem plain_of_profile (valid : profile value) : Plain value ∧ value.length = 104 := by
  simp only [profile, Bool.and_eq_true, beq_iff_eq] at valid
  rcases valid with ⟨⟨⟨⟨length, version⟩, isUuid⟩, colon⟩, isDigest⟩
  have first : value.take 3 = utf8 "v1:" :=
    (prefix_iff_eq_take.mp (List.isPrefixOf_iff_prefix.mp version)).symm
  have last : value.drop 39 = ':'.toUInt8 :: value.drop 40 := by
    have bound : 39 < value.length := by omega
    rw [drop_eq_getElem_cons bound, ← colon, getD_eq_getElem _ _ bound]
  have split : value = utf8 "v1:" ++ ((value.drop 3).take 36 ++ ':'.toUInt8 :: value.drop 40) := by
    have dropped : (value.drop 3).drop 36 = value.drop 39 := drop_drop
    rw [← last, ← first, ← dropped, take_append_drop, take_append_drop]
  refine ⟨?_, length⟩
  rw [split]
  apply Plain.append
  · decide +kernel
  exact (plain_of_uuid isUuid).1.append
    (.cons (isPlain_of_grammar _ (by simp)) (plain_of_digest isDigest).1)

end Plinth.Frontend
