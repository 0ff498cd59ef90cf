import Plinth.Core.JsonText

/-!
# Stored audit details

Model of `audit/detail_encoding.hpp`. A detail is stored as JSONB, which refuses the escape of NUL,
so a text with that escape is stored as a JSON string once more, and a flag says so. JsonCpp is a
parameter; its laws say that the reader inverts the writer and how the writer spells bytes.
-/

namespace Plinth.Audit

open List Core JsonText

/-- `FastWriter` and the strict reader without `strictRoot`, where an exception is a failure. -/
structure JsonCpp where
  write : Value → Bytes
  parse : Bytes → Option Value

structure StoredDetail where
  json : Bytes
  encoding : ℤ := 0

def nulDigits : Bytes := utf8 "u0000"

/-- The loop of `encode_detail`, on the text from the index on. -/
def hasNulEscape : Bytes → Bool
  | c :: next :: rest =>
    if c ≠ backslash then hasNulEscape (next :: rest)
    else nulDigits.isPrefixOf (next :: rest) || hasNulEscape rest
  | _ => false

variable (lib : JsonCpp)

def encodeDetail (detail : Value) : StoredDetail :=
  let json := lib.write detail
  if hasNulEscape json then ⟨lib.write (.string json), 1⟩ else { json }

def parseDetailJson (stored : Bytes) : Option Value :=
  if stored.isEmpty then none else lib.parse stored

def decodeDetail (stored : Bytes) (encoding : ℤ) : Option Value :=
  if encoding ≠ 0 ∧ encoding ≠ 1 then none
  else (parseDetailJson lib stored).bind fun detail =>
    if encoding = 0 then some detail else (text? detail).bind (parseDetailJson lib)

/-- An escape of NUL in a JSON text; the backslash that starts it is not itself escaped. -/
inductive NulEscape : Bytes → Prop
  | here (rest : Bytes) : NulEscape (backslash :: (nulDigits ++ rest))
  | byte {c : UInt8} {rest : Bytes} : c ≠ backslash → NulEscape rest → NulEscape (c :: rest)
  | pair (c : UInt8) {rest : Bytes} : NulEscape rest → NulEscape (backslash :: c :: rest)

/-- The strings and the member names that events report. -/
def texts (events : List Event) : List Bytes :=
  events.filterMap fun
    | .string text | .key text => some text
    | _ => none

def isPlain (c : UInt8) : Bool := c != 0 && c != backslash

/-- A plain byte, or an escape that is not that of NUL, whatever follows it. -/
def isOther : Bytes → Bool
  | [c] => isPlain c
  | c :: letter :: digits => c == backslash && letter != 0 && digits.all isPlain &&
    !nulDigits.isPrefixOf (letter :: digits) && !(letter :: digits).isPrefixOf nulDigits
  | [] => false

/-- A JSON text and the bytes that its strings spell. NUL is written as its escape and nothing else
is; another byte or escape stands for any bytes without NUL, or for none outside a string. -/
inductive Spells : Bytes → Bytes → Prop
  | nil : Spells [] []
  | nul {raw text : Bytes} : Spells raw text → Spells (backslash :: (nulDigits ++ raw)) (0 :: text)
  | other {unit raw group text : Bytes} : isOther unit → 0 ∉ group → Spells raw text →
      Spells (unit ++ raw) (group ++ text)

/-- The `stackLimit` of the reader. -/
def stackLimit : ℕ := 1000

/-- A `Json::Value` without floating-point numbers, whose texts have the encoding `isText`. -/
def IsDetail (isText : Bytes → Bool) (value : Value) : Prop :=
  value.Valid isText ∧ value.ordered = value

structure JsonCpp.Lawful (isText : Bytes → Bool) : Prop where
  spells : ∀ {value : Value}, IsDetail isText value →
    Spells (lib.write value) (texts value.events).flatten
  isText_write : ∀ {value : Value}, IsDetail isText value → isText (lib.write value)
  parse_nil : lib.parse [] = none
  parse_write : ∀ {value : Value}, IsDetail isText value → value.height ≤ stackLimit →
    lib.parse (lib.write value) = some value

variable {lib} {isText : Bytes → Bool} {raw text : Bytes} {c : UInt8} {value : Value}

theorem hasNulEscape_cons (plain : c ≠ backslash) (raw : Bytes) :
    hasNulEscape (c :: raw) = hasNulEscape raw := by
  cases raw <;> simp [hasNulEscape, plain]

/-- After a backslash the scan looks for the digits of NUL, or passes one byte. -/
theorem hasNulEscape_backslash (raw : Bytes) :
    hasNulEscape (backslash :: raw) ↔ nulDigits <+: raw ∨ hasNulEscape raw.tail := by
  rw [← isPrefixOf_iff_prefix, ← Bool.or_eq_true]
  cases raw <;> simp [hasNulEscape]
  decide

/-- An escape of NUL is found, wherever it stands in the text. -/
theorem NulEscape.found (escape : NulEscape raw) : hasNulEscape raw := by
  induction escape with
  | here rest => exact (hasNulEscape_backslash _).mpr (.inl ( prefix_append _ _))
  | byte plain _ ih => rwa [hasNulEscape_cons plain]
  | pair c _ ih => exact (hasNulEscape_backslash _).mpr (.inr ih)

theorem plain_scanned (plain : raw.all isPlain) (later : Bytes) :
    0 ∉ raw ∧ hasNulEscape (raw ++ later) = hasNulEscape later := by
  induction raw with
  | nil => simp
  | cons c raw ih =>
    simp only [isPlain, all_cons, Bool.and_eq_true, bne_iff_ne] at plain
    rcases ih plain.2 with ⟨notNul, scanned⟩
    exact ⟨by simp [plain.1.1.symm, notNul], (hasNulEscape_cons plain.1.2 _).trans scanned⟩

theorem other_scanned (other : isOther raw) (later : Bytes) :
    0 ∉ raw ∧ hasNulEscape (raw ++ later) = hasNulEscape later := by
  rcases raw with _ | ⟨c, _ | ⟨letter, digits⟩⟩
  · cases other
  · exact plain_scanned (by simpa [isOther] using other) later
  simp only [isOther, Bool.and_eq_true, beq_iff_eq, bne_iff_ne, Bool.not_eq_true',
    Bool.eq_false_iff, ne_eq, isPrefixOf_iff_prefix] at other
  rcases other with ⟨⟨⟨⟨rfl, notNul⟩, plain⟩, longer⟩, shorter⟩
  rcases plain_scanned plain later with ⟨absent, scanned⟩
  have apart : ¬ nulDigits <+: letter :: digits ++ later := fun isNul =>
    ( prefix_or_prefix_of_prefix isNul ( prefix_append _ later)).elim longer shorter
  refine ⟨by simp +decide [Ne.symm notNul, absent], ?_⟩
  rw [Bool.eq_iff_iff, cons_append, hasNulEscape_backslash, ← scanned]
  exact or_iff_right apart

/-- The scan of a written text finds an escape exactly if a string in it holds NUL. -/
theorem Spells.scanned (spells : Spells raw text) : 0 ∉ raw ∧ (hasNulEscape raw ↔ 0 ∈ text) := by
  induction spells with
  | nil => simp [hasNulEscape]
  | nul _ ih => exact ⟨by simp +decide [ih.1], by simpa using (NulEscape.here _).found⟩
  | @other unit raw _ _ isOther notNul _ ih =>
    rcases other_scanned isOther raw with ⟨absent, scanned⟩
    simp [absent, ih, scanned, notNul]

theorem JsonCpp.Lawful.parseDetailJson_eq (lawful : lib.Lawful isText) (stored : Bytes) :
    parseDetailJson lib stored = lib.parse stored := by
  cases stored <;> simp [parseDetailJson, lawful.parse_nil]

/-- What is stored has no escape of NUL, says whether the detail has a NUL, and decodes to it. -/
theorem encodeDetail_stored (lawful : lib.Lawful isText) {detail : Value}
    (isDetail : IsDetail isText detail) (low : detail.height ≤ stackLimit) :
    let stored := encodeDetail lib detail
    ¬ NulEscape stored.json ∧ (stored.encoding = 1 ↔ ∃ text ∈ texts detail.events, 0 ∈ text) ∧
      decodeDetail lib stored.json stored.encoding = some detail := by
  have spells := lawful.spells isDetail
  have isRead := lawful.parse_write isDetail low
  have found := spells.scanned.2
  rw [mem_flatten] at found
  simp only [encodeDetail]
  split
  case isTrue escape =>
    have isText : IsDetail isText (.string (lib.write detail)) :=
      ⟨lawful.isText_write isDetail, rfl⟩
    have again := lawful.spells isText
    have isString := lawful.parse_write isText (Nat.le_add_left 1 999)
    refine ⟨?_, by simpa using found.mp escape, ?_⟩
    · intro inString
      have inText := again.scanned.2.mp inString.found
      exact spells.scanned.1 (by simpa [texts, Value.events] using inText)
    · simp [decodeDetail, lawful.parseDetailJson_eq, isString, isRead, text?]
  case isFalse noEscape =>
    refine ⟨mt NulEscape.found noEscape, by simpa using mt found.mpr noEscape, ?_⟩
    simp [decodeDetail, lawful.parseDetailJson_eq, isRead]

def compactCpp : JsonCpp where
  write value := value.dump ++ [0x0a]
  parse raw := compact.parse raw.dropLast

theorem Spells.append {raw' text' : Bytes} (first : Spells raw text) (second : Spells raw' text') :
    Spells (raw ++ raw') (text ++ text') := by
  induction first with
  | nil => exact second
  | nul _ ih => simpa using Spells.nul ih
  | other isOther notNul _ ih => simpa using Spells.other isOther notNul ih

theorem Spells.plain (each : raw.all isPlain) : Spells raw [] := by
  induction raw with
  | nil => exact .nil
  | cons c raw ih =>
    rw [all_cons, Bool.and_eq_true] at each
    exact @Spells.other [c] _ [] _ each.1 not_mem_nil (ih each.2)

theorem Spells.byte (c : UInt8) : Spells (escapeByte c) [c] := by
  have others : ∀ c : UInt8, c ≠ 0 → isOther (escapeByte c) := by decide +kernel
  by_cases isNul : c = 0
  · subst isNul
    exact Spells.nul .nil
  · simpa using Spells.other (others c isNul) (by simpa using Ne.symm isNul) .nil

theorem Spells.enclosed {first last : UInt8} (plain : [first, last].all isPlain)
    (inner : Spells raw text) : Spells (first :: (raw ++ [last])) text := by
  simp only [all_cons, Bool.and_eq_true] at plain
  have opening : Spells [first] [] := .plain (by simp [plain.1])
  have closing : Spells [last] [] := .plain (by simp [plain.2])
  simpa using opening.append (inner.append closing)

theorem Spells.quoted (text : Bytes) : Spells (quoted text) text := by
  apply Spells.enclosed rfl
  induction text with
  | nil => exact .plain rfl
  | cons c text ih => exact (Spells.byte c).append ih

theorem Spells.items {separator : Bytes} {items : List Value} (plain : separator.all isPlain)
    (each : ∀ item ∈ items, Spells item.dump (texts item.events).flatten) :
    Spells (dumpItems separator items) (texts (itemsEvents items)).flatten := by
  induction items generalizing separator with
  | nil => exact .plain rfl
  | cons item items ih =>
    rcases forall_mem_cons.mp each with ⟨first, others⟩
    simpa [dumpItems, itemsEvents, texts] using
      (Spells.plain plain).append (first.append (ih rfl others))

theorem Spells.members {separator : Bytes} {members : List (Bytes × Value)}
    (plain : separator.all isPlain)
    (each : ∀ member ∈ members, Spells member.2.dump (texts member.2.events).flatten) :
    Spells (dumpMembers separator members) (texts (membersEvents members)).flatten := by
  induction members generalizing separator with
  | nil => exact .plain rfl
  | cons member members ih =>
    rcases forall_mem_cons.mp each with ⟨first, others⟩
    have colon : Spells [colon] [] := .plain rfl
    simpa [dumpMembers, membersEvents, texts] using (Spells.plain plain).append
      ((Spells.quoted member.1).append (colon.append (first.append (ih rfl others))))

/-- A written value spells the strings in it, one after the other. -/
theorem Spells.dump (valid : value.Valid isText) :
    Spells value.dump (texts value.events).flatten := by
  induction value using Value.induction with
  | null => exact .plain rfl
  | bool value => cases value <;> exact .plain rfl
  | integer value =>
    have digit : ∀ c : UInt8, isDigit c → isPlain c := by decide +kernel
    have digits : (decimal value.natAbs).all isPlain :=
      all_eq_true.mpr fun c mem => digit c (isDigit_of_mem_decimal mem)
    simp only [Value.dump, integerText]
    split
    · exact .plain digits
    · exact .plain digits
  | float => exact valid.elim
  | string text => simpa [Value.dump, Value.events, texts] using Spells.quoted text
  | array items ih =>
    have inner := @Spells.items [] items rfl fun item mem =>
      ih item mem (itemsValid_iff.mp valid item mem)
    simpa [Value.dump, Value.events, texts] using Spells.enclosed rfl inner
  | object members ih =>
    have inner := @Spells.members [] members rfl fun member mem =>
      ih member mem (membersValid_iff.mp valid.2 member mem).2
    simpa [Value.dump, Value.events, texts] using Spells.enclosed rfl inner

theorem compactCpp_lawful : compactCpp.Lawful fun _ => true where
  spells isDetail := by
    simpa [compactCpp] using (Spells.dump isDetail.1).append (@Spells.plain [0x0a] rfl)
  isText_write _ := rfl
  parse_nil := rfl
  parse_write isDetail _ := by
    simpa [compactCpp, isDetail.2] using (compact_inverse _).parse_dump isDetail.1

theorem encodeDetail_stored_nul :
    let stored := encodeDetail compactCpp (.string [0])
    ¬ NulEscape stored.json ∧ stored.encoding = 1 ∧
      decodeDetail compactCpp stored.json 1 = some (.string [0]) := by
  have stored := @encodeDetail_stored _ _ compactCpp_lawful (.string [0]) ⟨rfl, rfl⟩ (by decide)
  have isEncoded := stored.2.1.mpr ⟨[0], by simp [Value.events, texts], by simp⟩
  exact ⟨stored.1, isEncoded, isEncoded ▸ stored.2.2⟩

end Plinth.Audit
