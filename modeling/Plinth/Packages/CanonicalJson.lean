import Plinth.Packages.RestoreJson

/-!
# What canonical JSON accepts

Measuring succeeds on exactly the supported values within the limits, and what it counts is the
length of the text that is then written. The text determines the value.
-/

namespace Plinth.Packages.Restore

open Core Core.JsonText List

mutual

def WellFormed : Value → Prop
  | .null | .bool _ | .float _ | .string _ => True
  | .integer value => -2 ^ 63 ≤ value ∧ value < 2 ^ 64
  | .array items => ItemsWellFormed items
  | .object members => (members.map Prod.fst).Nodup ∧ MembersWellFormed members

def ItemsWellFormed : List Value → Prop
  | [] => True
  | item :: rest => WellFormed item ∧ ItemsWellFormed rest

def MembersWellFormed : List (Bytes × Value) → Prop
  | [] => True
  | (_, value) :: rest => WellFormed value ∧ MembersWellFormed rest

end

theorem itemsWellFormed_iff {items : List Value} :
    ItemsWellFormed items ↔ ∀ item ∈ items, WellFormed item := by
  induction items with
  | nil => simp [ItemsWellFormed]
  | cons item items ih => simp [ItemsWellFormed, ih]

theorem membersWellFormed_iff {members : List (Bytes × Value)} :
    MembersWellFormed members ↔ ∀ member ∈ members, WellFormed member.2 := by
  induction members with
  | nil => simp [MembersWellFormed]
  | cons member members ih => simp [MembersWellFormed, ih]

/-- What is well formed and supported is a valid value. -/
theorem valid_of_supported {value : Value} (wellFormed : WellFormed value)
    (supported : Supported value) : value.Valid isUnicode := by
  induction value using Value.induction with
  | null | bool => trivial
  | integer => exact wellFormed
  | float => exact supported.elim
  | string => exact supported
  | array items ih =>
    apply itemsValid_iff.mpr
    intro item mem
    exact ih item mem (itemsWellFormed_iff.mp wellFormed item mem)
      (itemsSupported_iff.mp supported item mem)
  | object members ih =>
    refine ⟨wellFormed.1, membersValid_iff.mpr fun member mem => ?_⟩
    rcases membersSupported_iff.mp supported member mem with ⟨unicode, isSupported⟩
    exact ⟨unicode, ih member mem (membersWellFormed_iff.mp wellFormed.2 member mem) isSupported⟩

/-- A value of the JSON library, which keeps the members of an object by their keys. -/
structure JsonValue where
  value : Value
  wellFormed : WellFormed value
  ordered : value.ordered = value

theorem JsonValue.ext {first second : JsonValue} (same : first.value = second.value) :
    first = second := by
  cases first
  cases second
  cases same
  rfl

/-- Canonical JSON accepts the supported values within its limits, counts the length of the text
that it writes, and writes a text that gives the value back. -/
theorem canonicalJson_canonical {json : Library} (inverse : json.Inverse isUnicode)
    (value : JsonValue) (cap : Nat) :
    ((∃ text, canonicalJson value.value cap = .ok text) ↔
      value.value.height ≤ jsonMaxDepth ∧ value.value.nodes ≤ jsonMaxNodes ∧
        Supported value.value ∧ value.value.dump.length ≤ cap) ∧
    ∀ text, canonicalJson value.value cap = .ok text →
      (∃ measured, measureValue cap value.value 1 {} = .ok measured ∧
        measured.bytes = text.length) ∧
      json.parse text = some value.value ∧
      ∀ (other : JsonValue) (otherCap : Nat) (otherText : Bytes),
        canonicalJson other.value otherCap = .ok otherText →
          (text = otherText ↔ value = other) := by
  have parses : ∀ (document : JsonValue) (limit : Nat) (written : Bytes),
      canonicalJson document.value limit = .ok written →
        json.parse written = some document.value := by
    intro document limit written isWritten
    rcases canonicalJson_eq_ok_iff.mp isWritten with ⟨⟨-, -, supported, -⟩, rfl⟩
    rw [document.ordered, inverse.parse_dump (valid_of_supported document.wellFormed supported),
      document.ordered]
  refine ⟨by simp [canonicalJson_eq_ok_iff], ?_⟩
  intro text isText
  refine ⟨?_, parses value cap text isText, ?_⟩
  · rcases canonicalJson_eq_ok_iff.mp isText with ⟨-, rfl⟩
    rcases bind_eq_ok.mp isText with ⟨measured, isMeasured, -⟩
    rcases (counts_measureValue value.value 1 {} measured (Nat.zero_le _) (Nat.zero_le _)).mp
      isMeasured with ⟨-, rfl⟩
    refine ⟨_, isMeasured, ?_⟩
    rw [length_dump_ordered]
    exact Nat.zero_add _
  · intro other otherCap otherText isOther
    constructor
    · rintro rfl
      have same := (parses value cap text isText).symm.trans (parses other otherCap text isOther)
      exact JsonValue.ext (Option.some.inj same)
    · rintro rfl
      rw [(canonicalJson_eq_ok_iff.mp isText).2, (canonicalJson_eq_ok_iff.mp isOther).2]

def sampleValue : JsonValue where
  value := .object [(utf8 "a", .array [.null, .bool true, .string (utf8 "é\n")]),
    (utf8 "b", .integer (-1))]
  wellFormed := ⟨by decide +kernel, ⟨trivial, trivial, trivial, trivial⟩, ⟨by decide, by decide⟩,
    trivial⟩
  ordered := by decide +kernel

theorem sampleValue_canonical :
    ∃ text, canonicalJson sampleValue.value 64 = .ok text ∧
      compact.parse text = some sampleValue.value := by
  have unicode : isUnicode (utf8 "a") = true ∧ isUnicode (utf8 "é\n") = true ∧
      isUnicode (utf8 "b") = true := by decide +kernel
  have supported : Supported sampleValue.value :=
    ⟨⟨unicode.1, trivial, trivial, unicode.2.1, trivial⟩, ⟨unicode.2.2, trivial⟩, trivial⟩
  rcases canonicalJson_canonical (compact_inverse isUnicode) sampleValue 64 with
    ⟨accepts, canonical⟩
  rcases accepts.mpr ⟨by decide +kernel, by decide +kernel, supported, by decide +kernel⟩ with
    ⟨text, isText⟩
  exact ⟨text, isText, (canonical text isText).2.1⟩

end Plinth.Packages.Restore
