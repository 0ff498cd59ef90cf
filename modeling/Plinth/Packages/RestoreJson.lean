import Plinth.Core.JsonText
import Plinth.Core.Procedure

/-!
# Canonical JSON

The encoder that every codec of the kernel shares. A value is measured first, against the limits on
its levels, its nodes and its bytes, and written with the members of its objects in the order of
their keys. A value within the limits is written as the text of its ordered form.
-/

namespace Plinth.Packages

open Plinth.Core Plinth.Core.JsonText List

/-- The width of a scalar value by its first byte, with the bits of that byte and the least value
of the width. -/
def leadByte (lead : UInt8) : Option (Nat × Nat × Nat) :=
  if lead < 0x80 then some (1, lead.toNat, 0)
  else if 0xc2 ≤ lead && lead ≤ 0xdf then some (2, lead.toNat % 32, 0x80)
  else if 0xe0 ≤ lead && lead ≤ 0xef then some (3, lead.toNat % 16, 0x800)
  else if 0xf0 ≤ lead && lead ≤ 0xf4 then some (4, lead.toNat % 8, 0x10000)
  else none

def unicodeScalarCount (text : Bytes) : Option Nat :=
  match text with
  | [] => some 0
  | lead :: rest =>
    match leadByte lead with
    | none => none
    | some (width, bits, minimum) =>
      let following := rest.take (width - 1)
      let codepoint := following.foldl (fun codepoint c => codepoint * 64 + c.toNat % 64) bits
      if rest.length < width - 1 then none
      else if following.any fun c => c.toNat / 64 ≠ 2 then none
      else if (1 < width && codepoint < minimum) ||
          (0xd800 ≤ codepoint && codepoint ≤ 0xdfff) || 0x10ffff < codepoint then none
      else (unicodeScalarCount (rest.drop (width - 1))).map (· + 1)
termination_by text.length
decreasing_by simp

def isUnicode (text : Bytes) : Bool := (unicodeScalarCount text).isSome

def IsAscii (text : Bytes) : Prop := ∀ c ∈ text, c < 0x80

theorem unicodeScalarCount_of_isAscii {text : Bytes} (ascii : IsAscii text) :
    unicodeScalarCount text = some text.length := by
  induction text with
  | nil => rw [unicodeScalarCount]; rfl
  | cons c text ih =>
    have isLead : leadByte c = some (1, c.toNat, 0) := if_pos (ascii c mem_cons_self)
    have small : c.toNat < 0x80 := UInt8.lt_iff_toNat_lt.mp (ascii c mem_cons_self)
    have rest := ih fun other mem => ascii other (mem_cons_of_mem _ mem)
    rw [unicodeScalarCount]
    simp [isLead, rest]
    omega

namespace Restore

inductive CodecError where
  | tooLarge
  | invalidJson
  | duplicateKey
  | limitExceeded
  | invalidPolicy
  | conflictingBinding
  | invalidInventory
  | invalidSchema
  | hashingFailed
  deriving DecidableEq

def jsonMaxDepth : Nat := 6

def jsonMaxNodes : Nat := 16384

structure Budget where
  bytes : Nat := 0
  nodes : Nat := 0

def Budget.add (cap amount : Nat) (budget : Budget) : Except CodecError Budget :=
  if cap - budget.bytes < amount then .error .tooLarge
  else .ok { budget with bytes := budget.bytes + amount }

def escapedWidth (c : UInt8) : Nat :=
  if c = quote || c = backslash || c = 0x08 || c = 0x09 || c = 0x0a || c = 0x0c || c = 0x0d then 2
  else if c < 0x20 then 6
  else 1

def measureBytes (cap : Nat) : Bytes → Budget → Except CodecError Budget
  | [], budget => .ok budget
  | c :: text, budget => budget.add cap (escapedWidth c) >>= measureBytes cap text

def measureString (cap : Nat) (text : Bytes) (budget : Budget) : Except CodecError Budget :=
  if cap - budget.bytes < text.length then .error .tooLarge
  else do
    let budget ← budget.add cap 2
    if isUnicode text then measureBytes cap text budget else .error .invalidJson

def Budget.enter (depth : Nat) (budget : Budget) : Except CodecError Budget :=
  if jsonMaxDepth < depth || budget.nodes = jsonMaxNodes then .error .limitExceeded
  else .ok { budget with nodes := budget.nodes + 1 }

/-- The checks on a container: its children, its brackets and its separators. -/
def Budget.container (cap size : Nat) (budget : Budget) : Except CodecError Budget :=
  if jsonMaxNodes - budget.nodes < size then .error .limitExceeded
  else do
    let budget ← budget.add cap 2
    if size = 0 then .ok budget else budget.add cap (size - 1)

mutual

def measureValue (cap : Nat) : Value → Nat → Budget → Except CodecError Budget
  | .string text, depth, budget => budget.enter depth >>= measureString cap text
  | .array items, depth, budget => do
      let budget ← budget.enter depth
      let budget ← budget.container cap items.length
      measureItems cap items (depth + 1) budget
  | .object members, depth, budget => do
      let budget ← budget.enter depth
      let budget ← budget.container cap members.length
      measureMembers cap members (depth + 1) budget
  | .integer value, depth, budget =>
    budget.enter depth >>= Budget.add cap (integerText value).length
  | .bool value, depth, budget =>
    budget.enter depth >>= Budget.add cap (if value then 4 else 5)
  | .null, depth, budget => budget.enter depth >>= Budget.add cap 4
  | .float _, depth, budget => budget.enter depth >>= fun _ => .error .invalidJson

def measureItems (cap : Nat) : List Value → Nat → Budget → Except CodecError Budget
  | [], _, budget => .ok budget
  | item :: rest, depth, budget => do
      let budget ← measureValue cap item depth budget
      measureItems cap rest depth budget

def measureMembers (cap : Nat) : List (Bytes × Value) → Nat → Budget → Except CodecError Budget
  | [], _, budget => .ok budget
  | (key, value) :: rest, depth, budget => do
      let budget ← measureString cap key budget
      let budget ← budget.add cap 1
      let budget ← measureValue cap value depth budget
      measureMembers cap rest depth budget

end

def append (cap : Nat) (text output : Bytes) : Option Bytes :=
  if cap - output.length < text.length then none else some (output ++ text)

def appendByte (cap : Nat) (c : UInt8) (output : Bytes) : Option Bytes :=
  if output.length = cap then none else some (output ++ [c])

def encodeByte (cap : Nat) (c : UInt8) (output : Bytes) : Option Bytes :=
  match shortEscape c with
  | some letter => appendByte cap backslash output >>= appendByte cap letter
  | none =>
    if c < 0x20 then do
      let output ← append cap (utf8 "\\u00") output
      let output ← appendByte cap (hexByte (c.toNat / 16)) output
      appendByte cap (hexByte (c.toNat % 16)) output
    else appendByte cap c output

def encodeBytes (cap : Nat) : Bytes → Bytes → Option Bytes
  | [], output => some output
  | c :: text, output => encodeByte cap c output >>= encodeBytes cap text

def encodeString (cap : Nat) (text output : Bytes) : Option Bytes := do
  let output ← appendByte cap quote output
  let output ← encodeBytes cap text output
  appendByte cap quote output

/-- What writes a part of the output. -/
abbrev Writes := Bytes → Option Bytes

def appendSeparator (cap : Nat) (first : Bool) (output : Bytes) : Option Bytes :=
  if first then some output else appendByte cap comma output

def encodeSequence (cap : Nat) (first : Bool) : List Writes → Writes
  | [], output => some output
  | part :: rest, output => do
      let output ← appendSeparator cap first output
      let output ← part output
      encodeSequence cap false rest output

def sortMembers (members : List (Bytes × Writes)) : List (Bytes × Writes) :=
  members.insertionSort fun first second => first.1.Le second.1

def encodeMember (cap : Nat) (member : Bytes × Writes) (output : Bytes) : Option Bytes := do
  let output ← encodeString cap member.1 output
  let output ← appendByte cap colon output
  member.2 output

mutual

/-- The writer. Measuring has refused every value of another kind. -/
def encodeValue (cap : Nat) : Value → Writes
  | .string text => encodeString cap text
  | .object members => fun output => do
      let output ← appendByte cap '\x7b'.toUInt8 output
      let output ← encodeSequence cap true
        ((sortMembers (memberWriters cap members)).map (encodeMember cap)) output
      appendByte cap '\x7d'.toUInt8 output
  | .array items => fun output => do
      let output ← appendByte cap '['.toUInt8 output
      let output ← encodeSequence cap true (itemWriters cap items) output
      appendByte cap ']'.toUInt8 output
  | .integer value => append cap (integerText value)
  | .bool value => append cap (if value then utf8 "true" else utf8 "false")
  | .null | .float _ => append cap (utf8 "null")

def itemWriters (cap : Nat) : List Value → List Writes
  | [] => []
  | item :: rest => encodeValue cap item :: itemWriters cap rest

def memberWriters (cap : Nat) : List (Bytes × Value) → List (Bytes × Writes)
  | [] => []
  | (key, value) :: rest => (key, encodeValue cap value) :: memberWriters cap rest

end

def canonicalJson (value : Value) (cap : Nat) : Except CodecError Bytes := do
  let _ ← measureValue cap value 1 {}
  match encodeValue cap value [] with
  | some text => .ok text
  | none => .error .tooLarge

def Budget.after (budget : Budget) (bytes nodes : Nat) : Budget :=
  ⟨budget.bytes + bytes, budget.nodes + nodes⟩

@[simp]
theorem Budget.after_bytes (budget : Budget) (bytes nodes : Nat) :
    (budget.after bytes nodes).bytes = budget.bytes + bytes := rfl

@[simp]
theorem Budget.after_nodes (budget : Budget) (bytes nodes : Nat) :
    (budget.after bytes nodes).nodes = budget.nodes + nodes := rfl

@[simp]
theorem Budget.after_after (budget : Budget) (bytes nodes moreBytes moreNodes : Nat) :
    (budget.after bytes nodes).after moreBytes moreNodes =
      budget.after (bytes + moreBytes) (nodes + moreNodes) := by
  simp [Budget.after, Nat.add_assoc]

variable {cap : Nat} {value : Value}

/-- A measurement succeeds on what is allowed and within the limits, and counts it. -/
def Counts (cap : Nat) (measure : Budget → Except CodecError Budget) (allowed : Prop)
    (bytes nodes : Nat) : Prop :=
  ∀ budget after : Budget, budget.bytes ≤ cap → budget.nodes ≤ jsonMaxNodes →
    (measure budget = .ok after ↔ (allowed ∧ budget.bytes + bytes ≤ cap ∧
      budget.nodes + nodes ≤ jsonMaxNodes) ∧ budget.after bytes nodes = after)

section Counts

variable {measure next : Budget → Except CodecError Budget} {allowed other : Prop}
  {bytes nodes moreBytes moreNodes depth : Nat}

theorem Counts.of_iff (counts : Counts cap measure allowed bytes nodes) (iff : allowed ↔ other)
    (sameBytes : bytes = moreBytes) (sameNodes : nodes = moreNodes) :
    Counts cap measure other moreBytes moreNodes := by
  subst sameBytes sameNodes
  intro budget after inBytes inNodes
  rw [counts budget after inBytes inNodes, iff]

/-- Two measurements add up. -/
theorem Counts.bind (first : Counts cap measure allowed bytes nodes)
    (rest : Counts cap next other moreBytes moreNodes) :
    Counts cap (fun budget => measure budget >>= next) (allowed ∧ other) (bytes + moreBytes)
      (nodes + moreNodes) := by
  intro budget after inBytes inNodes
  have atFirst := fun middle => first budget middle inBytes inNodes
  rw [bind_eq_ok]
  constructor
  · rintro ⟨middle, isMiddle, isAfter⟩
    rcases (atFirst middle).mp isMiddle with ⟨⟨isAllowed, fits, few⟩, rfl⟩
    rcases (rest _ after fits few).mp isAfter with ⟨⟨alsoAllowed, fits, few⟩, rfl⟩
    simp only [Budget.after_bytes, Budget.after_nodes] at fits few
    exact ⟨⟨⟨isAllowed, alsoAllowed⟩, by omega, by omega⟩, by simp⟩
  · rintro ⟨⟨⟨isAllowed, alsoAllowed⟩, fits, few⟩, rfl⟩
    have fitsFirst : budget.bytes + bytes ≤ cap := by omega
    have fewFirst : budget.nodes + nodes ≤ jsonMaxNodes := by omega
    refine ⟨_, (atFirst _).mpr ⟨⟨isAllowed, fitsFirst, fewFirst⟩, rfl⟩, ?_⟩
    refine (rest _ _ fitsFirst fewFirst).mpr ⟨⟨alsoAllowed, ?_, ?_⟩, by simp⟩
    · simpa [Nat.add_assoc] using fits
    · simpa [Nat.add_assoc] using few

theorem ok_iff {limits : Prop} (inside : limits) {first second : Budget} :
    (Except.ok first : Except CodecError Budget) = .ok second ↔ limits ∧ first = second := by
  simp [inside]

theorem counts_ok : Counts cap .ok True 0 0 :=
  fun _ _ inBytes inNodes => ok_iff ⟨trivial, inBytes, inNodes⟩

theorem counts_add (amount : Nat) : Counts cap (Budget.add cap amount) True amount 0 := by
  intro budget after inBytes inNodes
  rw [Budget.add]
  split
  · exact iff_of_false nofun (by omega)
  · exact ok_iff ⟨trivial, by omega, inNodes⟩

theorem counts_enter (depth : Nat) :
    Counts cap (Budget.enter depth) (depth ≤ jsonMaxDepth) 0 1 := by
  intro budget after inBytes inNodes
  rw [Budget.enter]
  split
  case isTrue refused =>
    simp only [Bool.or_eq_true, decide_eq_true_eq] at refused
    exact iff_of_false nofun (by omega)
  case isFalse admitted =>
    simp only [Bool.or_eq_true, decide_eq_true_eq] at admitted
    exact ok_iff ⟨by omega, inBytes, by omega⟩

theorem Counts.container {size : Nat} (counts : Counts cap measure allowed bytes nodes)
    (enough : size ≤ nodes) :
    Counts cap (fun budget => budget.container cap size >>= measure) allowed
      (2 + (size - 1) + bytes) nodes := by
  have separators : Counts cap (fun budget =>
      if size = 0 then .ok budget else budget.add cap (size - 1)) True (size - 1) 0 := by
    by_cases isEmpty : size = 0
    · simpa [isEmpty] using counts_ok
    · simpa [isEmpty] using counts_add (size - 1)
  have inside : Counts cap _ allowed _ nodes :=
    (((counts_add 2).bind separators).bind counts).of_iff (by simp) rfl (Nat.zero_add nodes)
  intro budget after inBytes inNodes
  dsimp only
  rw [Budget.container]
  split
  · exact iff_of_false nofun (by omega)
  · exact inside budget after inBytes inNodes

theorem escapedWidth_eq (c : UInt8) : escapedWidth c = (escapeByte c).length := by
  revert c
  decide +kernel

/-- The measured width is that of the escaped text. -/
theorem counts_measureBytes (text : Bytes) :
    Counts cap (measureBytes cap text) True (escape text).length 0 := by
  induction text with
  | nil => exact counts_ok
  | cons c text ih =>
    exact ((counts_add (escapedWidth c)).bind ih).of_iff (by simp)
      (by simp [escapedWidth_eq, escape_cons]) rfl

theorem length_le_escape (text : Bytes) : text.length ≤ (escape text).length := by
  have wide : ∀ c, 1 ≤ (escapeByte c).length := by decide +kernel
  induction text with
  | nil => simp
  | cons c text ih =>
    have := wide c
    simp only [escape_cons, length_append, length_cons]
    omega

theorem length_quoted (text : Bytes) : (quoted text).length = 2 + (escape text).length := by
  simp [quoted]
  omega

theorem counts_measureString (text : Bytes) :
    Counts cap (measureString cap text) (isUnicode text) (quoted text).length 0 := by
  have raw := length_le_escape text
  have inside : Counts cap (fun budget =>
      if isUnicode text then measureBytes cap text budget else .error .invalidJson)
      (isUnicode text) (escape text).length 0 := by
    by_cases unicode : isUnicode text
    · simpa [unicode] using counts_measureBytes text
    · intro budget after _ _
      simp [unicode]
  intro budget after inBytes inNodes
  rw [measureString, length_quoted]
  split
  · exact iff_of_false nofun (by omega)
  · exact ((counts_add 2).bind inside).of_iff (by simp) rfl rfl budget after inBytes inNodes

theorem one_le_nodes (value : Value) : 1 ≤ value.nodes := by
  cases value <;> simp [Value.nodes]

theorem length_le_itemsNodes (items : List Value) : items.length ≤ itemsNodes items := by
  induction items with
  | nil => exact Nat.le_refl 0
  | cons item items ih =>
    have := one_le_nodes item
    simp only [itemsNodes, length_cons]
    omega

theorem length_le_membersNodes (members : List (Bytes × Value)) :
    members.length ≤ membersNodes members := by
  induction members with
  | nil => exact Nat.le_refl 0
  | cons member members ih =>
    have := one_le_nodes member.2
    simp only [membersNodes, length_cons]
    omega

theorem counts_measureItems {items : List Value} {Fits : Value → Prop}
    (each : ∀ item ∈ items,
      Counts cap (measureValue cap item depth) (Fits item) item.dump.length item.nodes) :
    Counts cap (measureItems cap items depth) (∀ item ∈ items, Fits item)
      (items.map fun item => item.dump.length).sum (itemsNodes items) := by
  induction items with
  | nil => exact counts_ok.of_iff (by simp) rfl rfl
  | cons item items ih =>
    have later := ih fun other mem => each other (mem_cons_of_mem _ mem)
    exact ((each item mem_cons_self).bind later).of_iff (by simp) rfl rfl

theorem counts_measureMembers {members : List (Bytes × Value)} {Fits : Bytes × Value → Prop}
    (each : ∀ member ∈ members, Counts cap (measureValue cap member.2 depth) (Fits member)
      member.2.dump.length member.2.nodes) :
    Counts cap (measureMembers cap members depth)
      (∀ member ∈ members, isUnicode member.1 ∧ Fits member)
      (members.map memberLength).sum (membersNodes members) := by
  induction members with
  | nil => exact counts_ok.of_iff (by simp) rfl rfl
  | cons member members ih =>
    have later := ih fun other mem => each other (mem_cons_of_mem _ mem)
    have first := each member mem_cons_self
    refine ((counts_measureString member.1).bind ((counts_add 1).bind (first.bind later))).of_iff
      ?_ ?_ ?_
    · simp [and_assoc]
    · simp [memberLength]
      omega
    · simp [membersNodes]

end Counts

mutual

def Supported : Value → Prop
  | .null | .bool _ | .integer _ => True
  | .float _ => False
  | .string text => isUnicode text = true
  | .array items => ItemsSupported items
  | .object members => MembersSupported members

def ItemsSupported : List Value → Prop
  | [] => True
  | item :: rest => Supported item ∧ ItemsSupported rest

def MembersSupported : List (Bytes × Value) → Prop
  | [] => True
  | (key, value) :: rest => (isUnicode key = true ∧ Supported value) ∧ MembersSupported rest

end

theorem itemsSupported_iff {items : List Value} :
    ItemsSupported items ↔ ∀ item ∈ items, Supported item := by
  induction items with
  | nil => simp [ItemsSupported]
  | cons item items ih => simp [ItemsSupported, ih]

theorem membersSupported_iff {members : List (Bytes × Value)} :
    MembersSupported members ↔ ∀ member ∈ members, isUnicode member.1 ∧ Supported member.2 := by
  induction members with
  | nil => simp [MembersSupported]
  | cons member members ih => simp [MembersSupported, ih]

theorem supported_of_valid (valid : value.Valid isUnicode) : Supported value := by
  induction value using Value.induction with
  | null | bool | integer => trivial
  | float => exact valid.elim
  | string => exact valid
  | array items ih =>
    exact itemsSupported_iff.mpr fun item mem => ih item mem (itemsValid_iff.mp valid item mem)
  | object members ih =>
    apply membersSupported_iff.mpr
    intro member mem
    rcases membersValid_iff.mp valid.2 member mem with ⟨unicode, isValid⟩
    exact ⟨unicode, ih member mem isValid⟩

theorem low_iff {Item : Type} {items : List Item} {height : Item → Nat} {Fits : Item → Prop}
    {tallest depth : Nat}
    (isTallest : ∀ bound, tallest ≤ bound ↔ ∀ item ∈ items, height item ≤ bound) :
    (depth ≤ jsonMaxDepth ∧ ∀ item ∈ items,
      Fits item ∧ depth + 1 + height item ≤ jsonMaxDepth + 1) ↔
      (∀ item ∈ items, Fits item) ∧ depth + (1 + tallest) ≤ jsonMaxDepth + 1 := by
  have lower := isTallest (jsonMaxDepth - depth)
  constructor
  · rintro ⟨low, each⟩
    have below := lower.mpr fun item mem => by
      have := (each item mem).2
      omega
    exact ⟨fun item mem => (each item mem).1, by omega⟩
  · rintro ⟨each, low⟩
    refine ⟨by omega, fun item mem => ⟨each item mem, ?_⟩⟩
    have := lower.mp (by omega) item mem
    omega

/-- A value is measured as long as it is written, and refused for its depth or its texts only. -/
theorem counts_measureValue (value : Value) (depth : Nat) :
    Counts cap (measureValue cap value depth)
      (Supported value ∧ depth + value.height ≤ jsonMaxDepth + 1) value.dump.length
        value.nodes := by
  have scalar (depth length : Nat) :
      Counts cap (fun budget => budget.enter depth >>= Budget.add cap length) (True ∧
        depth + 1 ≤ jsonMaxDepth + 1) length 1 :=
    ((counts_enter depth).bind (counts_add length)).of_iff (by simp) (Nat.zero_add length) rfl
  induction value using Value.induction generalizing depth with
  | null | integer => exact scalar depth _
  | bool value =>
    cases value with
    | true | false => exact scalar depth _
  | float =>
    intro budget after _ _
    simp [measureValue, Supported, bind_eq_ok]
  | string text =>
    exact ((counts_enter depth).bind (counts_measureString text)).of_iff
      (by simp [Supported, Value.height, and_comm]) (by simp [Value.dump]) rfl
  | array items ih =>
    refine ((counts_enter depth).bind ((counts_measureItems fun item mem =>
      ih item mem (depth + 1)).container (length_le_itemsNodes items))).of_iff ?_ ?_ ?_
    · rw [Supported, itemsSupported_iff]
      exact low_iff fun _ => itemsHeight_le
    · rw [length_array]
      omega
    · simp [Value.nodes]
  | object members ih =>
    refine ((counts_enter depth).bind ((counts_measureMembers fun member mem =>
      ih member mem (depth + 1)).container (length_le_membersNodes members))).of_iff ?_ ?_ ?_
    · rw [Supported, membersSupported_iff]
      simp only [← and_assoc]
      exact low_iff fun _ => membersHeight_le
    · rw [length_object]
      omega
    · simp [Value.nodes]

def emit (cap : Nat) (text output : Bytes) : Option Bytes :=
  if output.length + text.length ≤ cap then some (output ++ text) else none

def Emits (cap : Nat) (write : Writes) (text : Bytes) : Prop :=
  ∀ output : Bytes, output.length ≤ cap → write output = emit cap text output

section Emits

variable {cap : Nat}

theorem Emits.nil : Emits cap some [] := by
  intro output inside
  simp [emit, inside]

/-- Two writers write one text after the other. -/
theorem Emits.bind {first second : Writes} {text more : Bytes} (one : Emits cap first text)
    (other : Emits cap second more) :
    Emits cap (fun output => first output >>= second) (text ++ more) := by
  intro output inside
  dsimp only
  rw [one output inside, emit]
  split
  case isTrue fits =>
    have later : (output ++ text).length ≤ cap := by simpa using fits
    rw [Option.bind_eq_bind, Option.bind_some, other _ later]
    simp [emit, Nat.add_assoc]
  case isFalse passes =>
    have passesBoth : ¬ output.length + (text ++ more).length ≤ cap := by
      rw [length_append]
      omega
    rw [emit, if_neg passesBoth]
    rfl

theorem emits_append (text : Bytes) : Emits cap (append cap text) text := by
  intro output inside
  rw [append, emit]
  split
  case isTrue passes => rw [if_neg (by omega)]
  case isFalse fits => rw [if_pos (by omega)]

theorem emits_appendByte (c : UInt8) : Emits cap (appendByte cap c) [c] := by
  intro output inside
  rw [appendByte, emit, length_singleton]
  split
  case isTrue full => rw [if_neg (by omega)]
  case isFalse room => rw [if_pos (by omega)]

theorem emits_encodeByte (c : UInt8) : Emits cap (encodeByte cap c) (escapeByte c) := by
  rcases escapeByte_cases c with ⟨letter, short, isEscape⟩ | ⟨control, short, isEscape⟩ |
    ⟨plain, short, isEscape⟩
  · intro output inside
    simp only [encodeByte, short, isEscape]
    exact (emits_appendByte backslash).bind (emits_appendByte letter) output inside
  · have codes : [backslash, 'u'.toUInt8, '0'.toUInt8, '0'.toUInt8, hexByte (c.toNat / 16),
        hexByte (c.toNat % 16)] =
          utf8 "\\u00" ++ ([hexByte (c.toNat / 16)] ++ [hexByte (c.toNat % 16)]) := by
      have start : utf8 "\\u00" = [backslash, 'u'.toUInt8, '0'.toUInt8, '0'.toUInt8] := by
        decide +kernel
      rw [start]
      rfl
    intro output inside
    simp only [encodeByte, short, isEscape, if_pos control, codes]
    exact (emits_append _).bind ((emits_appendByte _).bind (emits_appendByte _)) output inside
  · intro output inside
    simp only [encodeByte, short, isEscape, if_neg plain]
    exact emits_appendByte c output inside

theorem emits_encodeBytes (text : Bytes) : Emits cap (encodeBytes cap text) (escape text) := by
  induction text with
  | nil => exact Emits.nil
  | cons c text ih => exact (emits_encodeByte c).bind ih

theorem emits_encodeString (text : Bytes) : Emits cap (encodeString cap text) (quoted text) :=
  (emits_appendByte quote).bind ((emits_encodeBytes text).bind (emits_appendByte quote))

/-- A sequence is written with a comma before every item but the first. -/
theorem emits_encodeSequence {Item : Type} {write : Item → Writes} {text : Item → Bytes}
    {items : List Item} (each : ∀ item ∈ items, Emits cap (write item) (text item))
    (first : Bool) :
    Emits cap (encodeSequence cap first (items.map write))
      (joined (if first then [] else [comma]) (items.map text)) := by
  induction items generalizing first with
  | nil => exact Emits.nil
  | cons item items ih =>
    have separator : Emits cap (appendSeparator cap first) (if first then [] else [comma]) := by
      cases first with
      | true => exact Emits.nil
      | false => exact emits_appendByte comma
    have rest := ih (fun other mem => each other (mem_cons_of_mem _ mem)) false
    rw [map_cons, map_cons, joined, append_assoc]
    exact separator.bind ((each item mem_cons_self).bind rest)

theorem itemWriters_eq_map (items : List Value) :
    itemWriters cap items = items.map (encodeValue cap) := by
  induction items with
  | nil => rfl
  | cons item items ih => simp [itemWriters, ih]

theorem memberWriters_eq_map (members : List (Bytes × Value)) :
    memberWriters cap members = members.map fun member => (member.1, encodeValue cap member.2) := by
  induction members with
  | nil => rfl
  | cons member members ih => simp [memberWriters, ih]

/-- The encoder writes the text of the ordered value. -/
theorem emits_encodeValue {value : Value} (supported : Supported value) :
    Emits cap (encodeValue cap value) value.ordered.dump := by
  induction value using Value.induction with
  | null | bool | integer => exact emits_append _
  | float => exact supported.elim
  | string text => exact emits_encodeString text
  | array items ih =>
    have each : ∀ item ∈ items, Emits cap (encodeValue cap item) item.ordered.dump :=
      fun item mem => ih item mem (itemsSupported_iff.mp supported item mem)
    have opens : Emits cap (appendByte cap '['.toUInt8) ['['.toUInt8] := emits_appendByte _
    have closes : Emits cap (appendByte cap ']'.toUInt8) [']'.toUInt8] := emits_appendByte _
    have all := opens.bind ((emits_encodeSequence each true).bind closes)
    rw [encodeValue, itemWriters_eq_map, Value.ordered, Value.dump, orderedItems_eq_map,
      dumpItems_eq_joined, map_map]
    exact all
  | object members ih =>
    let byKey := fun first second : Bytes × Value => first.1.Le second.1
    have perm : (members.insertionSort byKey).Perm members := perm_insertionSort _ _
    have each : ∀ member ∈ members.insertionSort byKey,
        Emits cap (encodeMember cap (member.1, encodeValue cap member.2))
          (quoted member.1 ++ colon :: member.2.ordered.dump) := by
      intro member mem
      have isMember := perm.mem_iff.mp mem
      have written := ih member isMember (membersSupported_iff.mp supported member isMember).2
      exact (emits_encodeString member.1).bind ((emits_appendByte colon).bind written)
    have writers : sortMembers (memberWriters cap members) =
        (members.insertionSort byKey).map fun member => (member.1, encodeValue cap member.2) := by
      rw [memberWriters_eq_map, sortMembers]
      exact (map_insertionSort byKey (fun first second => first.1.Le second.1)
        (fun member => (member.1, encodeValue cap member.2)) members fun _ _ _ _ => Iff.rfl).symm
    have sorted : (orderedMembers members).insertionSort byKey =
        (members.insertionSort byKey).map fun member => (member.1, member.2.ordered) := by
      rw [orderedMembers_eq_map]
      exact (map_insertionSort byKey byKey (fun member => (member.1, member.2.ordered)) members
        fun _ _ _ _ => Iff.rfl).symm
    have opens : Emits cap (appendByte cap '\x7b'.toUInt8) ['\x7b'.toUInt8] := emits_appendByte _
    have closes : Emits cap (appendByte cap '\x7d'.toUInt8) ['\x7d'.toUInt8] := emits_appendByte _
    have all := opens.bind ((emits_encodeSequence each true).bind closes)
    rw [encodeValue, writers, map_map, Value.ordered, Value.dump, sorted,
      dumpMembers_eq_joined, map_map]
    exact all

end Emits

/-- Exactly the values within the limits are encoded, as their ordered text. -/
theorem canonicalJson_eq_ok_iff {text : Bytes} :
    canonicalJson value cap = .ok text ↔
      (value.height ≤ jsonMaxDepth ∧ value.nodes ≤ jsonMaxNodes ∧ Supported value ∧
        value.dump.length ≤ cap) ∧ text = value.ordered.dump := by
  have counts := fun measured =>
    @counts_measureValue cap value 1 {} measured (Nat.zero_le _) (Nat.zero_le _)
  have written (supported : Supported value) (fits : value.dump.length ≤ cap) :
      encodeValue cap value [] = some value.ordered.dump := by
    rw [emits_encodeValue supported [] (Nat.zero_le _), emit,
      if_pos (by rw [length_dump_ordered]; simpa using fits), nil_append]
  rw [canonicalJson, bind_eq_ok]
  constructor
  · rintro ⟨measured, isMeasured, rest⟩
    rcases (counts measured).mp isMeasured with ⟨⟨⟨supported, low⟩, fits, few⟩, -⟩
    rw [Nat.zero_add] at fits few
    rw [written supported fits] at rest
    exact ⟨⟨by omega, few, supported, fits⟩, (Except.ok.inj rest).symm⟩
  · rintro ⟨⟨low, few, supported, fits⟩, rfl⟩
    refine ⟨_, (counts _).mpr ⟨⟨⟨supported, by omega⟩, ?_, ?_⟩, rfl⟩,
      by rw [written supported fits]⟩
    · simpa using fits
    · simpa using few

theorem canonicalJson_eq (valid : value.Valid isUnicode) (low : value.height ≤ jsonMaxDepth)
    (few : value.nodes ≤ jsonMaxNodes) (fits : value.dump.length ≤ cap) :
    canonicalJson value cap = .ok value.ordered.dump :=
  canonicalJson_eq_ok_iff.mpr ⟨⟨low, few, supported_of_valid valid, fits⟩, rfl⟩

end Restore

end Plinth.Packages
