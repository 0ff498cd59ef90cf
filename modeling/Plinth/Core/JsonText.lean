import Plinth.Core.Decimal

/-!
# JSON as text

JSON values over byte strings, the compact text that a value is written as, and the events that a
reader reports for it. A JSON library is a reader of texts, as values and as events; that it
inverts the writer is a hypothesis on it, and `compact` is a reader of compact texts for which it
holds.
-/

namespace Plinth.Core.JsonText

open List

inductive Value where
  | null
  | bool (value : Bool)
  | integer (value : Int)
  | float (literal : Bytes)
  | string (text : Bytes)
  | array (items : List Value)
  | object (members : List (Bytes × Value))
  deriving Inhabited

namespace Value

/-- Induction with the hypothesis for the items of an array and the members of an object. -/
@[elab_as_elim]
theorem induction {Holds : Value → Prop} (null : Holds .null) (bool : ∀ value, Holds (.bool value))
    (integer : ∀ value, Holds (.integer value)) (float : ∀ literal, Holds (.float literal))
    (string : ∀ text, Holds (.string text))
    (array : ∀ items, (∀ item ∈ items, Holds item) → Holds (.array items))
    (object : ∀ members, (∀ member ∈ members, Holds member.2) → Holds (.object members)) :
    ∀ value, Holds value := by
  apply Value.rec
  case motive_2 => exact fun items => ∀ item ∈ items, Holds item
  case motive_3 => exact fun members => ∀ member ∈ members, Holds member.2
  case motive_4 => exact fun member => Holds member.2
  case null => exact null
  case bool => exact bool
  case integer => exact integer
  case float => exact float
  case string => exact string
  case array => exact array
  case object => exact object
  case nil => simp
  case cons => exact fun _ _ first rest => forall_mem_cons.mpr ⟨first, rest⟩
  case nil => simp
  case cons => exact fun _ _ first rest => forall_mem_cons.mpr ⟨first, rest⟩
  case mk => exact fun _ _ value => value

def isObject : Value → Bool
  | object _ => true
  | _ => false

def get? (key : Bytes) : Value → Option Value
  | object members => members.lookup key
  | _ => none

def size : Value → Nat
  | array items => items.length
  | object members => members.length
  | null => 0
  | _ => 1

end Value

def exact (value : Value) (keys : List Bytes) : Bool :=
  value.isObject && value.size = keys.length && keys.all fun key => (value.get? key).isSome

def text? : Value → Option Bytes
  | .string text => some text
  | _ => none

def integer? : Value → Option Int
  | .integer value => some value
  | _ => none

def bool? : Value → Option Bool
  | .bool value => some value
  | _ => none

def isNull : Value → Bool
  | .null => true
  | _ => false

def member (value : Value) (key : Bytes) : Value := (value.get? key).getD .null

def quote : UInt8 := 0x22

def backslash : UInt8 := 0x5c

def comma : UInt8 := ','.toUInt8

def colon : UInt8 := ':'.toUInt8

def shortEscape (c : UInt8) : Option UInt8 :=
  if c = quote then some quote
  else if c = backslash then some backslash
  else if c = 0x08 then some 'b'.toUInt8
  else if c = 0x0c then some 'f'.toUInt8
  else if c = 0x0a then some 'n'.toUInt8
  else if c = 0x0d then some 'r'.toUInt8
  else if c = 0x09 then some 't'.toUInt8
  else none

def hexByte (value : Nat) : UInt8 :=
  if value < 10 then (value + 48).toUInt8 else (value + 87).toUInt8

def escapeByte (c : UInt8) : Bytes :=
  match shortEscape c with
  | some letter => [backslash, letter]
  | none =>
    if c < 0x20 then
      [backslash, 'u'.toUInt8, '0'.toUInt8, '0'.toUInt8, hexByte (c.toNat / 16),
        hexByte (c.toNat % 16)]
    else [c]

def escape (text : Bytes) : Bytes := text.flatMap escapeByte

def quoted (text : Bytes) : Bytes := quote :: (escape text ++ [quote])

def integerText (value : Int) : Bytes :=
  if value < 0 then '-'.toUInt8 :: decimal value.natAbs else decimal value.natAbs

mutual

def Value.dump : Value → Bytes
  | .null => utf8 "null"
  | .bool value => if value then utf8 "true" else utf8 "false"
  | .integer value => integerText value
  | .float literal => literal
  | .string text => quoted text
  | .array items => '['.toUInt8 :: (dumpItems [] items ++ [']'.toUInt8])
  | .object members => '\x7b'.toUInt8 :: (dumpMembers [] members ++ ['\x7d'.toUInt8])

def dumpItems (separator : Bytes) : List Value → Bytes
  | [] => []
  | item :: rest => separator ++ item.dump ++ dumpItems [comma] rest

def dumpMembers (separator : Bytes) : List (Bytes × Value) → Bytes
  | [] => []
  | (key, value) :: rest =>
    separator ++ (quoted key ++ colon :: value.dump) ++ dumpMembers [comma] rest

end

mutual

def Value.same : Value → Value → Bool
  | .null, .null => true
  | .bool first, .bool second => first == second
  | .integer first, .integer second => first == second
  | .float first, .float second => first == second
  | .string first, .string second => first == second
  | .array first, .array second => itemsSame first second
  | .object first, .object second => membersSame first second
  | _, _ => false

def itemsSame : List Value → List Value → Bool
  | [], [] => true
  | first :: firsts, second :: seconds => first.same second && itemsSame firsts seconds
  | _, _ => false

def membersSame : List (Bytes × Value) → List (Bytes × Value) → Bool
  | [], [] => true
  | (key, first) :: firsts, (other, second) :: seconds =>
    key == other && first.same second && membersSame firsts seconds
  | _, _ => false

end

theorem itemsSame_iff {items : List Value}
    (each : ∀ item ∈ items, ∀ other, item.same other ↔ item = other) (others : List Value) :
    itemsSame items others ↔ items = others := by
  induction items generalizing others with
  | nil => cases others <;> simp [itemsSame]
  | cons item items ih =>
    cases others with
    | nil => simp [itemsSame]
    | cons other others =>
      have first := each item mem_cons_self other
      have rest := ih (fun later mem => each later (mem_cons_of_mem _ mem)) others
      simp [itemsSame, first, rest]

variable {members : List (Bytes × Value)}

theorem membersSame_iff (each : ∀ member ∈ members, ∀ other, member.2.same other ↔ member.2 = other)
    (others : List (Bytes × Value)) :
    membersSame members others ↔ members = others := by
  induction members generalizing others with
  | nil => cases others <;> simp [membersSame]
  | cons member members ih =>
    rcases member with ⟨key, value⟩
    cases others with
    | nil => simp [membersSame]
    | cons other others =>
      have first := each (key, value) mem_cons_self other.2
      have rest := ih (fun later mem => each later (mem_cons_of_mem _ mem)) others
      simp [membersSame, first, rest, Prod.ext_iff]

/-- The comparison of values decides equality. -/
theorem Value.same_iff (value other : Value) : value.same other ↔ value = other := by
  induction value using Value.induction generalizing other with
  | null | bool | integer | float | string => cases other <;> simp [Value.same]
  | array items ih => cases other <;> simp [Value.same, itemsSame_iff ih]
  | object members ih => cases other <;> simp [Value.same, membersSame_iff ih]

instance : DecidableEq Value := fun value other =>
  decidable_of_iff (value.same other = true) (value.same_iff other)

inductive Event where
  | null
  | boolean (value : Bool)
  | integer (value : Int)
  | float (literal : Bytes)
  | string (text : Bytes)
  | startObject
  | key (text : Bytes)
  | endObject
  | startArray
  | endArray

mutual

def Value.events : Value → List Event
  | .null => [.null]
  | .bool value => [.boolean value]
  | .integer value => [.integer value]
  | .float literal => [.float literal]
  | .string text => [.string text]
  | .array items => .startArray :: (itemsEvents items ++ [.endArray])
  | .object members => .startObject :: (membersEvents members ++ [.endObject])

def itemsEvents : List Value → List Event
  | [] => []
  | item :: rest => item.events ++ itemsEvents rest

def membersEvents : List (Bytes × Value) → List Event
  | [] => []
  | (key, value) :: rest => .key key :: (value.events ++ membersEvents rest)

end

mutual

/-- A value with the members of its objects in the order of their keys. -/
def Value.ordered : Value → Value
  | .null => .null
  | .bool value => .bool value
  | .integer value => .integer value
  | .float literal => .float literal
  | .string text => .string text
  | .array items => .array (orderedItems items)
  | .object members =>
    .object ((orderedMembers members).insertionSort fun first second => first.1.Le second.1)

def orderedItems : List Value → List Value
  | [] => []
  | item :: rest => item.ordered :: orderedItems rest

def orderedMembers : List (Bytes × Value) → List (Bytes × Value)
  | [] => []
  | (key, value) :: rest => (key, value.ordered) :: orderedMembers rest

end

mutual

def Value.nodes : Value → Nat
  | .array items => 1 + itemsNodes items
  | .object members => 1 + membersNodes members
  | .null | .bool _ | .integer _ | .float _ | .string _ => 1

def itemsNodes : List Value → Nat
  | [] => 0
  | item :: rest => item.nodes + itemsNodes rest

def membersNodes : List (Bytes × Value) → Nat
  | [] => 0
  | (_, value) :: rest => value.nodes + membersNodes rest

end

mutual

def Value.height : Value → Nat
  | .array items => 1 + itemsHeight items
  | .object members => 1 + membersHeight members
  | .null | .bool _ | .integer _ | .float _ | .string _ => 1

def itemsHeight : List Value → Nat
  | [] => 0
  | item :: rest => max item.height (itemsHeight rest)

def membersHeight : List (Bytes × Value) → Nat
  | [] => 0
  | (_, value) :: rest => max value.height (membersHeight rest)

end

open Value (dump height nodes ordered)

mutual

/-- Values with texts of an encoding, integers of 64 bits, no fractions, and distinct keys. -/
def Value.Valid (isText : Bytes → Bool) : Value → Prop
  | .null => True
  | .bool _ => True
  | .integer value => -2 ^ 63 ≤ value ∧ value < 2 ^ 64
  | .float _ => False
  | .string text => isText text = true
  | .array items => ItemsValid isText items
  | .object members => (members.map Prod.fst).Nodup ∧ MembersValid isText members

def ItemsValid (isText : Bytes → Bool) : List Value → Prop
  | [] => True
  | item :: rest => item.Valid isText ∧ ItemsValid isText rest

def MembersValid (isText : Bytes → Bool) : List (Bytes × Value) → Prop
  | [] => True
  | (key, value) :: rest => (isText key = true ∧ value.Valid isText) ∧ MembersValid isText rest

end

/-- A reader of texts, as a value and as events. The events come with whether the text was read
to its end. -/
structure Library where
  parse : Bytes → Option Value
  sax : Bytes → List Event × Bool

/-- The reader inverts the writer, up to the order of members: a reader keeps them by their keys. -/
structure Library.Inverse (lib : Library) (isText : Bytes → Bool) : Prop where
  parse_dump : ∀ {value : Value}, value.Valid isText → lib.parse value.dump = some value.ordered
  sax_dump : ∀ {value : Value}, value.Valid isText → lib.sax value.dump = (value.events, true)

section Lemmas

variable {isText : Bytes → Bool}

theorem itemsValid_iff {items : List Value} :
    ItemsValid isText items ↔ ∀ item ∈ items, item.Valid isText := by
  induction items with
  | nil => simp [ItemsValid]
  | cons item items ih => simp [ItemsValid, ih]

theorem membersValid_iff :
    MembersValid isText members ↔ ∀ member ∈ members, isText member.1 ∧ member.2.Valid isText := by
  induction members with
  | nil => simp [MembersValid]
  | cons member members ih => simp [MembersValid, ih]

/-- A byte is written by a short escape, by its number, or as it is. -/
theorem escapeByte_cases (c : UInt8) :
    (∃ letter, shortEscape c = some letter ∧ escapeByte c = [backslash, letter]) ∨
      (c < 0x20 ∧ shortEscape c = none ∧ escapeByte c =
        [backslash, 'u'.toUInt8, '0'.toUInt8, '0'.toUInt8, hexByte (c.toNat / 16),
          hexByte (c.toNat % 16)]) ∨
      (¬ c < 0x20 ∧ shortEscape c = none ∧ escapeByte c = [c]) := by
  cases short : shortEscape c with
  | some letter => exact .inl ⟨letter, rfl, by simp [escapeByte, short]⟩
  | none =>
    by_cases control : c < 0x20
    · exact .inr (.inl ⟨control, rfl, by simp [escapeByte, short, control]⟩)
    · exact .inr (.inr ⟨control, rfl, by simp [escapeByte, short, control]⟩)

@[simp]
theorem escape_cons (c : UInt8) (text : Bytes) : escape (c :: text) = escapeByte c ++ escape text :=
  rfl

end Lemmas

def shortUnescape (letter : UInt8) : Option UInt8 :=
  if letter = quote then some quote
  else if letter = backslash then some backslash
  else if letter = 'b'.toUInt8 then some 0x08
  else if letter = 'f'.toUInt8 then some 0x0c
  else if letter = 'n'.toUInt8 then some 0x0a
  else if letter = 'r'.toUInt8 then some 0x0d
  else if letter = 't'.toUInt8 then some 0x09
  else none

def unhexByte (c : UInt8) : Nat := if isDigit c then c.toNat - 48 else c.toNat - 87

/-- The text up to the closing quote, and what follows it. -/
def unescape : Bytes → Option (Bytes × Bytes)
  | [] => none
  | c :: rest =>
    if c = quote then some ([], rest)
    else if c = backslash then
      match rest with
      | [] => none
      | letter :: rest =>
        match shortUnescape letter with
        | some c => (unescape rest).map fun read => (c :: read.1, read.2)
        | none =>
          match rest with
          | _ :: _ :: high :: low :: rest =>
            (unescape rest).map fun read =>
              ((unhexByte high * 16 + unhexByte low).toUInt8 :: read.1, read.2)
          | _ => none
    else (unescape rest).map fun read => (c :: read.1, read.2)

/-- Items up to a closing byte, with commas between them. -/
def readSequence {Item : Type} (close : UInt8) (read : Bytes → Option (Item × Bytes)) :
    Nat → Bytes → Option (List Item × Bytes)
  | 0, _ => none
  | fuel + 1, raw =>
    (read raw).bind fun first =>
      match first.2 with
      | [] => none
      | c :: rest =>
        if c = close then some ([first.1], rest)
        else (readSequence close read fuel rest).map fun more => (first.1 :: more.1, more.2)

def readList {Item : Type} (close : UInt8) (read : Bytes → Option (Item × Bytes)) (raw : Bytes) :
    Option (List Item × Bytes) :=
  match raw with
  | [] => none
  | c :: rest => if c = close then some ([], rest) else readSequence close read raw.length raw

def readNatural (raw : Bytes) : Nat × Bytes :=
  (undecimal (raw.takeWhile isDigit), raw.dropWhile isDigit)

def readMember (read : Bytes → Option (Value × Bytes)) (raw : Bytes) :
    Option ((Bytes × Value) × Bytes) :=
  (unescape raw.tail).bind fun key =>
    (read key.2.tail).map fun value => ((key.1, value.1), value.2)

/-- The value that a text starts with, and what follows it. -/
def readValue : Nat → Bytes → Option (Value × Bytes)
  | 0, _ => none
  | _, [] => none
  | fuel + 1, c :: rest =>
    if c = quote then (unescape rest).map fun read => (.string read.1, read.2)
    else if c = '['.toUInt8 then
      (readList ']'.toUInt8 (readValue fuel) rest).map fun read => (.array read.1, read.2)
    else if c = '\x7b'.toUInt8 then
      (readList '\x7d'.toUInt8 (readMember (readValue fuel)) rest).map fun read =>
        (.object read.1, read.2)
    else if c = 'n'.toUInt8 then some (.null, rest.drop 3)
    else if c = 't'.toUInt8 then some (.bool true, rest.drop 3)
    else if c = 'f'.toUInt8 then some (.bool false, rest.drop 4)
    else if c = '-'.toUInt8 then
      let read := readNatural rest
      some (.integer (-(read.1 : Int)), read.2)
    else
      let read := readNatural (c :: rest)
      some (.integer read.1, read.2)

def compact : Library where
  parse raw := (readValue raw.length raw).map fun read => read.1.ordered
  sax raw :=
    match readValue raw.length raw with
    | some read => (read.1.events, true)
    | none => ([], false)

section Compact

theorem unescape_quote (rest : Bytes) : unescape (quote :: rest) = some ([], rest) := by
  rw [unescape.eq_def]
  simp

theorem unescape_escapeByte (c : UInt8) (rest : Bytes) :
    unescape (escapeByte c ++ rest) = (unescape rest).map fun read => (c :: read.1, read.2) := by
  have differs : backslash ≠ quote := by decide
  rcases escapeByte_cases c with ⟨letter, short, isEscape⟩ | ⟨control, short, isEscape⟩ |
    ⟨plain, short, isEscape⟩
  · have inverse : ∀ c : UInt8, (shortEscape c).all
        (fun letter => decide (shortUnescape letter = some c)) := by decide +kernel
    have isShort := inverse c
    simp only [short, Option.all_some, decide_eq_true_eq] at isShort
    rw [isEscape, cons_append, cons_append, nil_append, unescape.eq_def]
    simp [differs, isShort]
  · have inverse : ∀ c : UInt8, c < 0x20 →
        (unhexByte (hexByte (c.toNat / 16)) * 16 + unhexByte (hexByte (c.toNat % 16))).toUInt8 =
          c := by decide +kernel
    have long : shortUnescape 'u'.toUInt8 = none := by decide
    simp only [isEscape, cons_append, nil_append]
    rw [unescape.eq_def]
    simp [differs, long, inverse c control]
  · have apart : ∀ c : UInt8, shortEscape c = none → c ≠ quote ∧ c ≠ backslash := by decide +kernel
    rw [isEscape, singleton_append, unescape.eq_def]
    simp [apart c short]

/-- Reading a string takes its escaping back, up to the closing quote. -/
theorem unescape_escape (text rest : Bytes) :
    unescape (escape text ++ quote :: rest) = some (text, rest) := by
  induction text with
  | nil => exact unescape_quote rest
  | cons c text ih =>
    rw [escape_cons, append_assoc, unescape_escapeByte, ih]
    rfl

/-- Where a value may end: at the end of the text or before a byte that is not a digit. -/
def Ends (rest : Bytes) : Prop := ∀ c ∈ rest.head?, isDigit c = false

/-- A number is read to its last digit. -/
theorem readNatural_decimal (n : Nat) {rest : Bytes} (ends : Ends rest) :
    readNatural (decimal n ++ rest) = (n, rest) := by
  have digits : ∀ c ∈ decimal n, isDigit c := fun c mem => isDigit_of_mem_decimal mem
  have stops : rest.takeWhile isDigit = [] ∧ rest.dropWhile isDigit = rest := by
    cases rest with
    | nil => simp
    | cons c rest => simp [ends c rfl]
  rw [readNatural, takeWhile_append_of_pos digits, dropWhile_append_of_pos digits,
    stops.1, stops.2, append_nil, undecimal_decimal]

theorem exists_fuel {least fuel : Nat} (enough : least + 1 ≤ fuel) : ∃ rest, fuel = rest + 1 :=
  ⟨fuel - 1, by omega⟩

/-- Texts with a separator before the first and commas before the others. -/
def joined (separator : Bytes) : List Bytes → Bytes
  | [] => []
  | text :: rest => separator ++ text ++ joined [comma] rest

/-- Texts joined by commas take one byte more for each text but the first. -/
theorem length_joined (texts : List Bytes) :
    (joined [] texts).length = (texts.map length).sum + (texts.length - 1) := by
  have later : ∀ rest : List Bytes,
      (joined [comma] rest).length = (rest.map length).sum + rest.length := by
    intro rest
    induction rest with
    | nil => rfl
    | cons text rest ih =>
      simp only [joined, length_append, length_nil, map_cons, sum_cons, length_cons, ih]
      omega
  cases texts with
  | nil => rfl
  | cons text rest =>
    simp only [joined, nil_append, length_append, later, map_cons, sum_cons, length_cons]
    omega

theorem dumpItems_eq_joined (separator : Bytes) (items : List Value) :
    dumpItems separator items = joined separator (items.map dump) := by
  induction items generalizing separator with
  | nil => rfl
  | cons item items ih => simp [dumpItems, joined, ih]

theorem dumpMembers_eq_joined (separator : Bytes) (members : List (Bytes × Value)) :
    dumpMembers separator members =
      joined separator (members.map fun member => quoted member.1 ++ colon :: member.2.dump) := by
  induction members generalizing separator with
  | nil => rfl
  | cons member members ih => simp [dumpMembers, joined, ih]

theorem length_dumpItems (items : List Value) :
    (dumpItems [] items).length = (items.map fun item => item.dump.length).sum +
      (items.length - 1) := by
  simp [dumpItems_eq_joined, length_joined, Function.comp_def]

def memberLength (member : Bytes × Value) : Nat :=
  (quoted member.1).length + 1 + member.2.dump.length

theorem length_dumpMembers (members : List (Bytes × Value)) :
    (dumpMembers [] members).length = (members.map memberLength).sum + (members.length - 1) := by
  have each : members.map (fun member => (quoted member.1 ++ colon :: member.2.dump).length) =
      members.map memberLength := map_congr_left fun member _ => by
    rw [memberLength, length_append, length_cons]
    omega
  rw [dumpMembers_eq_joined, length_joined, map_map, length_map]
  exact congrArg (sum · + _) each

section Sequence

variable {Item : Type} {close : UInt8} {read : Bytes → Option (Item × Bytes)}
  {print : Item → Bytes}

/-- What is printed between commas is read back, when every item is. -/
theorem readSequence_joined (isClose : close ≠ comma) (ends : isDigit close = false)
    {first : Item} {items : List Item} {fuel : Nat} (enough : items.length < fuel)
    (reads : ∀ item ∈ first :: items, ∀ rest, Ends rest →
      read (print item ++ rest) = some (item, rest)) (rest : Bytes) :
    readSequence close read fuel (joined [] ((first :: items).map print) ++ close :: rest) =
      some (first :: items, rest) := by
  induction items generalizing first fuel with
  | nil =>
    rcases exists_fuel enough with ⟨fuel, rfl⟩
    have isFirst := reads first (by simp) (close :: rest) (by simpa [Ends] using ends)
    simp [readSequence, joined, isFirst]
  | cons second items ih =>
    rcases exists_fuel enough with ⟨fuel, rfl⟩
    have isFirst := reads first (by simp)
      (comma :: (joined [] ((second :: items).map print) ++ close :: rest))
      (by simp [Ends]; decide)
    have others := ih (Nat.lt_of_succ_lt_succ enough) fun item mem =>
      reads item (mem_cons_of_mem _ mem)
    simp only [joined, map_cons, nil_append, cons_append, append_assoc] at isFirst others ⊢
    simp [readSequence, isFirst, isClose.symm, others]

/-- A list in its brackets is read back, when every item is. -/
theorem readList_joined (isClose : close ≠ comma) (ends : isDigit close = false)
    {items : List Item} (opens : ∀ item ∈ items, ∃ c text, print item = c :: text ∧ c ≠ close)
    (reads : ∀ item ∈ items, ∀ rest, Ends rest → read (print item ++ rest) = some (item, rest))
    (rest : Bytes) :
    readList close read (joined [] (items.map print) ++ close :: rest) = some (items, rest) := by
  cases items with
  | nil => simp [readList, joined]
  | cons first items =>
    have enough : items.length <
        (joined [] ((first :: items).map print) ++ close :: rest).length := by
      rw [length_append, length_joined, length_map]
      simp only [length_cons]
      omega
    have sequence := readSequence_joined isClose ends enough reads rest
    rcases opens first mem_cons_self with ⟨c, text, starts, isOpen⟩
    simp only [map_cons, joined, nil_append, starts, cons_append] at sequence ⊢
    rwa [readList, if_neg isOpen]

end Sequence

theorem dump_starts {isText : Bytes → Bool} {value : Value} (valid : value.Valid isText) :
    ∃ c text, value.dump = c :: text ∧ c ≠ ']'.toUInt8 := by
  cases value with
  | null => exact ⟨'n'.toUInt8, [117, 108, 108], by decide, by decide⟩
  | bool value =>
    cases value with
    | true => exact ⟨'t'.toUInt8, [114, 117, 101], by decide, by decide⟩
    | false => exact ⟨'f'.toUInt8, [97, 108, 115, 101], by decide, by decide⟩
  | integer value =>
    simp only [dump, integerText]
    split
    · exact ⟨_, _, rfl, by decide⟩
    rcases exists_cons_of_ne_nil (decimal_ne_nil value.natAbs) with ⟨c, text, isText⟩
    refine ⟨c, text, isText, ?_⟩
    rintro rfl
    have digit : isDigit ']'.toUInt8 :=
      isDigit_of_mem_decimal (n := value.natAbs) (by simp [isText])
    exact absurd digit (by decide)
  | float => exact valid.elim
  | string | array | object => exact ⟨_, _, rfl, by decide⟩

theorem readMember_append {read : Bytes → Option (Value × Bytes)} {member : Bytes × Value}
    {rest : Bytes} (reads : read (member.2.dump ++ rest) = some (member.2, rest)) :
    readMember read ((quoted member.1 ++ colon :: member.2.dump) ++ rest) =
      some (member, rest) := by
  have key : unescape ((quoted member.1 ++ colon :: member.2.dump) ++ rest).tail =
      some (member.1, colon :: (member.2.dump ++ rest)) := by
    simpa [quoted] using unescape_escape member.1 (colon :: (member.2.dump ++ rest))
  rw [readMember, key, Option.bind_some, tail_cons, reads]
  rfl

theorem readValue_integerText (value : Int) {fuel : Nat} {rest : Bytes} (ends : Ends rest) :
    readValue (fuel + 1) (integerText value ++ rest) = some (.integer value, rest) := by
  have others : ∀ c : UInt8, isDigit c →
      c ≠ quote ∧ c ≠ '['.toUInt8 ∧ c ≠ '\x7b'.toUInt8 ∧ c ≠ 'n'.toUInt8 ∧ c ≠ 't'.toUInt8 ∧
        c ≠ 'f'.toUInt8 ∧ c ≠ '-'.toUInt8 := by decide +kernel
  rw [integerText]
  split
  · rename_i negative
    have minus : '-'.toUInt8 ≠ quote ∧ '-'.toUInt8 ≠ '['.toUInt8 ∧ '-'.toUInt8 ≠ '\x7b'.toUInt8 ∧
        '-'.toUInt8 ≠ 'n'.toUInt8 ∧ '-'.toUInt8 ≠ 't'.toUInt8 ∧ '-'.toUInt8 ≠ 'f'.toUInt8 := by
      decide
    have isValue : -(value.natAbs : Int) = value := by omega
    simp only [cons_append, readValue, minus.1, minus.2.1, minus.2.2.1, minus.2.2.2.1,
      minus.2.2.2.2.1, minus.2.2.2.2.2, if_false, if_true, readNatural_decimal _ ends, isValue]
  · have isValue : (value.natAbs : Int) = value := by omega
    rcases exists_cons_of_ne_nil (decimal_ne_nil value.natAbs) with ⟨c, text, isText⟩
    have digit : isDigit c :=
      isDigit_of_mem_decimal (n := value.natAbs) (by simp [isText])
    rcases others c digit with ⟨quote, bracket, brace, n, t, f, minus⟩
    have natural := readNatural_decimal value.natAbs ends
    rw [isText] at natural ⊢
    simp only [cons_append] at natural
    simp only [cons_append, readValue, quote, bracket, brace, n, t, f, minus, if_false,
      natural, isValue]

/-- The reader takes the writer back on every valid value, with enough fuel. -/
theorem readValue_dump {isText : Bytes → Bool} (value : Value) :
    value.Valid isText → ∀ {fuel : Nat} {rest : Bytes}, value.dump.length ≤ fuel → Ends rest →
      readValue fuel (value.dump ++ rest) = some (value, rest) := by
  induction value using Value.induction with
  | null =>
    intro _ fuel rest enough ends
    rcases exists_fuel enough with ⟨fuel, rfl⟩
    rfl
  | bool value =>
    intro _ fuel rest enough ends
    cases value with
    | true | false =>
      rcases exists_fuel enough with ⟨fuel, rfl⟩
      rfl
  | integer value =>
    intro valid fuel rest enough ends
    rcases dump_starts valid with ⟨c, text, starts, -⟩
    rw [starts, length_cons] at enough
    rcases exists_fuel enough with ⟨fuel, rfl⟩
    exact readValue_integerText value ends
  | float => exact fun valid => valid.elim
  | string text =>
    intro _ fuel rest enough ends
    rcases exists_fuel enough with ⟨fuel, rfl⟩
    have read := unescape_escape text rest
    simp [dump, quoted, readValue, read]
  | array items ih =>
    intro valid fuel rest enough ends
    simp only [dump, length_cons, length_append, length_dumpItems] at enough
    rcases exists_fuel enough with ⟨fuel, rfl⟩
    have differs : '['.toUInt8 ≠ quote := by decide
    have list := @readList_joined _ ']'.toUInt8 (readValue fuel) dump (by decide) (by decide) items
      (fun item mem => dump_starts (itemsValid_iff.mp valid item mem)) (by
        intro item mem rest ends
        have shorter := le_sum_of_mem (mem_map_of_mem (f := fun item => item.dump.length) mem)
        exact ih item mem (itemsValid_iff.mp valid item mem) (by omega) ends) rest
    simp [dump, dumpItems_eq_joined, readValue, differs, list]
  | object members ih =>
    intro valid fuel rest enough ends
    simp only [dump, length_cons, length_append, length_dumpMembers] at enough
    rcases exists_fuel enough with ⟨fuel, rfl⟩
    have differs : '\x7b'.toUInt8 ≠ quote ∧ '\x7b'.toUInt8 ≠ '['.toUInt8 := by decide
    have list := @readList_joined _ '\x7d'.toUInt8 (readMember (readValue fuel))
      (fun member => quoted member.1 ++ colon :: member.2.dump) (by decide) (by decide) members
      (fun member _ => ⟨_, _, rfl, by decide⟩) (by
        intro member mem rest ends
        have shorter := le_sum_of_mem (mem_map_of_mem (f := memberLength) mem)
        rw [memberLength] at shorter
        exact readMember_append
          (ih member mem (membersValid_iff.mp valid.2 member mem).2 (by omega) ends)) rest
    simp [dump, dumpMembers_eq_joined, readValue, differs.1, differs.2, list]

theorem compact_inverse (isText : Bytes → Bool) : compact.Inverse isText := by
  have reads : ∀ {value : Value}, value.Valid isText →
      readValue value.dump.length value.dump = some (value, []) := by
    intro value valid
    have ends : Ends [] := by simp [Ends]
    have read := readValue_dump value valid (Nat.le_refl _) ends
    simpa using read
  constructor
  · intro value valid
    simp [compact, reads valid]
  · intro value valid
    simp only [compact, reads valid]

end Compact

section Ordered

variable {isText : Bytes → Bool} (items : List Value) (value : Value)

theorem orderedItems_eq_map : orderedItems items = items.map ordered := by
  induction items with
  | nil => rfl
  | cons item items ih => simp [orderedItems, ih]

theorem orderedMembers_eq_map (members : List (Bytes × Value)) :
    orderedMembers members = members.map fun member => (member.1, member.2.ordered) := by
  induction members with
  | nil => rfl
  | cons member members ih => simp [orderedMembers, ih]

/-- Ordering permutes the members of an object. -/
theorem exists_perm_ordered (members : List (Bytes × Value)) :
    ∃ sorted, (Value.object members).ordered = .object sorted ∧
      sorted.Perm (members.map fun member => (member.1, member.2.ordered)) :=
  ⟨_, rfl, orderedMembers_eq_map members ▸ perm_insertionSort _ _⟩

instance : Std.Total fun first second : Bytes × Value => first.1.Le second.1 :=
  ⟨fun first second => le_total (first.1.map UInt8.toNat) (second.1.map UInt8.toNat)⟩

instance : IsTrans (Bytes × Value) fun first second => first.1.Le second.1 :=
  ⟨fun first second third => le_trans (a := first.1.map UInt8.toNat) (b := second.1.map UInt8.toNat)
    (c := third.1.map UInt8.toNat)⟩

/-- Ordering twice is ordering once. -/
theorem ordered_ordered : value.ordered.ordered = value.ordered := by
  induction value using Value.induction with
  | null | bool | integer | float | string => rfl
  | array items ih =>
    have same : items.map (ordered ∘ ordered) = items.map ordered :=
      map_congr_left ih
    simp [ordered, orderedItems_eq_map, same]
  | object members ih =>
    rcases exists_perm_ordered members with ⟨sorted, isOrdered, perm⟩
    have each : sorted.map (fun member => (member.1, member.2.ordered)) = sorted := by
      apply (map_congr_left fun member mem => ?_).trans (map_id sorted)
      rcases mem_map.mp (perm.mem_iff.mp mem) with ⟨original, isMember, rfl⟩
      simp [ih original isMember]
    have isSorted : sorted.Pairwise fun first second => first.1.Le second.1 := by
      cases isOrdered
      exact pairwise_insertionSort _ _
    rw [isOrdered]
    simp only [ordered, orderedMembers_eq_map, each]
    exact congrArg Value.object isSorted.insertionSort_eq

theorem itemsNodes_eq_sum : itemsNodes items = (items.map nodes).sum := by
  induction items with
  | nil => rfl
  | cons item items ih => simp [itemsNodes, ih]

theorem membersNodes_eq_sum (members : List (Bytes × Value)) :
    membersNodes members = (members.map fun member => member.2.nodes).sum := by
  induction members with
  | nil => rfl
  | cons member members ih => simp [membersNodes, ih]

theorem itemsHeight_le {items : List Value} {bound : Nat} :
    itemsHeight items ≤ bound ↔ ∀ item ∈ items, item.height ≤ bound := by
  induction items with
  | nil => simp [itemsHeight]
  | cons item items ih => simp [itemsHeight, ih]

variable {members : List (Bytes × Value)}

theorem membersHeight_le {bound : Nat} :
    membersHeight members ≤ bound ↔ ∀ member ∈ members, member.2.height ≤ bound := by
  induction members with
  | nil => simp [membersHeight]
  | cons member members ih => simp [membersHeight, ih]

theorem length_object (members : List (Bytes × Value)) :
    (Value.object members).dump.length =
      2 + (members.map memberLength).sum + (members.length - 1) := by
  simp only [dump, length_cons, length_append, length_dumpMembers, length_nil]
  omega

theorem length_array :
    (Value.array items).dump.length =
      2 + (items.map fun item => item.dump.length).sum + (items.length - 1) := by
  simp only [dump, length_cons, length_append, length_dumpItems, length_nil]
  omega

/-- Ordering does not change the length of the text. -/
theorem length_dump_ordered : value.ordered.dump.length = value.dump.length := by
  induction value using Value.induction with
  | null | bool | integer | float | string => rfl
  | array items ih =>
    have same : items.map ((fun item => item.dump.length) ∘ ordered) =
        items.map fun item => item.dump.length := map_congr_left ih
    simp [ordered, dump, orderedItems_eq_map, length_dumpItems, same]
  | object members ih =>
    rcases exists_perm_ordered members with ⟨sorted, isOrdered, perm⟩
    have same : members.map (memberLength ∘ fun member => (member.1, member.2.ordered)) =
        members.map memberLength :=
      map_congr_left fun member mem => by simp [memberLength, ih member mem]
    simp [isOrdered, dump, length_dumpMembers, (perm.map memberLength).sum_eq,
      perm.length_eq, same]

theorem nodes_ordered : value.ordered.nodes = value.nodes := by
  induction value using Value.induction with
  | null | bool | integer | float | string => rfl
  | array items ih =>
    have same : items.map (nodes ∘ ordered) = items.map nodes :=
      map_congr_left ih
    simp [ordered, nodes, orderedItems_eq_map, itemsNodes_eq_sum, same]
  | object members ih =>
    rcases exists_perm_ordered members with ⟨sorted, isOrdered, perm⟩
    have same : members.map ((fun member => member.2.nodes) ∘
        fun member : Bytes × Value => (member.1, member.2.ordered)) =
          members.map fun member => member.2.nodes :=
      map_congr_left ih
    simp [isOrdered, nodes, membersNodes_eq_sum,
      (perm.map fun member => member.2.nodes).sum_eq, same]

/-- Ordering does not make a value deeper. -/
theorem height_ordered_le {value : Value} {bound : Nat} (low : value.height ≤ bound) :
    value.ordered.height ≤ bound := by
  induction value using Value.induction generalizing bound with
  | null | bool | integer | float | string => exact low
  | array items ih =>
    have each := itemsHeight_le.mp (Nat.le_sub_of_add_le' low)
    have lowered : itemsHeight (orderedItems items) ≤ bound - 1 := by
      rw [orderedItems_eq_map, itemsHeight_le]
      intro item mem
      rcases mem_map.mp mem with ⟨original, isItem, rfl⟩
      exact ih original isItem (each original isItem)
    simp only [height, ordered] at low ⊢
    omega
  | object members ih =>
    rcases exists_perm_ordered members with ⟨sorted, isOrdered, perm⟩
    have each := membersHeight_le.mp (Nat.le_sub_of_add_le' low)
    have lowered : membersHeight sorted ≤ bound - 1 := by
      rw [membersHeight_le]
      intro member mem
      rcases mem_map.mp (perm.mem_iff.mp mem) with ⟨original, isMember, rfl⟩
      exact ih original isMember (each original isMember)
    rw [isOrdered]
    simp only [height] at low ⊢
    omega

theorem valid_ordered {value : Value} (valid : value.Valid isText) :
    value.ordered.Valid isText := by
  induction value using Value.induction with
  | null | bool | integer | float | string => exact valid
  | array items ih =>
    have each := itemsValid_iff.mp valid
    simp only [ordered, Value.Valid, orderedItems_eq_map, itemsValid_iff, mem_map,
      forall_exists_index, and_imp, forall_apply_eq_imp_iff₂]
    exact fun item mem => ih item mem (each item mem)
  | object members ih =>
    rcases exists_perm_ordered members with ⟨sorted, isOrdered, perm⟩
    have each := membersValid_iff.mp valid.2
    rw [isOrdered]
    constructor
    · rw [(perm.map Prod.fst).nodup_iff, map_map]
      exact valid.1
    · apply membersValid_iff.mpr
      intro member mem
      rcases mem_map.mp (perm.mem_iff.mp mem) with ⟨original, isMember, rfl⟩
      exact ⟨(each original isMember).1, ih original isMember (each original isMember).2⟩

theorem lookup_eq_some_iff_mem {Item : Type*} {members : List (Bytes × Item)}
    (distinct : (members.map Prod.fst).Nodup) {key : Bytes} {value : Item} :
    members.lookup key = some value ↔ (key, value) ∈ members := by
  induction members with
  | nil => simp
  | cons member members ih =>
    rcases nodup_cons.mp distinct with ⟨fresh, later⟩
    rw [lookup_cons]
    split
    case h_1 isKey =>
      cases beq_iff_eq.mp isKey
      have absent : (member.1, value) ∉ members := fun mem =>
        fresh (mem_map.mpr ⟨_, mem, rfl⟩)
      simp [Prod.ext_iff, absent, eq_comm]
    case h_2 isOther =>
      have notFirst : (key, value) ≠ member := by
        rintro rfl
        simp at isOther
      simp [ih later, notFirst]

/-- Ordering keeps what is found under a key. -/
theorem get?_ordered (distinct : (members.map Prod.fst).Nodup) (key : Bytes) :
    (Value.object members).ordered.get? key = (members.lookup key).map ordered := by
  rcases exists_perm_ordered members with ⟨sorted, isOrdered, perm⟩
  have sortedDistinct : (sorted.map Prod.fst).Nodup := by
    rw [(perm.map Prod.fst).nodup_iff, map_map]
    exact distinct
  rw [isOrdered]
  ext value
  simp only [Value.get?, lookup_eq_some_iff_mem sortedDistinct, perm.mem_iff,
    mem_map, Option.map_eq_some_iff, lookup_eq_some_iff_mem distinct, Prod.exists,
    Prod.mk.injEq]
  constructor
  · rintro ⟨_, original, mem, rfl, rfl⟩
    exact ⟨original, mem, rfl⟩
  · rintro ⟨original, mem, rfl⟩
    exact ⟨key, original, mem, rfl, rfl⟩

theorem member_ordered (distinct : (members.map Prod.fst).Nodup) {key : Bytes} {value : Value}
    (isMember : members.lookup key = some value) :
    member (Value.object members).ordered key = value.ordered := by
  rw [member, get?_ordered distinct, isMember]
  rfl

/-- An object with exactly the given keys keeps them when it is ordered. -/
theorem exact_ordered (distinct : (members.map Prod.fst).Nodup) {keys : List Bytes}
    (size : members.length = keys.length) (has : ∀ key ∈ keys, (members.lookup key).isSome) :
    exact (Value.object members).ordered keys := by
  rcases exists_perm_ordered members with ⟨sorted, isOrdered, perm⟩
  have counted : sorted.length = keys.length := by simpa [size] using perm.length_eq
  have each : ∀ key ∈ keys, ((Value.object members).ordered.get? key).isSome := by
    intro key mem
    simpa [get?_ordered distinct] using has key mem
  rw [isOrdered] at each ⊢
  simpa [exact, Value.isObject, Value.size, counted] using each

end Ordered

end Plinth.Core.JsonText
