import Plinth.Core.Json

/-!
# Realtime channels

Model of `realtime/channel.cpp`: the names of logical channels in three layers and the
validator that accepts them. A consumer returns what is left after the part it accepts.
-/

namespace Plinth.Realtime

open Core (byteSize)

inductive ChannelLayer where
  | data
  | system
  | extension

variable (text schema table body ext tail : List Char) (c : Char) (ch : String)

def isIdentStart : Bool := 'a' ≤ c && c ≤ 'z'

def isIdentRest : Bool := isIdentStart c || ('0' ≤ c && c ≤ '9') || c == '_'

/-- Extension names have no underscores. -/
def isExtNameRest : Bool := isIdentStart c || ('0' ≤ c && c ≤ '9')

/-- A first character and then as many further ones as possible. -/
def consumeWord (rest : Char → Bool) : List Char → Option (List Char)
  | first :: tail => if isIdentStart first then some (tail.dropWhile rest) else none
  | [] => none

def consumeIdent : List Char → Option (List Char) := consumeWord isIdentRest

def consumeExtName : List Char → Option (List Char) := consumeWord isExtNameRest

def consumeChar : List Char → Option (List Char)
  | first :: tail => if first == c then some tail else none
  | [] => none

/-- The segments after the first one; the fuel bounds their number. -/
def consumeSegments : Nat → List Char → Option (List Char)
  | 0, text => some text
  | fuel + 1, text =>
    match consumeChar '.' text with
    | none => some text
    | some tail => (consumeIdent tail).bind (consumeSegments fuel)

def consumeDottedIdents : Option (List Char) :=
  (consumeIdent text).bind fun rest => consumeSegments rest.length rest

def isDataBody : Bool :=
  ((consumeIdent text).bind fun rest =>
    (consumeChar '.' rest).bind consumeIdent) == some []

def isSystemBody : Bool := consumeDottedIdents text == some []

def isExtBody : Bool :=
  ((consumeExtName text).bind fun rest =>
    (consumeChar ':' rest).bind consumeDottedIdents) == some []

def dataStart : List Char := "plinth:data:".toList

def systemStart : List Char := "plinth:system:".toList

def extStart : List Char := "plinth:ext:".toList

def after? (start text : List Char) : Option (List Char) :=
  if start.isPrefixOf text then some (text.drop start.length) else none

def validateChannel : Bool :=
  !ch.toList.isEmpty && decide (byteSize ch ≤ 63) &&
    match after? dataStart ch.toList, after? systemStart ch.toList, after? extStart ch.toList with
    | some body, _, _ => isDataBody body
    | none, some body, _ => isSystemBody body
    | none, none, some body => isExtBody body
    | none, none, none => false

def channelLayer : ChannelLayer :=
  if dataStart.isPrefixOf ch.toList then .data
  else if systemStart.isPrefixOf ch.toList then .system
  else .extension

def channelExtension : List Char :=
  match after? extStart ch.toList with
  | none => []
  | some rest => if rest.contains ':' then rest.takeWhile (· != ':') else []

theorem after?_eq_some {start text rest : List Char} :
    after? start text = some rest ↔ text = start ++ rest := by
  unfold after?
  split
  case isTrue starts =>
    rcases List.isPrefixOf_iff_prefix.mp starts with ⟨tail, rfl⟩
    simp
  case isFalse other =>
    simp only [reduceCtorEq, false_iff]
    rintro rfl
    exact other (List.isPrefixOf_iff_prefix.mpr ⟨rest, rfl⟩)

variable {allowed : Char → Bool}

theorem consumeWord_eq_some {text rest : List Char}
    (consumed : consumeWord allowed text = some rest) :
    ∃ first tail, isIdentStart first ∧ (∀ c ∈ tail, allowed c) ∧ text = first :: tail ++ rest := by
  cases text with
  | nil => cases consumed
  | cons first text =>
    simp only [consumeWord] at consumed
    split_ifs at consumed with starts
    cases consumed
    refine ⟨first, text.takeWhile allowed, starts, fun c mem => List.mem_takeWhile_imp mem, ?_⟩
    simp

/-- A word is taken up to the first character that it may not have. -/
theorem consumeWord_append {first : Char} {tail rest : List Char}
    (starts : isIdentStart first) (continues : ∀ c ∈ tail, allowed c)
    (stops : ∀ c ∈ rest.head?, allowed c = false) :
    consumeWord allowed (first :: tail ++ rest) = some rest := by
  simp only [List.cons_append, consumeWord, starts, if_true, Option.some.injEq]
  rw [List.dropWhile_append_of_pos continues]
  cases rest with
  | nil => rfl
  | cons c rest => simp [stops c (by simp)]

def IsWord (allowed : Char → Bool) (word : List Char) : Prop :=
  ∃ first tail, word = first :: tail ∧ isIdentStart first = true ∧ ∀ c ∈ tail, allowed c = true

theorem IsWord.forall {word : List Char} (isWord : IsWord allowed word)
    (starts : ∀ c, isIdentStart c → allowed c) : ∀ c ∈ word, allowed c := by
  rcases isWord with ⟨first, tail, rfl, isStart, continues⟩
  intro c mem
  rcases List.mem_cons.mp mem with rfl | mem
  · exact starts c isStart
  · exact continues c mem

theorem consumeChar_eq_some {c : Char} {text rest : List Char}
    (consumed : consumeChar c text = some rest) : text = c :: rest := by
  cases text with
  | nil => cases consumed
  | cons first tail =>
    simp only [consumeChar] at consumed
    split_ifs at consumed with same
    rw [beq_iff_eq.mp same, Option.some.inj consumed]

/-- The body of a data channel: a schema, a dot and a table. -/
theorem isDataBody_iff {body : List Char} :
    isDataBody body ↔ ∃ schema table, IsWord isIdentRest schema ∧
      IsWord isIdentRest table ∧ body = schema ++ '.' :: table := by
  simp only [isDataBody, beq_iff_eq, Option.bind_eq_some_iff]
  constructor
  · rintro ⟨rest, isSchema, tail, isDot, isTable⟩
    rcases consumeWord_eq_some isSchema with ⟨first, schema, starts, continues, rfl⟩
    rcases consumeChar_eq_some isDot with rfl
    rcases consumeWord_eq_some isTable with ⟨first', table, starts', continues', rfl⟩
    exact ⟨first :: schema, first' :: table, ⟨first, schema, rfl, starts, continues⟩,
      ⟨first', table, rfl, starts', continues'⟩, by simp⟩
  · rintro ⟨_, _, ⟨first, schema, rfl, starts, continues⟩,
      ⟨first', table, rfl, starts', continues'⟩, rfl⟩
    refine ⟨_, consumeWord_append starts continues ?_, first' :: table, by simp [consumeChar], ?_⟩
    · simp [isIdentRest, isIdentStart]
    · have consumed : consumeIdent (first' :: table ++ []) = some [] :=
        consumeWord_append starts' continues' (by simp)
      simpa using consumed

theorem isExtBody_imp {body : List Char} (valid : isExtBody body) :
    ∃ ext tail, IsWord isExtNameRest ext ∧ isSystemBody tail ∧ body = ext ++ ':' :: tail := by
  simp only [isExtBody, beq_iff_eq, Option.bind_eq_some_iff] at valid
  rcases valid with ⟨rest, isExt, tail, isColon, isTail⟩
  rcases consumeWord_eq_some isExt with ⟨first, ext, starts, continues, rfl⟩
  rcases consumeChar_eq_some isColon with rfl
  exact ⟨first :: ext, tail, ⟨first, ext, rfl, starts, continues⟩, by simp [isSystemBody, isTail],
    rfl⟩

def dataChannel : String :=
  String.ofList (dataStart ++ (schema ++ '.' :: table))

def systemChannel : String := String.ofList (systemStart ++ body)

def extChannel : String :=
  String.ofList (extStart ++ (ext ++ ':' :: tail))

inductive Shape : String → Prop where
  | data {schema table : List Char} (isSchema : IsWord isIdentRest schema)
      (isTable : IsWord isIdentRest table) : Shape (dataChannel schema table)
  | system {body : List Char} (isBody : isSystemBody body = true) : Shape (systemChannel body)
  | extension {ext tail : List Char} (isExt : IsWord isExtNameRest ext)
      (isTail : isSystemBody tail = true) : Shape (extChannel ext tail)

theorem ofList_of_toList {text : String} {chars : List Char} (same : text.toList = chars) :
    text = String.ofList chars := by
  rw [← same, String.ofList_toList]

/-- A valid channel has one of three shapes. -/
theorem shape_of_valid {ch : String} (valid : validateChannel ch) : Shape ch := by
  simp only [validateChannel, Bool.and_eq_true] at valid
  rcases valid with ⟨-, valid⟩
  split at valid
  case h_1 body isData =>
    rcases isDataBody_iff.mp valid with ⟨schema, table, isSchema, isTable, rfl⟩
    rw [ofList_of_toList (after?_eq_some.mp isData)]
    exact .data isSchema isTable
  case h_2 body _ isSystem =>
    rw [ofList_of_toList (after?_eq_some.mp isSystem)]
    exact .system valid
  case h_3 body _ _ isExtension =>
    rcases isExtBody_imp valid with ⟨ext, tail, isExt, isTail, rfl⟩
    rw [ofList_of_toList (after?_eq_some.mp isExtension)]
    exact .extension isExt isTail
  case h_4 => cases valid

theorem toList_dataChannel :
    (dataChannel schema table).toList = dataStart ++ (schema ++ '.' :: table) :=
  String.toList_ofList

theorem toList_systemChannel : (systemChannel body).toList = systemStart ++ body :=
  String.toList_ofList

theorem toList_extChannel : (extChannel ext tail).toList = extStart ++ (ext ++ ':' :: tail) :=
  String.toList_ofList

/-- A data channel is valid if it fits into the name of a PostgreSQL channel. -/
theorem validateChannel_dataChannel {schema table : List Char}
    (isSchema : IsWord isIdentRest schema) (isTable : IsWord isIdentRest table) :
    validateChannel (dataChannel schema table) =
      decide (byteSize (dataChannel schema table) ≤ 63) := by
  have body : after? dataStart (dataChannel schema table).toList =
      some (schema ++ '.' :: table) := after?_eq_some.mpr (toList_dataChannel schema table)
  have nonempty : (dataChannel schema table).toList.isEmpty = false := by
    rw [toList_dataChannel]
    rfl
  simp only [validateChannel, nonempty, body,
    isDataBody_iff.mpr ⟨schema, table, isSchema, isTable, rfl⟩, Bool.not_false, Bool.true_and,
    Bool.and_true]

theorem channelLayer_dataChannel : channelLayer (dataChannel schema table) = .data := by
  rw [channelLayer, toList_dataChannel]
  rfl

theorem channelLayer_systemChannel : channelLayer (systemChannel body) = .system := by
  rw [channelLayer, toList_systemChannel]
  rfl

theorem channelLayer_extChannel : channelLayer (extChannel ext tail) = .extension := by
  rw [channelLayer, toList_extChannel]
  rfl

theorem channelExtension_extChannel {ext : List Char} (isExt : IsWord isExtNameRest ext)
    (tail : List Char) : channelExtension (extChannel ext tail) = ext := by
  have body : after? extStart (extChannel ext tail).toList = some (ext ++ ':' :: tail) :=
    after?_eq_some.mpr (toList_extChannel ext tail)
  have apart : ∀ c ∈ ext, (c != ':') := by
    intro c mem
    have allowed := isExt.forall (fun c starts => by simp [isExtNameRest, starts]) c mem
    rw [bne_iff_ne]
    rintro rfl
    revert allowed
    decide
  simp [channelExtension, body, List.takeWhile_append_of_pos apart]

end Plinth.Realtime
