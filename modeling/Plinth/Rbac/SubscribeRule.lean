import Plinth.Realtime.Channel

/-!
# Subscribe rules

Model of `rbac/subscribe_rule.cpp`: the rule that a user needs to subscribe to a channel. The
channels behind a rule are recovered from its name up to the table of an extension schema, which
the rule does not mention.
-/

namespace Plinth.Rbac

open Core (byteSize)
open Realtime List

def subscribeText : List Char := ".realtime.subscribe".toList

def kernelStart : List Char := "kernel.realtime.subscribe.".toList

def extensionSchemaStart : List Char := "ext_".toList

def dataParts (ch : String) : List Char × List Char :=
  let body := ch.toList.drop dataStart.length
  (body.takeWhile (· != '.'), (body.dropWhile (· != '.')).drop 1)

def schemaExtension? (schema : List Char) : Option (List Char) :=
  if extensionSchemaStart.isPrefixOf schema && decide (4 < schema.length) then
    some (schema.drop 4)
  else none

def deriveSubscribeRule (ch : String) : String :=
  if !validateChannel ch then ""
  else
    match channelLayer ch with
    | .data =>
      let (schema, table) := dataParts ch
      match schemaExtension? schema with
      | some ext => String.ofList (ext ++ subscribeText)
      | none => String.ofList (kernelStart ++ (schema ++ '.' :: table))
    | .system => String.ofList (kernelStart ++ ch.toList.drop systemStart.length)
    | .extension =>
      let ext := channelExtension ch
      let tail := ch.toList.drop (extStart.length + ext.length + 1)
      String.ofList (ext ++ (subscribeText ++ '.' :: tail))

/-- The extension that a valid channel belongs to; the kernel has the others. -/
def channelOwner? (ch : String) : Option String :=
  if !validateChannel ch then none
  else
    match channelLayer ch with
    | .data => some (((schemaExtension? (dataParts ch).1).map String.ofList).getD "kernel")
    | .system => some "kernel"
    | .extension => some (String.ofList (channelExtension ch))

theorem isIdentRest_ne_dot {c : Char} (allowed : isIdentRest c) : (c != '.') := by
  rw [bne_iff_ne]
  rintro rfl
  revert allowed
  decide

theorem isWord_ne_dot {word : List Char} (isWord : IsWord isIdentRest word) :
    ∀ c ∈ word, (c != '.') := fun c mem =>
  isIdentRest_ne_dot (isWord.forall (fun c starts => by simp [isIdentRest, starts]) c mem)

theorem isWord_of_extName {word : List Char} (isWord : IsWord isExtNameRest word) :
    IsWord isIdentRest word := by
  rcases isWord with ⟨first, rest, rfl, starts, continues⟩
  refine ⟨first, rest, rfl, starts, fun c mem => ?_⟩
  have allowed := continues c mem
  simp only [isExtNameRest, Bool.or_eq_true] at allowed
  simp only [isIdentRest, Bool.or_eq_true]
  exact .inl allowed

/-- The schema of a data channel ends at its first dot. -/
theorem dataParts_dataChannel {schema : List Char} (isSchema : IsWord isIdentRest schema)
    (table : List Char) : dataParts (dataChannel schema table) = (schema, table) := by
  have apart := isWord_ne_dot isSchema
  simp only [dataParts, toList_dataChannel, drop_left]
  rw [takeWhile_append_of_pos apart, dropWhile_append_of_pos apart]
  simp

variable {schema table : List Char}

/-- The rule of a data channel names its extension, or the kernel. -/
theorem deriveSubscribeRule_dataChannel (isSchema : IsWord isIdentRest schema)
    (valid : validateChannel (dataChannel schema table)) :
    deriveSubscribeRule (dataChannel schema table) =
      match schemaExtension? schema with
      | some ext => String.ofList (ext ++ subscribeText)
      | none => String.ofList (kernelStart ++ (schema ++ '.' :: table)) := by
  simp [deriveSubscribeRule, valid, channelLayer_dataChannel, dataParts_dataChannel isSchema]

theorem deriveSubscribeRule_systemChannel {body : List Char}
    (valid : validateChannel (systemChannel body)) :
    deriveSubscribeRule (systemChannel body) = String.ofList (kernelStart ++ body) := by
  simp [deriveSubscribeRule, valid, channelLayer_systemChannel, toList_systemChannel]

theorem deriveSubscribeRule_extChannel {ext tail : List Char} (isExt : IsWord isExtNameRest ext)
    (valid : validateChannel (extChannel ext tail)) :
    deriveSubscribeRule (extChannel ext tail) =
      String.ofList (ext ++ (subscribeText ++ '.' :: tail)) := by
  have rest : (extStart ++ (ext ++ ':' :: tail)).drop (extStart.length + ext.length + 1) =
      tail := by
    rw [Nat.add_assoc, ← drop_drop, drop_left, ← drop_drop, drop_left, drop_one, tail_cons]
  simp [deriveSubscribeRule, valid, channelLayer_extChannel, channelExtension_extChannel isExt,
    toList_extChannel, rest]

/-- A data channel belongs to the extension of its schema, or to the kernel. -/
theorem channelOwner?_dataChannel
    (isSchema : IsWord isIdentRest schema)
    (valid : validateChannel (dataChannel schema table)) :
    channelOwner? (dataChannel schema table) =
      some (((schemaExtension? schema).map String.ofList).getD "kernel") := by
  simp [channelOwner?, valid, channelLayer_dataChannel, dataParts_dataChannel isSchema]

@[simp]
def channelsOf (rule : String) : List String :=
  let owner := rule.toList.takeWhile (· != '.')
  let rest := rule.toList.dropWhile (· != '.')
  [dataChannel (extensionSchemaStart ++ owner) ['a'],
    extChannel owner (rest.drop (subscribeText.length + 1)),
    String.ofList (dataStart ++ rule.toList.drop kernelStart.length),
    systemChannel (rule.toList.drop kernelStart.length)]

theorem extensionSchema_of_some {schema ext : List Char}
    (isExtension : schemaExtension? schema = some ext) :
    schema = extensionSchemaStart ++ ext ∧ ext ≠ [] := by
  unfold schemaExtension? at isExtension
  split_ifs at isExtension with starts
  cases isExtension
  simp only [Bool.and_eq_true, decide_eq_true_eq] at starts
  rcases isPrefixOf_iff_prefix.mp starts.1 with ⟨rest, rfl⟩
  have size : extensionSchemaStart.length = 4 := rfl
  refine ⟨by rw [← size, drop_left], ?_⟩
  rw [← size, drop_left]
  rintro rfl
  simp [size] at starts

/-- The owner in a rule ends at its first dot. -/
theorem subscribe_parts {owner : List Char} (apart : ∀ c ∈ owner, (c != '.')) (tail : List Char) :
    (owner ++ (subscribeText ++ tail)).takeWhile (· != '.') = owner ∧
      (owner ++ (subscribeText ++ tail)).dropWhile (· != '.') = subscribeText ++ tail := by
  rw [takeWhile_append_of_pos apart, dropWhile_append_of_pos apart]
  have stops : (subscribeText ++ tail).takeWhile (· != '.') = [] := rfl
  exact ⟨by rw [stops, append_nil], rfl⟩

/-- No table has a shorter channel than one of a single letter. -/
theorem byteSize_dataChannel_le (isTable : IsWord isIdentRest table) :
    byteSize (dataChannel schema ['a']) ≤ byteSize (dataChannel schema table) := by
  rcases isTable with ⟨first, rest, rfl, -, -⟩
  have least : 'a'.utf8Size ≤ first.utf8Size := Char.utf8Size_pos first
  simp only [byteSize, toList_dataChannel, map_append, map_cons, sum_append,
    sum_cons, map_nil, sum_nil]
  omega

/-- Every channel of a rule has a stand-in among a few short ones. -/
theorem exists_channelsOf {ch : String} (valid : validateChannel ch) :
    ∃ other ∈ channelsOf (deriveSubscribeRule ch), validateChannel other ∧
      deriveSubscribeRule other = deriveSubscribeRule ch ∧
      channelOwner? other = channelOwner? ch := by
  cases shape_of_valid valid with
  | @data schema table isSchema isTable =>
    cases isExtension : schemaExtension? schema with
    | none =>
      refine ⟨dataChannel schema table, ?_, valid, rfl, rfl⟩
      rw [deriveSubscribeRule_dataChannel isSchema valid]
      simp [isExtension, dataChannel]
    | some ext =>
      rcases extensionSchema_of_some isExtension with ⟨rfl, -⟩
      have isLetter : IsWord isIdentRest ['a'] := ⟨'a', [], rfl, rfl, by simp⟩
      have otherValid : validateChannel (dataChannel (extensionSchemaStart ++ ext) ['a']) =
          true := by
        rw [validateChannel_dataChannel isSchema isTable, decide_eq_true_eq] at valid
        rw [validateChannel_dataChannel isSchema isLetter, decide_eq_true_eq]
        exact (byteSize_dataChannel_le isTable).trans valid
      refine ⟨dataChannel (extensionSchemaStart ++ ext) ['a'], ?_, otherValid, ?_, ?_⟩
      · have apart : ∀ c ∈ ext, (c != '.') := fun c mem =>
          isWord_ne_dot isSchema c (mem_append_right _ mem)
        have parts := (subscribe_parts apart []).1
        rw [append_nil] at parts
        rw [deriveSubscribeRule_dataChannel isSchema valid]
        simp [isExtension, parts]
      · rw [deriveSubscribeRule_dataChannel isSchema valid,
          deriveSubscribeRule_dataChannel isSchema otherValid]
        simp only [isExtension]
      · rw [channelOwner?_dataChannel isSchema valid, channelOwner?_dataChannel isSchema otherValid]
  | @system body isBody =>
    refine ⟨systemChannel body, ?_, valid, rfl, rfl⟩
    rw [deriveSubscribeRule_systemChannel valid]
    simp
  | @extension ext tail isExt isTail =>
    refine ⟨extChannel ext tail, ?_, valid, rfl, rfl⟩
    rcases subscribe_parts (isWord_ne_dot (isWord_of_extName isExt)) ('.' :: tail) with
      ⟨isOwner, isRest⟩
    rw [deriveSubscribeRule_extChannel isExt valid]
    have rest : (subscribeText ++ '.' :: tail).drop (subscribeText.length + 1) = tail := by
      rw [← drop_drop, drop_left, drop_one, tail_cons]
    simp [isOwner, isRest, rest]

theorem deriveSubscribeRule_ne_empty {ch : String} (valid : validateChannel ch) :
    deriveSubscribeRule ch ≠ "" := by
  have nonempty {chars : List Char} (filled : chars ≠ []) : String.ofList chars ≠ "" := by
    intro same
    apply filled
    rw [← String.toList_ofList (l := chars), same]
    rfl
  have textNonempty : subscribeText ≠ [] := cons_ne_nil _ _
  have startNonempty : kernelStart ≠ [] := cons_ne_nil _ _
  cases shape_of_valid valid with
  | @data schema table isSchema isTable =>
    rw [deriveSubscribeRule_dataChannel isSchema valid]
    split
    · exact nonempty (by simp [textNonempty])
    · exact nonempty (by simp)
  | @system body isBody =>
    rw [deriveSubscribeRule_systemChannel valid]
    exact nonempty (by simp [startNonempty])
  | @extension ext tail isExt isTail =>
    rw [deriveSubscribeRule_extChannel isExt valid]
    exact nonempty (by simp)

/-- Whether a rule opens a channel that does not belong to an extension. -/
def opensForeign (name rule : String) : Bool :=
  (channelsOf rule).any fun ch =>
    validateChannel ch && deriveSubscribeRule ch == rule && channelOwner? ch != some name

/-- A rule opens a channel of another owner exactly if one of the stand-ins is such a channel. -/
theorem opensForeign_iff {name rule : String} :
    opensForeign name rule ↔ ∃ ch, validateChannel ch ∧
      deriveSubscribeRule ch = rule ∧ channelOwner? ch ≠ some name := by
  simp only [opensForeign, any_eq_true, Bool.and_eq_true, beq_iff_eq, bne_iff_ne]
  constructor
  · rintro ⟨ch, -, ⟨valid, derived⟩, foreign⟩
    exact ⟨ch, valid, derived, foreign⟩
  · rintro ⟨ch, valid, rfl, foreign⟩
    rcases exists_channelsOf valid with ⟨other, mem, otherValid, derived, owner⟩
    exact ⟨other, mem, ⟨otherValid, derived⟩, owner ▸ foreign⟩

end Plinth.Rbac
