import Plinth.Rbac.SubscribeRule
import Plinth.Rbac.Validator

/-!
# Channels and the rules that open them

The owner of a channel is the first segment of its subscribe rule, except that the kernel's rules
and those of an extension of the name `kernel` cannot be told apart. The rules of the kernel do not
separate its channels: a data channel and a system channel with the same body need one rule.
-/

namespace Plinth.Rbac

open Core (byteSize)
open String (ofList toList_ofList ofList_toList)
open Realtime List

/-- The drain of an extension asks this of every subscribed channel. -/
def channelBelongsToExtension (channel name : String) : Bool :=
  (dataStart ++ (extensionSchemaStart ++ name.toList ++ ['.'])).isPrefixOf channel.toList ||
    (extStart ++ (name.toList ++ [':'])).isPrefixOf channel.toList

def ruleOwner (rule : String) : String := ofList (rule.toList.takeWhile (· != '.'))

def Unowned (channel : String) : Prop :=
  ∀ name, name ≠ "" → channelBelongsToExtension channel name = false

section Owners

variable {schema table body ext tail : List Char} {name : String}

/-- Where a word ends at a separator, a text up to the separator is the word. -/
theorem prefix_separator_iff {separator : Char} {start word rest : List Char}
    (inWord : separator ∉ word) (inRest : separator ∉ rest) :
    start ++ [separator] <+: word ++ separator :: rest ↔ start = word := by
  constructor
  · rintro ⟨more, same⟩
    rw [append_assoc, singleton_append] at same
    have counts := congrArg (List.count separator) same
    simp only [count_append, count_cons_self, count_eq_zero_of_not_mem inWord,
      count_eq_zero_of_not_mem inRest] at counts
    have inStart : separator ∉ start := count_eq_zero.mp (by omega)
    have apart : ∀ {text : List Char}, separator ∉ text → ∀ c ∈ text, (c != separator) :=
      fun absent c mem => bne_iff_ne.mpr fun isSeparator => absent (isSeparator ▸ mem)
    have firsts := congrArg (List.takeWhile (· != separator)) same
    rw [takeWhile_append_of_pos (apart inStart), takeWhile_append_of_pos (apart inWord)] at firsts
    simpa using firsts
  · rintro rfl
    exact ⟨rest, by simp⟩

theorem not_mem_of_isWord {c : Char} {word : List Char} (isWord : IsWord isIdentRest word)
    (other : isIdentRest c = false) : c ∉ word := by
  intro mem
  have allowed := isWord.forall (fun c starts => by simp [isIdentRest, starts]) c mem
  rw [other] at allowed
  cases allowed

theorem colon_not_mem_segments {fuel : ℕ} {text : List Char}
    (consumed : consumeSegments fuel text = some []) : ':' ∉ text := by
  induction fuel generalizing text with
  | zero => simp [Option.some.inj consumed]
  | succ fuel ih =>
    rw [consumeSegments] at consumed
    split at consumed
    · simp [Option.some.inj consumed]
    rename_i rest isDot
    rcases Option.bind_eq_some_iff.mp consumed with ⟨more, isSegment, isMore⟩
    rcases consumeWord_eq_some isSegment with ⟨first, segment, starts, continues, rfl⟩
    have inSegment : ':' ∉ first :: segment :=
      not_mem_of_isWord ⟨first, segment, rfl, starts, continues⟩ rfl
    rw [consumeChar_eq_some isDot, mem_cons, mem_append, not_or, not_or]
    exact ⟨by decide, inSegment, ih isMore⟩

theorem colon_not_mem_of_isSystemBody (isBody : isSystemBody body) : ':' ∉ body := by
  rw [isSystemBody, beq_iff_eq, consumeDottedIdents, Option.bind_eq_some_iff] at isBody
  rcases isBody with ⟨rest, isFirst, isRest⟩
  rcases consumeWord_eq_some isFirst with ⟨first, segment, starts, continues, rfl⟩
  have inSegment : ':' ∉ first :: segment :=
    not_mem_of_isWord ⟨first, segment, rfl, starts, continues⟩ rfl
  rw [mem_append, not_or]
  exact ⟨inSegment, colon_not_mem_segments isRest⟩

/-- A data channel belongs to the extension that its schema is named after. -/
theorem belongs_dataChannel (isSchema : IsWord isIdentRest schema)
    (isTable : IsWord isIdentRest table) :
    channelBelongsToExtension (dataChannel schema table) name ↔
      extensionSchemaStart ++ name.toList = schema := by
  have apart : (extStart ++ (name.toList ++ [':'])).isPrefixOf
      (dataStart ++ (schema ++ '.' :: table)) = false := rfl
  rw [channelBelongsToExtension, toList_dataChannel, apart, Bool.or_false,
    isPrefixOf_iff_prefix, prefix_append_right_inj,
    prefix_separator_iff (not_mem_of_isWord isSchema rfl) (not_mem_of_isWord isTable rfl)]

/-- A data channel of another schema belongs to no extension. -/
theorem unowned_dataChannel (isSchema : IsWord isIdentRest schema)
    (isTable : IsWord isIdentRest table) (isKernel : schemaExtension? schema = none) :
    Unowned (dataChannel schema table) := by
  intro name isNamed
  rw [← Bool.not_eq_true, belongs_dataChannel isSchema isTable]
  rintro rfl
  have filled : name.toList ≠ [] := fun isNil => isNamed (String.toList_eq_nil_iff.mp isNil)
  have long : 4 < (extensionSchemaStart ++ name.toList).length := by
    rw [length_append]
    exact Nat.lt_add_of_pos_right (length_pos_of_ne_nil filled)
  have starts : extensionSchemaStart.isPrefixOf (extensionSchemaStart ++ name.toList) :=
    isPrefixOf_iff_prefix.mpr ⟨_, rfl⟩
  rw [schemaExtension?, starts, decide_eq_true long] at isKernel
  cases isKernel

theorem belongs_systemChannel : channelBelongsToExtension (systemChannel body) name = false := by
  rw [channelBelongsToExtension, toList_systemChannel]
  rfl

/-- An extension channel belongs to the extension that it names. -/
theorem belongs_extChannel (isExt : IsWord isExtNameRest ext) (isTail : isSystemBody tail) :
    channelBelongsToExtension (extChannel ext tail) name ↔ name.toList = ext := by
  have apart : (dataStart ++ (extensionSchemaStart ++ name.toList ++ ['.'])).isPrefixOf
      (extStart ++ (ext ++ ':' :: tail)) = false := rfl
  rw [channelBelongsToExtension, toList_extChannel, apart, Bool.false_or,
    isPrefixOf_iff_prefix, prefix_append_right_inj,
    prefix_separator_iff (not_mem_of_isWord (isWord_of_extName isExt) rfl)
      (colon_not_mem_of_isSystemBody isTail)]

/-- A subscribe rule is owned by what stands before its first dot. -/
theorem ruleOwner_subscribe {owner : List Char} (noDot : '.' ∉ owner) (rest : List Char) :
    ruleOwner (ofList (owner ++ (subscribeText ++ rest))) = ofList owner := by
  have apart : ∀ c ∈ owner, (c != '.') := fun c mem =>
    bne_iff_ne.mpr fun isDot => noDot (isDot ▸ mem)
  rw [ruleOwner, toList_ofList, (subscribe_parts apart rest).1]

theorem ruleOwner_kernel (rest : List Char) :
    ruleOwner (ofList (kernelStart ++ rest)) = "kernel" :=
  @ruleOwner_subscribe "kernel".toList (by decide) ('.' :: rest)

end Owners

/-- The extension that a channel belongs to is the first segment of its rule, and the first
segment is `kernel` if it belongs to none. -/
theorem ruleOwner_of_valid {ch : String} (valid : validateChannel ch) :
    (∀ name, name ≠ "" → channelBelongsToExtension ch name →
      ruleOwner (deriveSubscribeRule ch) = name) ∧
    (ruleOwner (deriveSubscribeRule ch) ≠ "" ∧
        channelBelongsToExtension ch (ruleOwner (deriveSubscribeRule ch)) ∨
      ruleOwner (deriveSubscribeRule ch) = "kernel" ∧ Unowned ch) := by
  have ofList_ne {chars : List Char} (filled : chars ≠ []) : ofList chars ≠ "" := by
    intro isEmpty
    apply filled
    rw [← @toList_ofList chars, isEmpty]
    rfl
  cases shape_of_valid valid with
  | @data schema table isSchema isTable =>
    rw [deriveSubscribeRule_dataChannel isSchema valid]
    cases isExtension : schemaExtension? schema with
    | some ext =>
      rcases extensionSchema_of_some isExtension with ⟨rfl, filled⟩
      have noDot : '.' ∉ ext := fun mem =>
        not_mem_of_isWord isSchema rfl (mem_append_right _ mem)
      have owner := ruleOwner_subscribe noDot []
      rw [append_nil] at owner
      simp only [belongs_dataChannel isSchema isTable, append_cancel_left_eq, owner,
        toList_ofList, and_true, ofList_ne filled, ne_eq, not_false_eq_true, true_or]
      rintro name - rfl
      exact ofList_toList
    | none =>
      have unowned := unowned_dataChannel isSchema isTable isExtension
      exact ⟨fun name isNamed belongs => by simp [unowned name isNamed] at belongs,
        .inr ⟨ruleOwner_kernel _, unowned⟩⟩
  | @system body isBody =>
    rw [deriveSubscribeRule_systemChannel valid]
    exact ⟨fun name _ belongs => by simp [belongs_systemChannel] at belongs,
      .inr ⟨ruleOwner_kernel _, fun _ _ => belongs_systemChannel⟩⟩
  | @extension ext tail isExt isTail =>
    have noDot : '.' ∉ ext := not_mem_of_isWord (isWord_of_extName isExt) rfl
    have filled : ext ≠ [] := by
      rcases isExt with ⟨first, rest, rfl, -⟩
      simp
    rw [deriveSubscribeRule_extChannel isExt valid]
    simp only [belongs_extChannel isExt isTail, ruleOwner_subscribe noDot, toList_ofList,
      ofList_ne filled, ne_eq, not_false_eq_true, and_self, true_or, and_true]
    rintro name - rfl
    exact ofList_toList

/-- Apart from an extension of the name `kernel`, the owner of a channel is read off its rule. -/
theorem subscribeRule_names_owner {ch : String} (valid : validateChannel ch = true) :
    ((∃ name, name ≠ "" ∧ channelBelongsToExtension ch name = true ∧
        ruleOwner (deriveSubscribeRule ch) = name) ∨
      Unowned ch ∧ ruleOwner (deriveSubscribeRule ch) = "kernel") ∧
    (∀ other, validateChannel other = true →
      channelBelongsToExtension ch "kernel" = false →
      channelBelongsToExtension other "kernel" = false →
      deriveSubscribeRule other = deriveSubscribeRule ch →
      ∀ name, name ≠ "" →
        channelBelongsToExtension other name = channelBelongsToExtension ch name) ∧
    ∀ name, name ≠ "" → name ≠ "kernel" →
      (channelBelongsToExtension ch name = true ↔ ruleOwner (deriveSubscribeRule ch) = name) := by
  have exactly : ∀ {ch : String}, validateChannel ch = true → ∀ name, name ≠ "" →
      name ≠ "kernel" →
      (channelBelongsToExtension ch name = true ↔ ruleOwner (deriveSubscribeRule ch) = name) := by
    intro ch valid name isNamed notKernel
    rcases ruleOwner_of_valid valid with ⟨owns, ⟨-, belongs⟩ | ⟨isKernel, -⟩⟩
    · exact ⟨owns name isNamed, fun isOwner => isOwner ▸ belongs⟩
    · exact ⟨owns name isNamed, fun isOwner => absurd (isOwner.symm.trans isKernel) notKernel⟩
  refine ⟨?_, ?_, exactly valid⟩
  · rcases ruleOwner_of_valid valid with ⟨-, ⟨isNamed, belongs⟩ | ⟨isKernel, unowned⟩⟩
    · exact .inl ⟨_, isNamed, belongs, rfl⟩
    · exact .inr ⟨unowned, isKernel⟩
  · intro other otherValid chApart otherApart same name isNamed
    rcases eq_or_ne name "kernel" with rfl | notKernel
    · rw [chApart, otherApart]
    · rw [Bool.eq_iff_iff, exactly valid name isNamed notKernel,
        exactly otherValid name isNamed notKernel, same]

theorem subscribeRule_names_notes :
    validateChannel "plinth:data:ext_notes.pages" = true ∧
      (channelBelongsToExtension "plinth:data:ext_notes.pages" "notes" = true ↔
        ruleOwner (deriveSubscribeRule "plinth:data:ext_notes.pages") = "notes") :=
  ⟨by decide, (subscribeRule_names_owner (by decide)).2.2 "notes" (by decide) (by decide)⟩

/-- An extension of the name `kernel` would share a rule with the kernel. -/
theorem kernelExtension_shares_rule :
    validateChannel "plinth:ext:kernel:audit" = true ∧
      validateChannel "plinth:system:audit" = true ∧
      deriveSubscribeRule "plinth:ext:kernel:audit" = deriveSubscribeRule "plinth:system:audit" ∧
      channelBelongsToExtension "plinth:ext:kernel:audit" "kernel" = true ∧
      channelBelongsToExtension "plinth:system:audit" "kernel" = false := by
  decide

/-- A channel has a rule that may be declared, and that opens no other channel of the kernel if the
channel is the kernel's. -/
structure Separated (ch : String) : Prop where
  alone : Unowned ch → ∀ other, validateChannel other = true → Unowned other →
    deriveSubscribeRule other = deriveSubscribeRule ch → other = ch
  grantable : isValidRuleName (deriveSubscribeRule ch) = true

/-- The channels with a rule of their own. A data channel of the kernel has one if the system
channel with its body is too long. -/
def separable (ch : String) : Bool :=
  match channelLayer ch with
  | .data =>
    match schemaExtension? (dataParts ch).1 with
    | some ext => isRuleSegment ext
    | none => isRuleSegment (dataParts ch).1 && isRuleSegment (dataParts ch).2 &&
        decide (62 ≤ byteSize ch)
  | .system => isRuleSegment (ch.toList.drop systemStart.length)
  | .extension =>
    let tail := ch.toList.drop (extStart.length + (channelExtension ch).length + 1)
    (tail.splitOn '.').all isRuleSegment && decide ((tail.splitOn '.').length ≤ 2)

section Separation

variable {schema table body ext tail : List Char}

theorem dot_not_mem_of_isRuleSegment {segment : List Char} (isSegment : isRuleSegment segment) :
    '.' ∉ segment := by
  cases segment with
  | nil => simp
  | cons first rest =>
    simp only [isRuleSegment, Bool.and_eq_true, all_eq_true] at isSegment
    intro mem
    rcases mem_cons.mp mem with rfl | mem
    · exact absurd isSegment.1 (by decide)
    · exact absurd (isSegment.2 _ mem) (by decide)

theorem isWord_of_isRuleSegment {segment : List Char} (isSegment : isRuleSegment segment) :
    IsWord isIdentRest segment := by
  cases segment with
  | nil => cases isSegment
  | cons first rest =>
    simp only [isRuleSegment, Bool.and_eq_true, all_eq_true, Bool.or_eq_true] at isSegment
    refine ⟨first, rest, rfl, isSegment.1, fun c mem => ?_⟩
    simp only [isIdentRest, Bool.or_eq_true]
    exact .inl (isSegment.2 c mem)

/-- When the name of a subscribe rule is valid. -/
theorem isValidRuleName_subscribe {owner : List Char} (noDot : '.' ∉ owner) :
    (isValidRuleName (ofList (owner ++ subscribeText)) = isRuleSegment owner) ∧
    ∀ rest : List Char, isValidRuleName (ofList (owner ++ (subscribeText ++ '.' :: rest))) =
      (isRuleSegment owner && (rest.splitOn '.').all isRuleSegment &&
        decide ((rest.splitOn '.').length ≤ 2)) := by
  have fixed : isRuleSegment "realtime".toList ∧ isRuleSegment "subscribe".toList ∧
      '.' ∉ "realtime".toList ∧ '.' ∉ "subscribe".toList := by decide
  have split (rest : List Char) : (owner ++ (subscribeText ++ rest)).splitOn '.' =
      owner :: "realtime".toList :: ("subscribe".toList ++ rest).splitOn '.' := by
    change (owner ++ '.' :: ("realtime".toList ++ '.' :: ("subscribe".toList ++ rest))).splitOn
      '.' = _
    rw [splitOn_append_cons_self_of_not_mem noDot, splitOn_append_cons_self_of_not_mem fixed.2.2.1]
  generalize "realtime".toList = realtime, "subscribe".toList = subscribe at fixed split
  constructor
  · have parts := split []
    rw [append_nil, append_nil, splitOn_eq_singleton fixed.2.2.2] at parts
    simp [isValidRuleName, parts, fixed.1, fixed.2.1]
  · intro rest
    have few : decide ((rest.splitOn '.').length + 1 + 1 + 1 ≤ 5) =
        decide ((rest.splitOn '.').length ≤ 2) := decide_eq_decide.mpr (by omega)
    simp only [isValidRuleName, toList_ofList, split,
      splitOn_append_cons_self_of_not_mem fixed.2.2.2, all_cons, length_cons, fixed.1,
      fixed.2.1, few, Bool.true_and, Bool.and_assoc]
    simp

theorem isValidRuleName_kernel (rest : List Char) :
    isValidRuleName (ofList (kernelStart ++ rest)) =
      ((rest.splitOn '.').all isRuleSegment && decide ((rest.splitOn '.').length ≤ 2)) :=
  (@isValidRuleName_subscribe "kernel".toList (by decide)).2 rest

theorem byteSize_systemChannel (body : List Char) :
    byteSize (systemChannel body) = byteSize (ofList (dataStart ++ body)) + 2 := by
  have starts : (systemStart.map Char.utf8Size).sum = (dataStart.map Char.utf8Size).sum + 2 := rfl
  simp only [byteSize, toList_systemChannel, toList_ofList, map_append, sum_append, starts]
  omega

theorem validateChannel_systemChannel (isBody : isSystemBody body) :
    validateChannel (systemChannel body) = decide (byteSize (systemChannel body) ≤ 63) := by
  have isSystem : after? systemStart (systemChannel body).toList = some body :=
    after?_eq_some.mpr (toList_systemChannel body)
  have noData : after? dataStart (systemChannel body).toList = none := by
    rw [toList_systemChannel]
    rfl
  have nonempty : (systemChannel body).toList.isEmpty = false := by
    rw [toList_systemChannel]
    rfl
  simp only [validateChannel, nonempty, noData, isSystem, isBody, Bool.not_false, Bool.true_and,
    Bool.and_true]

theorem isSystemBody_of_data (isSchema : IsWord isIdentRest schema)
    (isTable : IsWord isIdentRest table) : isSystemBody (schema ++ '.' :: table) := by
  rcases isSchema with ⟨first, schema, rfl, starts, continues⟩
  rcases isTable with ⟨first', table, rfl, starts', continues'⟩
  have isFirst : consumeIdent (first :: schema ++ '.' :: first' :: table) =
      some ('.' :: first' :: table) := consumeWord_append starts continues (by simp; rfl)
  have isSecond : consumeIdent (first' :: table ++ []) = some [] :=
    consumeWord_append starts' continues' (by simp)
  rw [append_nil] at isSecond
  rw [isSystemBody, consumeDottedIdents, isFirst]
  simp [consumeSegments, consumeChar, isSecond]

/-- The unowned channels with a given rule of the kernel. -/
theorem kernel_channel {ch : String} (valid : validateChannel ch) (unowned : Unowned ch)
    (isRule : deriveSubscribeRule ch = ofList (kernelStart ++ body)) :
    (∃ schema table, body = schema ++ '.' :: table ∧ ch = dataChannel schema table) ∨
      ch = systemChannel body := by
  have isBody {text : List Char}
      (same : ofList (kernelStart ++ text) = ofList (kernelStart ++ body)) :
      text = body := append_cancel_left (String.ofList_injective same)
  cases shape_of_valid valid with
  | @data schema table isSchema isTable =>
    rw [deriveSubscribeRule_dataChannel isSchema valid] at isRule
    cases isExtension : schemaExtension? schema with
    | none =>
      rw [isExtension] at isRule
      exact .inl ⟨schema, table, (isBody isRule).symm, rfl⟩
    | some ext =>
      rcases extensionSchema_of_some isExtension with ⟨rfl, filled⟩
      have apart := unowned (ofList ext) fun isEmpty => filled (by simpa using isEmpty)
      rw [← Bool.not_eq_true, belongs_dataChannel isSchema isTable] at apart
      simp at apart
  | @system other isOther =>
    rw [deriveSubscribeRule_systemChannel valid] at isRule
    rw [isBody isRule]
    exact .inr rfl
  | @extension ext tail isExt isTail =>
    have apart := unowned (ofList ext) fun isEmpty => by
      rcases isExt with ⟨first, rest, rfl, -⟩
      simp at isEmpty
    rw [← Bool.not_eq_true, belongs_extChannel isExt isTail] at apart
    simp at apart

theorem dataChannel_ne_systemChannel : dataChannel schema table ≠ systemChannel body := by
  intro same
  have layers := congrArg channelLayer same
  rw [channelLayer_dataChannel, channelLayer_systemChannel] at layers
  cases layers

/-- The channel of an extension is separated exactly if its rule is a valid name. -/
theorem separated_of_owned {ch name : String} (named : name ≠ "")
    (belongs : channelBelongsToExtension ch name) :
    Separated ch ↔ isValidRuleName (deriveSubscribeRule ch) := by
  refine ⟨fun separated => separated.grantable, fun grantable => ⟨fun unowned => ?_, grantable⟩⟩
  rw [unowned name named] at belongs
  cases belongs

/-- A data channel of the kernel is separated only if the system channel with its rule is too long
to be valid. -/
theorem separated_dataChannel_iff (isSchema : IsWord isIdentRest schema)
    (isTable : IsWord isIdentRest table) (valid : validateChannel (dataChannel schema table))
    (isKernel : schemaExtension? schema = none) :
    Separated (dataChannel schema table) ↔ isRuleSegment schema ∧
      isRuleSegment table ∧ 62 ≤ byteSize (dataChannel schema table) := by
  have split : (schema ++ '.' :: table).splitOn '.' = [schema, table] := by
    rw [splitOn_append_cons_self_of_not_mem (not_mem_of_isWord isSchema rfl),
      splitOn_eq_singleton (not_mem_of_isWord isTable rfl)]
  have isRule := deriveSubscribeRule_dataChannel isSchema valid
  rw [isKernel] at isRule
  have longer := byteSize_systemChannel (schema ++ '.' :: table)
  have grants : isValidRuleName (deriveSubscribeRule (dataChannel schema table)) ↔
      isRuleSegment schema ∧ isRuleSegment table := by
    rw [isRule, isValidRuleName_kernel, split]
    simp
  constructor
  · intro separated
    rcases grants.mp separated.grantable with ⟨schemaSegment, tableSegment⟩
    refine ⟨schemaSegment, tableSegment, ?_⟩
    by_contra short
    -- the system channel with the same body is short enough to be valid
    have twin : validateChannel (systemChannel (schema ++ '.' :: table)) := by
      rw [validateChannel_systemChannel (isSystemBody_of_data isSchema isTable), decide_eq_true_eq,
        longer]
      change ¬ 62 ≤ byteSize (ofList (dataStart ++ (schema ++ '.' :: table))) at short
      omega
    have same := separated.alone (unowned_dataChannel isSchema isTable isKernel) _ twin
      (fun _ _ => belongs_systemChannel) ((deriveSubscribeRule_systemChannel twin).trans
        isRule.symm)
    exact dataChannel_ne_systemChannel same.symm
  · rintro ⟨schemaSegment, tableSegment, long⟩
    refine ⟨fun _ other validOther unownedOther same => ?_,
      grants.mpr ⟨schemaSegment, tableSegment⟩⟩
    rcases kernel_channel validOther unownedOther (same.trans isRule) with
      ⟨schema', table', sameBody, rfl⟩ | rfl
    · simp only [dataChannel, sameBody]
    · have isBody := isSystemBody_of_data isSchema isTable
      rw [validateChannel_systemChannel isBody, decide_eq_true_eq] at validOther
      change 62 ≤ byteSize (ofList (dataStart ++ (schema ++ '.' :: table))) at long
      omega

theorem schemaExtension?_of_isRuleSegment (isSegment : isRuleSegment schema) :
    schemaExtension? schema = none := by
  rw [schemaExtension?, if_neg]
  intro isExtension
  rw [Bool.and_eq_true, isPrefixOf_iff_prefix] at isExtension
  rcases isExtension.1 with ⟨rest, rfl⟩
  simp [extensionSchemaStart, isRuleSegment] at isSegment
  exact absurd isSegment.2.2.2.1 (by decide)

/-- A system channel is separated exactly if its body is a single segment. -/
theorem separated_systemChannel_iff (isBody : isSystemBody body)
    (valid : validateChannel (systemChannel body)) :
    Separated (systemChannel body) ↔ isRuleSegment body := by
  have isRule := deriveSubscribeRule_systemChannel valid
  constructor
  · intro separated
    have grants := separated.grantable
    rw [isRule, isValidRuleName_kernel, Bool.and_eq_true, decide_eq_true_eq] at grants
    have joined : ['.'].intercalate (body.splitOn '.') = body := intercalate_splitOn '.'
    rcases isSplit : body.splitOn '.' with _ | ⟨schema, _ | ⟨table, _ | ⟨third, rest⟩⟩⟩
    · exact absurd isSplit (splitOn_ne_nil _ _)
    · rw [isSplit] at joined grants
      simpa [← joined] using grants.1
    · -- two segments are the body of a data channel, which is shorter
      rw [isSplit] at joined grants
      have isTwo : body = schema ++ '.' :: table := by simpa using joined.symm
      subst isTwo
      simp only [all_cons, all_nil, Bool.and_true, Bool.and_eq_true] at grants
      have isSchema := isWord_of_isRuleSegment grants.1.1
      have isTable := isWord_of_isRuleSegment grants.1.2
      have isKernel := schemaExtension?_of_isRuleSegment grants.1.1
      have longer := byteSize_systemChannel (schema ++ '.' :: table)
      have twin : validateChannel (dataChannel schema table) := by
        rw [validateChannel_dataChannel isSchema isTable, decide_eq_true_eq]
        rw [validateChannel_systemChannel isBody, decide_eq_true_eq] at valid
        change byteSize (ofList (dataStart ++ (schema ++ '.' :: table))) ≤ 63
        omega
      have twinRule := deriveSubscribeRule_dataChannel isSchema twin
      rw [isKernel] at twinRule
      have same := separated.alone (fun _ _ => belongs_systemChannel) _ twin
        (unowned_dataChannel isSchema isTable isKernel) (twinRule.trans isRule.symm)
      exact absurd same dataChannel_ne_systemChannel
    · rw [isSplit] at grants
      simp at grants
  · intro isSegment
    have noDot := dot_not_mem_of_isRuleSegment isSegment
    refine ⟨fun _ other validOther unownedOther same => ?_, ?_⟩
    · rcases kernel_channel validOther unownedOther (same.trans isRule) with
        ⟨schema, table, rfl, -⟩ | same
      · simp at noDot
      · exact same
    · rw [isRule, isValidRuleName_kernel, splitOn_eq_singleton noDot]
      simp [isSegment]

theorem isRuleSegment_of_extName (isExt : IsWord isExtNameRest ext) : isRuleSegment ext := by
  rcases isExt with ⟨first, rest, rfl, starts, continues⟩
  simp only [isRuleSegment, Bool.and_eq_true, all_eq_true]
  exact ⟨starts, continues⟩

end Separation

/-- A valid channel has a rule of its own that may be declared if and only if it is separable. -/
theorem separated_iff_separable (ch : String) (valid : validateChannel ch = true) :
    Separated ch ↔ separable ch = true := by
  cases shape_of_valid valid with
  | @data schema table isSchema isTable =>
    rw [separable, channelLayer_dataChannel, dataParts_dataChannel isSchema table]
    cases isExtension : schemaExtension? schema with
    | none =>
      rw [separated_dataChannel_iff isSchema isTable valid isExtension]
      simp [and_assoc]
    | some ext =>
      rcases extensionSchema_of_some isExtension with ⟨rfl, filled⟩
      have belongs : channelBelongsToExtension (dataChannel (extensionSchemaStart ++ ext) table)
          (ofList ext) = true := by
        rw [belongs_dataChannel isSchema isTable, toList_ofList]
      have noDot : '.' ∉ ext := fun mem =>
        not_mem_of_isWord isSchema rfl (mem_append_right _ mem)
      rw [separated_of_owned (fun isEmpty => filled (by simpa using isEmpty)) belongs,
        deriveSubscribeRule_dataChannel isSchema valid, isExtension]
      simp only [(isValidRuleName_subscribe noDot).1]
  | @system body isBody =>
    rw [separated_systemChannel_iff isBody valid, separable, channelLayer_systemChannel,
      toList_systemChannel]
    simp
  | @extension ext tail isExt isTail =>
    have belongs : channelBelongsToExtension (extChannel ext tail) (ofList ext) = true := by
      rw [belongs_extChannel isExt isTail, toList_ofList]
    have named : ofList ext ≠ "" := by
      rcases isExt with ⟨first, rest, rfl, -⟩
      simp
    have noDot := not_mem_of_isWord (isWord_of_extName isExt) (rfl : isIdentRest '.' = false)
    have rest : (extChannel ext tail).toList.drop
        (extStart.length + (channelExtension (extChannel ext tail)).length + 1) = tail := by
      rw [channelExtension_extChannel isExt tail, toList_extChannel, Nat.add_assoc,
        ← drop_drop, drop_left, ← drop_drop, drop_left, drop_one, tail_cons]
    rw [separated_of_owned named belongs, deriveSubscribeRule_extChannel isExt valid, separable,
      channelLayer_extChannel, (isValidRuleName_subscribe noDot).2, isRuleSegment_of_extName isExt]
    simp [rest]

theorem separated_audit : Separated "plinth:system:audit" :=
  (separated_iff_separable "plinth:system:audit" (by decide)).mpr (by decide)

/-- The data channel of `plinth.users` and the system channel of that name are both the kernel's and
need the same rule, and the rule of a channel with an underscore cannot be declared. -/
theorem users_share_rule :
    (validateChannel "plinth:data:plinth.users" = true ∧
      ¬ Separated "plinth:data:plinth.users") ∧
    validateChannel "plinth:system:audit_log" = true ∧
      isValidRuleName (deriveSubscribeRule "plinth:system:audit_log") = false := by
  refine ⟨⟨by decide, fun separated => ?_⟩, by decide, by decide⟩
  have unowned := @unowned_dataChannel "plinth".toList "users".toList
    ⟨'p', "linth".toList, rfl, by decide, all_eq_true.mp (by decide)⟩
    ⟨'u', "sers".toList, rfl, by decide, all_eq_true.mp (by decide)⟩ (by decide)
  have same := separated.alone unowned "plinth:system:plinth.users" (by decide)
    (fun _ _ => @belongs_systemChannel "plinth.users".toList _) (by decide)
  exact absurd same (by decide)

end Plinth.Rbac
