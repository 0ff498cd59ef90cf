import Plinth.Packages.HttpDeclarations

/-!
# Request targets and claims

The checks of claims in `extension_http/codec.cpp`, and what an accepted request target is: its path
is the decoding of the request line, in which only bytes are encoded that no claim has. So a claim
matches the request line and the path alike, and the codec and the package manager agree on claims.
-/

namespace Plinth.ExtensionHttp

open Core Packages List

/-- The path test `matches` of the codec. -/
def claimMatches (claim path : Bytes) : Bool :=
  if !isSubtree claim then claim = path
  else
    let base := claim.take (claim.length - 2)
    path = base || (base.isPrefixOf path && base.length < path.length &&
      path[base.length]? = some slash)

def validClaim (text : Bytes) : Bool :=
  if 256 < text.length then false
  else
    let base := if isSubtree text then text.take (text.length - 2) else text
    1 < base.length && base.head? = some slash && base.getLast? ≠ some slash &&
      pathSegments base && base.all fun c => c = slash || unreserved c

/-- The bytes that a text stands for, each with whether it is written as an escape. -/
def percentDecode : Bytes → Option (List (Bool × UInt8))
  | [] => some []
  | c :: rest =>
    if c = '%'.toUInt8 then
      match rest with
      | high :: low :: rest =>
        match hex high, hex low with
        | some h, some l => (percentDecode rest).map ((true, (h * 16 + l).toUInt8) :: ·)
        | _, _ => none
      | _ => none
    else (percentDecode rest).map ((false, c) :: ·)

/-- What an accepted target is: the path is the decoding of the request line and has only proper
segments, and the escapes are those of bytes that need one. -/
structure Decoded (original path : Bytes) : Prop where
  decodes : ∃ parts, percentDecode original = some parts ∧ path = parts.map Prod.snd ∧
    ∀ c, (true, c) ∈ parts → c ≠ slash ∧ unreserved c = false
  absolute : path.head? = some slash
  noDots : ∀ part ∈ path.splitOn slash, isDotSegment part = false
  noGaps : ∀ index, (path.splitOn slash)[index]? = some [] →
    index = 0 ∨ index + 1 = (path.splitOn slash).length
  printed : ∀ c ∈ path, 0x20 ≤ c ∧ c ≠ 0x7f ∧ c ≠ '\\'.toUInt8

section Spelling

variable {original path : Bytes}

theorem spells_cons {c : UInt8} {rest : Bytes} (spelled : spells (c :: rest) path) :
    ∃ decoded after, path = decoded :: after ∧
      (c ≠ '%'.toUInt8 ∧ c = decoded ∧ spells rest after ∨
        c = '%'.toUInt8 ∧ decoded ≠ slash ∧ unreserved decoded = false ∧
          ∃ high low more h l, rest = high :: low :: more ∧ hex high = some h ∧ hex low = some l ∧
            decoded = (h * 16 + l).toUInt8 ∧ spells more after) := by
  rw [spells.eq_def] at spelled
  simp only at spelled
  split at spelled
  · cases spelled
  split at spelled
  case isTrue isEscape =>
    split at spelled
    · rename_i high low more
      split at spelled
      · rename_i h l decoded after isHigh isLow
        simp only [Bool.and_eq_true, Bool.not_eq_true', Bool.or_eq_false_iff,
          decide_eq_false_iff_not, decide_eq_true_eq] at spelled
        rcases spelled with ⟨⟨⟨⟨notSlash, -⟩, reserved⟩, rfl⟩, spelled⟩
        exact ⟨_, after, rfl, .inr ⟨isEscape, notSlash, reserved, high, low, more, h, l, rfl,
          isHigh, isLow, rfl, spelled⟩⟩
      · cases spelled
    · cases spelled
  case isFalse isPlain =>
    split at spelled
    · rename_i decoded after
      simp only [Bool.and_eq_true, decide_eq_true_eq] at spelled
      exact ⟨decoded, after, rfl, .inl ⟨isPlain, spelled⟩⟩
    · cases spelled

/-- What spells a path decodes to it. -/
theorem percentDecode_of_spells (spelled : spells original path) :
    ∃ parts, percentDecode original = some parts ∧ path = parts.map Prod.snd ∧
      ∀ c, (true, c) ∈ parts → c ≠ slash ∧ unreserved c = false := by
  induction size : original.length using Nat.strong_induction_on generalizing original path with
  | _ size ih =>
    cases original with
    | nil => exact ⟨[], rfl, by simpa [spells] using spelled, by simp⟩
    | cons c rest =>
      rcases spells_cons spelled with ⟨decoded, after, rfl, ⟨isPlain, rfl, inRest⟩ |
        ⟨rfl, notSlash, reserved, high, low, more, h, l, rfl, isHigh, isLow, rfl, inRest⟩⟩
      · rcases ih _ (by simp [← size]) inRest rfl with ⟨parts, decodes, rfl, escapes⟩
        refine ⟨(false, c) :: parts, ?_, rfl, by simpa using escapes⟩
        rw [percentDecode.eq_def]
        simp [isPlain, decodes]
      · rcases ih _ (by simp only [← size, length_cons]; omega) inRest rfl
          with ⟨parts, decodes, rfl, escapes⟩
        refine ⟨(true, (h * 16 + l).toUInt8) :: parts, ?_, rfl, ?_⟩
        · rw [percentDecode.eq_def]
          simp [isHigh, isLow, decodes]
        · intro other mem
          rcases mem_cons.mp mem with same | later
          · rcases (Prod.mk.inj same).2 with rfl
            exact ⟨notSlash, reserved⟩
          · exact escapes other later

theorem spells_plain {base : Bytes} (plain : ∀ c ∈ base, c = slash ∨ unreserved c)
    (spelled : spells original path) :
    (∃ rest after, original = base ++ rest ∧ path = base ++ after ∧ spells rest after) ∨
      ¬ base <+: original ∧ ¬ base <+: path := by
  induction base generalizing original path with
  | nil => exact .inl ⟨original, path, rfl, rfl, spelled⟩
  | cons b base ih =>
    have notEscape : ∀ c : UInt8, (c = slash ∨ unreserved c) → c ≠ '%'.toUInt8 := by
      decide +kernel
    have first := plain b mem_cons_self
    cases original with
    | nil =>
      have isEnd : path = [] := by simpa [spells] using spelled
      exact .inr (by simp [isEnd])
    | cons c rest =>
      rcases spells_cons spelled with ⟨decoded, after, rfl, ⟨-, rfl, inRest⟩ |
        ⟨rfl, notSlash, reserved, -⟩⟩
      · by_cases same : b = c
        · subst same
          rcases ih (fun c mem => plain c (mem_cons_of_mem _ mem)) inRest with
            ⟨rest, after, rfl, rfl, further⟩ | ⟨notFirst, notSecond⟩
          · exact .inl ⟨rest, after, rfl, rfl, further⟩
          · exact .inr (by simp [notFirst, notSecond])
        · exact .inr (by simp [same])
      · right
        simp only [cons_prefix_cons, not_and]
        refine ⟨fun same => absurd same (notEscape b first), ?_⟩
        rintro rfl
        simp [notSlash, reserved] at first

theorem spells_nil_iff (spelled : spells original path) : original = [] ↔ path = [] := by
  cases original with
  | nil => simpa [spells] using spelled
  | cons c rest =>
    rcases spells_cons spelled with ⟨decoded, after, rfl, -⟩
    simp

section

variable {text : Bytes} (plain : ∀ c ∈ text, c = slash ∨ unreserved c)
  (spelled : spells original path)
include plain spelled

theorem spells_eq_iff : original = text ↔ path = text := by
  rcases spells_plain plain spelled with ⟨rest, after, rfl, rfl, inRest⟩ | ⟨notFirst, notSecond⟩
  · simpa using spells_nil_iff inRest
  constructor
  · rintro rfl
    exact absurd (prefix_refl _) notFirst
  · rintro rfl
    exact absurd (prefix_refl _) notSecond

theorem spells_prefix_iff : text <+: original ↔ text <+: path := by
  rcases spells_plain plain spelled with ⟨rest, after, rfl, rfl, -⟩ | ⟨notFirst, notSecond⟩
  · simp
  · simp [notFirst, notSecond]

end

end Spelling

section Claims

variable {claim path : Bytes}

theorem claimMatches_eq (claim path : Bytes) :
    claimMatches claim path =
      if isSubtree claim then subtreeContains (claimBase claim) path
      else decide (path = claim) := by
  rw [claimMatches, claimBase]
  cases isSubtree claim with
  | true => simp [subtreeContains, Bool.and_comm]
  | false => simp [eq_comm]

theorem subtreeContains_iff_eq_or {base : Bytes} :
    subtreeContains base path ↔ path = base ∨ base ++ [slash] <+: path := by
  rw [subtreeContains_iff, prefix_concat_iff]
  simp [eq_comm]

theorem getLast?_splitOn {text : Bytes} (nonempty : text ≠ []) :
    (text.splitOn slash).getLast? = some [] ↔ text.getLast? = some slash := by
  induction text with
  | nil => exact absurd rfl nonempty
  | cons c text ih =>
    rcases exists_cons_of_ne_nil (splitOn_ne_nil slash text) with ⟨part, parts, split⟩
    rw [splitOn_cons_eq_if_modifyHead, split]
    cases text with
    | nil =>
      rw [splitOn_nil] at split
      cases split
      by_cases isSlash : c = slash <;> simp [isSlash]
    | cons d text =>
      have later := ih (by simp)
      rw [split] at later
      rw [getLast?_cons_cons, ← later]
      by_cases isSlash : c = slash
      · simp [isSlash]
      cases parts with
      | nil =>
        have whole : [slash].intercalate ((d :: text).splitOn slash) = d :: text :=
          intercalate_splitOn slash
        rw [split, intercalate_singleton] at whole
        simp [isSlash, whole]
      | cons other parts => simp [isSlash]

theorem mem_dropLast_or {part : Bytes} {parts : List Bytes} (mem : part ∈ parts) :
    part ∈ parts.dropLast ∨ parts.getLast? = some part := by
  rcases eq_nil_or_concat parts with rfl | ⟨init, last, rfl⟩
  · cases mem
  · simpa [eq_comm] using mem

theorem segments_iff {rest : Bytes} (filled : rest ≠ []) :
    (∀ segment ∈ rest.splitOn slash, validSegment segment) ↔
      rest.getLast? ≠ some slash ∧ pathSegments (slash :: rest) ∧
        ∀ c ∈ slash :: rest, c = slash ∨ unreserved c := by
  rw [Ne, ← getLast?_splitOn filled]
  constructor
  · intro segments
    refine ⟨fun isEmpty => ?_, plain_of_segments segments⟩
    exact absurd (segments [] (mem_of_getLast? isEmpty)) (by decide)
  · rintro ⟨lastFilled, proper, plain⟩ segment mem
    simp only [pathSegments, decide_true, Bool.true_and, Bool.and_eq_true, Bool.or_eq_true,
      all_eq_true, Option.all_eq_true] at proper
    have good : (!segment.isEmpty) ∧ (!isDotSegment segment) := by
      rcases mem_dropLast_or mem with early | last
      · exact proper.1 segment early
      · refine (proper.2 segment last).resolve_left fun isEmpty => lastFilled ?_
        rw [last, List.isEmpty_iff.mp isEmpty]
    rw [validSegment, good.1, good.2, Bool.true_and, Bool.true_and, all_eq_true]
    intro c inSegment
    rcases exists_mem_splitOn_iff.mp ⟨segment, mem, inSegment⟩ with ⟨inRest, other⟩
    exact (segmentCharacter_iff c).mpr ⟨other,
      (plain c (mem_cons_of_mem _ inRest)).resolve_left other⟩

/-- The two checks of a claim agree. -/
theorem validClaim_eq (claim : Bytes) : validClaim claim = isValidHttpClaim claim := by
  have base : (if isSubtree claim then claim.take (claim.length - 2) else claim) =
      claimBase claim := rfl
  rw [Bool.eq_iff_iff, isValidHttpClaim_iff, validClaim, base]
  rcases claimBase claim with _ | ⟨first, rest⟩
  · simp
  rcases rest with _ | ⟨c, rest⟩
  · simp
  by_cases isSlash : first = slash
  · have segments := segments_iff (cons_ne_nil c rest)
    simp [isSlash, maxClaimBytes, segments, and_assoc]
  · simp [isSlash]

theorem httpClaimMatches_eq (claim path : Bytes) :
    (validClaim claim && claimMatches claim path) = httpClaimMatches claim path := by
  rw [validClaim_eq, claimMatches_eq, httpClaimMatches]
  cases isValidHttpClaim claim <;> simp

/-- A claim matches a path as it matches its spelling. -/
theorem claimMatches_of_spells {original : Bytes} (valid : validClaim claim)
    (spelled : spells original path) :
    claimMatches claim original = claimMatches claim path := by
  rw [validClaim_eq, isValidHttpClaim_iff] at valid
  rcases valid with ⟨-, rest, base, -, segments⟩
  have plain : ∀ c ∈ claimBase claim, c = slash ∨ unreserved c := by
    rw [base]
    exact (plain_of_segments segments).2
  have closed : ∀ c ∈ claimBase claim ++ [slash], c = slash ∨ unreserved c := by
    intro c mem
    rcases mem_append.mp mem with inBase | isSlash
    · exact plain c inBase
    · exact .inl (mem_singleton.mp isSlash)
  rw [claimMatches_eq, claimMatches_eq]
  split
  · rw [Bool.eq_iff_iff, subtreeContains_iff_eq_or, subtreeContains_iff_eq_or,
      spells_eq_iff plain spelled, spells_prefix_iff closed spelled]
  · rename_i isExact
    rw [claimBase, if_neg isExact] at plain
    rw [decide_eq_decide, spells_eq_iff plain spelled]

end Claims

/-- The segments of a path that the codec accepts: none is a dot segment, and none is empty but the
one before the first slash and the one after a last slash. -/
theorem segments_of_path {path : Bytes} (proper : pathSegments path) :
    path.head? = some slash ∧ (∀ part ∈ path.splitOn slash, isDotSegment part = false) ∧
      ∀ index, (path.splitOn slash)[index]? = some [] →
        index = 0 ∨ index + 1 = (path.splitOn slash).length := by
  cases path with
  | nil => cases proper
  | cons first rest =>
    simp only [pathSegments, Bool.and_eq_true, Bool.or_eq_true, Bool.not_eq_true',
      decide_eq_true_eq, all_eq_true, Option.all_eq_true] at proper
    rcases proper with ⟨⟨rfl, early⟩, last⟩
    have split : (slash :: rest).splitOn slash = [] :: rest.splitOn slash :=
      splitOn_append_cons_self_of_not_mem (not_mem_nil) rest
    rw [split]
    refine ⟨rfl, ?_, ?_⟩
    · intro part mem
      rcases mem_cons.mp mem with rfl | inRest
      · rfl
      rcases mem_dropLast_or inRest with isEarly | isLast
      · exact (early part isEarly).2
      rcases last part isLast with isEmpty | good
      · rw [List.isEmpty_iff.mp isEmpty]
        rfl
      · exact good.2
    · intro index isEmpty
      cases index with
      | zero => exact .inl rfl
      | succ index =>
        right
        by_contra notLast
        rw [getElem?_cons_succ] at isEmpty
        rw [length_cons] at notLast
        have inside := (List.getElem?_eq_some_iff.mp isEmpty).1
        have isEarly : [] ∈ (rest.splitOn slash).dropLast := by
          refine mem_of_getElem? (i := index) ?_
          rw [getElem?_dropLast, if_pos (by omega), isEmpty]
        exact absurd (early [] isEarly).1 (by simp)

/-- An accepted target is decoded, claims match the request line and the path alike, and the codec
and the package manager agree on claims. -/
theorem targets_routed_alike :
    (∀ original path query, validateTarget original path query = .ok () →
      Decoded original path ∧ ∀ claim, validClaim claim = true →
        claimMatches claim original = claimMatches claim path ∧
          httpClaimMatches claim original = httpClaimMatches claim path) ∧
    ∀ claim path, validClaim claim = isValidHttpClaim claim ∧
      (validClaim claim && claimMatches claim path) = httpClaimMatches claim path := by
  refine ⟨?_, fun claim path => ⟨validClaim_eq claim, httpClaimMatches_eq claim path⟩⟩
  intro original path query accepted
  rw [validateTarget] at accepted
  split at accepted
  · cases accepted
  split at accepted
  · cases accepted
  split at accepted
  · cases accepted
  rename_i proper spelled
  simp only [Bool.or_eq_true, Bool.not_eq_true', not_or, Bool.not_eq_false] at proper spelled
  rcases segments_of_path proper.2 with ⟨absolute, noDots, noGaps⟩
  refine ⟨⟨percentDecode_of_spells spelled.1.2, absolute, noDots, noGaps, ?_⟩, ?_⟩
  · have printed : ∀ c : UInt8, pathCharacter c = true →
        0x20 ≤ c ∧ c ≠ 0x7f ∧ c ≠ '\\'.toUInt8 := by decide +kernel
    exact fun c mem => printed c (all_eq_true.mp spelled.1.1 c mem)
  · intro claim valid
    have same := claimMatches_of_spells valid spelled.1.2
    rw [← httpClaimMatches_eq, ← httpClaimMatches_eq, same]
    exact ⟨rfl, rfl⟩

/-- A path with an encoded space is in the subtree of its claim as it is written and as it is
meant. -/
theorem encodedTarget_routed_alike :
    validateTarget (utf8 "/shop/a%20b") (utf8 "/shop/a b") [] = .ok () ∧
      Decoded (utf8 "/shop/a%20b") (utf8 "/shop/a b") ∧
      claimMatches (utf8 "/shop/*") (utf8 "/shop/a%20b") = true ∧
      claimMatches (utf8 "/shop/*") (utf8 "/shop/a b") = true := by
  have accepted : validateTarget (utf8 "/shop/a%20b") (utf8 "/shop/a b") [] = .ok () ∧
      validClaim (utf8 "/shop/*") = true ∧
      claimMatches (utf8 "/shop/*") (utf8 "/shop/a b") = true := by decide +kernel
  rcases targets_routed_alike.1 _ _ _ accepted.1 with ⟨decoded, alike⟩
  exact ⟨accepted.1, decoded, (alike _ accepted.2.1).1.trans accepted.2.2, accepted.2.2⟩

end Plinth.ExtensionHttp
