import Plinth.ExtensionHttp.Text
import Plinth.Packages.ManifestError

/-!
# HTTP declarations

Model of `packages/http_declarations.cpp`: the grammar of HTTP claims, the paths that a claim
matches, the test whether two claims share a path, and the reader of the HTTP fields of a
manifest. A claim is a path or the subtree below it.
-/

namespace Plinth.Packages

open Core ExtensionHttp List

def maxClaims : Nat := 64

def maxClaimBytes : Nat := 256

def kernelClaims : List Bytes :=
  ["/api/*", "/ext/*", "/s/*", "/healthz/*", "/metrics/*", "/ws/*"].map utf8

def segmentCharacter (c : UInt8) : Bool :=
  lowerAlpha c || upperAlpha c || digit c || c = '.'.toUInt8 || c = '_'.toUInt8 ||
    c = '~'.toUInt8 || c = '-'.toUInt8

variable (claim : Bytes)

def isSubtree : Bool := [slash, '*'.toUInt8].isSuffixOf claim

def claimBase : Bytes :=
  if isSubtree claim then claim.take (claim.length - 2) else claim

def subtreeContains (base path : Bytes) : Bool :=
  path = base || (base.length < path.length && base.isPrefixOf path &&
    path[base.length]? = some slash)

def validSegment (segment : Bytes) : Bool :=
  !segment.isEmpty && !isDotSegment segment && segment.all segmentCharacter

def isValidHttpClaim : Bool :=
  if claim.length < 2 || maxClaimBytes < claim.length || claim.head? ≠ some slash then false
  else 2 ≤ (claimBase claim).length &&
    (((claimBase claim).drop 1).splitOn slash).all validSegment

@[simp]
def httpClaimMatches (path : Bytes) : Bool :=
  if !isValidHttpClaim claim then false
  else if isSubtree claim then subtreeContains (claimBase claim) path else path = claim

def httpClaimsIntersect (left right : Bytes) : Bool :=
  if !isValidHttpClaim left || !isValidHttpClaim right then false
  else if isSubtree left && subtreeContains (claimBase left) (claimBase right) then true
  else if !isSubtree left && left = right then true
  else isSubtree right && subtreeContains (claimBase right) (claimBase left)

inductive HttpHandlerMode where
  | quickjs
  | sidecar
  | bundledNative
  deriving DecidableEq

structure HttpDeclaration where
  httpPrefixes : List Bytes := []
  unauthenticatedPrefixes : List Bytes := []
  handlerMode : Option HttpHandlerMode := none
  deriving DecidableEq

structure HttpDeclarationParseResult where
  value : Option HttpDeclaration := none
  messages : List ManifestParseError := []

structure Finding where
  claim : Bytes
  error : ManifestParseError

namespace Finding

def key (finding : Finding) : List (List Nat) :=
  [finding.claim, utf8 finding.error.rule, utf8 (finding.error.fieldPath.getD "")].map
    (List.map UInt8.toNat)

def Le (first second : Finding) : Prop := first.key ≤ second.key

instance : DecidableRel Le := fun first second =>
  inferInstanceAs (Decidable (first.key ≤ second.key))

end Finding

namespace DeclarationParser

variable (source : String) (claims : List Bytes) (document : Json) (field : String)

def add (claim : Bytes) (field rule message : String) : Finding where
  claim := claim
  error := { file := source, fieldPath := some field, rule, message }

def invalidClaims : Finding :=
  add source [] ("/" ++ field) "http-prefix-invalid"
    "HTTP claims must be an array with at most 64 entries"

def invalidClaim (index : Nat) : Finding :=
  add source [] ("/" ++ field ++ "/" ++ toString index) "http-prefix-invalid"
    "HTTP claim must follow the exact ASCII literal/subtree grammar and fit 256 bytes"

def findingOf : Except Finding Bytes → Option Finding
  | .error finding => some finding
  | .ok _ => none

def readClaim (value : Json) (index : Nat) : Except Finding Bytes :=
  match value.asString?.map utf8 with
  | some claim =>
    if isValidHttpClaim claim then .ok claim else .error (invalidClaim source field index)
  | none => .error (invalidClaim source field index)

/-- The claims of an array in order, with the findings of its other entries. -/
def readClaims : List Finding × List Bytes :=
  match document.get? field with
  | none => ([], [])
  | some (.array items) =>
    if maxClaims < items.length then ([invalidClaims source field], [])
    else
      let entries := items.zipIdx.map fun (value, index) => readClaim source field value index
      (entries.filterMap findingOf, Bytes.sort (entries.filterMap Except.toOption))
  | some _ => ([invalidClaims source field], [])

def repeats (claim : Bytes) (index : Nat) : Bool :=
  index ≠ 0 && claims[index - 1]? = some claim

def checkRelations : List Finding :=
  claims.zipIdx.flatMap fun (claim, index) =>
    if repeats claims claim index then
      [add source claim ("/" ++ field) "http-prefix-duplicate"
        "HTTP claim is declared more than once in this array"]
    else
      (claims.zipIdx.take index).flatMap fun (earlier, previous) =>
        if repeats claims earlier previous then []
        else if httpClaimsIntersect earlier claim then
          [add source earlier ("/" ++ field) "http-prefix-overlap"
            "HTTP claims in the same array have intersecting ownership"]
        else []

def checkReserved : List Finding :=
  claims.flatMap fun claim =>
    if kernelClaims.any (httpClaimsIntersect claim) then
      [add source claim "/http_prefixes" "http-prefix-reserved"
        "HTTP claim intersects a fixed kernel mount"]
    else []

def checkPublic (unauthenticated : List Bytes) : List Finding :=
  unauthenticated.flatMap fun claim =>
    if Bytes.binarySearch claims claim then []
    else
      [add source claim "/unauthenticated_prefixes" "http-public-prefix-not-declared"
        "public HTTP claim must exactly equal a declared HTTP claim"]

def readMode (mode : Json) : List Finding × Option HttpHandlerMode :=
  if mode.asString? = some "quickjs" then ([], some .quickjs)
  else if mode.asString? = some "sidecar" then ([], some .sidecar)
  else if mode.asString? = some "bundled_native" then ([], some .bundledNative)
  else
    ([add source [] "/handler_mode" "http-handler-mode-unavailable"
      "handler_mode must be quickjs, sidecar, or bundled_native"], none)

def hasClaims : Bool :=
  match document.get? "http_prefixes" with
  | some (.array items) => !items.isEmpty
  | _ => false

def checkMode : List Finding × Option HttpHandlerMode :=
  match document.get? "handler_mode" with
  | some mode =>
    let (findings, handlerMode) := readMode source mode
    (findings ++ if hasClaims document then [] else
      [add source [] "/handler_mode" "http-mode-without-claims"
        "handler_mode requires nonempty valid HTTP claims"], handlerMode)
  | none =>
    (if hasClaims document then
      [add source [] "/handler_mode" "http-handler-mode-unavailable"
        "HTTP claims require an explicit handler_mode"] else [], none)

def parse : HttpDeclarationParseResult :=
  let (claimFindings, claims) := readClaims source document "http_prefixes"
  let (publicFindings, unauthenticated) := readClaims source document "unauthenticated_prefixes"
  let (modeFindings, handlerMode) := checkMode source document
  let findings := claimFindings ++ publicFindings ++
    checkRelations source claims "http_prefixes" ++
    checkRelations source unauthenticated "unauthenticated_prefixes" ++
    checkReserved source claims ++ checkPublic source claims unauthenticated ++ modeFindings
  { value := if findings.isEmpty then some ⟨claims, unauthenticated, handlerMode⟩ else none
    messages := (findings.insertionSort Finding.Le).map Finding.error }

end DeclarationParser

/-- What `parse_unique_object` makes of the bytes of a manifest. -/
inductive ManifestDocument where
  | duplicateKey
  | malformed
  | value (document : Json)

def invalidDocument (source message : String) : HttpDeclarationParseResult where
  messages := [{ file := source, rule := "http-prefix-invalid", message }]

def HttpDeclaration.parse (manifest : ManifestDocument) (source : String) :
    HttpDeclarationParseResult :=
  match manifest with
  | .duplicateKey => invalidDocument source "manifest contains a duplicate decoded JSON key"
  | .malformed => invalidDocument source "manifest is not valid JSON"
  | .value document =>
    if document.isObject then DeclarationParser.parse source document
    else invalidDocument source "manifest must be a JSON object"

/-- A subtree holds its base and what follows it after a slash. -/
theorem subtreeContains_iff {base path : Bytes} :
    subtreeContains base path ↔ (base ++ [slash]) <+: (path ++ [slash]) := by
  simp only [subtreeContains, Bool.or_eq_true, Bool.and_eq_true, decide_eq_true_eq,
    isPrefixOf_iff_prefix]
  constructor
  · rintro (rfl | ⟨⟨-, ⟨rest, rfl⟩⟩, next⟩)
    · exact prefix_refl _
    · rw [getElem?_append_right (Nat.le_refl _), Nat.sub_self] at next
      cases rest with
      | nil => simp at next
      | cons c rest =>
        cases next
        exact ⟨rest ++ [slash], by simp⟩
  · intro closed
    rcases prefix_concat_iff.mp closed with same | ⟨rest, rfl⟩
    · exact .inl (append_cancel_right same).symm
    · right
      simp

theorem subtreeContains_self (base : Bytes) : subtreeContains base base :=
  subtreeContains_iff.mpr (prefix_refl _)

/-- Two subtrees that share a path lie one in the other. -/
theorem subtreeContains_or {first second path : Bytes}
    (inFirst : subtreeContains first path) (inSecond : subtreeContains second path) :
    subtreeContains first second ∨ subtreeContains second first := by
  rw [subtreeContains_iff] at inFirst inSecond
  rcases Nat.le_total (first ++ [slash]).length (second ++ [slash]).length with short | long
  · exact .inl (subtreeContains_iff.mpr (prefix_of_prefix_length_le inFirst inSecond short))
  · exact .inr (subtreeContains_iff.mpr (prefix_of_prefix_length_le inSecond inFirst long))

theorem httpClaimMatches_base {claim : Bytes} (valid : isValidHttpClaim claim) :
    httpClaimMatches claim (claimBase claim) := by
  cases subtree : isSubtree claim with
  | true => simp [valid, subtree, subtreeContains_self]
  | false => simp [valid, subtree, claimBase]

theorem claimBase_prefixed : claimBase claim <+: claim := by
  rw [claimBase]
  split
  · exact take_prefix _ _
  · exact prefix_refl _

/-- A valid claim is short and its base a path of valid segments. -/
theorem isValidHttpClaim_iff {claim : Bytes} :
    isValidHttpClaim claim ↔ claim.length ≤ maxClaimBytes ∧ ∃ rest,
      claimBase claim = slash :: rest ∧ rest ≠ [] ∧
        ∀ segment ∈ rest.splitOn slash, validSegment segment := by
  rw [isValidHttpClaim]
  rcases base : claimBase claim with _ | ⟨first, rest⟩
  · simp
  rcases base ▸ claimBase_prefixed claim with ⟨more, rfl⟩
  rcases rest with _ | ⟨c, rest⟩
  · simp
  · by_cases isSlash : first = slash <;> simp [isSlash]

theorem segmentCharacter_iff : ∀ c : UInt8, segmentCharacter c ↔ c ≠ slash ∧ unreserved c := by
  decide +kernel

theorem plain_of_segments {rest : Bytes}
    (segments : ∀ segment ∈ rest.splitOn slash, validSegment segment) :
    pathSegments (slash :: rest) ∧ ∀ c ∈ slash :: rest, c = slash ∨ unreserved c := by
  simp only [validSegment, Bool.and_eq_true, Bool.not_eq_true', all_eq_true] at segments
  constructor
  · simp only [pathSegments, decide_true, Bool.true_and, Bool.and_eq_true, all_eq_true,
      Option.all_eq_true]
    refine ⟨fun part mem => ?_, fun part isLast => ?_⟩
    · simp [(segments part (dropLast_subset _ mem)).1]
    · simp [(segments part (mem_of_getLast? isLast)).1]
  · intro c mem
    rcases mem_cons.mp mem with isSlash | inRest
    · exact .inl isSlash
    · rcases mem_splitOn inRest with isSlash | ⟨part, isPart, inPart⟩
      · exact .inl isSlash
      · exact .inr ((segmentCharacter_iff c).mp ((segments part isPart).2 c inPart)).2

theorem canonical_claimBase {claim : Bytes} (valid : isValidHttpClaim claim) :
    Canonical (claimBase claim) := by
  rcases isValidHttpClaim_iff.mp valid with ⟨short, rest, base, -, segments⟩
  have fits := (claimBase_prefixed claim).length_le
  rw [base] at fits ⊢
  apply canonical_of_plain
  · simp only [maxTargetBytes, maxClaimBytes] at short ⊢
    omega
  · exact (plain_of_segments segments).1
  · exact (plain_of_segments segments).2

theorem valid_of_matches {claim path : Bytes} (isMatch : httpClaimMatches claim path) :
    isValidHttpClaim claim := by
  cases valid : isValidHttpClaim claim with
  | true => rfl
  | false => simp [valid] at isMatch

/-- Claims that match one path intersect. -/
theorem httpClaimsIntersect_of_matches {left right path : Bytes}
    (inLeft : httpClaimMatches left path) (inRight : httpClaimMatches right path) :
    httpClaimsIntersect left right := by
  have leftValid := valid_of_matches inLeft
  have rightValid := valid_of_matches inRight
  simp only [httpClaimMatches, leftValid, rightValid, Bool.not_true, Bool.false_eq_true,
    if_false] at inLeft inRight
  simp only [httpClaimsIntersect, leftValid, rightValid, Bool.not_true, Bool.or_false,
    Bool.false_eq_true, if_false]
  cases leftTree : isSubtree left with
  | true =>
    cases rightTree : isSubtree right with
    | true =>
      simp only [leftTree, rightTree, if_true] at inLeft inRight
      rcases subtreeContains_or inLeft inRight with contains | contains <;> simp [contains]
    | false =>
      simp only [leftTree, rightTree, if_true, Bool.false_eq_true, if_false,
        decide_eq_true_eq] at inLeft inRight
      have base : claimBase right = right := by simp [claimBase, rightTree]
      rw [inRight] at inLeft
      simp [base, inLeft]
  | false =>
    cases rightTree : isSubtree right with
    | true =>
      simp only [leftTree, rightTree, if_true, Bool.false_eq_true, if_false,
        decide_eq_true_eq] at inLeft inRight
      have base : claimBase left = left := by simp [claimBase, leftTree]
      rw [inLeft] at inRight
      simp [base, inRight]
    | false =>
      simp only [leftTree, rightTree, Bool.false_eq_true, if_false,
        decide_eq_true_eq] at inLeft inRight
      simp [← inLeft, ← inRight]

/-- Claims that intersect match a canonical path in common. -/
theorem matches_of_httpClaimsIntersect {left right : Bytes}
    (intersect : httpClaimsIntersect left right) :
    ∃ path, Canonical path ∧ httpClaimMatches left path ∧ httpClaimMatches right path := by
  unfold httpClaimsIntersect at intersect
  split at intersect
  · cases intersect
  case isFalse valid =>
  simp only [Bool.or_eq_true, Bool.not_eq_true', not_or, Bool.not_eq_false] at valid
  rcases valid with ⟨leftValid, rightValid⟩
  split at intersect
  case isTrue contains =>
    rw [Bool.and_eq_true] at contains
    refine ⟨claimBase right, canonical_claimBase rightValid, ?_, httpClaimMatches_base rightValid⟩
    simp [leftValid, contains]
  case isFalse =>
    split at intersect
    case isTrue same =>
      simp only [Bool.and_eq_true, decide_eq_true_eq] at same
      rcases same with ⟨-, rfl⟩
      exact ⟨claimBase left, canonical_claimBase leftValid, httpClaimMatches_base leftValid,
        httpClaimMatches_base leftValid⟩
    case isFalse =>
      rw [Bool.and_eq_true] at intersect
      refine ⟨claimBase left, canonical_claimBase leftValid, httpClaimMatches_base leftValid, ?_⟩
      simp [rightValid, intersect]

namespace DeclarationParser

/-- Only valid claims are read. -/
theorem readClaims_sound (source : String) (document : Json) (field : String) {claim : Bytes}
    (mem : claim ∈ (readClaims source document field).2) : isValidHttpClaim claim := by
  unfold readClaims at mem
  split at mem
  · simp at mem
  · split at mem
    · simp at mem
    · simp only [Bytes.sort, mem_insertionSort] at mem
      rcases mem_filterMap.mp mem with ⟨entry, isEntry, read⟩
      rcases mem_map.mp isEntry with ⟨⟨value, index⟩, -, rfl⟩
      simp only [readClaim] at read
      split at read
      · split at read
        case isTrue valid =>
          cases read
          exact valid
        · cases read
      · cases read
  · simp at mem

section

variable {source field : String} {claims : List Bytes}
  (quiet : checkRelations source claims field = [])
include quiet

theorem repeats_of_checkRelations {index : Nat} (inside : index < claims.length) :
    repeats claims (claims.get ⟨index, inside⟩) index = false := by
  have here := flatMap_eq_nil_iff.mp quiet (claims.get ⟨index, inside⟩, index)
    (mem_zipIdx_iff_getElem?.mpr (by simp))
  cases isRepeat : repeats claims (claims.get ⟨index, inside⟩) index with
  | true => simp only [isRepeat, if_true, cons_ne_nil] at here
  | false => rfl

theorem pairwise_of_checkRelations :
    claims.Pairwise fun left right => httpClaimsIntersect left right = false := by
  rw [pairwise_iff_getElem]
  intro first second firstInside secondInside before
  have here := flatMap_eq_nil_iff.mp quiet (claims[second], second)
    (mem_zipIdx_iff_getElem?.mpr (by simp))
  have unrepeated := repeats_of_checkRelations quiet secondInside
  have earlier := repeats_of_checkRelations quiet firstInside
  simp only [get_eq_getElem] at unrepeated earlier
  simp only [unrepeated, Bool.false_eq_true, if_false] at here
  have pair := flatMap_eq_nil_iff.mp here (claims[first], first)
    (mem_take_iff_getElem.mpr ⟨first, by simp; omega, by simp⟩)
  simp only [earlier, Bool.false_eq_true, if_false] at pair
  cases intersect : httpClaimsIntersect claims[first] claims[second] with
  | true => simp [intersect] at pair
  | false => rfl

end

end DeclarationParser

/-- What the reader checks of the claims that it accepts. -/
structure HttpDeclaration.Checked (declaration : HttpDeclaration) : Prop where
  valid : ∀ claim ∈ declaration.httpPrefixes, isValidHttpClaim claim = true
  apart : declaration.httpPrefixes.Pairwise fun left right =>
    httpClaimsIntersect left right = false
  unreserved : ∀ claim ∈ declaration.httpPrefixes, ∀ kernel ∈ kernelClaims,
    httpClaimsIntersect claim kernel = false
  declared : ∀ claim ∈ declaration.unauthenticatedPrefixes, claim ∈ declaration.httpPrefixes

/-- What holds of the claims of an accepted declaration. -/
theorem HttpDeclaration.parse_checked {manifest : ManifestDocument} {source : String}
    {declaration : HttpDeclaration}
    (accepted : (HttpDeclaration.parse manifest source).value = some declaration) :
    declaration.Checked := by
  unfold HttpDeclaration.parse at accepted
  split at accepted
  · cases accepted
  · cases accepted
  split at accepted
  case isFalse => cases accepted
  simp only [DeclarationParser.parse] at accepted
  split at accepted
  case isFalse => cases accepted
  case isTrue quiet =>
  cases accepted
  simp only [List.isEmpty_iff, append_eq_nil_iff] at quiet
  rcases quiet with ⟨⟨⟨⟨⟨⟨-, -⟩, relations⟩, -⟩, reserved⟩, isPublic⟩, -⟩
  constructor
  · intro claim mem
    exact DeclarationParser.readClaims_sound _ _ _ mem
  · exact DeclarationParser.pairwise_of_checkRelations relations
  · intro claim mem kernel isKernel
    have here := flatMap_eq_nil_iff.mp reserved claim mem
    cases intersect : httpClaimsIntersect claim kernel with
    | true => simp [any_eq_true.mpr ⟨kernel, isKernel, intersect⟩] at here
    | false => rfl
  · intro claim mem
    have here := flatMap_eq_nil_iff.mp isPublic claim mem
    cases found : Bytes.binarySearch
        (DeclarationParser.readClaims source _ "http_prefixes").2 claim with
    | true => exact Bytes.mem_of_binarySearch found
    | false => simp [found] at here

/-- Claims that are apart leave at most one owner to a path. -/
theorem countP_httpClaimMatches_le {claims : List Bytes} (path : Bytes)
    (apart : claims.Pairwise fun left right => httpClaimsIntersect left right = false) :
    claims.countP (httpClaimMatches · path) ≤ 1 := by
  induction apart with
  | nil => simp
  | @cons claim claims fromRest _ ih =>
    rw [countP_cons]
    split
    case isTrue isMatch =>
      have others : claims.countP (httpClaimMatches · path) = 0 := by
        rw [countP_eq_zero]
        intro other mem alsoMatch
        have intersect := httpClaimsIntersect_of_matches isMatch alsoMatch
        rw [fromRest other mem] at intersect
        cases intersect
      rw [others]
    case isFalse => exact ih

/-- Two claims intersect exactly when a path that a request can have is matched by both, and an
accepted declaration gives every path at most one claim, none that the kernel also claims, and
opens only claims that it makes. -/
theorem httpClaims_own_paths :
    (∀ left right, isValidHttpClaim left = true → isValidHttpClaim right = true →
      (httpClaimsIntersect left right = true ↔ ∃ path, Canonical path ∧
        httpClaimMatches left path = true ∧ httpClaimMatches right path = true)) ∧
    ∀ manifest source declaration,
      (HttpDeclaration.parse manifest source).value = some declaration →
        (∀ path, declaration.httpPrefixes.countP (httpClaimMatches · path) ≤ 1) ∧
        (∀ path, ∀ claim ∈ declaration.httpPrefixes, httpClaimMatches claim path = true →
          ∀ kernel ∈ kernelClaims, httpClaimMatches kernel path = false) ∧
        ∀ claim ∈ declaration.unauthenticatedPrefixes, claim ∈ declaration.httpPrefixes := by
  constructor
  · intro left right _ _
    constructor
    · exact matches_of_httpClaimsIntersect
    · rintro ⟨path, -, inLeft, inRight⟩
      exact httpClaimsIntersect_of_matches inLeft inRight
  · intro manifest source declaration accepted
    have checked := HttpDeclaration.parse_checked accepted
    refine ⟨fun path => countP_httpClaimMatches_le path checked.apart, ?_, checked.declared⟩
    intro path claim mem isMatch kernel isKernel
    cases alsoKernel : httpClaimMatches kernel path with
    | false => rfl
    | true =>
      have intersect := httpClaimsIntersect_of_matches isMatch alsoKernel
      rw [checked.unreserved claim mem kernel isKernel] at intersect
      cases intersect

def shopManifest : Json :=
  .object [("http_prefixes", .array [.string "/shop/*", .string "/login"]),
    ("unauthenticated_prefixes", .array [.string "/login"]), ("handler_mode", .string "quickjs")]

/-- The shop's claims own their paths. -/
theorem shopManifest_owns_paths :
    (httpClaimsIntersect (utf8 "/shop/*") (utf8 "/shop/cart") = true ↔ ∃ path, Canonical path ∧
      httpClaimMatches (utf8 "/shop/*") path = true ∧
        httpClaimMatches (utf8 "/shop/cart") path = true) ∧
    ∃ declaration,
      (HttpDeclaration.parse (.value shopManifest) "manifest.json").value = some declaration ∧
        ∀ path, declaration.httpPrefixes.countP (httpClaimMatches · path) ≤ 1 := by
  refine ⟨httpClaims_own_paths.1 _ _ (by decide +kernel) (by decide +kernel),
    ⟨[utf8 "/login", utf8 "/shop/*"], [utf8 "/login"], some .quickjs⟩, by decide +kernel, ?_⟩
  exact (httpClaims_own_paths.2 (.value shopManifest) "manifest.json" _ (by decide +kernel)).1

end Plinth.Packages
