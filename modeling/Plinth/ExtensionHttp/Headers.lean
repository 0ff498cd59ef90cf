import Plinth.Core.Procedure
import Plinth.ExtensionHttp.Text

/-!
# Request headers

The checks of headers in `extension_http/codec.cpp`, and the removal of the headers that are not
for a handler: credentials, those of one hop, and those that a `Connection` header names.
-/

namespace Plinth.ExtensionHttp

open Core List

def maxHeaderPairs : Nat := 64

def maxHeaderBytes : Nat := 32768

abbrev Headers := List (Bytes × Bytes)

def comma : UInt8 := ','.toUInt8

def connection : Bytes := utf8 "connection"

def token (c : UInt8) : Bool := alpha c || digit c || (utf8 "!#$%&'*+.^_`|~-").contains c

def hopHeader (name : Bytes) : Bool :=
  (["connection", "keep-alive", "proxy-connection", "proxy-authenticate", "proxy-authorization",
    "te", "trailer", "transfer-encoding", "upgrade"].map utf8).contains name

def requestForbidden (name : Bytes) : Bool :=
  hopHeader name || (["cookie", "authorization", "x-plinth-csrf", "host", "forwarded"].map
    utf8).contains name || (utf8 "x-forwarded-").isPrefixOf name

/-- The turn of `validate_headers` for one header; the sum of the sizes goes on. -/
def validateHeader (total : Nat) : Bytes × Bytes → CodecResult Nat
  | (name, value) =>
    if name.isEmpty || !name.all (fun c => token c && !upperAlpha c) then .error .invalid
    else if 128 < name.length || 8192 < value.length then .error .tooLarge
    else if !validUtf8 value ||
        value.any (fun c => (c < 0x20 && c ≠ '\t'.toUInt8) || c = 0x7f) then .error .invalid
    else if maxHeaderBytes - total < name.length + value.length then .error .tooLarge
    else .ok (total + (name.length + value.length))

def validateHeaders (headers : Headers) : CodecResult Unit :=
  if maxHeaderPairs < headers.length then .error .tooLarge
  else (headers.foldlM validateHeader 0).map fun _ => ()

def blank (c : UInt8) : Bool := c = ' '.toUInt8 || c = '\t'.toUInt8

def trim (item : Bytes) : Bytes := ((item.dropWhile blank).reverse.dropWhile blank).reverse

def lower (c : UInt8) : UInt8 := if upperAlpha c then c - 'A'.toUInt8 + 'a'.toUInt8 else c

/-- The loop over the value of a `Connection` header, for a number of turns: the names it adds,
or nothing if that is not enough. -/
def scanConnection : Nat → Bytes → Option (CodecResult (List Bytes))
  | 0, _ => none
  | fuel + 1, text =>
    let item := trim (text.takeWhile (· != comma))
    if item.isEmpty || 128 < item.length || !item.all token then some (.error .invalid)
    else
      match text.dropWhile (· != comma) with
      | [] => some (.ok [item.map lower])
      | _ :: rest =>
        (scanConnection fuel rest).map fun later => later.map (item.map lower :: ·)

def nominated : Headers → Option (CodecResult (List Bytes))
  | [] => some (.ok [])
  | (name, value) :: headers =>
    if name ≠ connection then nominated headers
    else
      match scanConnection (value.length + 1) value with
      | none => none
      | some (.error error) => some (.error error)
      | some (.ok names) => (nominated headers).map fun later => later.map (names ++ ·)

def filterRequestHeaders (headers : Headers) : Option (CodecResult Headers) :=
  match validateHeaders headers with
  | .error error => some (.error error)
  | .ok _ => (nominated headers).map fun names => names.map fun names =>
      headers.filter fun header => !requestForbidden header.1 && !names.contains header.1

/-- What `validate_request` checks about the headers alone. -/
def validateRequestHeaders (headers : Headers) : CodecResult Unit :=
  match validateHeaders headers with
  | .error error => .error error
  | .ok _ => if headers.any fun header => requestForbidden header.1 then .error .invalid else .ok ()

/-- The names in the value of a `Connection` header, in small letters. -/
def namesIn (value : Bytes) : List Bytes :=
  (value.splitOn comma).map fun item => (trim item).map lower

/-- Whether a `Connection` header names another header, in any letter case. -/
def nominates (headers : Headers) (name : Bytes) : Bool :=
  headers.any fun header => header.1 = connection && (namesIn header.2).contains (name.map lower)

section Checks

variable {header : Bytes × Bytes} {total less next : Nat}

/-- A header that passes would pass after fewer bytes. -/
theorem validateHeader_mono (valid : validateHeader total header = .ok next)
    (fewer : less ≤ total) :
    total ≤ next ∧ ∃ smaller ≤ next, validateHeader less header = .ok smaller := by
  rcases header with ⟨name, value⟩
  simp only [validateHeader] at valid ⊢
  split_ifs at valid ⊢
  · omega
  · cases valid
    exact ⟨by omega, _, by omega, rfl⟩

theorem foldlM_validateHeader {kept headers : Headers} (sublist : kept.Sublist headers)
    (fewer : less ≤ total) (valid : headers.foldlM validateHeader total = .ok next) :
    ∃ last, kept.foldlM validateHeader less = .ok last := by
  induction sublist generalizing total less with
  | slnil => exact ⟨less, rfl⟩
  | cons header _ ih =>
    rw [foldlM_cons] at valid
    rcases bind_eq_ok.mp valid with ⟨middle, first, valid⟩
    exact ih (fewer.trans (validateHeader_mono first fewer).1) valid
  | cons_cons header _ ih =>
    rw [foldlM_cons] at valid
    rcases bind_eq_ok.mp valid with ⟨middle, first, valid⟩
    rcases (validateHeader_mono first fewer).2 with ⟨smaller, below, isFirst⟩
    rw [foldlM_cons, isFirst]
    exact ih below valid

theorem validateHeaders_sublist {kept headers : Headers} (sublist : kept.Sublist headers)
    (valid : validateHeaders headers = .ok ()) : validateHeaders kept = .ok () := by
  simp only [validateHeaders] at valid ⊢
  split_ifs at valid with short
  cases folded : headers.foldlM validateHeader 0 with
  | error =>
    rw [folded] at valid
    cases valid
  | ok last =>
    rcases foldlM_validateHeader sublist le_rfl folded with ⟨less, isLess⟩
    rw [if_neg (by have := sublist.length_le; omega), isLess]
    rfl

end Checks

/-- The scan ends, and returns the names of the list. -/
theorem scanConnection_spec {fuel : Nat} {text : Bytes} (enough : text.length < fuel) :
    ∃ result, scanConnection fuel text = some result ∧
      ∀ names, result = .ok names → names = namesIn text := by
  induction fuel generalizing text with
  | zero => simp at enough
  | succ fuel ih =>
    rw [scanConnection, namesIn, splitOn_cut]
    split
    · exact ⟨_, rfl, nofun⟩
    cases isRest : text.dropWhile (· != comma) with
    | nil => exact ⟨_, rfl, by rintro names ⟨⟩; rfl⟩
    | cons first rest =>
      have shorter := (dropWhile_sublist (· != comma) (l := text)).length_le
      rw [isRest, length_cons] at shorter
      rcases ih (by omega : rest.length < fuel) with ⟨result, scanned, spec⟩
      simp only [scanned, Option.map_some]
      refine ⟨_, rfl, ?_⟩
      cases result with
      | error => exact nofun
      | ok later =>
        rintro names ⟨⟩
        rw [spec later rfl]
        rfl

/-- The nominated names are those of the connection headers. -/
theorem nominated_spec (headers : Headers) :
    ∃ result, nominated headers = some result ∧ ∀ names, result = .ok names → ∀ name,
      names.contains name = headers.any fun header =>
        header.1 = connection && (namesIn header.2).contains name := by
  induction headers with
  | nil => exact ⟨_, rfl, by rintro names ⟨⟩ name; rfl⟩
  | cons header headers ih =>
    rcases header with ⟨name, value⟩
    rcases ih with ⟨result, isResult, spec⟩
    rcases scanConnection_spec (Nat.lt_succ_self value.length) with ⟨scan, scanned, isScan⟩
    rw [nominated, scanned, isResult]
    split
    · rename_i other
      refine ⟨result, rfl, fun names isOk name => ?_⟩
      rw [any_cons, decide_eq_false other, Bool.false_and, Bool.false_or, spec names isOk]
    · rename_i same
      cases scan with
      | error => exact ⟨_, rfl, nofun⟩
      | ok first =>
        refine ⟨_, rfl, ?_⟩
        cases result with
        | error => exact nofun
        | ok later =>
          rintro names ⟨⟩ name
          rw [any_cons, ← spec later rfl name, ← isScan first rfl]
          simp [not_not.mp same]

theorem nominated_of_none {headers : Headers}
    (none : ∀ header ∈ headers, requestForbidden header.1 = false) :
    nominated headers = some (.ok []) := by
  induction headers with
  | nil => rfl
  | cons header headers ih =>
    have other : header.1 ≠ connection := by
      intro same
      have free := none header mem_cons_self
      rw [same] at free
      revert free
      decide
    rw [nominated, if_pos other]
    exact ih fun later mem => none later (mem_cons_of_mem _ mem)

theorem map_lower_of_valid {headers : Headers} (valid : validateHeaders headers = .ok ())
    {header : Bytes × Bytes} (mem : header ∈ headers) : header.1.map lower = header.1 := by
  have single := validateHeaders_sublist (singleton_sublist.mpr mem) valid
  rw [validateHeaders, if_neg (by simp [maxHeaderPairs]), foldlM_cons, validateHeader] at single
  split_ifs at single with named
  all_goals try cases single
  simp only [Bool.or_eq_true, Bool.not_eq_true', not_or, Bool.not_eq_false, all_eq_true,
    Bool.and_eq_true] at named
  refine (map_congr_left fun c isIn => ?_).trans (map_id _)
  rw [lower, (named.2 c isIn).2, if_neg Bool.false_ne_true, id]

theorem filterRequestHeaders_of_none {headers : Headers} (valid : validateHeaders headers = .ok ())
    (none : ∀ header ∈ headers, requestForbidden header.1 = false) :
    validateRequestHeaders headers = .ok () ∧
      filterRequestHeaders headers = some (.ok headers) := by
  simp only [validateRequestHeaders, filterRequestHeaders, valid, nominated_of_none none]
  refine ⟨if_neg ?_, congrArg (some ∘ Except.ok) (filter_eq_self.mpr ?_)⟩
  · simpa using none
  · simpa using none

/-- What is left of an accepted list of headers are all that are neither forbidden nor
nominated. It is valid and left as it is when it is filtered again. The scan of a `Connection`
header comes to an end for every value. -/
theorem filterRequestHeaders_sound (headers : Headers) :
    (∀ value, ∃ scan, scanConnection (value.length + 1) value = some scan) ∧
      ∀ result, filterRequestHeaders headers = some (.ok result) →
        result = headers.filter (fun header =>
          !requestForbidden header.1 && !nominates headers header.1) ∧
        validateRequestHeaders result = .ok () ∧
        filterRequestHeaders result = some (.ok result) := by
  refine ⟨fun value => ?_, fun result filtered => ?_⟩
  · rcases scanConnection_spec (Nat.lt_succ_self value.length) with ⟨scan, scanned, -⟩
    exact ⟨scan, scanned⟩
  rcases nominated_spec headers with ⟨names, isNominated, spec⟩
  simp only [filterRequestHeaders, isNominated] at filtered
  cases valid : validateHeaders headers with
  | error =>
    rw [valid] at filtered
    cases filtered
  | ok =>
    rw [valid] at filtered
    cases names with
    | error => cases filtered
    | ok names =>
      cases filtered
      refine ⟨filter_congr fun header mem => ?_, filterRequestHeaders_of_none
        (validateHeaders_sublist filter_sublist valid) fun header mem => ?_⟩
      · rw [spec names rfl, nominates, map_lower_of_valid valid mem]
      · have kept := (mem_filter.mp mem).2
        rw [Bool.and_eq_true, Bool.not_eq_true'] at kept
        exact kept.1

/-- A header that is nominated goes with the credentials, whatever case its name has there. -/
theorem filterRequestHeaders_nominee :
    filterRequestHeaders [(utf8 "accept", utf8 "*/*"), (connection, utf8 "close, X-Trace"),
        (utf8 "cookie", utf8 "a=b"), (utf8 "x-trace", utf8 "1")] =
      some (.ok [(utf8 "accept", utf8 "*/*")]) ∧
    validateRequestHeaders [(utf8 "accept", utf8 "*/*")] = .ok () := by
  refine (and_iff_left_of_imp fun filtered => ?_).mpr (by decide +kernel)
  exact ((filterRequestHeaders_sound _).2 _ filtered).2.1

end Plinth.ExtensionHttp
