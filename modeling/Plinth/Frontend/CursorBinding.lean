import Plinth.Frontend.SurfaceCursor

/-!
# What a cursor is bound to

A payload that encoding writes is read back field by field, so decoding an issued cursor comes down
to comparing the request with the one it was issued for. Message authentication is taken as
unforgeable: a tag that verifies was computed by the process. It is taken as injective on the texts
that occur.
-/

namespace Plinth.Frontend

open Plinth.Core Plinth.Core.JsonText Plinth.Packages Plinth.Packages.Restore List

/-- What was encoded decodes. -/
theorem unb64_b64 {input : Bytes} (nonempty : input ≠ [])
    (short : (b64 input).length ≤ maxCursor) : unb64 (b64 input) = some input := by
  have length : (b64 input).length = (input.length * 4 + 2) / 3 := Base64.length_encode input
  have positive := length_pos_iff.mpr nonempty
  have filled : (b64 input).isEmpty = false := by
    rw [isEmpty_eq_false_iff, ← length_pos_iff]
    omega
  have decoded : alphabet.decodeFrom 0 0 (b64 input) = some (input, 0) :=
    Base64.decodeFrom_encode input
  have allowed : ¬((b64 input).isEmpty || maxCursor < (b64 input).length ||
      (b64 input).length % 4 = 1) := by
    simp only [filled, Bool.false_or, Bool.or_eq_true, decide_eq_true_eq]
    omega
  rw [unb64, if_neg allowed, decoded]
  simp

/-- Only canonical encodings decode. -/
theorem b64_unb64 {input output : Bytes} (decoded : unb64 input = some output) :
    b64 output = input := by
  rw [unb64] at decoded
  split at decoded
  · cases decoded
  split at decoded
  · cases decoded
  rcases of_guard_not decoded with ⟨canonical, rfl⟩
  simp only [Bool.or_eq_true, decide_eq_true_eq, not_or, not_not] at canonical
  exact canonical.2

theorem b64_injective : Function.Injective b64 := by
  intro first second same
  have decoded : alphabet.decodeFrom 0 0 (b64 first) = some (first, 0) :=
    Base64.decodeFrom_encode first
  have other : alphabet.decodeFrom 0 0 (b64 second) = some (second, 0) :=
    Base64.decodeFrom_encode second
  rw [same, other] at decoded
  cases decoded
  rfl

theorem isPlain_of_mem_b64 {input : Bytes} {c : UInt8} (mem : c ∈ b64 input) :
    isPlain c ∧ c ≠ dot := by
  have digits : alphabet.digits.all (fun c => isPlain c && c != dot) := by decide +kernel
  simpa using all_eq_true.mp digits c (Base64.mem_digits_of_mem_encode mem)

theorem plain_b64 (input : Bytes) : Plain (b64 input) :=
  fun _ mem => (isPlain_of_mem_b64 mem).1

theorem splitCursor_append (first second : Bytes) :
    splitCursor (b64 first ++ dot :: b64 second) = some (b64 first, b64 second) := by
  have before : ∀ c ∈ b64 first, (c != dot) := fun c mem =>
    bne_iff_ne.mpr (isPlain_of_mem_b64 mem).2
  have after : dot ∉ b64 second := fun mem => (isPlain_of_mem_b64 mem).2 rfl
  rw [splitCursor, dropWhile_append_of_pos before, takeWhile_append_of_pos before]
  simp [after]

theorem eq_of_splitCursor {raw first second : Bytes}
    (split : splitCursor raw = some (first, second)) : raw = first ++ dot :: second := by
  rw [splitCursor] at split
  split at split
  · cases split
  case h_2 c following dropped =>
  split at split
  · cases split
  cases split
  have stops : c = dot := by
    have head := head?_dropWhile_not (· != dot) raw
    rw [dropped] at head
    simpa using head
  calc raw = raw.takeWhile (· != dot) ++ raw.dropWhile (· != dot) :=
        (takeWhile_append_dropWhile).symm
    _ = raw.takeWhile (· != dot) ++ dot :: second := by rw [dropped, stops]

/-- A cursor that passes is the one signed for its bytes. -/
theorem CursorCodec.eq_of_signedBytes {codec : CursorCodec} {raw bytes : Bytes}
    (isSigned : codec.signedBytes raw = some bytes) :
    raw = b64 bytes ++ dot :: b64 (codec.hmac cursorDomain bytes) := by
  rw [signedBytes] at isSigned
  split at isSigned
  · cases isSigned
  case h_2 first second split =>
  split at isSigned
  case h_1 text supplied isText isTag =>
    split at isSigned
    · cases isSigned
    case isFalse verified =>
    cases isSigned
    have facts : supplied.length = 32 ∧ codec.hmac cursorDomain bytes = supplied := by
      simpa using verified
    rw [eq_of_splitCursor split, facts.2, b64_unb64 isText, b64_unb64 isTag]
  · cases isSigned

@[simp]
theorem CursorCodec.length_hmac (codec : CursorCodec) (domain bytes : Bytes) :
    (codec.hmac domain bytes).length = 32 :=
  codec.tagLength _

theorem CursorCodec.signedBytes_append {codec : CursorCodec} {bytes : Bytes}
    (nonempty : bytes ≠ []) (short : (b64 bytes).length ≤ maxCursor) :
    codec.signedBytes (b64 bytes ++ dot :: b64 (codec.hmac cursorDomain bytes)) = some bytes := by
  have tagged : unb64 (b64 (codec.hmac cursorDomain bytes)) =
      some (codec.hmac cursorDomain bytes) := by
    apply unb64_b64
    · simp [← length_pos_iff]
    · rw [b64, Base64.length_encode, length_hmac]
      decide
  rw [signedBytes, splitCursor_append]
  simp [unb64_b64 nonempty short, tagged]

theorem CursorSax.value_eq {sax : CursorSax} (few : sax.nodes + 1 ≤ 128) :
    sax.value = some { sax with nodes := sax.nodes + 1 } := if_pos few

def Passes (value : Value) : Prop :=
  ∀ (sax : CursorSax) (rest : List Event), sax.nodes + value.nodes ≤ 128 →
    sax.keys.length + value.height ≤ 6 →
      sax.run (value.events ++ rest) =
        CursorSax.run { sax with nodes := sax.nodes + value.nodes } rest

theorem passes_scalar {value : Value} {event : Event} (isEvent : value.events = [event])
    (isValue : ∀ sax : CursorSax, sax.step event = sax.value) (isNode : value.nodes = 1) :
    Passes value := by
  intro sax rest few _
  rw [isNode] at few ⊢
  rw [isEvent, CursorSax.run, singleton_append, foldlM_cons, isValue, CursorSax.value_eq few]
  rfl

theorem passes_members {members : List (Bytes × Value)} (distinct : (members.map Prod.fst).Nodup)
    (each : ∀ member ∈ members, Passes member.2) (nodes : Nat) (seen : List Bytes)
    (outer : List (List Bytes)) (rest : List Event)
    (fresh : ∀ member ∈ members, member.1 ∉ seen) (few : nodes + membersNodes members ≤ 128)
    (low : outer.length + 1 + membersHeight members ≤ 6) :
    CursorSax.run ⟨nodes, seen :: outer⟩ (membersEvents members ++ rest) =
      CursorSax.run ⟨nodes + membersNodes members,
        ((members.map Prod.fst).reverse ++ seen) :: outer⟩ rest := by
  induction members generalizing nodes seen with
  | nil => rfl
  | cons member members ih =>
    rcases member with ⟨key, value⟩
    rcases nodup_cons.mp distinct with ⟨isNew, later⟩
    simp only [membersNodes, membersHeight] at few low
    have unseen : key ∉ seen := fresh (key, value) mem_cons_self
    have keyed : CursorSax.step ⟨nodes, seen :: outer⟩ (.key key) =
        some ⟨nodes, (key :: seen) :: outer⟩ := if_neg unseen
    have stillFresh : ∀ member ∈ members, member.1 ∉ key :: seen := by
      intro member mem
      rw [mem_cons, not_or]
      refine ⟨?_, fresh member (mem_cons_of_mem _ mem)⟩
      rintro rfl
      exact isNew (mem_map.mpr ⟨_, mem, rfl⟩)
    have passed := each (key, value) mem_cons_self ⟨nodes, (key :: seen) :: outer⟩
      (membersEvents members ++ rest) (by simp only; omega) (by simp only [length_cons]; omega)
    have others := ih later (fun member mem => each member (mem_cons_of_mem _ mem))
      (nodes + value.nodes) (key :: seen) stillFresh (by omega) (by omega)
    rw [membersEvents, cons_append, CursorSax.run, foldlM_cons, keyed]
    simp only [append_assoc]
    refine passed.trans (others.trans ?_)
    simp [membersNodes, Nat.add_assoc]

/-- Objects without a repeated key pass. -/
theorem passes_object {members : List (Bytes × Value)} (distinct : (members.map Prod.fst).Nodup)
    (each : ∀ member ∈ members, Passes member.2) : Passes (.object members) := by
  intro sax rest few low
  simp only [Value.nodes, Value.height] at few low
  have room : sax.keys.length ≠ 6 := by omega
  have entered : sax.step .startObject = some ⟨sax.nodes + 1, [] :: sax.keys⟩ := by
    rw [CursorSax.step, if_neg room, CursorSax.value_eq (by omega)]
    rfl
  have inside := passes_members distinct each (sax.nodes + 1) [] sax.keys
    (.endObject :: rest) (by simp) (by omega) (by omega)
  rw [Value.events, cons_append, CursorSax.run, foldlM_cons, entered,
    append_assoc, singleton_append]
  refine inside.trans ?_
  simp [CursorSax.run, CursorSax.step, Value.nodes, Nat.add_assoc]

theorem passes_ordered {members : List (Bytes × Value)} (distinct : (members.map Prod.fst).Nodup)
    (each : ∀ member ∈ members, Passes member.2.ordered) :
    Passes (Value.object members).ordered := by
  rcases exists_perm_ordered members with ⟨sorted, isOrdered, perm⟩
  rw [isOrdered]
  apply passes_object
  · rw [(perm.map Prod.fst).nodup_iff, map_map]
    exact distinct
  · intro member mem
    rcases mem_map.mp (perm.mem_iff.mp mem) with ⟨original, isMember, rfl⟩
    exact each original isMember

theorem CursorCodec.readPayload_dump {codec : CursorCodec} {value : Value}
    (valid : value.Valid isUnicode) (passes : Passes value.ordered) (few : value.nodes ≤ 128)
    (low : value.height ≤ 6) (short : value.dump.length ≤ maxCursor)
    (shape : exact value.ordered payloadKeys) :
    codec.readPayload value.ordered.dump = some value.ordered := by
  have orderedValid := valid_ordered valid
  have passed := passes {} []
    (by simpa [nodes_ordered] using few) (by simpa using height_ordered_le low)
  rw [append_nil] at passed
  have accepted : codec.saxParse value.ordered.dump := by
    rw [saxParse, codec.inverse.sax_dump orderedValid, passed]
    rfl
  have written : canonicalJson value.ordered maxCursor = .ok value.ordered.dump := by
    rw [canonicalJson_eq orderedValid (height_ordered_le low)
      (by rw [nodes_ordered]; exact few.trans (by decide))
      (by rw [length_dump_ordered]; exact short), ordered_ordered]
  rw [readPayload, if_pos accepted, codec.inverse.parse_dump orderedValid, ordered_ordered]
  simp [written, shape]

theorem kindName_spec (kind : SurfaceKind) :
    Plain (kindName kind) ∧ (kindName kind).length ≤ 7 := by
  cases kind <;> decide +kernel

theorem kindName_injective : Function.Injective kindName := by
  intro first second same
  cases first <;> cases second <;> first | rfl | (revert same; decide +kernel)

/-- The keys of an object are distinct texts, which are written with some lengths. -/
def Keyed (keys : List Bytes) (lengths : List Nat) : Prop :=
  keys.Nodup ∧ keys.all isUnicode = true ∧ keys.map (fun key => (quoted key).length) = lengths

instance (keys : List Bytes) (lengths : List Nat) : Decidable (Keyed keys lengths) :=
  inferInstanceAs (Decidable (_ ∧ _ ∧ _))

theorem keyed : Keyed payloadKeys [3, 6, 12, 6, 14, 23, 7, 18, 10, 8, 9] ∧
    Keyed [utf8 "application_id", utf8 "panel_id", utf8 "logical_install_order"] [16, 10, 23] ∧
    Keyed [utf8 "auth_type", utf8 "source", utf8 "token_hash"] [11, 8, 12] := by
  decide +kernel

section Payload

variable {auth : AuthContext} {credential : Bytes} {query : CursorQuery} {position : Position}
  {now : Int} {kind : SurfaceKind}

theorem payloadMembers_distinct :
    ((payloadMembers auth credential query position now).map Prod.fst).Nodup :=
  keyed.1.1

theorem positionMembers_distinct : ((positionMembers position).map Prod.fst).Nodup := by
  rcases position with ⟨order, application, panel⟩
  cases order with
  | none =>
    have distinct := keyed.2.1.1.sublist (take_sublist 2 _)
    exact distinct
  | some order => exact keyed.2.1.1

inductive Placed : SurfaceKind → Position → Prop
  | float {order application panel : Bytes} : positiveUint64 order →
      Placed .float ⟨some order, application, panel⟩
  | primary {application panel : Bytes} : Placed .primary ⟨none, application, panel⟩
  | tray {application panel : Bytes} : Placed .tray ⟨none, application, panel⟩

theorem placed (valid : positionValid position kind) : Placed kind position := by
  rcases position with ⟨order, application, panel⟩
  simp only [positionValid, Bool.and_eq_true] at valid
  cases kind with
  | float =>
    cases order with
    | none => simp at valid
    | some order => exact .float (by simpa using valid.1.1)
  | primary | tray =>
    cases order with
    | none => constructor
    | some => simp at valid

theorem exact_positionWire (valid : positionValid position kind) :
    exact (positionWire position).ordered (positionKeys kind) := by
  cases placed valid with
  | float | primary | tray =>
    apply exact_ordered positionMembers_distinct rfl
    simp only [positionKeys, forall_mem_cons, not_mem_nil, false_imp_iff, forall_const, and_true]
    and_intros <;> rfl

theorem member_payload {key : Bytes} {value result : Value}
    (isMember : (payloadMembers auth credential query position now).lookup key = some value)
    (isResult : value.ordered = result) :
    member (payloadValue auth credential query position now).ordered key = result :=
  (member_ordered payloadMembers_distinct isMember).trans isResult

/-- A payload is bound to its caller, query and tag. -/
theorem bound_payload {other : AuthContext} {otherCredential : Bytes} {otherQuery : CursorQuery}
    (valid : positionValid position query.kind) :
    bound (payloadValue auth credential query position now).ordered other otherCredential
      otherQuery ↔
        auth.userId = other.userId ∧ credential = otherCredential ∧ query = otherQuery := by
  have members : ∀ {key : Bytes} {value result : Value},
      (payloadMembers auth credential query position now).lookup key = some value →
        value.ordered = result →
          member (payloadValue auth credential query position now).ordered key = result :=
    member_payload
  generalize (payloadValue auth credential query position now).ordered = payload at members ⊢
  have v : member payload (utf8 "v") = .integer 1 := members rfl rfl
  have user : member payload (utf8 "user") = .string auth.userId := members rfl rfl
  have tag : member payload (utf8 "credential") = .string credential := members rfl rfl
  have kind : member payload (utf8 "kind") = .string (kindName query.kind) := members rfl rfl
  have contentType : member payload (utf8 "content_type") =
      (contentTypeWire query.contentType).ordered := members rfl rfl
  have admin : member payload (utf8 "include_admin_default") = .bool query.includeAdminDefault :=
    members rfl rfl
  have limit : member payload (utf8 "limit") = .integer query.limit := members rfl rfl
  have profile : member payload (utf8 "platform_profile") = .string query.platformProfile :=
    members rfl rfl
  have place : member payload (utf8 "position") = (positionWire position).ordered :=
    members rfl rfl
  have sameType : sameContentType (contentTypeWire query.contentType).ordered
      otherQuery.contentType ↔ query.contentType = otherQuery.contentType := by
    cases query.contentType <;> cases otherQuery.contentType <;>
      simp [sameContentType, contentTypeWire, Value.ordered, text?, isNull]
  rw [bound, v, user, tag, kind, contentType, admin, limit, profile, place]
  simp only [integer?, text?, bool?, Bool.and_eq_true, decide_eq_true_eq, Option.some.injEq,
    sameType, kindName_injective.eq_iff, Nat.cast_inj, true_and]
  constructor
  · rintro ⟨⟨⟨⟨⟨⟨⟨sameUser, sameTag⟩, sameKind⟩, sameContent⟩, sameAdmin⟩, sameLimit⟩,
      sameProfile⟩, -⟩
    refine ⟨sameUser, sameTag, ?_⟩
    cases query
    cases otherQuery
    simp_all
  · rintro ⟨sameUser, sameTag, rfl⟩
    exact ⟨⟨⟨⟨⟨⟨⟨sameUser, sameTag⟩, rfl⟩, rfl⟩, rfl⟩, rfl⟩, rfl⟩, exact_positionWire valid⟩

/-- A cursor is current for sixty seconds. -/
theorem current_payload {present : Int} (nonnegative : 0 ≤ now) (early : now ≤ int64Max - 60) :
    current (payloadValue auth credential query position now).ordered present ↔
      now ≤ present ∧ present < now + 60 := by
  have issued : member (payloadValue auth credential query position now).ordered
      (utf8 "issued") = .integer now := member_payload rfl rfl
  have expires : member (payloadValue auth credential query position now).ordered
      (utf8 "expires") = .integer (now + 60) := member_payload rfl rfl
  have issuedRead : unsignedSeconds (.integer now) = some now :=
    if_pos (by simp; omega)
  have expiresRead : unsignedSeconds (.integer (now + 60)) = some (now + 60) :=
    if_pos (by simp; omega)
  simp [current, issued, expires, issuedRead, expiresRead, early]

theorem readPosition_positionWire (valid : positionValid position kind) :
    readPosition (positionWire position).ordered kind = some position := by
  have members : ∀ (key : Bytes) {text : Bytes} {value : Value},
      (positionMembers position).lookup key = some value → value.ordered = .string text →
        text? (member (positionWire position).ordered key) = some text := by
    intro key text value isMember isText
    rw [positionWire, member_ordered positionMembers_distinct isMember, isText]
    rfl
  have isApplication := members (utf8 "application_id") rfl rfl
  have isPanel := members (utf8 "panel_id") rfl rfl
  cases placed valid with
  | float =>
    have isOrder := members (utf8 "logical_install_order") rfl rfl
    rw [readPosition, readOrder, isOrder, isApplication, isPanel]
    rfl
  | primary | tray =>
    rw [readPosition, readOrder, isApplication, isPanel]
    rfl

/-- A value that is written within a length. -/
def Fits (value : Value) (limit : Nat) : Prop :=
  value.Valid isUnicode ∧ value.dump.length ≤ limit

theorem fits_string {text : Bytes} {limit : Nat} (plain : Plain text ∧ text.length ≤ limit) :
    Fits (.string text) (limit + 2) :=
  ⟨plain.1.isUnicode, by rw [plain.1.length_dump]; omega⟩

/-- A number of 64 bits takes at most nineteen digits. -/
theorem fits_integer {value : Int} (nonnegative : 0 ≤ value) (small : value ≤ int64Max) :
    Fits (.integer value) 19 := by
  have limit : int64Max < 10 ^ 19 := by decide
  refine ⟨?_, ?_⟩
  · simp only [int64Max] at small
    exact ⟨by omega, by omega⟩
  · rw [Value.dump, integerText, if_neg (by omega)]
    exact length_decimal_le (by decide) (by omega)

/-- The keys of an object are written with their lengths, and two bytes more for each. -/
theorem fits_object {members : List (Bytes × Value)} {lengths limits : List Nat} {limit : Nat}
    (keys : Keyed (members.map Prod.fst) lengths)
    (each : Forall₂ (fun member limit => Fits member.2 limit) members limits)
    (enough : lengths.sum + limits.sum + 2 * lengths.length + 2 ≤ limit) :
    Fits (.object members) limit := by
  rcases keys with ⟨distinct, unicode, isLengths⟩
  have count : lengths.length = members.length := by simpa using (congrArg length isLengths).symm
  have inside : MembersValid isUnicode members ∧
      (members.map memberLength).sum ≤ lengths.sum + limits.sum + members.length := by
    clear distinct enough count
    induction each generalizing lengths with
    | nil => exact ⟨trivial, Nat.zero_le _⟩
    | @cons member limit members limits fits _ ih =>
      cases lengths with
      | nil => simp at isLengths
      | cons length lengths =>
        simp only [map_cons, all_cons, Bool.and_eq_true, cons.injEq] at unicode isLengths
        rcases ih unicode.2 isLengths.2 with ⟨valid, short⟩
        refine ⟨⟨⟨unicode.1, fits.1⟩, valid⟩, ?_⟩
        have := fits.2
        simp only [map_cons, sum_cons, length_cons, memberLength, isLengths.1]
        omega
  refine ⟨⟨distinct, inside.1⟩, ?_⟩
  rw [length_object]
  omega

theorem sourceName_plain (source : Rbac.CredentialSource) :
    Plain (sourceName source) ∧ (sourceName source).length ≤ 6 := by
  cases source <;> decide +kernel

theorem authTypeName_plain (authType : Rbac.AuthType) :
    Plain (authTypeName authType) ∧ (authTypeName authType).length ≤ 7 := by
  cases authType <;> decide +kernel

theorem credentialMembers_distinct : ((credentialMembers auth).map Prod.fst).Nodup :=
  keyed.2.2.1

theorem credentialValue_fits (valid : authValid auth) : Fits (credentialValue auth) 256 := by
  simp only [authValid, Bool.and_eq_true] at valid
  have hash := plain_of_digest valid.1.2
  exact fits_object keyed.2.2 (.cons (fits_string (authTypeName_plain auth.authType))
    (.cons (fits_string (sourceName_plain auth.credentialSource))
      (.cons (fits_string ⟨hash.1, hash.2.le⟩) .nil))) (by decide)

theorem positionWire_fits (valid : positionValid position kind) :
    Fits (positionWire position) 211 := by
  have isPlaced := placed valid
  rcases position with ⟨order, application, panel⟩
  simp only [positionValid, Bool.and_eq_true] at valid
  have isApplication := fits_string (plain_of_identifier valid.1.2)
  have isPanel := fits_string (plain_of_identifier valid.2)
  cases isPlaced with
  | primary | tray =>
    have keys : Keyed [utf8 "application_id", utf8 "panel_id"] [16, 10] := by decide +kernel
    exact fits_object keys (.cons isApplication (.cons isPanel .nil)) (by decide)
  | float isOrder =>
    exact fits_object keyed.2.1 (.cons isApplication (.cons isPanel
      (.cons (fits_string (plain_of_positiveUint64 isOrder)) .nil))) (by decide)

theorem contentTypeWire_fits {contentType : Option Bytes}
    (valid : contentType.all isCanonicalContentType) : Fits (contentTypeWire contentType) 130 := by
  cases contentType with
  | none => exact ⟨trivial, by decide⟩
  | some contentType => exact fits_string (plain_of_isCanonicalContentType valid)

structure Encodable (auth : AuthContext) (query : CursorQuery) (position : Position)
    (now : Int) : Prop where
  isAuth : authValid auth = true
  isQuery : queryValid query = true
  isPosition : positionValid position query.kind = true
  nonnegative : 0 ≤ now
  early : now ≤ int64Max - 60

theorem payloadValue_fits (encodable : Encodable auth query position now)
    (tag : Plain credential ∧ credential.length ≤ 43) :
    Fits (payloadValue auth credential query position now) 1000 := by
  rcases encodable with ⟨isAuth, isQuery, isPosition, nonnegative, early⟩
  simp only [authValid, Bool.and_eq_true] at isAuth
  simp only [queryValid, Bool.and_eq_true, decide_eq_true_eq] at isQuery
  rcases isQuery with ⟨⟨⟨⟨⟨atLeast, atMost⟩, isProfile⟩, _⟩, isContentType⟩, _⟩
  have user := plain_of_uuid isAuth.1.1
  have profile := plain_of_profile isProfile
  have flag : Fits (.bool query.includeAdminDefault) 5 :=
    ⟨trivial, by cases query.includeAdminDefault <;> decide⟩
  have limit : Fits (.integer query.limit) 19 :=
    fits_integer (by omega) (by simp only [int64Max]; omega)
  exact fits_object keyed.1 (.cons (fits_integer (by decide) (by decide))
    (.cons (fits_string ⟨user.1, user.2.le⟩) (.cons (fits_string tag)
    (.cons (fits_string (kindName_spec query.kind)) (.cons (contentTypeWire_fits isContentType)
    (.cons flag (.cons limit (.cons (fits_string ⟨profile.1, profile.2.le⟩)
    (.cons (positionWire_fits isPosition) (.cons (fits_integer nonnegative (by omega))
    (.cons (fits_integer (by omega) (by omega)) .nil))))))))))) (by decide)

theorem contentTypeWire_shape (contentType : Option Bytes) :
    Passes (contentTypeWire contentType).ordered ∧ (contentTypeWire contentType).nodes = 1 ∧
      (contentTypeWire contentType).height = 1 := by
  cases contentType <;> exact ⟨passes_scalar rfl (fun _ => rfl) rfl, rfl, rfl⟩

theorem positionWire_shape (position : Position) :
    Passes (positionWire position).ordered ∧ (positionWire position).nodes ≤ 4 ∧
      (positionWire position).height = 2 := by
  refine ⟨passes_ordered positionMembers_distinct ?_, ?_⟩
  · rcases position with ⟨_ | _, _, _⟩
    all_goals
      simp only [positionMembers, forall_mem_cons, not_mem_nil, false_imp_iff, implies_true]
      and_intros <;> first | exact passes_scalar rfl (fun _ => rfl) rfl | trivial
  · rcases position with ⟨_ | _, _, _⟩
    · exact ⟨Nat.le_succ 3, rfl⟩
    · exact ⟨Nat.le_refl 4, rfl⟩

theorem payloadValue_shape (auth : AuthContext) (credential : Bytes) (query : CursorQuery)
    (position : Position) (now : Int) :
    Passes (payloadValue auth credential query position now).ordered ∧
      (payloadValue auth credential query position now).nodes ≤ 16 ∧
        (payloadValue auth credential query position now).height ≤ 3 ∧
          exact (payloadValue auth credential query position now).ordered payloadKeys := by
  rcases contentTypeWire_shape query.contentType with ⟨contentPasses, contentNodes, contentHeight⟩
  rcases positionWire_shape position with ⟨positionPasses, positionNodes, positionHeight⟩
  refine ⟨passes_ordered payloadMembers_distinct ?_, ?_, ?_, ?_⟩
  · simp only [payloadMembers, forall_mem_cons, not_mem_nil, false_imp_iff, implies_true]
    and_intros <;> first
      | exact contentPasses
      | exact positionPasses
      | exact passes_scalar rfl (fun _ => rfl) rfl
      | trivial
  · simp only [payloadValue, payloadMembers, Value.nodes, membersNodes, contentNodes]
    omega
  · simp only [payloadValue, payloadMembers, Value.height, membersHeight, contentHeight,
      positionHeight]
    omega
  · apply exact_ordered payloadMembers_distinct rfl
    intro key mem
    simp only [payloadKeys, mem_cons, not_mem_nil, or_false] at mem
    rcases mem with rfl | rfl | rfl | rfl | rfl | rfl | rfl | rfl | rfl | rfl | rfl
    all_goals rfl

end Payload

def credentialText (auth : AuthContext) : Bytes := (credentialValue auth).ordered.dump

namespace CursorCodec

def credentialTag (codec : CursorCodec) (auth : AuthContext) : Bytes :=
  b64 (codec.hmac credentialDomain (credentialText auth))

def payloadText (codec : CursorCodec) (auth : AuthContext) (query : CursorQuery)
    (position : Position) (now : Int) : Bytes :=
  (payloadValue auth (codec.credentialTag auth) query position now).ordered.dump

def signed (codec : CursorCodec) (bytes : Bytes) : Bytes :=
  b64 bytes ++ dot :: b64 (codec.hmac cursorDomain bytes)

variable {codec : CursorCodec} {auth : AuthContext} {query : CursorQuery} {position : Position}
  {now : Int}

theorem fingerprint_eq (valid : authValid auth) :
    codec.fingerprint auth = .ok (codec.credentialTag auth) := by
  rcases credentialValue_fits valid with ⟨isValid, short⟩
  have written : canonicalJson (credentialValue auth) 256 = .ok (credentialText auth) :=
    canonicalJson_eq isValid (Nat.le_of_ble_eq_true rfl) (Nat.le_of_ble_eq_true rfl) short
  rw [fingerprint, written]
  rfl

theorem credentialTag_plain (codec : CursorCodec) (auth : AuthContext) :
    Plain (codec.credentialTag auth) ∧ (codec.credentialTag auth).length ≤ 43 := by
  refine ⟨plain_b64 _, ?_⟩
  rw [credentialTag, b64, Base64.length_encode, length_hmac]

theorem payloadText_size (encodable : Encodable auth query position now) :
    codec.payloadText auth query position now ≠ [] ∧
      (codec.payloadText auth query position now).length ≤ 1000 := by
  have small := (payloadValue_fits encodable (codec.credentialTag_plain auth)).2
  have length : (codec.payloadText auth query position now).length =
      (payloadValue auth (codec.credentialTag auth) query position now).dump.length :=
    length_dump_ordered _
  rw [← length_pos_iff, length]
  exact ⟨by simp only [payloadValue, length_object]; omega, small⟩

theorem length_signed (bytes : Bytes) :
    (codec.signed bytes).length = (bytes.length * 4 + 2) / 3 + 44 := by
  simp only [signed, b64, length_append, length_cons, Base64.length_encode, length_hmac]

theorem signed_fits (encodable : Encodable auth query position now) :
    ¬maxCursor < (codec.signed (codec.payloadText auth query position now)).length := by
  rcases codec.payloadText_size encodable with ⟨-, textShort⟩
  rw [codec.length_signed, maxCursor]
  omega

/-- What is encodable is encoded. -/
theorem encode_eq (encodable : Encodable auth query position now) :
    codec.encode auth query position now =
      .ok (codec.signed (codec.payloadText auth query position now)) := by
  rcases payloadValue_fits encodable (codec.credentialTag_plain auth) with ⟨valid, small⟩
  rcases payloadValue_shape auth (codec.credentialTag auth) query position now with
    ⟨-, few, low, -⟩
  have allowed : ¬(!authValid auth || !queryValid query || !positionValid position query.kind ||
      now < 0 || int64Max - 60 < now) := by
    simp [encodable.isAuth, encodable.isQuery, encodable.isPosition, encodable.nonnegative,
      encodable.early]
  have written : canonicalJson (payloadValue auth (codec.credentialTag auth) query position now)
      maxCursor = .ok (codec.payloadText auth query position now) :=
    canonicalJson_eq valid (low.trans (by decide)) (few.trans (by decide)) (small.trans (by decide))
  rw [encode, if_neg allowed, codec.fingerprint_eq encodable.isAuth]
  simp only [written]
  exact if_neg (codec.signed_fits encodable)

theorem encodable_of_encode {raw : Bytes}
    (encoded : codec.encode auth query position now = .ok raw) :
    Encodable auth query position now := by
  rw [encode] at encoded
  split at encoded
  · cases encoded
  case isFalse allowed =>
  simp only [Bool.or_eq_true, Bool.not_eq_eq_eq_not, Bool.not_true, decide_eq_true_eq, not_or,
    Bool.not_eq_false, not_lt] at allowed
  rcases allowed with ⟨⟨⟨⟨isAuth, isQuery⟩, isPosition⟩, nonnegative⟩, early⟩
  exact ⟨isAuth, isQuery, isPosition, nonnegative, early⟩

section

variable (encodable : Encodable auth query position now)
include encodable

theorem signedBytes_signed :
    codec.signedBytes (codec.signed (codec.payloadText auth query position now)) =
      some (codec.payloadText auth query position now) := by
  rcases codec.payloadText_size encodable with ⟨nonempty, textShort⟩
  have encodedShort : (b64 (codec.payloadText auth query position now)).length ≤ maxCursor := by
    rw [b64, Base64.length_encode, maxCursor]
    omega
  exact codec.signedBytes_append nonempty encodedShort

theorem payload_signed :
    codec.payload (codec.signed (codec.payloadText auth query position now)) =
      some (payloadValue auth (codec.credentialTag auth) query position now).ordered := by
  rcases payloadValue_fits encodable (codec.credentialTag_plain auth) with ⟨valid, small⟩
  rcases payloadValue_shape auth (codec.credentialTag auth) query position now with
    ⟨passes, few, low, shape⟩
  rw [payload, codec.signedBytes_signed encodable]
  exact codec.readPayload_dump valid passes (few.trans (by decide)) (low.trans (by decide))
    (small.trans (by decide)) shape

/-- The decoder takes a signed cursor for its caller and query in time. -/
theorem decode_signed {other : AuthContext} {otherQuery : CursorQuery} {present : Int} :
    codec.decode (codec.signed (codec.payloadText auth query position now)) other otherQuery
      present =
        if authValid other ∧ auth.userId = other.userId ∧
            codec.credentialTag auth = codec.credentialTag other ∧ query = otherQuery ∧
              now ≤ present ∧ present < now + 60 then .ok position
        else .error .invalid := by
  have place : member (payloadValue auth (codec.credentialTag auth) query position now).ordered
      (utf8 "position") = (positionWire position).ordered := member_payload rfl rfl
  have accepts : (bound (payloadValue auth (codec.credentialTag auth) query position now).ordered
        other (codec.credentialTag other) otherQuery &&
      current (payloadValue auth (codec.credentialTag auth) query position now).ordered present) =
        true ↔ (auth.userId = other.userId ∧ codec.credentialTag auth = codec.credentialTag other ∧
          query = otherQuery) ∧ now ≤ present ∧ present < now + 60 := by
    rw [Bool.and_eq_true, bound_payload encodable.isPosition,
      current_payload encodable.nonnegative encodable.early]
  rw [decode, if_neg (codec.signed_fits encodable), codec.payload_signed encodable]
  by_cases matching : authValid other ∧ auth.userId = other.userId ∧
      codec.credentialTag auth = codec.credentialTag other ∧ query = otherQuery ∧
        now ≤ present ∧ present < now + 60
  · rw [if_pos matching]
    rcases matching with ⟨isAuth, sameUser, sameTag, rfl, times⟩
    have allowed : ¬(!authValid other || !queryValid query || present < 0) := by
      have : 0 ≤ present := encodable.nonnegative.trans times.1
      simp [isAuth, encodable.isQuery, this]
    rw [if_neg allowed]
    simp [codec.fingerprint_eq isAuth, accepts.mpr ⟨⟨sameUser, sameTag, rfl⟩, times⟩, place,
      readPosition_positionWire encodable.isPosition, encodable.isPosition]
  · rw [if_neg matching]
    split
    · rfl
    case isFalse allowed =>
    have isAuth : authValid other := by
      simp only [Bool.or_eq_true, Bool.not_eq_eq_eq_not, Bool.not_true, not_or,
        Bool.not_eq_false] at allowed
      exact allowed.1.1
    simp only [codec.fingerprint_eq isAuth]
    refine if_neg fun accepted => ?_
    rcases accepts.mp accepted with ⟨⟨sameUser, sameTag, sameQuery⟩, times⟩
    exact matching ⟨isAuth, sameUser, sameTag, sameQuery, times⟩

end

theorem canonical_of_readPayload {bytes : Bytes} {payload : Value}
    (isPayload : codec.readPayload bytes = some payload) :
    canonicalJson payload maxCursor = .ok bytes := by
  rw [readPayload] at isPayload
  split at isPayload
  · split at isPayload
    · cases isPayload
    · split at isPayload
      case h_1 canonical isCanonical =>
        split at isPayload
        case isTrue accepted =>
          simp only [Bool.and_eq_true, decide_eq_true_eq] at accepted
          cases isPayload
          rw [isCanonical, accepted.1]
        case isFalse => cases isPayload
      · cases isPayload
  · cases isPayload

theorem signedBytes_of_decode {raw : Bytes}
    (accepted : codec.decode raw auth query now = .ok position) :
    authValid auth ∧ ∃ bytes payload, codec.signedBytes raw = some bytes ∧
      codec.readPayload bytes = some payload ∧ codec.payload raw = some payload := by
  rw [decode] at accepted
  split at accepted
  · cases accepted
  split at accepted
  · cases accepted
  case isFalse allowed =>
  split at accepted
  · cases accepted
  case h_2 payload isPayload =>
  have isAuth : authValid auth := by
    simp only [Bool.or_eq_true, Bool.not_eq_eq_eq_not, Bool.not_true, not_or,
      Bool.not_eq_false] at allowed
    exact allowed.1.1
  have parts := isPayload
  rw [CursorCodec.payload, Option.bind_eq_some_iff] at parts
  rcases parts with ⟨bytes, isSigned, isRead⟩
  exact ⟨isAuth, bytes, payload, isSigned, isRead, isPayload⟩

end CursorCodec

structure Issue where
  auth : AuthContext
  query : CursorQuery
  position : Position
  now : Int

def CursorCodec.encodeIssue (codec : CursorCodec) (issue : Issue) : Except ProtocolError Bytes :=
  codec.encode issue.auth issue.query issue.position issue.now

/-- What a process has done under its secret: the cursors that it issued and the callers that it
identified. -/
structure History (codec : CursorCodec) where
  issues : List Issue
  callers : List AuthContext
  issued : ∀ issue ∈ issues, ∃ raw, codec.encodeIssue issue = .ok raw
  identified : ∀ issue ∈ issues, issue.auth ∈ callers

/-- The messages that the process computed a tag of and gave the tag away. -/
def History.Tagged {codec : CursorCodec} (history : History codec) (text : Bytes) : Prop :=
  (∃ caller ∈ history.callers, text = message credentialDomain (credentialText caller)) ∨
    ∃ issue ∈ history.issues, text = message cursorDomain
      (codec.payloadText issue.auth issue.query issue.position issue.now)

/-- The message that the tag of a presented cursor is for. -/
def CursorCodec.Presented (codec : CursorCodec) (raw text : Bytes) : Prop :=
  ∃ bytes, codec.signedBytes raw = some bytes ∧ text = message cursorDomain bytes

/-- A tag that verifies is one that the process gave away. -/
def History.Unforged {codec : CursorCodec} (history : History codec) (raw : Bytes) : Prop :=
  ∀ text, codec.Presented raw text → ∃ tagged, history.Tagged tagged ∧
    codec.sign tagged = codec.sign text

/-- Tags tell the messages that occur apart. -/
def History.CollisionFree {codec : CursorCodec} (history : History codec) (raw : Bytes) : Prop :=
  Set.InjOn codec.sign {text | history.Tagged text ∨ codec.Presented raw text}

theorem message_injective {domain first second : Bytes}
    (same : message domain first = message domain second) : first = second := by
  have rest := append_cancel_left same
  exact (List.cons.inj rest).2

theorem message_domains (first second : Bytes) :
    message credentialDomain first ≠ message cursorDomain second := by
  intro same
  have byte := congrArg (fun text => text[16]?) same
  have inCredential : (message credentialDomain first)[16]? = credentialDomain[16]? :=
    getElem?_append_left (by decide +kernel)
  have inCursor : (message cursorDomain second)[16]? = cursorDomain[16]? :=
    getElem?_append_left (by decide +kernel)
  have differ : credentialDomain[16]? ≠ cursorDomain[16]? := by decide +kernel
  simp only [inCredential, inCursor] at byte
  exact differ byte

theorem authTypeName_injective : Function.Injective authTypeName := by
  intro first second same
  cases first <;> cases second <;> first | rfl | (revert same; decide +kernel)

variable {first second : AuthContext}

theorem source_eq (firstValid : authValid first) (secondValid : authValid second)
    (same : sourceName first.credentialSource = sourceName second.credentialSource) :
    first.credentialSource = second.credentialSource := by
  have known : ∀ {auth : AuthContext}, authValid auth → auth.credentialSource ≠ .unknown := by
    intro auth valid isUnknown
    simp only [authValid, isUnknown, Bool.and_eq_true] at valid
    cases isType : auth.authType <;> simp [isType] at valid
  have firstKnown := known firstValid
  have secondKnown := known secondValid
  cases isFirst : first.credentialSource <;> cases isSecond : second.credentialSource
  all_goals first
    | rfl
    | exact absurd isFirst firstKnown
    | exact absurd isSecond secondKnown
    | (rw [isFirst, isSecond] at same; revert same; decide +kernel)

section Binding

variable {codec : CursorCodec} {history : History codec} {raw : Bytes}

theorem CursorCodec.eq_of_credentialText (codec : CursorCodec)
    (firstValid : authValid first) (secondValid : authValid second)
    (same : credentialText first = credentialText second)
    (sameUser : first.userId = second.userId) : first = second := by
  have reads : ∀ {auth : AuthContext}, authValid auth →
      codec.json.parse (credentialText auth) = some (credentialValue auth).ordered := by
    intro auth valid
    rw [credentialText, codec.inverse.parse_dump (valid_ordered (credentialValue_fits valid).1),
      ordered_ordered]
  have values : (credentialValue first).ordered = (credentialValue second).ordered := by
    have read := reads firstValid
    rw [same, reads secondValid] at read
    exact (Option.some.inj read).symm
  have members : ∀ (key : Bytes) {firstText secondText : Bytes},
      (credentialMembers first).lookup key = some (.string firstText) →
        (credentialMembers second).lookup key = some (.string secondText) →
          firstText = secondText := by
    intro key firstText secondText inFirst inSecond
    have read := member_ordered credentialMembers_distinct inFirst
    rw [← credentialValue, values, credentialValue,
      member_ordered credentialMembers_distinct inSecond] at read
    exact (Value.string.inj read).symm
  have sameType : first.authType = second.authType :=
    authTypeName_injective (members (utf8 "auth_type") rfl rfl)
  have sameSource : first.credentialSource = second.credentialSource :=
    source_eq firstValid secondValid (members (utf8 "source") rfl rfl)
  have sameHash : first.tokenHash = second.tokenHash := members (utf8 "token_hash") rfl rfl
  cases first
  cases second
  simp_all only

/-- A cursor that passes was issued. -/
theorem History.issue_of_signedBytes {bytes : Bytes} (unforged : history.Unforged raw)
    (free : history.CollisionFree raw) (isSigned : codec.signedBytes raw = some bytes) :
    ∃ issue ∈ history.issues,
      bytes = codec.payloadText issue.auth issue.query issue.position issue.now := by
  have presented : codec.Presented raw (message cursorDomain bytes) := ⟨bytes, isSigned, rfl⟩
  rcases unforged _ presented with ⟨tagged, isTagged, sameTag⟩
  have same : tagged = message cursorDomain bytes :=
    free (Or.inl isTagged) (Or.inr presented) sameTag
  rcases isTagged with ⟨caller, -, isCredential⟩ | ⟨issue, mem, isPayload⟩
  · exact absurd (isCredential.symm.trans same) (message_domains _ _)
  · exact ⟨issue, mem, message_injective (same.symm.trans isPayload)⟩

/-- Callers of one user and tag are one caller. -/
theorem History.caller_eq (free : history.CollisionFree raw)
    (firstCaller : first ∈ history.callers) (secondCaller : second ∈ history.callers)
    (firstValid : authValid first) (secondValid : authValid second)
    (sameUser : first.userId = second.userId)
    (sameTag : codec.credentialTag first = codec.credentialTag second) : first = second := by
  have signs : codec.hmac credentialDomain (credentialText first) =
      codec.hmac credentialDomain (credentialText second) := b64_injective sameTag
  have messages : message credentialDomain (credentialText first) =
      message credentialDomain (credentialText second) :=
    free (Or.inl (Or.inl ⟨first, firstCaller, rfl⟩)) (Or.inl (Or.inl ⟨second, secondCaller, rfl⟩))
      signs
  exact codec.eq_of_credentialText firstValid secondValid (message_injective messages) sameUser

theorem History.issue_of_decode {auth : AuthContext} {query : CursorQuery} {position : Position}
    {present : Int} (unforged : history.Unforged raw) (free : history.CollisionFree raw)
    (isCaller : auth ∈ history.callers)
    (accepted : codec.decode raw auth query present = .ok position) :
    ∃ issue ∈ history.issues, codec.encodeIssue issue = .ok raw ∧ issue.auth = auth ∧
      issue.query = query ∧ issue.position = position ∧ issue.now ≤ present ∧
        present < issue.now + 60 := by
  rcases codec.signedBytes_of_decode accepted with ⟨isAuth, bytes, -, isSigned, -, -⟩
  rcases history.issue_of_signedBytes unforged free isSigned with ⟨issue, mem, rfl⟩
  rcases history.issued issue mem with ⟨issued, isIssued⟩
  have encodable := codec.encodable_of_encode isIssued
  have isRaw : raw = codec.signed
      (codec.payloadText issue.auth issue.query issue.position issue.now) :=
    codec.eq_of_signedBytes isSigned
  rw [isRaw, codec.decode_signed encodable] at accepted
  split at accepted
  case isFalse => cases accepted
  case isTrue matching =>
  rcases matching with ⟨-, sameUser, sameTag, sameQuery, times⟩
  have sameAuth : issue.auth = auth :=
    history.caller_eq free (history.identified issue mem) isCaller encodable.isAuth isAuth
      sameUser sameTag
  have encoded : codec.encodeIssue issue = .ok raw := by
    rw [CursorCodec.encodeIssue, codec.encode_eq encodable, isRaw]
  exact ⟨issue, mem, encoded, sameAuth, sameQuery, Except.ok.inj accepted, times⟩

/-- Two cursors of one payload are one text. -/
theorem CursorCodec.eq_of_payload {first second : Bytes} {payload : Value}
    (inFirst : codec.payload first = some payload)
    (inSecond : codec.payload second = some payload) : first = second := by
  have written : ∀ {raw : Bytes}, codec.payload raw = some payload →
      ∃ bytes, canonicalJson payload maxCursor = .ok bytes ∧ raw = codec.signed bytes := by
    intro raw isPayload
    rw [CursorCodec.payload, Option.bind_eq_some_iff] at isPayload
    rcases isPayload with ⟨bytes, isSigned, isRead⟩
    exact ⟨bytes, codec.canonical_of_readPayload isRead, codec.eq_of_signedBytes isSigned⟩
  rcases written inFirst with ⟨firstBytes, firstText, rfl⟩
  rcases written inSecond with ⟨secondBytes, secondText, rfl⟩
  rw [firstText] at secondText
  rw [Except.ok.inj secondText]

/-- The codec of surface cursors: an issued cursor is good for its caller and query for a minute,
an accepted cursor was issued for its caller and query, and a payload has one cursor. -/
theorem CursorCodec.cursors_bound (codec : CursorCodec) :
    (∀ {auth query position now}, Encodable auth query position now →
      ∃ raw, codec.encode auth query position now = .ok raw ∧
        ∀ present, codec.decode raw auth query present =
          if now ≤ present ∧ present < now + 60 then .ok position else .error .invalid) ∧
    (∀ (history : History codec) {raw auth query present position},
      history.Unforged raw → history.CollisionFree raw → auth ∈ history.callers →
        codec.decode raw auth query present = .ok position →
          ∃ issue ∈ history.issues, codec.encodeIssue issue = .ok raw ∧ issue.auth = auth ∧
            issue.query = query ∧ issue.position = position ∧ issue.now ≤ present ∧
              present < issue.now + 60) ∧
    ∀ {first second firstAuth secondAuth firstQuery secondQuery firstTime secondTime firstPosition
        secondPosition},
      codec.decode first firstAuth firstQuery firstTime = .ok firstPosition →
        codec.decode second secondAuth secondQuery secondTime = .ok secondPosition →
          codec.payload first = codec.payload second → first = second := by
  refine ⟨?_, ?_, ?_⟩
  · intro auth query position now encodable
    refine ⟨_, codec.encode_eq encodable, ?_⟩
    intro present
    rw [codec.decode_signed encodable]
    simp [encodable.isAuth]
  · intro history raw auth query present position unforged free isCaller accepted
    exact history.issue_of_decode unforged free isCaller accepted
  · intro first second _ _ _ _ _ _ _ _ firstAccepted secondAccepted same
    rcases codec.signedBytes_of_decode firstAccepted with ⟨-, -, payload, -, -, inFirst⟩
    exact codec.eq_of_payload inFirst (same ▸ inFirst)

end Binding

def polynomialTag (text : Bytes) : Bytes :=
  let value := text.foldl (fun total byte => (total * 16777619 + byte.toNat + 1) % 2 ^ 256) 1
  (List.range 32).map fun place => UInt8.ofNat (value / 256 ^ place)

def polynomialCodec : CursorCodec where
  json := compact
  inverse := compact_inverse isUnicode
  sign := polynomialTag
  tagLength := fun _ => by simp [polynomialTag]

def sessionIssue : Issue where
  auth := {
    userId := utf8 "3f0c6d1e-8a55-4c1d-9b1e-7f2a90c4d511"
    authType := .session
    tokenHash := utf8 "9f86d081884c7d659a2feaa0c55ad015a3bf4f1b2b0b822cd15d6c15b0f00a08"
    credentialSource := .cookie }
  query := {
    contentType := some (utf8 "text/plain")
    limit := 20
    includeAdminDefault := true
    platformProfile := utf8 "v1:3f0c6d1e-8a55-4c1d-9b1e-7f2a90c4d511:" ++
      utf8 "60303ae22b998861bce3b28f33eec1be758a213c86c93c076dbe9f558c11c752"
    kind := .float }
  position := {
    logicalInstallOrder := some (utf8 "7")
    applicationId := utf8 "notes"
    panelId := utf8 "editor" }
  now := 1700000000

theorem sessionIssue_encodable : Encodable sessionIssue.auth sessionIssue.query
    sessionIssue.position sessionIssue.now where
  isAuth := by decide +kernel
  isQuery := by decide +kernel
  isPosition := by decide +kernel
  nonnegative := by decide
  early := by decide

def sessionText : Bytes :=
  polynomialCodec.payloadText sessionIssue.auth sessionIssue.query sessionIssue.position
    sessionIssue.now

def sessionHistory : History polynomialCodec where
  issues := [sessionIssue]
  callers := [sessionIssue.auth]
  issued := by
    intro issue mem
    rw [mem_singleton.mp mem]
    exact ⟨_, polynomialCodec.encode_eq sessionIssue_encodable⟩
  identified := by
    intro issue mem
    rw [mem_singleton.mp mem]
    exact mem_singleton_self _

theorem sessionText_presented :
    polynomialCodec.signedBytes (polynomialCodec.signed sessionText) = some sessionText :=
  polynomialCodec.signedBytes_signed sessionIssue_encodable

theorem sessionHistory_tagged {text : Bytes} (tagged : sessionHistory.Tagged text ∨
    polynomialCodec.Presented (polynomialCodec.signed sessionText) text) :
    text = message credentialDomain (credentialText sessionIssue.auth) ∨
      text = message cursorDomain sessionText := by
  rcases tagged with (⟨caller, mem, rfl⟩ | ⟨issue, mem, rfl⟩) | ⟨bytes, isSigned, rfl⟩
  · rw [mem_singleton.mp mem]
    exact Or.inl rfl
  · rw [mem_singleton.mp mem]
    exact Or.inr rfl
  · rw [sessionText_presented] at isSigned
    cases isSigned
    exact Or.inr rfl

theorem sessionHistory_unforged : sessionHistory.Unforged (polynomialCodec.signed sessionText) := by
  intro text presented
  rcases presented with ⟨bytes, isSigned, rfl⟩
  rw [sessionText_presented] at isSigned
  cases isSigned
  exact ⟨_, Or.inr ⟨sessionIssue, mem_singleton_self _, rfl⟩, rfl⟩

theorem sessionHistory_collisionFree :
    sessionHistory.CollisionFree (polynomialCodec.signed sessionText) := by
  have differ : polynomialCodec.sign (message credentialDomain (credentialText sessionIssue.auth)) ≠
      polynomialCodec.sign (message cursorDomain sessionText) := by
    decide +kernel
  intro first inFirst second inSecond same
  rcases sessionHistory_tagged inFirst with rfl | rfl
  · rcases sessionHistory_tagged inSecond with rfl | rfl
    · rfl
    · exact absurd same differ
  · rcases sessionHistory_tagged inSecond with rfl | rfl
    · exact absurd same.symm differ
    · rfl

/-- The cursor of the session is good to its last second, and is the one that was issued. -/
theorem sessionHistory_bound :
    polynomialCodec.decode (polynomialCodec.signed sessionText) sessionIssue.auth
        sessionIssue.query 1700000059 = .ok sessionIssue.position ∧
      ∃ issue ∈ sessionHistory.issues, polynomialCodec.encodeIssue issue =
          .ok (polynomialCodec.signed sessionText) ∧ issue.auth = sessionIssue.auth ∧
        issue.query = sessionIssue.query ∧ issue.position = sessionIssue.position ∧
          issue.now ≤ 1700000059 ∧ 1700000059 < issue.now + 60 := by
  have accepted : polynomialCodec.decode (polynomialCodec.signed sessionText) sessionIssue.auth
      sessionIssue.query 1700000059 = .ok sessionIssue.position := by
    rcases polynomialCodec.cursors_bound.1 sessionIssue_encodable with ⟨raw, encoded, decodes⟩
    rw [polynomialCodec.encode_eq sessionIssue_encodable] at encoded
    cases encoded
    exact (decodes 1700000059).trans (if_pos (by decide))
  exact ⟨accepted, polynomialCodec.cursors_bound.2.1 sessionHistory sessionHistory_unforged
    sessionHistory_collisionFree (mem_singleton_self _) accepted⟩

end Plinth.Frontend
