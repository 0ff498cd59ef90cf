import Plinth.Core.Base64
import Plinth.Frontend.SurfaceText
import Plinth.Rbac.EffectiveRules

/-!
# Cursors of the surface catalog

A cursor is a JSON text and its tag, both in Base64. The text holds the user, a tag of the
credential, the query, the position and the time; the tag is a message authentication code under
the secret of the process. What decoding accepts is what encoding issued, for the same caller and
query, within a minute.
-/

namespace Plinth.Frontend

open Plinth.Core Plinth.Core.JsonText Plinth.Packages Plinth.Packages.Restore
open Plinth.Rbac (AuthType CredentialSource)

inductive SurfaceKind where
  | float
  | primary
  | tray
  deriving DecidableEq

def kindName : SurfaceKind → Bytes
  | .float => utf8 "float"
  | .primary => utf8 "primary"
  | .tray => utf8 "tray"

inductive ProtocolError where
  | invalid
  | limitExceeded
  | cryptoFailed

/-- The parts of an authenticated request that a cursor is bound to. -/
structure AuthContext where
  userId : Bytes
  authType : AuthType
  tokenHash : Bytes
  credentialSource : CredentialSource

structure Position where
  logicalInstallOrder : Option Bytes
  applicationId : Bytes
  panelId : Bytes

structure CursorQuery where
  contentType : Option Bytes
  limit : Nat
  includeAdminDefault : Bool
  platformProfile : Bytes
  kind : SurfaceKind
  deriving DecidableEq

def positionValid (value : Position) (kind : SurfaceKind) : Bool :=
  (match kind with
    | .float => value.logicalInstallOrder.any positiveUint64
    | .primary | .tray => value.logicalInstallOrder.isNone) &&
  identifier value.applicationId 2 false && identifier value.panelId 1 true

def queryValid (query : CursorQuery) : Bool :=
  1 ≤ query.limit && query.limit ≤ 64 && profile query.platformProfile &&
    (query.kind = .float || (query.contentType.isNone && !query.includeAdminDefault)) &&
    query.contentType.all isCanonicalContentType &&
    (!query.includeAdminDefault || query.contentType.isSome)

def authValid (value : AuthContext) : Bool :=
  uuid value.userId && digest value.tokenHash &&
    match value.authType with
    | .session => value.credentialSource = .cookie || value.credentialSource = .bearer
    | .pat => value.credentialSource = .bearer

def alphabet : Base64 where
  digits := utf8 "ABCDEFGHIJKLMNOPQRSTUVWXYZabcdefghijklmnopqrstuvwxyz0123456789-_"
  size := by decide +kernel
  distinct := by decide +kernel

def maxCursor : Nat := 4096

def b64 (input : Bytes) : Bytes := alphabet.encode input

def unb64 (input : Bytes) : Option Bytes :=
  if input.isEmpty || maxCursor < input.length || input.length % 4 = 1 then none
  else
    match alphabet.decodeFrom 0 0 input with
    | none => none
    | some (output, bits) => if bits ≠ 0 || b64 output ≠ input then none else some output

def cursorDomain : Bytes := utf8 "plinth.surface.cursor.v1"

def credentialDomain : Bytes := utf8 "plinth.surface.credential.v1"

/-- The JSON library, and HMAC-SHA256 under the secret of the process. -/
structure CursorCodec where
  json : Library
  inverse : json.Inverse isUnicode
  sign : Bytes → Bytes
  tagLength : ∀ message, (sign message).length = 32

def message (domain bytes : Bytes) : Bytes := domain ++ 0 :: bytes

variable (codec : CursorCodec) (auth : AuthContext) (raw : Bytes) (sax : CursorSax)

def CursorCodec.hmac (domain bytes : Bytes) : Bytes :=
  codec.sign (message domain bytes)

def authTypeName : AuthType → Bytes
  | .session => utf8 "session"
  | .pat => utf8 "pat"

def sourceName (source : CredentialSource) : Bytes :=
  if source = .cookie then utf8 "cookie" else utf8 "bearer"

def credentialMembers : List (Bytes × Value) :=
  [(utf8 "auth_type", .string (authTypeName auth.authType)),
    (utf8 "source", .string (sourceName auth.credentialSource)),
    (utf8 "token_hash", .string auth.tokenHash)]

def credentialValue : Value := .object (credentialMembers auth)

def CursorCodec.fingerprint : Except ProtocolError Bytes :=
  match canonicalJson (credentialValue auth) 256 with
  | .error _ => .error .invalid
  | .ok encoded => .ok (b64 (codec.hmac credentialDomain encoded))

@[simp]
def positionMembers (position : Position) : List (Bytes × Value) :=
  (utf8 "application_id", .string position.applicationId) ::
    (utf8 "panel_id", .string position.panelId) ::
    match position.logicalInstallOrder with
    | some order => [(utf8 "logical_install_order", .string order)]
    | none => []

def positionWire (position : Position) : Value := .object (positionMembers position)

def contentTypeWire : Option Bytes → Value
  | some contentType => .string contentType
  | none => .null

def payloadMembers (credential : Bytes) (query : CursorQuery) (position : Position) (now : Int) :
    List (Bytes × Value) :=
  [(utf8 "v", .integer 1), (utf8 "user", .string auth.userId),
    (utf8 "credential", .string credential), (utf8 "kind", .string (kindName query.kind)),
    (utf8 "content_type", contentTypeWire query.contentType),
    (utf8 "include_admin_default", .bool query.includeAdminDefault),
    (utf8 "limit", .integer query.limit), (utf8 "platform_profile", .string query.platformProfile),
    (utf8 "position", positionWire position), (utf8 "issued", .integer now),
    (utf8 "expires", .integer (now + 60))]

def payloadValue (credential : Bytes) (query : CursorQuery) (position : Position) (now : Int) :
    Value :=
  .object (payloadMembers auth credential query position now)

def int64Max : Int := 2 ^ 63 - 1

def dot : UInt8 := '.'.toUInt8

def CursorCodec.encode (query : CursorQuery) (position : Position) (now : Int) :
    Except ProtocolError Bytes :=
  if !authValid auth || !queryValid query || !positionValid position query.kind || now < 0 ||
      int64Max - 60 < now then .error .invalid
  else
    match codec.fingerprint auth with
    | .error error => .error error
    | .ok credential =>
      match canonicalJson (payloadValue auth credential query position now) maxCursor with
      | .error _ => .error .limitExceeded
      | .ok bytes =>
        let raw := b64 bytes ++ dot :: b64 (codec.hmac cursorDomain bytes)
        if maxCursor < raw.length then .error .limitExceeded else .ok raw

/-- The state of `CursorSax`: the values seen, and the keys of the open objects. -/
structure CursorSax where
  nodes : Nat := 0
  keys : List (List Bytes) := []

def CursorSax.value : Option CursorSax :=
  if sax.nodes + 1 ≤ 128 then some { sax with nodes := sax.nodes + 1 } else none

def CursorSax.step : Event → Option CursorSax
  | .null | .boolean _ | .integer _ | .string _ => sax.value
  | .float _ | .startArray | .endArray => none
  | .startObject =>
    if sax.keys.length = 6 then none
    else sax.value.map fun sax => { sax with keys := [] :: sax.keys }
  | .key text =>
    match sax.keys with
    | [] => none
    | seen :: outer =>
      if text ∈ seen then none else some { sax with keys := (text :: seen) :: outer }
  | .endObject => some { sax with keys := sax.keys.tail }

def CursorSax.run (events : List Event) : Option CursorSax :=
  events.foldlM CursorSax.step sax

def CursorCodec.saxParse (bytes : Bytes) : Bool :=
  (codec.json.sax bytes).2 && (CursorSax.run {} (codec.json.sax bytes).1).isSome

def sameContentType (value : Value) : Option Bytes → Bool
  | some contentType => text? value = some contentType
  | none => isNull value

def unsignedSeconds (value : Value) : Option Int :=
  match integer? value with
  | some seconds => if 0 ≤ seconds && seconds ≤ int64Max then some seconds else none
  | none => none

def payloadKeys : List Bytes :=
  [utf8 "v", utf8 "user", utf8 "credential", utf8 "kind", utf8 "content_type",
    utf8 "include_admin_default", utf8 "limit", utf8 "platform_profile", utf8 "position",
    utf8 "issued", utf8 "expires"]

def positionKeys : SurfaceKind → List Bytes
  | .float => [utf8 "logical_install_order", utf8 "application_id", utf8 "panel_id"]
  | .primary | .tray => [utf8 "application_id", utf8 "panel_id"]

def bound (payload : Value) (auth : AuthContext) (credential : Bytes) (query : CursorQuery) :
    Bool :=
  integer? (member payload (utf8 "v")) = some 1 &&
    text? (member payload (utf8 "user")) = some auth.userId &&
    text? (member payload (utf8 "credential")) = some credential &&
    text? (member payload (utf8 "kind")) = some (kindName query.kind) &&
    sameContentType (member payload (utf8 "content_type")) query.contentType &&
    bool? (member payload (utf8 "include_admin_default")) = some query.includeAdminDefault &&
    integer? (member payload (utf8 "limit")) = some (query.limit : Int) &&
    text? (member payload (utf8 "platform_profile")) = some query.platformProfile &&
    exact (member payload (utf8 "position")) (positionKeys query.kind)

def current (payload : Value) (now : Int) : Bool :=
  match unsignedSeconds (member payload (utf8 "issued")),
      unsignedSeconds (member payload (utf8 "expires")) with
  | some issued, some expires =>
    issued ≤ int64Max - 60 && expires = issued + 60 && issued ≤ now && now < expires
  | _, _ => false

def readOrder (value : Value) : SurfaceKind → Option (Option Bytes)
  | .float => (text? (member value (utf8 "logical_install_order"))).map some
  | .primary | .tray => some none

def readPosition (value : Value) (kind : SurfaceKind) : Option Position := do
  let order ← readOrder value kind
  let application ← text? (member value (utf8 "application_id"))
  let panel ← text? (member value (utf8 "panel_id"))
  return ⟨order, application, panel⟩

def splitCursor : Option (Bytes × Bytes) :=
  match raw.dropWhile (· != dot) with
  | [] => none
  | _ :: second => if dot ∈ second then none else some (raw.takeWhile (· != dot), second)

/-- The text that a cursor carries, where its tag is the tag of the text. -/
def CursorCodec.signedBytes : Option Bytes :=
  match splitCursor raw with
  | none => none
  | some (first, second) =>
    match unb64 first, unb64 second with
    | some bytes, some supplied =>
      if supplied.length ≠ 32 || codec.hmac cursorDomain bytes ≠ supplied then none
      else some bytes
    | _, _ => none

def CursorCodec.readPayload (bytes : Bytes) : Option Value :=
  if codec.saxParse bytes then
    match codec.json.parse bytes with
    | none => none
    | some payload =>
      match canonicalJson payload maxCursor with
      | .ok canonical =>
        if canonical = bytes && exact payload payloadKeys then some payload else none
      | .error _ => none
  else none

/-- The payload that a cursor carries under a tag of its own. -/
def CursorCodec.payload : Option Value :=
  (codec.signedBytes raw).bind codec.readPayload

def CursorCodec.decode (auth : AuthContext) (query : CursorQuery) (now : Int) :
    Except ProtocolError Position :=
  if maxCursor < raw.length then .error .limitExceeded
  else if !authValid auth || !queryValid query || now < 0 then .error .invalid
  else
    match codec.payload raw with
    | none => .error .invalid
    | some payload =>
      match codec.fingerprint auth with
      | .error error => .error error
      | .ok credential =>
        if bound payload auth credential query && current payload now then
          match readPosition (member payload (utf8 "position")) query.kind with
          | none => .error .invalid
          | some position =>
            if positionValid position query.kind then .ok position else .error .invalid
        else .error .invalid

end Plinth.Frontend
