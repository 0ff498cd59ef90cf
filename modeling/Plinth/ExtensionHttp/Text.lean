import Plinth.Core.Bytes

/-!
# Texts of the HTTP surface

The character classes and the checks of request targets in `extension_http/codec.cpp`. A path is
canonical when the checks accept it for some spelling of the request line.
-/

namespace Plinth.ExtensionHttp

open Core

inductive CodecError where
  | invalid
  | tooLarge
  deriving DecidableEq

abbrev CodecResult := Except CodecError

def maxTargetBytes : Nat := 8192

def slash : UInt8 := '/'.toUInt8

variable (c : UInt8)

def lowerAlpha : Bool := 'a'.toUInt8 ≤ c && c ≤ 'z'.toUInt8

def upperAlpha : Bool := 'A'.toUInt8 ≤ c && c ≤ 'Z'.toUInt8

def digit : Bool := '0'.toUInt8 ≤ c && c ≤ '9'.toUInt8

def alpha : Bool := lowerAlpha c || upperAlpha c

def unreserved : Bool :=
  alpha c || digit c || c = '-'.toUInt8 || c = '.'.toUInt8 || c = '_'.toUInt8 || c = '~'.toUInt8

def hex : Option Nat :=
  if digit c then some (c.toNat - '0'.toNat)
  else if 'a'.toUInt8 ≤ c && c ≤ 'f'.toUInt8 then some (c.toNat - 'a'.toNat + 10)
  else if 'A'.toUInt8 ≤ c && c ≤ 'F'.toUInt8 then some (c.toNat - 'A'.toNat + 10)
  else none

def continuation : Bool := c.toNat / 64 = 2

/-- The code point of a sequence is minimal for its length, in range, and no surrogate. -/
def validCode (minimum code : Nat) : Bool :=
  minimum ≤ code && code ≤ 0x10ffff && !(0xd800 ≤ code && code ≤ 0xdfff)

def validUtf8 : Bytes → Bool
  | [] => true
  | first :: rest =>
    if first < 0x80 then validUtf8 rest
    else if 0xc2 ≤ first && first ≤ 0xdf then
      match rest with
      | c :: rest =>
        continuation c &&
          validCode 0x80 (first.toNat % 0x20 * 64 + c.toNat % 64) && validUtf8 rest
      | [] => false
    else if 0xe0 ≤ first && first ≤ 0xef then
      match rest with
      | c :: d :: rest =>
        continuation c && continuation d &&
          validCode 0x800 ((first.toNat % 0x10 * 64 + c.toNat % 64) * 64 + d.toNat % 64) &&
          validUtf8 rest
      | _ => false
    else if 0xf0 ≤ first && first ≤ 0xf4 then
      match rest with
      | c :: d :: e :: rest =>
        continuation c && continuation d && continuation e &&
          validCode 0x10000 (((first.toNat % 8 * 64 + c.toNat % 64) * 64 + d.toNat % 64) * 64 +
            e.toNat % 64) &&
          validUtf8 rest
      | _ => false
    else false

theorem validUtf8_ascii {text : Bytes} (ascii : ∀ c ∈ text, c < 0x80) : validUtf8 text := by
  induction text with
  | nil => rfl
  | cons c text ih =>
    have first : c < 0x80 := ascii c (by simp)
    rw [validUtf8.eq_def]
    simp only [first, if_true]
    exact ih fun other mem => ascii other (by simp [mem])

def isDotSegment (part : Bytes) : Bool := part = ['.'.toUInt8] || part = ['.'.toUInt8, '.'.toUInt8]

/-- The segments of a path are not empty and not dots; one trailing slash is permitted. -/
def pathSegments (path : Bytes) : Bool :=
  match path with
  | [] => false
  | first :: rest =>
    let parts := rest.splitOn slash
    let good := fun part : Bytes => !part.isEmpty && !isDotSegment part
    first = slash && parts.dropLast.all good && parts.getLast?.all fun part =>
      part.isEmpty || good part

def pathCharacter : Bool :=
  !(c < 0x20 || c = 0x7f || c = '\\'.toUInt8 || c = '#'.toUInt8)

/-- Whether the request line spells the path. Only bytes that need it may be encoded. -/
def spells : (original path : Bytes) → Bool
  | [], path => path.isEmpty
  | c :: rest, path =>
    if c ≤ 0x20 || c = 0x7f || c = '\\'.toUInt8 || c = '#'.toUInt8 || c = '?'.toUInt8 then false
    else if c = '%'.toUInt8 then
      match rest with
      | high :: low :: rest =>
        match hex high, hex low, path with
        | some h, some l, decoded :: path =>
          let c := (h * 16 + l).toUInt8
          !(c = slash || c = '\\'.toUInt8 || unreserved c) && c = decoded &&
            spells rest path
        | _, _, _ => false
      | _ => false
    else
      match path with
      | decoded :: path => c = decoded && spells rest path
      | [] => false

def validQuery : Bytes → Bool
  | [] => true
  | c :: rest =>
    if c < 0x21 || 0x7e < c || c = '#'.toUInt8 then false
    else if c = '%'.toUInt8 then
      match rest with
      | high :: low :: rest => (hex high).isSome && (hex low).isSome && validQuery rest
      | _ => false
    else validQuery rest

def validateTarget (original path query : Bytes) : CodecResult Unit :=
  if maxTargetBytes < original.length || maxTargetBytes < path.length ||
      maxTargetBytes < query.length then .error .tooLarge
  else if !validUtf8 original || !validUtf8 path || !pathSegments path then .error .invalid
  else if !path.all pathCharacter || !spells original path || !validQuery query then
    .error .invalid
  else .ok ()

def Canonical (path : Bytes) : Prop := ∃ original query, validateTarget original path query = .ok ()

theorem spells_self {path : Bytes} (plain : ∀ c ∈ path, c = slash ∨ unreserved c) :
    spells path path := by
  induction path with
  | nil => rfl
  | cons c path ih =>
    have special : ∀ c : UInt8, (c = slash ∨ unreserved c) →
        (c ≤ 0x20 || c = 0x7f || c = '\\'.toUInt8 || c = '#'.toUInt8 ||
          c = '?'.toUInt8) = false ∧ c ≠ '%'.toUInt8 := by decide +kernel
    rcases special c (plain c (by simp)) with ⟨printed, unencoded⟩
    rw [spells.eq_def]
    simp only [printed, unencoded, if_false, Bool.false_eq_true, decide_true, Bool.true_and]
    exact ih fun other mem => plain other (by simp [mem])

theorem canonical_of_plain {path : Bytes} (short : path.length ≤ maxTargetBytes)
    (segments : pathSegments path)
    (plain : ∀ c ∈ path, c = slash ∨ unreserved c) : Canonical path := by
  have classes : ∀ c : UInt8, (c = slash ∨ unreserved c) →
      c < 0x80 ∧ pathCharacter c := by decide +kernel
  have isUtf8 : validUtf8 path := validUtf8_ascii fun c mem => (classes c (plain c mem)).1
  have characters : path.all pathCharacter :=
    List.all_eq_true.mpr fun c mem => (classes c (plain c mem)).2
  refine ⟨path, [], ?_⟩
  have fits : ¬ maxTargetBytes < path.length := by omega
  simp [validateTarget, fits, isUtf8, segments, characters, spells_self plain, validQuery]

end Plinth.ExtensionHttp
