import Plinth.Core.Json

/-!
# Version comparison

Model of `compare_semver` in `packages/manifest.cpp`. Version texts that it cannot read
compare as equal to everything, and its numbers are 64-bit.
-/

namespace Plinth.Packages

/-- Build metadata is cut off, then the text is split at the first dash. -/
def splitSemver (s : List Char) : List Char × List Char × Bool :=
  let core := s.takeWhile (· != '+')
  match core.dropWhile (· != '-') with
  | [] => (core, [], !core.isEmpty)
  | _ :: prerelease =>
    let mmp := core.takeWhile (· != '-')
    (mmp, prerelease, !mmp.isEmpty)

def isDecimal (c : Char) : Bool := '0' ≤ c && c ≤ '9'

/-- Decimal digits read into a 64-bit integer that wraps around. -/
def readUInt64 (digits : List Char) : Nat :=
  digits.foldl (fun acc c => (acc * 10 + (c.toNat - '0'.toNat)) % 2 ^ 64) 0

def number (digits : List Char) : Nat :=
  digits.foldl (fun value c => value * 10 + (c.toNat - '0'.toNat)) 0

theorem readUInt64_eq_number (digits : List Char) : readUInt64 digits = number digits % 2 ^ 64 := by
  have folded : ∀ (digits : List Char) (wrapped value : Nat), wrapped = value % 2 ^ 64 →
      digits.foldl (fun acc c => (acc * 10 + (c.toNat - '0'.toNat)) % 2 ^ 64) wrapped =
        digits.foldl (fun value c => value * 10 + (c.toNat - '0'.toNat)) value % 2 ^ 64 := by
    intro digits
    induction digits with
    | nil => exact fun _ _ same => same
    | cons c digits ih =>
      intro wrapped value same
      refine ih _ _ ?_
      simp only [same]
      omega
  exact folded digits 0 0 rfl

def isAllDigits (s : List Char) : Bool := !s.isEmpty && s.all isDecimal

def parseMmp (mmp : List Char) : Option (Nat × Nat × Nat) :=
  match mmp.splitOn '.' with
  | major :: minor :: patch :: [] =>
    if isAllDigits major && isAllDigits minor && isAllDigits patch then
      some (readUInt64 major, readUInt64 minor, readUInt64 patch)
    else none
  | _ => none

def comparePrereleaseIdent (a b : List Char) : Ordering :=
  match isAllDigits a, isAllDigits b with
  | true, true => compare (readUInt64 a) (readUInt64 b)
  | true, false => .lt
  | false, true => .gt
  | false, false => compareOfLessAndEq a b

/-- The identifiers that the comparison loop visits: it stops at the end of the text, so an
empty last identifier is not one of them. -/
def prereleaseIdents (prerelease : List Char) : List (List Char) :=
  let parts := prerelease.splitOn '.'
  if parts.getLast? = some [] then parts.dropLast else parts

def comparePrereleaseIdents : List (List Char) → List (List Char) → Ordering
  | a :: as, b :: bs => (comparePrereleaseIdent a b).then (comparePrereleaseIdents as bs)
  | _ :: _, [] => .gt
  | [], _ :: _ => .lt
  | [], [] => .eq

def comparePrerelease (a b : List Char) : Ordering :=
  comparePrereleaseIdents (prereleaseIdents a) (prereleaseIdents b)

def compareSemver (a b : String) : Ordering :=
  let (aMmp, aPre, aOk) := splitSemver a.toList
  let (bMmp, bPre, bOk) := splitSemver b.toList
  if !aOk || !bOk then .eq else
    match parseMmp aMmp, parseMmp bMmp with
    | some (aMajor, aMinor, aPatch), some (bMajor, bMinor, bPatch) =>
      (compare aMajor bMajor).then <| (compare aMinor bMinor).then <|
        (compare aPatch bPatch).then <|
          match aPre, bPre with
          | [], [] => .eq
          | [], _ => .gt
          | _, [] => .lt
          | _, _ => comparePrerelease aPre bPre
    | _, _ => .eq

end Plinth.Packages
