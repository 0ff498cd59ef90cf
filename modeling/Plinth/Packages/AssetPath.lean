import Plinth.Core.Filesystem

/-!
# Request paths of package assets

Model of `normalize_request_path` and `resolve_under_root` in `packages/asset_server.cpp`. A request
path is decoded once and cut into components, and is resolved below the client directory of a
package. The loop over the components stops when nothing is left, so the empty path and a separator
after the last component pass.
-/

namespace Plinth.Packages

open Core

namespace AssetPath

def percent : UInt8 := 0x25

def hex (h : UInt8) : Option UInt8 :=
  if 0x30 ≤ h ∧ h ≤ 0x39 then some (h - 0x30)
  else if 0x61 ≤ h ∧ h ≤ 0x66 then some (10 + (h - 0x61))
  else if 0x41 ≤ h ∧ h ≤ 0x46 then some (10 + (h - 0x41))
  else none

def percentDecode : Bytes → Option Bytes
  | [] => some []
  | c :: rest =>
    if c = percent then
      match rest with
      | first :: second :: rest => do
          let hi ← hex first
          let lo ← hex second
          let decoded := hi <<< 4 ||| lo
          if decoded = 0 then none else (percentDecode rest).map (decoded :: ·)
      | _ => none
    else (percentDecode rest).map (c :: ·)

/-- A text and what its escapes stand for: each byte of the result is a byte of the text or escaped
in it, and is not read as part of an escape again. -/
inductive Decodes : Bytes → Bytes → Prop where
  | nil : Decodes [] []
  | plain {c : UInt8} {raw decoded : Bytes} (isPlain : c ≠ percent) (rest : Decodes raw decoded) :
      Decodes (c :: raw) (c :: decoded)
  | escape {first second hi lo : UInt8} {raw decoded : Bytes} (isHi : hex first = some hi)
      (isLo : hex second = some lo) (rest : Decodes raw decoded) :
      Decodes (percent :: first :: second :: raw) ((hi <<< 4 ||| lo) :: decoded)

/-- The decoder follows the percent coding. -/
theorem decodes_of_percentDecode {raw decoded : Bytes}
    (isDecoded : percentDecode raw = some decoded) : Decodes raw decoded := by
  fun_induction percentDecode raw generalizing decoded with
  | case1 =>
    cases isDecoded
    exact .nil
  | case2 first second rest ih =>
    simp only [Option.bind_eq_bind, Option.bind_eq_some_iff] at isDecoded
    rcases isDecoded with ⟨hi, isHi, lo, isLo, isDecoded⟩
    split at isDecoded
    · cases isDecoded
    rcases Option.map_eq_some_iff.mp isDecoded with ⟨later, isLater, rfl⟩
    exact .escape isHi isLo (ih isLater)
  | case3 => cases isDecoded
  | case4 c rest isPlain ih =>
    rcases Option.map_eq_some_iff.mp isDecoded with ⟨later, isLater, rfl⟩
    exact .plain isPlain (ih isLater)

/-- The test of one component in `normalize_request_path`. -/
def isComponent (component : Name) : Bool :=
  !(component.isEmpty || component == Name.dot || component == Name.dotDot) &&
    !component.contains 0

def normalizeRequestPath (raw : Bytes) : Option Bytes :=
  if raw.head? == some Path.slash then none
  else (percentDecode raw).bind fun decoded =>
    if Path.scan isComponent decoded then some decoded else none

def resolveUnderRoot (fs : Filesystem) (clientRoot : Path) (normalized : Bytes) : Option Path :=
  (fs.weaklyCanonical (clientRoot.append (.parse normalized))).bind fun canonical =>
    (fs.weaklyCanonical clientRoot).bind fun root =>
      if root.elements.isPrefixOf canonical.elements then some canonical else none

/-- What is accepted: a relative path whose decoded components pass. -/
theorem normalizeRequestPath_eq_some {raw decoded : Bytes} :
    normalizeRequestPath raw = some decoded ↔
      raw.head? ≠ some Path.slash ∧ percentDecode raw = some decoded ∧
        (Path.components decoded).all isComponent := by
  simp only [normalizeRequestPath, Path.scan_eq_all]
  split
  · simp_all
  constructor
  · intro accepted
    rcases Option.bind_eq_some_iff.mp accepted with ⟨text, isText, isDecoded⟩
    split at isDecoded <;> cases isDecoded
    exact ⟨by simp_all, isText, ‹_›⟩
  · rintro ⟨-, isDecoded, accepted⟩
    rw [isDecoded, Option.bind_some, if_pos accepted]

/-- An accepted component is plain and without NUL. -/
theorem plain_of_isComponent {component : Name} (accepted : isComponent component) :
    component.Plain ∧ 0 ∉ component := by
  simpa [isComponent, Name.Plain, and_assoc] using accepted

section Normalized

variable {decoded : Bytes} (accepted : (Path.components decoded).all isComponent = true)
include accepted

theorem components_plain : ∀ component ∈ Path.components decoded, component.Plain :=
  fun component mem => (plain_of_isComponent (List.all_eq_true.mp accepted component mem)).1

theorem nul_not_mem : 0 ∉ decoded := by
  intro mem
  rcases @mem_splitOn _ _ decoded Path.slash 0 mem with isSlash | ⟨part, isPart, inPart⟩
  · exact absurd isSlash (by decide)
  · have component := Path.mem_components isPart (List.ne_nil_of_mem inPart)
    exact (plain_of_isComponent (List.all_eq_true.mp accepted part component)).2 inPart

theorem head_ne_slash : decoded.head? ≠ some Path.slash := by
  intro isSlash
  rcases List.head?_eq_some_iff.mp isSlash with ⟨rest, rfl⟩
  have isFirst : [] ∈ Path.components (Path.slash :: rest) := by
    rw [Path.components_cut _ (by simp)]
    simp
  exact (components_plain accepted [] isFirst).1 rfl

end Normalized

theorem append_parse {clientRoot : Path} {decoded : Bytes} (named : clientRoot.HasFilename)
    (accepted : (Path.components decoded).all isComponent) :
    clientRoot.append (.parse decoded) =
      ⟨clientRoot.absolute,
        clientRoot.names ++ if decoded = [] then [[]] else (Path.parse decoded).names⟩ := by
  have relative : (Path.parse decoded).absolute = false := by
    simpa [Path.parse] using head_ne_slash accepted
  rcases eq_or_ne decoded [] with rfl | someText
  · simp [Path.append, named.base_eq, named.names_ne_nil, Path.parse]
  have someNames : (Path.parse decoded).names ≠ [] := by
    rcases (Path.descent_parse someText (head_ne_slash accepted) fun component mem =>
      .inr (components_plain accepted component mem)).head_plain with ⟨first, rest, isNames, -⟩
    simp [isNames]
  simp [Path.append, named.base_eq, relative, someNames, someText]

/-- An accepted request path is decoded once, is relative, and has no NUL and no `.`, `..` or empty
component before the end; below a client directory without symbolic links it is resolved to a path
strictly inside, and the empty one to the directory itself. -/
theorem normalizeRequestPath_contained {raw decoded : Bytes}
    (accepted : normalizeRequestPath raw = some decoded) :
    Decodes raw decoded ∧ (∀ component ∈ Path.components decoded, component.Plain) ∧
      0 ∉ decoded ∧ decoded.head? ≠ some Path.slash ∧
      ∀ (fs : Filesystem) (clientRoot : Path), clientRoot.HasFilename →
        (∀ directory, fs.status clientRoot = .found directory → fs.SymlinkFree directory) →
        ∀ resolved, resolveUnderRoot fs clientRoot decoded = some resolved →
          ∃ root, fs.weaklyCanonical clientRoot = some root ∧
            (decoded ≠ [] → root.StrictlyInside resolved) ∧
            (decoded = [] → root.Same resolved) := by
  rcases normalizeRequestPath_eq_some.mp accepted with ⟨-, isDecoded, components⟩
  refine ⟨decodes_of_percentDecode isDecoded, components_plain components, nul_not_mem components,
    head_ne_slash components, ?_⟩
  intro fs clientRoot named symlinkFree resolved isResolved
  simp only [resolveUnderRoot, append_parse named components] at isResolved
  rcases Option.bind_eq_some_iff.mp isResolved with ⟨canonical, isCanonical, isResolved⟩
  rcases Option.bind_eq_some_iff.mp isResolved with ⟨root, isRoot, isResolved⟩
  split at isResolved
  case isFalse => cases isResolved
  case isTrue inside =>
  cases isResolved
  refine ⟨root, isRoot, ?_, ?_⟩
  · intro someText
    rw [if_neg someText] at isCanonical
    have descent := Path.descent_parse someText (head_ne_slash components) fun component mem =>
      .inr (components_plain components component mem)
    exact Filesystem.weaklyCanonical_append named.names_ne_nil descent symlinkFree isRoot
      isCanonical
      (List.isPrefixOf_iff_prefix.mp inside)
  · intro isEmpty
    rw [if_pos isEmpty] at isCanonical
    exact Filesystem.weaklyCanonical_separator named.names_ne_nil isRoot isCanonical

def oneFile : Filesystem where
  entry names :=
    if names = [] ∨ names = [utf8 "client"] then some .directory
    else if names = [utf8 "client", utf8 "main.js"] then some .file
    else none
  unreadable _ := false
  workingDirectory := []
  isCanonical := by simp

theorem oneFile_symlinkFree (directory : List Name) : oneFile.SymlinkFree directory := by
  intro names target
  simp only [oneFile]
  split
  · simp
  · split <;> simp

theorem mainJs_contained :
    ∃ decoded resolved, normalizeRequestPath (utf8 "main%2ejs") = some decoded ∧
      resolveUnderRoot oneFile ⟨true, [utf8 "client"]⟩ decoded = some resolved ∧
      Decodes (utf8 "main%2ejs") decoded ∧
      ∃ root, oneFile.weaklyCanonical ⟨true, [utf8 "client"]⟩ = some root ∧
        root.StrictlyInside resolved := by
  have accepted : normalizeRequestPath (utf8 "main%2ejs") = some (utf8 "main.js") :=
    normalizeRequestPath_eq_some.mpr (by decide +kernel)
  have isResolved : resolveUnderRoot oneFile ⟨true, [utf8 "client"]⟩ (utf8 "main.js") =
      some ⟨true, [utf8 "client", utf8 "main.js"]⟩ := by decide +kernel
  rcases normalizeRequestPath_contained accepted with ⟨isDecoded, -, -, -, contained⟩
  rcases contained oneFile ⟨true, [utf8 "client"]⟩ ⟨utf8 "client", rfl, by decide +kernel⟩
    (fun directory _ => oneFile_symlinkFree directory) _ isResolved with ⟨root, isRoot, inside, -⟩
  exact ⟨_, _, accepted, isResolved, isDecoded, root, isRoot, inside (by decide +kernel)⟩

/-- A backslash, a last empty component and the empty path pass, and the empty path is resolved to
the client directory itself. -/
theorem normalizeRequestPath_accepts :
    normalizeRequestPath (utf8 "a%5cb") = some (utf8 "a\\b") ∧
      normalizeRequestPath (utf8 "a/") = some (utf8 "a/") ∧
      [] ∈ (utf8 "a/").splitOn Path.slash ∧
      normalizeRequestPath [] = some [] ∧
      resolveUnderRoot oneFile ⟨true, [utf8 "client"]⟩ [] = some ⟨true, [utf8 "client"]⟩ ∧
      oneFile.weaklyCanonical ⟨true, [utf8 "client"]⟩ = some ⟨true, [utf8 "client"]⟩ := by
  simp only [normalizeRequestPath_eq_some]
  decide +kernel

end AssetPath

end Plinth.Packages
