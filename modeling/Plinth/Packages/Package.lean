import Plinth.Rbac.Validator

/-!
# Submitted packages

A package as the installer has it after the upload is extracted to the staging directory and
its manifest is read: the parsed files that the later stages use, the staged tree itself, and
the validation of `packages/validator.cpp` and `packages/cross_file_validator.cpp` as far as
it concerns `rbac.json`. The messages of the other validation passes come with the package.
-/

namespace Plinth.Packages

open Core Rbac

inductive Provenance where
  | user
  | bundled
  deriving DecidableEq

structure ProvidedCapability where
  namespace_ : String
  version : Nat
  function : String
  scope : String := ""
  description : String := ""
  rbacRule : Option String := none

def ProvidedCapability.signature (cap : ProvidedCapability) : ProvidedSignature :=
  ⟨cap.namespace_, cap.version, cap.function⟩

inductive PanelType where
  | primary
  | float
  | settings
  | tray
  deriving DecidableEq

structure PanelEntry where
  id : String
  type : PanelType := .primary
  declaration : Json

structure PanelsManifest where
  panels : List PanelEntry
  formatVersion : Option Nat := none

structure MigrationFile where
  filename : String
  contents : String
  checksumHex : String
  deriving DecidableEq

structure StagedFile where
  path : String
  contents : String
  deriving DecidableEq

/-- A package whose manifest has been read, so that the staged tree holds it. -/
structure Package where
  name : String
  version : String
  entryPoint : String
  frontendMount : Option String := none
  manifestRaw : String
  provides : Option (List ProvidedCapability)
  panels : Option PanelsManifest := none
  rbac : JsonFile
  migrations : Except String (List MigrationFile) := .ok []
  files : List StagedFile
  findings : List ManifestParseError := []
  manifest_staged : ⟨"manifest.json", manifestRaw⟩ ∈ files

namespace Package

variable (package : Package) (provides : List ProvidedCapability)

/-- `parse_rbac_raw`: the messages of the typed parser are forwarded. -/
def rbacMessages : List ManifestParseError :=
  match package.rbac with
  | .absent => []
  | .malformed _ _ what =>
    [{ file := "rbac.json", rule := "json-structure",
       message := "rbac.json does not parse: " ++ what,
       fieldPath := none, remediation := some "ensure the file is syntactically valid JSON" }]
  | file => (parseRbacManifest "rbac.json" file).messages

/-- The manifest that later passes see, when it parsed without an error. -/
def rbacTyped : Option RbacManifest :=
  match package.rbac with
  | .value _ =>
    let parsed := parseRbacManifest "rbac.json" package.rbac
    if (firstError parsed.messages).isSome then none else parsed.value
  | _ => none

def cf1Rule (provided : List String) (rule : Json) (idx : Nat) : List ManifestParseError :=
  match rule.getString? "namespace" with
  | none =>
    [{ file := "rbac.json", rule := "rbac-json-shape",
       message := "rules[" ++ toString idx ++ "] is missing a string 'namespace'",
       fieldPath := none }]
  | some ns =>
    if isReservedKernelNamespace ns || provided.contains ns then [] else
      [{ file := "rbac.json", rule := "rbac-orphan-namespace",
         message := "rbac.json rules[" ++ toString idx ++ "] namespace '" ++ ns ++
           "' does not match any capability namespace", fieldPath := none,
         remediation := some ("rename the rule's namespace to match a provides[] entry in " ++
           "capabilities.json, or add the capability") }]

def cf1RbacOrphanNamespace : List ManifestParseError :=
  match package.rbac with
  | .value raw =>
    match raw.get? "rules" with
    | none => []
    | some (.array rules) =>
      rules.zipIdx.flatMap fun (rule, idx) =>
        cf1Rule (provides.map ProvidedCapability.namespace_) rule idx
    | some _ =>
      [{ file := "rbac.json", rule := "rbac-json-shape",
         message := "'rules' must be an array", fieldPath := none }]
  | _ => []

def runTypedRbacValidation : List ManifestParseError :=
  match package.rbacTyped with
  | none => []
  | some rbac => validateRulesStatic rbac (provides.map ProvidedCapability.signature) package.name

/-- `validate`: the cross-file passes are skipped when capabilities.json did not parse. -/
def validate : List ManifestParseError :=
  package.findings ++ package.rbacMessages ++
    match package.provides with
    | none => []
    | some provides =>
      package.cf1RbacOrphanNamespace provides ++ package.runTypedRbacValidation provides

def rejected : Bool := (firstError package.validate).isSome

end Package

end Plinth.Packages
