import Plinth.Capabilities.Signature
import Plinth.Rbac.Manifest
import Plinth.Rbac.Rules

/-!
# Rule validation and registration

Model of `rbac/rule_validator.cpp` and of the two ways in which `packages/install_lifecycle.cpp`
writes a package's rules: the registration of a first install, with its default grants, and
the reconciliation of an upgrade.
-/

namespace Plinth.Rbac

open Core Packages
open Capabilities (parseSignature)

/-- The part of `capabilities.json` that a rule test may refer to. -/
structure ProvidedSignature where
  namespace_ : String
  version : Nat
  function : String
  deriving DecidableEq

def isRuleSegment : List Char → Bool
  | first :: tail => Capabilities.isLower first &&
      tail.all fun c => Capabilities.isLower c || Capabilities.isDigit c
  | [] => false

/-- Rule A.1: two to five dot-separated segments of lowercase letters and digits. -/
def isValidRuleName (rule : String) : Bool :=
  let segments := rule.toList.splitOn '.'
  segments.all isRuleSegment && decide (2 ≤ segments.length) && decide (segments.length ≤ 5)

def pushError (rule message fieldPath : String) (remediation : Option String) :
    ManifestParseError :=
  { file := "rbac.json", rule, message, fieldPath := some fieldPath, remediation }

variable (r : RbacRule) (idx : Nat) (provides : List ProvidedSignature) (packageName : String)

def checkRuleA1 : List ManifestParseError :=
  if isValidRuleName r.rule then [] else
    [pushError "rbac.rule.invalid_name"
      (ruleText idx ++ ".rule '" ++ r.rule ++ "' does not match the required pattern")
      (makePath idx "rule") ("use lowercase letters, digits, and dots; e.g. 'notes.edit' or " ++
        "'terminal.shell.execute'")]

/-- Rule A.2 looks at the declared namespace only, not at the rule's name. -/
def checkRuleA2 : List ManifestParseError :=
  if r.namespace_ = packageName || isReservedKernelNamespace r.namespace_ then [] else
    [pushError "rbac.rule.namespace_mismatch"
      (ruleText idx ++ ".namespace '" ++ r.namespace_ ++ "' does not match package name '" ++
        packageName ++ "' or any reserved namespace") (makePath idx "namespace")
      ("rename the rule's namespace to '" ++ packageName ++ "' or one of: kernel, plinth, system")]

def checkAssertCall (assertNode : Json) (idx : Nat) (which : String)
    (provides : List ProvidedSignature) : List ManifestParseError :=
  match assertNode.getString? "call" with
  | none => []
  | some call =>
    match parseSignature call with
    | .error e =>
      [pushError "rbac.test.call.parse_error"
        (ruleText idx ++ ".test." ++ which ++ ".call '" ++ call ++
          "' is not a valid capability signature (parser error: " ++ toString e.code ++ ")")
        (makePath idx "test/" ++ which ++ "/call")
        ("format: <namespace>:<version>:<function> (e.g. notes:1:create " ++
          "or notes:1:edit('foo'))")]
    | .ok sig =>
      if provides.contains ⟨sig.namespace_, sig.version, sig.function⟩ then [] else
        [pushError "rbac.test.call.unresolved"
          (ruleText idx ++ ".test." ++ which ++ ".call '" ++ call ++
            "' does not reference any provided capability")
          (makePath idx "test/" ++ which ++ "/call")
          ("add the capability to capabilities.json or fix the signature " ++
            "to match an existing provides[] entry")]

def checkRulesA3A4 : List ManifestParseError :=
  match r.test with
  | none => []
  | some test =>
    ((test.get? "assert_deny").map fun node =>
      checkAssertCall node idx "assert_deny" provides).getD [] ++
    ((test.get? "assert_allow").map fun node =>
      checkAssertCall node idx "assert_allow" provides).getD []

def checkStaticRule : List ManifestParseError :=
  checkRuleA1 r idx ++ checkRuleA2 r idx packageName ++ checkRulesA3A4 r idx provides

/-- Rule A.5: the name is free or already this package's own. -/
def checkRuleA5 (rules : RuleTable) : List ManifestParseError :=
  match rules.find? r.rule with
  | none => []
  | some existing =>
    if existing.extensionName = packageName then [] else
      [pushError "rbac.rule.name_collision"
        (ruleText idx ++ ".rule '" ++ r.rule ++ "' is already registered by extension '" ++
          existing.extensionName ++ "'") (makePath idx "rule")
        ("rename this rule; rule names are a global identity space across " ++
          "extensions (ICD-0.1.4 §Rule Registration)")]

def validateRulesStatic (rbac : RbacManifest) (provides : List ProvidedSignature)
    (packageName : String) : List ManifestParseError :=
  rbac.rules.zipIdx.flatMap fun (r, idx) => checkStaticRule r idx provides packageName

def validateRules (rbac : RbacManifest) (provides : List ProvidedSignature)
    (packageName : String) (rules : RuleTable) : List ManifestParseError :=
  rbac.rules.zipIdx.flatMap fun (r, idx) =>
    checkStaticRule r idx provides packageName ++ checkRuleA5 r idx packageName rules

def firstError (messages : List ManifestParseError) : Option ManifestParseError :=
  messages.find? fun message => message.severity = .error

/-- `parse_and_validate_rbac`: a missing file is an empty manifest. -/
def parseAndValidateRbac (file : JsonFile) (packageName : String)
    (provides : List ProvidedSignature) (rules : RuleTable) : Except String RbacManifest :=
  match file with
  | .absent => .ok {}
  | _ =>
    let parsed := parseRbacManifest "rbac.json" file
    match firstError parsed.messages with
    | some m => .error ("rbac.json parse: " ++ m.rule ++ " — " ++ m.message)
    | none =>
      match parsed.value with
      | none => .error "rbac.json parse failed"
      | some manifest =>
        match firstError (validateRules manifest provides packageName rules) with
        | some f => .error ("rbac rule validation: " ++ f.rule ++ " — " ++ f.message)
        | none => .ok manifest

namespace RbacTables

variable (tables : RbacTables) (extensionName : String)

def upsertRules (rules : List RbacRule) : RbacTables :=
  rules.foldl
    (fun tables r =>
      tables.upsertExtensionRule r.rule r.namespace_ r.description extensionName r.test)
    tables

def insertDefaultGrants (grants : List DefaultGrant) : RbacTables :=
  grants.foldl (fun tables grant => tables.insertGroupRule grant.group grant.rule) tables

/-- `register_extension_rbac_rules`: the rules are upserted, then the default grants are
inserted for any rule of the table. -/
def registerExtensionRbacRules (file : JsonFile) (name : String)
    (provides : List ProvidedSignature) : Except String RbacTables :=
  match parseAndValidateRbac file name provides tables.rules with
  | .error e => .error e
  | .ok manifest =>
    .ok ((tables.upsertRules name manifest.rules).insertDefaultGrants manifest.defaultGrants)

/-- `reconcile_rbac_on_upgrade`: the new version's rules are upserted and those of the old
version that it drops are orphaned. Default grants are not applied. -/
def reconcileRbacOnUpgrade (v2Rules : List RbacRule) : RbacTables :=
  let v1Rules := (tables.rules.rows.filter fun row => row.extensionName == extensionName).map
    RuleRow.rule
  let toOrphan := v1Rules.filter fun rule => !v2Rules.any fun r => r.rule == rule
  toOrphan.foldl (fun tables rule => tables.orphanRule extensionName rule)
    (tables.upsertRules extensionName v2Rules)

def registerUpgradeRbacRules (file : JsonFile) (name : String) (provides : List ProvidedSignature) :
    Except String RbacTables :=
  match parseAndValidateRbac file name provides tables.rules with
  | .error e => .error e
  | .ok manifest => .ok (tables.reconcileRbacOnUpgrade name manifest.rules)

end RbacTables

end Plinth.Rbac
