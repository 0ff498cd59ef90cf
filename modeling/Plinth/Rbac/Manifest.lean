import Plinth.Packages.ManifestError

/-!
# The rbac.json parser

Model of `rbac/rbac_manifest.cpp`. Structural errors accumulate; a rule or default grant with
an error is left out of the value. Nothing here relates a default grant to the rules that
the same manifest declares.
-/

namespace Plinth.Rbac

open Core Packages

structure RbacRule where
  rule : String
  namespace_ : String
  description : String
  test : Option Json := none
  deriving Inhabited

structure DefaultGrant where
  group : String
  rule : String
  deriving DecidableEq, Inhabited

structure RbacManifest where
  rules : List RbacRule := []
  defaultGrants : List DefaultGrant := []
  unknownFields : List (String × Json) := []
  deriving Inhabited

structure RbacManifestParseResult where
  value : Option RbacManifest := none
  messages : List ManifestParseError := []
  deriving Inhabited

def descriptionMaxLen : Nat := 1024

variable (file : String) (entry : Json) (idx : Nat)

/-- `ErrorSink::push` with the severity that every caller uses. -/
def sinkError (rule message : String) (fieldPath : Option String) : ManifestParseError :=
  { file, rule, message, fieldPath }

def makePath (field : String) : String :=
  if field.isEmpty then "/rules/" ++ toString idx else "/rules/" ++ toString idx ++ "/" ++ field

def ruleText : String := "rbac.json rules[" ++ toString idx ++ "]"

def parseRuleName : Except ManifestParseError String :=
  match entry.get? "rule" with
  | none =>
    .error (sinkError file "rbac.rule.missing" (ruleText idx ++ " is missing 'rule'")
      (makePath idx "rule"))
  | some value =>
    match value.asString? with
    | none =>
      .error (sinkError file "rbac.rule.not_string" (ruleText idx ++ ".rule must be a string")
        (makePath idx "rule"))
    | some rule =>
      if rule.isEmpty then
        .error (sinkError file "rbac.rule.missing" (ruleText idx ++ ".rule must be non-empty")
          (makePath idx "rule"))
      else .ok rule

/-- A required string member, as `namespace` and `description` are read. -/
def parseRequiredString (field code : String) : Except ManifestParseError String :=
  match entry.getString? field with
  | none =>
    .error (sinkError file code
      (ruleText idx ++ "." ++ field ++ " is required and must be a string")
      (makePath idx field))
  | some value =>
    if value.isEmpty then
      .error (sinkError file code (ruleText idx ++ "." ++ field ++ " must be non-empty")
        (makePath idx field))
    else .ok value

def parseRuleNamespace : Except ManifestParseError String :=
  parseRequiredString file entry idx "namespace" "rbac.namespace.missing"

def parseRuleDescription : Except ManifestParseError String :=
  match parseRequiredString file entry idx "description" "rbac.description.missing" with
  | .error e => .error e
  | .ok description =>
    if byteSize description > descriptionMaxLen then
      .error (sinkError file "rbac.description.too_long"
        (ruleText idx ++ ".description exceeds 1024 characters")
        (makePath idx "description"))
    else .ok description

/-- One `{call, expect}` assertion of a rule's test; both members are checked. -/
def parseAssertEntry (assertNode : Json) (idx : Nat) (which expectedLiteral : String) :
    List ManifestParseError :=
  let pathRoot := makePath idx "test" ++ "/" ++ which
  if !assertNode.isObject then
    [sinkError file ("rbac.test." ++ which ++ ".shape")
      (ruleText idx ++ ".test." ++ which ++ " must be an object") pathRoot]
  else
    (if (assertNode.getString? "call").any (fun call => !call.isEmpty) then [] else
      [sinkError file "rbac.test.call.missing"
        (ruleText idx ++ ".test." ++ which ++ ".call is required and must be a non-empty string")
        (pathRoot ++ "/call")]) ++
    (if assertNode.getString? "expect" = some expectedLiteral then [] else
      [sinkError file "rbac.test.expect.invalid"
        (ruleText idx ++ ".test." ++ which ++ ".expect must be the literal '" ++
          expectedLiteral ++ "'")
        (pathRoot ++ "/expect")])

def parseRuleTest : Except (List ManifestParseError) (Option Json) :=
  match entry.get? "test" with
  | none => .ok none
  | some test =>
    if !test.isObject then
      .error [sinkError file "rbac.test.not_object" (ruleText idx ++ ".test must be an object")
        (makePath idx "test")]
    else
      let messages :=
        ((test.get? "assert_deny").map fun node =>
          parseAssertEntry file node idx "assert_deny" "permission_denied").getD [] ++
        ((test.get? "assert_allow").map fun node =>
          parseAssertEntry file node idx "assert_allow" "success").getD []
      if messages.isEmpty then .ok (some test) else .error messages

def errorsOf {Value : Type} : Except ManifestParseError Value → List ManifestParseError
  | .error message => [message]
  | .ok _ => []

/-- All four parts of a rule are checked, whatever the others give. -/
def parseOneRule : Except (List ManifestParseError) RbacRule :=
  if !entry.isObject then
    .error [sinkError file ("rbac.rules[" ++ toString idx ++ "].not_object")
      (ruleText idx ++ " must be an object") (makePath idx "")]
  else
    match parseRuleName file entry idx, parseRuleNamespace file entry idx,
        parseRuleDescription file entry idx, parseRuleTest file entry idx with
    | .ok rule, .ok namespace_, .ok description, .ok test =>
      .ok { rule, namespace_, description, test }
    | name, namespace_, description, test =>
      .error (errorsOf name ++ errorsOf namespace_ ++ errorsOf description ++
        match test with
        | .error messages => messages
        | .ok _ => [])

def parseOneDefaultGrant : Except (List ManifestParseError) DefaultGrant :=
  let path := "/default_grants/" ++ toString idx
  if !entry.isObject then
    .error [sinkError file ("rbac.default_grants[" ++ toString idx ++ "].not_object")
      "default_grants entry must be an object" path]
  else
    match (entry.getString? "group").filter fun group => !group.isEmpty with
    | none =>
      .error [sinkError file ("rbac.default_grants[" ++ toString idx ++ "].group.invalid")
        "default_grants[].group must be a non-empty string" (path ++ "/group")]
    | some group =>
      match (entry.getString? "rule").filter fun rule => !rule.isEmpty with
      | none =>
        .error [sinkError file ("rbac.default_grants[" ++ toString idx ++ "].rule.invalid")
          "default_grants[].rule must be a non-empty string" (path ++ "/rule")]
      | some rule => .ok { group, rule }

/-- Parses every entry of an array, keeping the good ones and all messages. -/
def parseEntries {Value : Type}
    (parseOne : Json → Nat → Except (List ManifestParseError) Value) (items : List Json) :
    List Value × List ManifestParseError :=
  items.zipIdx.foldr
    (fun (entry, idx) (values, messages) =>
      match parseOne entry idx with
      | .ok value => (value :: values, messages)
      | .error found => (values, found ++ messages)) ([], [])

/-- The rules of a manifest. A `rules` member that is no array ends the parse. -/
def parseRules (json : Json) :
    Except ManifestParseError (List RbacRule × List ManifestParseError) :=
  match json.get? "rules" with
  | none => .ok ([], [])
  | some (.array items) => .ok (parseEntries (parseOneRule file) items)
  | some _ =>
    .error (sinkError file "rbac.rules.not_array" "'rules' must be an array" (some "/rules"))

def parseDefaultGrants (json : Json) : List DefaultGrant × List ManifestParseError :=
  match json.get? "default_grants" with
  | none => ([], [])
  | some (.array items) => parseEntries (parseOneDefaultGrant file) items
  | some _ =>
    ([], [sinkError file "rbac.default_grants.not_array" "'default_grants' must be an array"
      (some "/default_grants")])

def isKnownTopLevel (key : String) : Bool := ["rules", "default_grants"].contains key

def parseRbacManifest : JsonFile → RbacManifestParseResult
  | .absent => {}
  | .malformed line column what =>
    { messages := [
        { file, line, column
          rule := "rbac.json.parse_error"
          message := what
          remediation := some "ensure the file is syntactically valid JSON" }] }
  | .value (.object members) =>
    match parseRules file (.object members) with
    | .error message => { messages := [message] }
    | .ok (rules, ruleMessages) =>
      let (defaultGrants, grantMessages) := parseDefaultGrants file (.object members)
      let unknownFields := members.filter fun member => !isKnownTopLevel member.1
      { value := some { rules, defaultGrants, unknownFields }
        messages := ruleMessages ++ grantMessages }
  | .value _ =>
    { messages := [sinkError file "rbac.root.not_object"
        "rbac.json top-level value must be an object" none] }

end Plinth.Rbac
