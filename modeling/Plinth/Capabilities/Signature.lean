import Plinth.Core.Json

/-!
# Capability signatures and registrations

Model of `capabilities/validation.cpp` and `capabilities/parser.cpp`.
-/

namespace Plinth.Capabilities

open Core (byteSize)

inductive CapabilityError where
  | invalidNamespace
  | invalidVersion
  | invalidFunction
  | invalidScope
  | invalidProviderType
  | invalidDescription
  | invalidCapability
  | missingExtensionName
  | reservedNamespace
  | namespaceMismatch
  | capabilityExists
  | capabilityNotFound
  | rbacRuleNotFound
  | userScopeNotSupported
  | dbError
  | capabilityDisabled
  | tier3NotAvailable
  | callDepthExceeded
  | permissionDenied
  | asyncRequired
  | extensionDispatchFailed
  deriving DecidableEq

def CapabilityError.code : CapabilityError → Nat
  | invalidNamespace => 0
  | invalidVersion => 1
  | invalidFunction => 2
  | invalidScope => 3
  | invalidProviderType => 4
  | invalidDescription => 5
  | invalidCapability => 6
  | missingExtensionName => 7
  | reservedNamespace => 8
  | namespaceMismatch => 9
  | capabilityExists => 10
  | capabilityNotFound => 11
  | rbacRuleNotFound => 12
  | userScopeNotSupported => 13
  | dbError => 14
  | capabilityDisabled => 15
  | tier3NotAvailable => 16
  | callDepthExceeded => 17
  | permissionDenied => 18
  | asyncRequired => 19
  | extensionDispatchFailed => 20

structure ParsedSignature where
  namespace_ : String
  version : Nat
  function : String
  deriving DecidableEq

/-- A capability to register, for an extension or a sidecar with its extension's name. -/
structure CapabilityRegistration where
  namespace_ : String
  version : Int
  function : String
  rbacRule : String
  providerType : String
  scope : String
  description : String
  extensionName : Option String

def isLower (c : Char) : Bool := 'a' ≤ c && c ≤ 'z'

def isDigit (c : Char) : Bool := '0' ≤ c && c ≤ '9'

def isNamespaceTail (c : Char) : Bool := isLower c || isDigit c || c == '_'

def isFunctionTail (c : Char) : Bool := isLower c || isDigit c || c == '_' || c == '.'

def namespaceMaxLen : Nat := 64

def functionMaxLen : Nat := 128

def capabilityDescriptionMaxLen : Nat := 256

def validateNamespace (ns : String) : Option CapabilityError :=
  match ns.toList with
  | first :: tail =>
    if byteSize ns ≤ namespaceMaxLen && isLower first && tail.all isNamespaceTail then none
    else some .invalidNamespace
  | [] => some .invalidNamespace

def validateVersion (version : Int) : Option CapabilityError :=
  if version < 1 then some .invalidVersion else none

def hasDoubleDot : List Char → Bool
  | first :: second :: rest => (first == '.' && second == '.') || hasDoubleDot (second :: rest)
  | _ => false

def validateFunction (fn : String) : Option CapabilityError :=
  match fn.toList with
  | first :: tail =>
    if byteSize fn ≤ functionMaxLen && isLower first && fn.toList.getLast? != some '.' &&
        tail.all isFunctionTail && !hasDoubleDot fn.toList then none
    else some .invalidFunction
  | [] => some .invalidFunction

def validateScope (scope : String) : Option CapabilityError :=
  if scope = "instance" then none
  else if scope = "user" then some .userScopeNotSupported
  else some .invalidScope

def validateProviderType (providerType : String) : Option CapabilityError :=
  if ["kernel", "extension", "sidecar"].contains providerType then none
  else some .invalidProviderType

def validateDescription (description : String) : Option CapabilityError :=
  if byteSize description > capabilityDescriptionMaxLen then some .invalidDescription else none

def ruleInNamespace (ns rule : String) : Bool :=
  (ns.toList ++ ['.']).isPrefixOf rule.toList && rule.toList != ns.toList ++ ['.']

def validateRegistration (reg : CapabilityRegistration) : Option CapabilityError :=
  (validateNamespace reg.namespace_) |>.or (validateVersion reg.version)
    |>.or (validateFunction reg.function)
    |>.or (validateProviderType reg.providerType)
    |>.or (validateScope reg.scope)
    |>.or (validateDescription reg.description)
    |>.or (if (reg.providerType = "extension" || reg.providerType = "sidecar") &&
        (reg.extensionName.getD "").isEmpty then some .missingExtensionName else none)
    |>.or (if reg.namespace_ = "kernel" && reg.providerType != "kernel" then
        some .reservedNamespace else none)
    |>.or (if ruleInNamespace reg.namespace_ reg.rbacRule then none else some .namespaceMismatch)

/-- An unsigned decimal that fits an `int`, as `std::from_chars` reads it to the end. -/
def decimalInt? (digits : List Char) : Option Nat :=
  let value := digits.foldl (fun acc c => acc * 10 + (c.toNat - '0'.toNat)) 0
  if !digits.isEmpty && digits.all isDigit && decide (value < 2 ^ 31) then some value else none

def parseSignature (signature : String) : Except CapabilityError ParsedSignature :=
  match signature.toList.splitOn ':' with
  | [ns, version, fn] =>
    if ns.isEmpty || version.isEmpty || fn.isEmpty then .error .invalidCapability
    else
      match decimalInt? version with
      | none => .error .invalidCapability
      | some value =>
        let parsed : ParsedSignature :=
          { namespace_ := String.ofList ns, version := value, function := String.ofList fn }
        match (validateNamespace parsed.namespace_).or ((validateVersion value).or
            (validateFunction parsed.function)) with
        | some e => .error e
        | none => .ok parsed
  | _ => .error .invalidCapability

end Plinth.Capabilities
