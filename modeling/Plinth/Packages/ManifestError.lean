import Plinth.Core.Json

/-!
# Manifest errors

The error type that the manifest parsers and validators share, from
`packages/manifest_error.hpp`, and the reserved names of `packages/reserved_names.hpp`.
-/

namespace Plinth.Packages

inductive Severity where
  | error
  | warning
  deriving DecidableEq

structure ManifestParseError where
  file : String
  line : Option Nat := none
  column : Option Nat := none
  fieldPath : Option String := none
  rule : String
  message : String
  remediation : Option String := none
  severity : Severity := .error

def reservedNames : List String := ["kernel", "plinth", "system"]

def isReservedKernelNamespace (name : String) : Bool := reservedNames.contains name

end Plinth.Packages
