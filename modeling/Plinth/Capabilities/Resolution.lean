import Plinth.Capabilities.Drain
import Plinth.Capabilities.Signature
import Plinth.Core.Program

/-!
# Capability resolution

Model of `capabilities/resolution.cpp`: the two tables of the resolver, the permission check,
and the synchronous and the asynchronous resolver. The resolvers are programs over the
process-wide state: the tables behind `state_mutex` and the dispatch guards of
`capabilities/drain.cpp`. Other threads run between their commands, and while a handler or an
extension runs.
-/

namespace Plinth.Capabilities

open Core Drain

def maxCallDepth : Int := 8

structure CapabilityCall where
  signature : String
  args : Json
  callDepth : Int := 0

structure CapabilityResult where
  data : Json
  resolvedTier : String
  providerType : String

structure UserContext where
  userId : String
  username : String
  authType : String
  effectiveRules : List String
  sessionId : String
  ipAddress : String

abbrev ResolveResult := Except CapabilityError CapabilityResult

abbrev HandlerOutcome := Except CapabilityError Json

structure Tier1Entry (Handler : Type) where
  handler : Handler
  rbacRule : String

structure CachedCapability where
  signature : String
  providerType : String
  extensionName : String
  scope : String
  userId : String
  rbacRule : String
  enabled : Bool := true

/-- The tables that `state_mutex` protects. -/
structure Resolver (Handler : Type) where
  tier1Map : AList fun _ : String => Tier1Entry Handler
  tier2Cache : AList fun _ : String => CachedCapability

def userScopeKey (signature userId : String) : String := signature ++ ":user:" ++ userId

def kernelAdminRule : String := "kernel.admin"

def checkPermission (effectiveRules : List String) (requiredRule : String) : Bool :=
  if requiredRule.isEmpty then false
  else effectiveRules.any fun rule => rule = requiredRule || rule = kernelAdminRule

/-- A permission is given by the rule itself or by that of the administrator; an empty rule gives
none. -/
theorem checkPermission_iff {effectiveRules : List String} {requiredRule : String} :
    checkPermission effectiveRules requiredRule ↔ requiredRule ≠ "" ∧
      (requiredRule ∈ effectiveRules ∨ kernelAdminRule ∈ effectiveRules) := by
  unfold checkPermission
  split
  case isTrue empty => simp [String.isEmpty_iff.mp empty]
  case isFalse named =>
    have isNamed : requiredRule ≠ "" := fun empty => named (by simp [empty])
    simp [and_or_left, exists_or, isNamed]

structure RbacDenial where
  capability : String
  rule : String
  callDepth : Int
  username : Option String
  userId : String
  sessionId : String
  ipAddress : String

structure PromiseRejection where
  code : String
  message : String

inductive Command (Handler : Type) where
  | construct (name : String)
  | destroy (guard : DispatchGuard)
  | lockShared
  | unlockShared
  | audit (denial : RbacDenial)
  | handle (entry : Tier1Entry Handler) (args : Json) (ctx : UserContext) (callDepth : Int)
  | dispatch (extensionName function : String) (args : Json) (ctx : UserContext) (callDepth : Int)

def Command.Answer {Handler : Type} : Command Handler → Type
  | construct _ => DispatchGuard
  | destroy _ => Unit
  | lockShared => Resolver Handler
  | unlockShared => Unit
  | audit _ => Unit
  | handle .. => HandlerOutcome
  | dispatch .. => Except PromiseRejection Json

variable {Handler Value : Type}

abbrev Resolution (Handler Value : Type) := Program (Command Handler) Command.Answer Value

namespace Resolution

def issue (command : Command Handler) : Resolution Handler command.Answer := Program.call command

def withGuard (name : String) (body : DispatchGuard → Resolution Handler Value) :
    Resolution Handler Value := do
  let guard ← issue (.construct name)
  let value ← body guard
  let _ ← issue (.destroy guard)
  return value

def withLock (body : Resolver Handler → Resolution Handler Value) : Resolution Handler Value := do
  let resolver ← issue .lockShared
  let value ← body resolver
  let _ ← issue .unlockShared
  return value

end Resolution

open Resolution

variable (call : CapabilityCall) (ctx : UserContext)

def emitRbacDenied (rule : String) : Resolution Handler Unit :=
  issue (.audit
    { capability := call.signature, rule, callDepth := call.callDepth
      username := if ctx.username.isEmpty then none else some ctx.username
      userId := ctx.userId, sessionId := ctx.sessionId, ipAddress := ctx.ipAddress })

def dispatchTier1 (entry : Tier1Entry Handler) (call : CapabilityCall) (ctx : UserContext) :
    Resolution Handler ResolveResult := do
  let out ← issue (.handle entry call.args ctx (call.callDepth + 1))
  match out with
  | .error error => return .error error
  | .ok data => return .ok { data, resolvedTier := "tier1", providerType := "kernel" }

def dispatchTier2 (entry : CachedCapability) : ResolveResult :=
  if !entry.enabled then .error .capabilityDisabled
  else if entry.providerType = "sidecar" then .error .tier3NotAvailable
  else if entry.providerType = "extension" then .error .asyncRequired
  -- a kernel row without a handler of its own
  else .error .capabilityNotFound

def callCapability : Resolution Handler ResolveResult :=
  match parseSignature call.signature with
  | .error _ => return .error .invalidCapability
  | .ok parsed =>
    if maxCallDepth ≤ call.callDepth then return .error .callDepthExceeded
    else withGuard parsed.namespace_ fun guard =>
      if !guard.wasAdmitted then return .error .capabilityDisabled
      else withLock fun resolver =>
        match resolver.tier1Map.lookup call.signature with
        | some entry =>
          if !checkPermission ctx.effectiveRules entry.rbacRule then do
            emitRbacDenied call ctx entry.rbacRule
            return .error .permissionDenied
          else dispatchTier1 entry call ctx
        | none =>
          let userHit := if ctx.userId.isEmpty then none
            else resolver.tier2Cache.lookup (userScopeKey call.signature ctx.userId)
          match userHit.or (resolver.tier2Cache.lookup call.signature) with
          | none => return .error .capabilityNotFound
          | some entry =>
            if !checkPermission ctx.effectiveRules entry.rbacRule then do
              emitRbacDenied call ctx entry.rbacRule
              return .error .permissionDenied
            else return dispatchTier2 entry

/-- How the part of the asynchronous resolver under the lock ends. -/
inductive LockScope where
  | returned (result : ResolveResult)
  | extensionDispatch (extensionName function : String)

def lockScope (parsed : ParsedSignature) (resolver : Resolver Handler) :
    Resolution Handler LockScope :=
  match resolver.tier1Map.lookup call.signature with
  | some entry =>
    if !checkPermission ctx.effectiveRules entry.rbacRule then do
      emitRbacDenied call ctx entry.rbacRule
      return .returned (.error .permissionDenied)
    else do
      let result ← dispatchTier1 entry call ctx
      return .returned result
  | none =>
    let userHit := if ctx.userId.isEmpty then none
      else resolver.tier2Cache.lookup (userScopeKey call.signature ctx.userId)
    match userHit.or (resolver.tier2Cache.lookup call.signature) with
    | none => return .returned (.error .capabilityNotFound)
    | some entry =>
      if !checkPermission ctx.effectiveRules entry.rbacRule then do
        emitRbacDenied call ctx entry.rbacRule
        return .returned (.error .permissionDenied)
      else if entry.providerType ≠ "extension" then return .returned (dispatchTier2 entry)
      else if !entry.enabled then return .returned (.error .capabilityDisabled)
      else return .extensionDispatch entry.extensionName parsed.function

/-- The result, and the details of the failure of an extension. -/
def callCapabilityAsync : Resolution Handler (ResolveResult × Option PromiseRejection) :=
  match parseSignature call.signature with
  | .error _ => return (.error .invalidCapability, none)
  | .ok parsed =>
    if maxCallDepth ≤ call.callDepth then return (.error .callDepthExceeded, none)
    else withGuard parsed.namespace_ fun guard =>
      if !guard.wasAdmitted then return (.error .capabilityDisabled, none)
      else do
        let scope ← withLock (lockScope call ctx parsed)
        match scope with
        | .returned result => return (result, none)
        | .extensionDispatch extensionName function => do
            let out ← issue (.dispatch extensionName function call.args ctx call.callDepth)
            match out with
            | .ok data =>
              return (.ok { data, resolvedTier := "tier2", providerType := "extension" }, none)
            | .error rejection => return (.error .extensionDispatchFailed, some rejection)

end Plinth.Capabilities
