import Plinth.Capabilities.Resolution

/-!
# Authorization of capability calls

What a resolver has checked when it runs a handler or an extension, with other threads changing
the tables and the drain registry at any time the resolver does not hold the lock or the guard
that prevents it, and the agreement of the two resolvers.
-/

namespace Plinth.Capabilities

open Core Drain List
open Machine.Exec (bind_inv call_inv)

variable {Handler Value : Type}

/-- The process as one call sees it, with the guards and the lock that the call holds. -/
structure Shared (Handler : Type) where
  resolver : Resolver Handler
  registry : Registry
  held : List DispatchGuard := []
  reading : Bool := false

namespace Shared

/-- A critical section of another thread on the drain registry. It destroys no guard that the
call holds. -/
inductive Interferes : Shared Handler → Shared Handler → Prop where
  | registry {state : Shared Handler} {operation : Operation} {next : Registry}
      (applies : state.registry.apply operation = some next)
      (foreign : ∀ guard, operation = .destroy guard →
        state.held.count guard < state.registry.guards.count guard) :
      Interferes state { state with registry := next }
  | tables {state : Shared Handler} (next : Resolver Handler) (unlocked : state.reading = false) :
      Interferes state { state with resolver := next }

def Performs (state : Shared Handler) : (command : Command Handler) → command.Answer →
    Shared Handler → Prop
  | .construct name, guard, next =>
    guard = (state.registry.construct name).2 ∧
      next = { state with
        registry := (state.registry.construct name).1, held := guard :: state.held }
  | .destroy guard, _, next =>
    next = { state with
      registry := state.registry.destroy guard, held := state.held.erase guard }
  | .lockShared, resolver, next =>
    resolver = state.resolver ∧ next = { state with reading := true }
  | .unlockShared, _, next => next = { state with reading := false }
  | .audit _, _, next => next = state
  | .handle .., _, next => Relation.ReflTransGen Interferes state next
  | .dispatch .., _, next => Relation.ReflTransGen Interferes state next

def machine : Machine (Command Handler) Command.Answer (Shared Handler) where
  step := Performs
  interfere := Interferes

abbrev Event (Handler : Type) :=
  Machine.Event (Command Handler) Command.Answer (Shared Handler)

def Holds (state : Shared Handler) : Prop :=
  ∀ guard, state.held.count guard ≤ state.registry.guards.count guard

variable {state : Shared Handler}

theorem Holds.mem (holds : state.Holds) {guard : DispatchGuard} (held : guard ∈ state.held) :
    guard ∈ state.registry.guards :=
  count_pos_iff.mp (lt_of_lt_of_le (count_pos_iff.mpr held) (holds guard))

/-- Other threads destroy no guard that the call holds. -/
theorem Interferes.holds {next : Shared Handler} (others : Interferes state next)
    (holds : state.Holds) : next.Holds ∧ next.held = state.held := by
  cases others with
  | tables => exact ⟨holds, rfl⟩
  | @registry operation registry applies foreign =>
    refine ⟨fun guard => ?_, rfl⟩
    have before := holds guard
    change state.held.count guard ≤ registry.guards.count guard
    cases operation with
    | beginDrain name =>
      cases applies
      rwa [Registry.beginDrain_guards]
    | endDrain name =>
      cases applies
      rwa [Registry.endDrain_guards]
    | blockApplication name =>
      cases applies
      have same : (state.registry.blockApplication name).guards = state.registry.guards :=
        (Registry.tryEmplace_frame state.registry name).1
      rwa [same]
    | construct name =>
      cases applies
      have grows := Registry.construct_guards state.registry name
      rw [grows]
      exact le_trans before count_le_count_cons
    | destroy other =>
      simp only [Registry.apply] at applies
      split at applies
      case isFalse => cases applies
      case isTrue =>
      cases applies
      change _ ≤ (state.registry.guards.erase other).count guard
      rw [count_erase]
      split
      case isTrue same =>
        have spare := foreign other rfl
        rw [beq_iff_eq.mp same] at spare
        omega
      case isFalse => simpa using before

theorem holds_of_interference {next : Shared Handler}
    (others : Relation.ReflTransGen Interferes state next) (holds : state.Holds) :
    next.Holds ∧ next.held = state.held := by
  induction others with
  | refl => exact ⟨holds, rfl⟩
  | tail _ last ih =>
    rcases last.holds ih.1 with ⟨kept, same⟩
    exact ⟨kept, same.trans ih.2⟩

def keepsGuards : Command Handler → Bool
  | .construct _ => false
  | .destroy _ => false
  | _ => true

theorem Performs.holds {next : Shared Handler} {command : Command Handler}
    {answer : command.Answer} (keeps : keepsGuards command)
    (performs : state.Performs command answer next) (holds : state.Holds) :
    next.Holds ∧ next.held = state.held := by
  cases command with
  | construct | destroy => cases keeps
  | lockShared =>
    rcases performs with ⟨-, rfl⟩
    exact ⟨holds, rfl⟩
  | unlockShared | audit =>
    rcases performs with rfl
    exact ⟨holds, rfl⟩
  | handle | dispatch => exact holds_of_interference performs holds

/-- Between the construction and the destruction of its guard, a call holds the same guards. -/
theorem holds_of_exec {program : Resolution Handler Value} {start finish : Shared Handler}
    {events : List (Event Handler)} {value : Value}
    (exec : machine.Exec program start events finish value)
    (keeps : ∀ event ∈ events, keepsGuards event.command) (holds : start.Holds) :
    finish.Holds ∧ finish.held = start.held := by
  refine exec.invariant (fun state => state.Holds ∧ state.held = start.held)
    (fun command => keepsGuards command) ?_ ?_ keeps ⟨holds, rfl⟩
  · intro state next before others
    rcases others.holds before.1 with ⟨kept, same⟩
    exact ⟨kept, same.trans before.2⟩
  · intro state command answer next keeps before performs
    rcases Performs.holds keeps performs before.1 with ⟨kept, same⟩
    exact ⟨kept, same.trans before.2⟩

end Shared

/-- An entry of one of the two tables. -/
inductive Hit (Handler : Type) where
  | tier1 (entry : Tier1Entry Handler)
  | tier2 (entry : CachedCapability)

namespace Hit

def rbacRule : Hit Handler → String
  | tier1 entry => entry.rbacRule
  | tier2 entry => entry.rbacRule

/-- A handler of the kernel cannot be disabled. -/
def enabled : Hit Handler → Bool
  | tier1 _ => true
  | tier2 entry => entry.enabled

def Invokes (call : CapabilityCall) (ctx : UserContext) (parsed : ParsedSignature) :
    Hit Handler → Command Handler → Prop
  | tier1 entry, command => command = .handle entry call.args ctx (call.callDepth + 1)
  | tier2 entry, command =>
    entry.providerType = "extension" ∧
      command = .dispatch entry.extensionName parsed.function call.args ctx call.callDepth

end Hit

/-- The entry that a signature names for a user: a handler, the user's own, or the instance's. -/
def Resolver.matched (resolver : Resolver Handler) (signature userId : String) :
    Option (Hit Handler) :=
  ((resolver.tier1Map.lookup signature).map Hit.tier1).or
    (((if userId.isEmpty then none
        else resolver.tier2Cache.lookup (userScopeKey signature userId)).or
      (resolver.tier2Cache.lookup signature)).map Hit.tier2)

def Command.invokes : Command Handler → Bool
  | handle .. => true
  | dispatch .. => true
  | _ => false

/-- What has been checked when an event of a call runs code of a capability. -/
structure Authorized (call : CapabilityCall) (ctx : UserContext)
    (events : List (Shared.Event Handler)) (event : Shared.Event Handler)
    (parsed : ParsedSignature) (guard : DispatchGuard) (resolver : Resolver Handler)
    (hit : Hit Handler) : Prop where
  parses : parseSignature call.signature = .ok parsed
  shallow : call.callDepth < maxCallDepth
  /-- The guard was constructed, and then the tables were read under the lock. -/
  order : ∃ opened constructed looked locked,
    [⟨.construct parsed.namespace_, guard, opened, constructed⟩,
      ⟨.lockShared, resolver, looked, locked⟩, event].Sublist events ∧
    opened.registry.isFenced parsed.namespace_ = false
  admitted : guard.wasAdmitted = true
  guards : guard.name = parsed.namespace_
  /-- The guard is alive however long the invocation takes. -/
  alive : ∀ state, Relation.ReflTransGen Shared.Interferes event.before state →
    guard ∈ state.registry.guards
  isMatch : resolver.matched call.signature ctx.userId = some hit
  runs : hit.Invokes call ctx parsed event.command
  enabled : hit.enabled = true
  named : hit.rbacRule ≠ ""
  permitted : hit.rbacRule ∈ ctx.effectiveRules ∨ kernelAdminRule ∈ ctx.effectiveRules

variable {call : CapabilityCall} {ctx : UserContext}

namespace Resolution

open Shared

variable {start finish : Shared Handler} {events : List (Event Handler)}

/-- A guarded part runs between the construction and the destruction of one guard. -/
theorem withGuard_exec {name : String} {body : DispatchGuard → Resolution Handler Value}
    {value : Value} (exec : machine.Exec (withGuard name body) start events finish value)
    (holds : start.Holds) :
    ∃ guard opened constructed inner release middle,
      events = ⟨.construct name, guard, opened, constructed⟩ :: (inner ++ [release]) ∧
      release.command = .destroy guard ∧
      guard = (opened.registry.construct name).2 ∧ guard ∈ constructed.held ∧
      constructed.Holds ∧ machine.Exec (body guard) constructed inner middle value := by
  rcases call_inv exec with ⟨opened, guard, constructed, rest, others, step, rfl, scope⟩
  rcases bind_inv scope with ⟨middle, inner, last, result, rfl, execBody, closing⟩
  rcases call_inv closing with ⟨before, answer, after, rest, -, -, rfl, ending⟩
  rcases ending.pure_inv with ⟨rfl, rfl⟩
  rcases step with ⟨rfl, rfl⟩
  rcases holds_of_interference others holds with ⟨held, -⟩
  refine ⟨_, opened, _, inner, _, middle, rfl, rfl, rfl, mem_cons_self, ?_, execBody⟩
  intro guard
  rw [Registry.construct_guards, count_cons, count_cons]
  exact Nat.add_le_add_right (held guard) _

/-- A locked part works with the tables that it read when it took the lock. -/
theorem withLock_exec {body : Resolver Handler → Resolution Handler Value} {value : Value}
    (exec : machine.Exec (withLock body) start events finish value) (holds : start.Holds) :
    ∃ resolver looked locked inner release middle,
      events = ⟨.lockShared, resolver, looked, locked⟩ :: (inner ++ [release]) ∧
      release.command = .unlockShared ∧
      locked.held = start.held ∧ locked.Holds ∧
      machine.Exec (body resolver) locked inner middle value := by
  rcases call_inv exec with ⟨looked, resolver, locked, rest, others, step, rfl, scope⟩
  rcases bind_inv scope with ⟨middle, inner, last, result, rfl, execBody, closing⟩
  rcases call_inv closing with ⟨before, answer, after, rest, -, -, rfl, ending⟩
  rcases ending.pure_inv with ⟨rfl, rfl⟩
  rcases step with ⟨rfl, rfl⟩
  rcases holds_of_interference others holds with ⟨held, same⟩
  exact ⟨_, looked, _, inner, _, middle, rfl, rfl, same, held, execBody⟩

theorem dispatchTier1_exec {entry : Tier1Entry Handler} {result : ResolveResult}
    (exec : machine.Exec (dispatchTier1 entry call ctx) start events finish result) :
    ∃ answer before after, Relation.ReflTransGen Interferes start before ∧
      events = [⟨.handle entry call.args ctx (call.callDepth + 1), answer, before, after⟩] := by
  rcases call_inv exec with ⟨before, answer, after, rest, others, -, rfl, ending⟩
  refine ⟨answer, before, after, others, ?_⟩
  cases answer with
  | error | ok => rw [ending.pure_inv.1]

/-- A denial is audited and runs nothing. -/
theorem emitRbacDenied_exec {rule : String} {value result : Value}
    (exec : machine.Exec (emitRbacDenied call ctx rule >>= fun _ => pure value) start events finish
      result) : (∀ event ∈ events, event.command.invokes = false) ∧ result = value := by
  rcases call_inv exec with ⟨before, answer, after, rest, -, -, rfl, ending⟩
  rcases ending.pure_inv with ⟨rfl, rfl⟩
  refine ⟨?_, rfl⟩
  intro event mem
  rcases mem_singleton.mp mem with rfl
  rfl

end Resolution

open Resolution Shared

variable {resolver : Resolver Handler} {event : Event Handler}

theorem Resolver.matched_tier1 {signature userId : String} {entry : Tier1Entry Handler}
    (found : resolver.tier1Map.lookup signature = some entry) :
    resolver.matched signature userId = some (.tier1 entry) := by
  simp [Resolver.matched, found]

theorem Resolver.matched_tier2 {signature userId : String} {entry : CachedCapability}
    (none1 : resolver.tier1Map.lookup signature = none)
    (found : (if userId.isEmpty then none
        else resolver.tier2Cache.lookup (userScopeKey signature userId)).or
      (resolver.tier2Cache.lookup signature) = some entry) :
    resolver.matched signature userId = some (.tier2 entry) := by
  simp only [Resolver.matched, none1, found, Option.map_none, Option.none_or, Option.map_some]

variable {call : CapabilityCall} {ctx : UserContext} {inner : List (Event Handler)}
  {finish : Shared Handler} {parsed : ParsedSignature}

/-- The checks of a resolver, put together for an event under its guard. -/
theorem Authorized.of_scope {release : Event Handler} {guard : DispatchGuard} {hit : Hit Handler}
    {opened constructed looked locked : Shared Handler}
    (parses : parseSignature call.signature = .ok parsed)
    (shallow : call.callDepth < maxCallDepth)
    (isGuard : guard = (opened.registry.construct parsed.namespace_).2)
    (admitted : guard.wasAdmitted)
    (inside : [⟨.lockShared, resolver, looked, locked⟩, event].Sublist inner)
    (held : guard ∈ event.before.held) (holds : event.before.Holds)
    (isMatch : resolver.matched call.signature ctx.userId = some hit)
    (runs : hit.Invokes call ctx parsed event.command) (enabled : hit.enabled)
    (permitted : checkPermission ctx.effectiveRules hit.rbacRule) :
    Authorized call ctx
      (⟨.construct parsed.namespace_, guard, opened, constructed⟩ :: (inner ++ [release])) event
      parsed guard resolver hit := by
  rcases checkPermission_iff.mp permitted with ⟨named, permitted⟩
  have isOpen : opened.registry.isFenced parsed.namespace_ = false ∧
      guard.name = parsed.namespace_ := by
    subst isGuard
    exact ⟨(Registry.construct_admitted_iff ..).mp admitted, Registry.name_construct admitted⟩
  refine ⟨parses, shallow, ⟨opened, constructed, looked, locked, ?_, isOpen.1⟩, admitted, isOpen.2,
    ?_, isMatch, runs, enabled, named, permitted⟩
  · exact (inside.trans (sublist_append_left inner [release])).cons_cons _
  · intro state others
    rcases holds_of_interference others holds with ⟨kept, same⟩
    exact kept.mem (same ▸ held)

theorem mem_scope {opening closing : Event Handler}
    (mem : event ∈ opening :: (inner ++ [closing])) (opens : opening.command.invokes = false)
    (closes : closing.command.invokes = false) (invokes : event.command.invokes) :
    event ∈ inner := by
  rcases mem_cons.mp mem with rfl | mem
  · simp [opens] at invokes
  rcases mem_append.mp mem with mem | mem
  · exact mem
  · rcases mem_singleton.mp mem with rfl
    simp [closes] at invokes

theorem pair_sublist_scope {opening closing : Event Handler} (mem : event ∈ inner) :
    [opening, event].Sublist (opening :: (inner ++ [closing])) :=
  (singleton_sublist.mpr (mem_append_left _ mem)).cons_cons _

/-- What the synchronous resolver runs, it has authorized. -/
theorem callCapability_authorized {start : Shared Handler} {events : List (Event Handler)}
    {result : ResolveResult}
    (exec : machine.Exec (callCapability call ctx) start events finish result)
    (holds : start.Holds) (mem : event ∈ events) (invokes : event.command.invokes) :
    ∃ parsed guard resolver hit, Authorized call ctx events event parsed guard resolver hit := by
  unfold callCapability at exec
  split at exec
  case h_1 => simp [exec.pure_inv.1] at mem
  case h_2 parsed parses =>
  split at exec
  case isTrue => simp [exec.pure_inv.1] at mem
  case isFalse shallow =>
  rcases withGuard_exec exec holds with ⟨guard, opened, constructed, inner, release, middle, rfl,
    quiet, isGuard, held, holds, scope⟩
  have inGuard := mem_scope mem rfl (by simp [quiet, Command.invokes]) invokes
  split at scope
  case isTrue => simp [scope.pure_inv.1] at inGuard
  case isFalse admitted =>
  rcases withLock_exec scope holds with ⟨resolver, looked, locked, body, unlock, ending, rfl,
    quiet, sameHeld, holds, scope⟩
  have inLock := mem_scope inGuard rfl (by simp [quiet, Command.invokes]) invokes
  split at scope
  case h_1 entry found =>
    split at scope
    case isTrue =>
      have silent := (emitRbacDenied_exec scope).1 event inLock
      simp [invokes] at silent
    case isFalse permitted =>
      rcases dispatchTier1_exec scope with ⟨answer, before, after, others, rfl⟩
      rcases mem_singleton.mp inLock with rfl
      rcases holds_of_interference others holds with ⟨kept, same⟩
      refine ⟨parsed, guard, resolver, .tier1 entry, ?_⟩
      exact .of_scope parses (by omega) isGuard (by simpa using admitted)
        (pair_sublist_scope inLock) (by rw [same, sameHeld]; exact held) kept
        (Resolver.matched_tier1 found) rfl rfl (by simpa [Hit.rbacRule] using permitted)
  case h_2 =>
    dsimp only at scope
    generalize Option.or _ _ = hit at scope
    cases hit with
    | none => simp [scope.pure_inv.1] at inLock
    | some entry =>
      dsimp only at scope
      split at scope
      case isTrue =>
        have silent := (emitRbacDenied_exec scope).1 event inLock
        simp [invokes] at silent
      case isFalse => simp [scope.pure_inv.1] at inLock

/-- How the part of the asynchronous resolver under the lock can end. -/
inductive Ended (call : CapabilityCall) (ctx : UserContext) (parsed : ParsedSignature)
    (resolver : Resolver Handler) (locked : Shared Handler) (body : List (Event Handler)) :
    LockScope → Prop where
  | silent (result : ResolveResult) (quiet : ∀ event ∈ body, event.command.invokes = false) :
      Ended call ctx parsed resolver locked body (.returned result)
  | handled (result : ResolveResult) (entry : Tier1Entry Handler) (event : Event Handler)
      (only : body = [event]) (reached : Relation.ReflTransGen Interferes locked event.before)
      (runs : (Hit.tier1 entry).Invokes call ctx parsed event.command)
      (isMatch : resolver.matched call.signature ctx.userId = some (.tier1 entry))
      (permitted : checkPermission ctx.effectiveRules entry.rbacRule = true) :
      Ended call ctx parsed resolver locked body (.returned result)
  | extension (entry : CachedCapability) (quiet : body = [])
      (isMatch : resolver.matched call.signature ctx.userId = some (.tier2 entry))
      (provider : entry.providerType = "extension") (enabled : entry.enabled = true)
      (permitted : checkPermission ctx.effectiveRules entry.rbacRule = true) :
      Ended call ctx parsed resolver locked body
        (.extensionDispatch entry.extensionName parsed.function)

/-- Every branch of the part under the lock ends in one of the three ways. -/
theorem lockScope_ended {locked : Shared Handler} {body : List (Event Handler)} {scope : LockScope}
    (exec : machine.Exec (lockScope call ctx parsed resolver) locked body finish scope) :
    Ended call ctx parsed resolver locked body scope := by
  unfold lockScope at exec
  split at exec
  case h_1 entry found =>
    split at exec
    case isTrue =>
      rcases emitRbacDenied_exec exec with ⟨quiet, rfl⟩
      exact .silent _ quiet
    case isFalse permitted =>
      rcases bind_inv exec with ⟨middle, first, second, result, rfl, handling, ending⟩
      rcases ending.pure_inv with ⟨rfl, rfl⟩
      rcases dispatchTier1_exec handling with ⟨answer, before, after, others, rfl⟩
      exact .handled result entry _ rfl others rfl (Resolver.matched_tier1 found)
        (by simpa using permitted)
  case h_2 missing =>
    dsimp only at exec
    generalize found : Option.or _ _ = hit at exec
    cases hit with
    | none =>
      rcases exec.pure_inv with ⟨rfl, rfl⟩
      exact .silent _ (by simp)
    | some entry =>
      dsimp only at exec
      split at exec
      case isTrue =>
        rcases emitRbacDenied_exec exec with ⟨quiet, rfl⟩
        exact .silent _ quiet
      case isFalse permitted =>
        split at exec
        case isTrue =>
          rcases exec.pure_inv with ⟨rfl, rfl⟩
          exact .silent _ (by simp)
        case isFalse provider =>
          split at exec
          case isTrue =>
            rcases exec.pure_inv with ⟨rfl, rfl⟩
            exact .silent _ (by simp)
          case isFalse enabled =>
            rcases exec.pure_inv with ⟨rfl, rfl⟩
            exact .extension entry rfl (Resolver.matched_tier2 missing found)
              (by simpa using provider) (by simpa using enabled) (by simpa using permitted)

/-- What the asynchronous resolver runs, under the lock or after it, it has authorized. -/
theorem callCapabilityAsync_authorized {start : Shared Handler} {events : List (Event Handler)}
    {result : ResolveResult × Option PromiseRejection}
    (exec : machine.Exec (callCapabilityAsync call ctx) start events finish result)
    (holds : start.Holds) (mem : event ∈ events) (invokes : event.command.invokes) :
    ∃ parsed guard resolver hit, Authorized call ctx events event parsed guard resolver hit := by
  unfold callCapabilityAsync at exec
  split at exec
  case h_1 => simp [exec.pure_inv.1] at mem
  case h_2 parsed parses =>
  split at exec
  case isTrue => simp [exec.pure_inv.1] at mem
  case isFalse shallow =>
  rcases withGuard_exec exec holds with ⟨guard, opened, constructed, inner, release, middle, rfl,
    quiet, isGuard, held, holds, scope⟩
  have inGuard := mem_scope mem rfl (by simp [quiet, Command.invokes]) invokes
  split at scope
  case isTrue => simp [scope.pure_inv.1] at inGuard
  case isFalse admitted =>
  rcases bind_inv scope with ⟨unlocked, locking, dispatching, ended, rfl, inLock,
    afterLock⟩
  rcases withLock_exec inLock holds with ⟨resolver, looked, locked, body, unlock, ending, rfl,
    quietLock, sameHeld, lockedHolds, underLock⟩
  have admits : guard.wasAdmitted := by simpa using admitted
  have depth : call.callDepth < maxCallDepth := by omega
  -- the events of the lock scope, unless the extension is dispatched after it
  have inScope (returned : dispatching = []) : event ∈ body := by
    subst returned
    rw [append_nil] at inGuard
    exact mem_scope inGuard rfl (by simp [quietLock, Command.invokes]) invokes
  cases lockScope_ended underLock with
  | silent result silent =>
    have silence := silent event (inScope afterLock.pure_inv.1)
    simp [invokes] at silence
  | handled result entry handled only reached runs isMatch permitted =>
    subst only
    rcases afterLock.pure_inv with ⟨rfl, -⟩
    rcases mem_singleton.mp (inScope rfl) with rfl
    rcases holds_of_interference reached lockedHolds with ⟨kept, same⟩
    refine ⟨parsed, guard, resolver, .tier1 entry, ?_⟩
    exact .of_scope parses depth isGuard admits
      (by rw [append_nil]; exact pair_sublist_scope (mem_singleton_self _))
      (by rw [same, sameHeld]; exact held) kept isMatch runs rfl permitted
  | extension entry none_ isMatch provider enabled permitted =>
    subst none_
    have kept := holds_of_exec inLock (by simp [quietLock, keepsGuards]) holds
    rcases call_inv afterLock with ⟨before, answer, after, rest, others, -, rfl,
      returning⟩
    have last : rest = [] := by
      cases answer with
      | ok | error => exact returning.pure_inv.1
    subst last
    rcases holds_of_interference others kept.1 with ⟨holdsBefore, sameBefore⟩
    have isDispatch : event = ⟨.dispatch entry.extensionName parsed.function call.args ctx
        call.callDepth, answer, before, after⟩ := by
      simp only [nil_append, cons_append, mem_cons, not_mem_nil, or_false] at inGuard
      rcases inGuard with rfl | rfl | rfl
      · cases invokes
      · simp [quietLock, Command.invokes] at invokes
      · rfl
    subst isDispatch
    refine ⟨parsed, guard, resolver, .tier2 entry, ?_⟩
    exact .of_scope parses depth isGuard admits
      ((singleton_sublist.mpr (by simp)).cons_cons _)
      (by rw [sameBefore, kept.2]; exact held) holdsBefore isMatch ⟨provider, rfl⟩ enabled
      permitted

/-- What answers the commands of a resolver: the process, its handlers and its extensions. -/
abbrev Answers (Handler State : Type) :=
  (command : Command Handler) → State → command.Answer × State

section Agreement

variable {State : Type} (answer : Answers Handler State) (start : State)

def guarded (namespace_ : String) : State := (answer (.construct namespace_) start).2

def unlocked (namespace_ : String) : State :=
  (answer .unlockShared (answer .lockShared (guarded answer start namespace_)).2).2

/-- The input reaches an enabled entry of an extension. -/
structure ReachesExtension (call : CapabilityCall) (ctx : UserContext) (parsed : ParsedSignature)
    (entry : CachedCapability) : Prop where
  parses : parseSignature call.signature = .ok parsed
  shallow : call.callDepth < maxCallDepth
  admitted : DispatchGuard.wasAdmitted (answer (.construct parsed.namespace_) start).1 = true
  isMatch : Resolver.matched (answer .lockShared (guarded answer start parsed.namespace_)).1
    call.signature ctx.userId = some (.tier2 entry)
  permitted : checkPermission ctx.effectiveRules entry.rbacRule = true
  provider : entry.providerType = "extension"
  enabled : entry.enabled = true

def extensionResult : Except PromiseRejection Json → ResolveResult × Option PromiseRejection
  | .ok data => (.ok { data, resolvedTier := "tier2", providerType := "extension" }, none)
  | .error rejection => (.error .extensionDispatchFailed, some rejection)

theorem run_withGuard (name : String) (body : DispatchGuard → Resolution Handler Value) :
    (withGuard name body).run answer start =
      let (value, state) := (body (answer (.construct name) start).1).run answer
        (guarded answer start name)
      (value, (answer (.destroy (answer (.construct name) start).1) state).2) := by
  simp [withGuard, Resolution.issue, guarded]

theorem run_withLock (body : Resolver Handler → Resolution Handler Value) :
    (withLock body).run answer start =
      let (value, state) := (body (answer .lockShared start).1).run answer
        (answer .lockShared start).2
      (value, (answer .unlockShared state).2) := by
  simp [withLock, Resolution.issue]

/-- An enabled entry of an extension is refused by one resolver and dispatched by the other. -/
theorem resolvers_on_extension {entry : CachedCapability}
    (reaches : ReachesExtension answer start call ctx parsed entry) :
    ((callCapability call ctx).run answer start).1 = .error .asyncRequired ∧
      ((callCapabilityAsync call ctx).run answer start).1 =
        extensionResult (answer (.dispatch entry.extensionName parsed.function call.args ctx
          call.callDepth) (unlocked answer start parsed.namespace_)).1 := by
  have isMatch := reaches.isMatch
  unfold Resolver.matched at isMatch
  cases missing : (answer .lockShared (guarded answer start parsed.namespace_)).1.tier1Map.lookup
      call.signature with
  | some entry1 => simp [missing] at isMatch
  | none =>
    simp only [missing, Option.map_none, Option.none_or, Option.map_eq_some_iff,
      Hit.tier2.injEq, exists_eq_right] at isMatch
    have deep : ¬maxCallDepth ≤ call.callDepth := by
      have shallow := reaches.shallow
      omega
    constructor
    · simp only [callCapability, reaches.parses, deep, if_false, run_withGuard,
        reaches.admitted, Bool.not_true, Bool.false_eq_true, run_withLock, missing, isMatch,
        reaches.permitted, Program.run_pure, dispatchTier2, reaches.provider, reaches.enabled,
        if_true, String.reduceEq]
    · simp only [callCapabilityAsync, reaches.parses, deep, if_false, run_withGuard,
        reaches.admitted, Bool.not_true, Bool.false_eq_true, Program.run_bind, run_withLock,
        lockScope, missing, isMatch, reaches.permitted, Program.run_pure, reaches.provider,
        reaches.enabled, ne_eq, not_true_eq_false, Resolution.issue, Program.call_bind,
        Program.run_issue, unlocked]
      generalize answer (.dispatch entry.extensionName parsed.function call.args ctx
        call.callDepth) _ = out
      rcases out with ⟨rejection | data, state⟩ <;> rfl

/-- On every other input the resolvers agree, in their outcome and in what they leave behind. -/
theorem resolvers_agree
    (other : ∀ parsed entry, ¬ReachesExtension answer start call ctx parsed entry) :
    (callCapabilityAsync call ctx).run answer start =
      ((((callCapability call ctx).run answer start).1, none),
        ((callCapability call ctx).run answer start).2) := by
  unfold callCapability callCapabilityAsync
  cases parses : parseSignature call.signature with
  | error => rfl
  | ok parsed =>
  by_cases deep : maxCallDepth ≤ call.callDepth
  · simp [deep]
  simp only [deep, if_false, run_withGuard]
  cases admitted : DispatchGuard.wasAdmitted (answer (.construct parsed.namespace_) start).1 with
  | false => simp
  | true =>
  simp only [Bool.not_true, Bool.false_eq_true, if_false, Program.run_bind, run_withLock, lockScope]
  have reaches := other parsed
  generalize tables : answer .lockShared (guarded answer start parsed.namespace_) = locked at *
  cases found : locked.1.tier1Map.lookup call.signature with
  | some entry =>
    cases permitted : checkPermission ctx.effectiveRules entry.rbacRule with
    | false => simp [permitted]
    | true =>
      simp [permitted]
  | none =>
    generalize second : Option.or _ _ = hit
    cases hit with
    | none => rfl
    | some entry =>
      cases permitted : checkPermission ctx.effectiveRules entry.rbacRule with
      | false =>
        simp [permitted]
      | true =>
        simp only [permitted, Bool.not_true, Bool.false_eq_true, if_false, Program.run_pure]
        by_cases provider : entry.providerType = "extension"
        · cases enabled : entry.enabled with
          | false => simp [provider, dispatchTier2, enabled]
          | true =>
            refine absurd ?_ (reaches entry)
            refine ⟨parses, by omega, admitted, ?_, permitted, provider, enabled⟩
            rw [tables]
            exact Resolver.matched_tier2 found second
        · simp [provider]

end Agreement

/-- A capability runs only for a call that passes every check, under a guard of its namespace
that lives as long as it runs, and the resolvers differ only on entries of extensions. -/
theorem capabilities_fail_closed (call : CapabilityCall) (ctx : UserContext) :
    (∀ (resolver : Resolver Handler) registry events finish result event,
      machine.Exec (callCapability call ctx) ⟨resolver, registry, [], false⟩ events finish
        result → event ∈ events → event.command.invokes = true →
        ∃ parsed guard tables hit, Authorized call ctx events event parsed guard tables hit) ∧
    (∀ (resolver : Resolver Handler) registry events finish result event,
      machine.Exec (callCapabilityAsync call ctx) ⟨resolver, registry, [], false⟩ events finish
        result → event ∈ events → event.command.invokes = true →
        ∃ parsed guard tables hit, Authorized call ctx events event parsed guard tables hit) ∧
    ∀ (State : Type) (answer : Answers Handler State) (start : State),
      (∀ parsed entry, ReachesExtension answer start call ctx parsed entry →
        ((callCapability call ctx).run answer start).1 = .error .asyncRequired ∧
        ((callCapabilityAsync call ctx).run answer start).1 =
          extensionResult (answer (.dispatch entry.extensionName parsed.function call.args ctx
            call.callDepth) (unlocked answer start parsed.namespace_)).1) ∧
      ((∀ parsed entry, ¬ReachesExtension answer start call ctx parsed entry) →
        (callCapabilityAsync call ctx).run answer start =
          ((((callCapability call ctx).run answer start).1, none),
            ((callCapability call ctx).run answer start).2)) := by
  have holds (resolver : Resolver Handler) (registry : Registry) :
      (⟨resolver, registry, [], false⟩ : Shared Handler).Holds := fun guard => Nat.zero_le _
  refine ⟨?_, ?_, fun State answer start => ⟨?_, ?_⟩⟩
  · intro resolver registry events finish result event exec mem invokes
    exact callCapability_authorized exec (holds resolver registry) mem invokes
  · intro resolver registry events finish result event exec mem invokes
    exact callCapabilityAsync_authorized exec (holds resolver registry) mem invokes
  · intro parsed entry reaches
    exact resolvers_on_extension answer start reaches
  · intro other
    exact resolvers_agree answer start other

def calmAnswers : Answers Unit (Shared Unit)
  | .construct name, state =>
    ((state.registry.construct name).2,
      { state with
        registry := (state.registry.construct name).1
        held := (state.registry.construct name).2 :: state.held })
  | .destroy guard, state =>
    ((), { state with
      registry := state.registry.destroy guard, held := state.held.erase guard })
  | .lockShared, state => (state.resolver, { state with reading := true })
  | .unlockShared, state => ((), { state with reading := false })
  | .audit _, state => ((), state)
  | .handle .., state => (.ok .null, state)
  | .dispatch .., state => (.ok .null, state)

/-- The answers without other threads are steps of the machine. -/
theorem calmAnswers_performs (command : Command Unit) (state : Shared Unit) :
    state.Performs command (calmAnswers command state).1 (calmAnswers command state).2 := by
  cases command with
  | construct | lockShared => exact ⟨rfl, rfl⟩
  | destroy | unlockShared | audit => exact rfl
  | handle | dispatch => exact .refl

def noteEntry : CachedCapability where
  signature := "notes:1:list"
  providerType := "extension"
  extensionName := "notes"
  scope := "instance"
  userId := ""
  rbacRule := "notes.list"

def calmProcess : Shared Unit where
  resolver :=
    { tier1Map := AList.insert "kernel:1:log" ⟨(), "kernel.log"⟩ ∅
      tier2Cache := AList.insert "notes:1:list" noteEntry ∅ }
  registry := .empty

def logCall : CapabilityCall where
  signature := "kernel:1:log"
  args := .null

def noteCall : CapabilityCall where
  signature := "notes:1:list"
  args := .null

def adminContext : UserContext where
  userId := ""
  username := "root"
  authType := "session"
  effectiveRules := ["kernel.admin"]
  sessionId := ""
  ipAddress := ""

theorem noteCall_reaches : ReachesExtension calmAnswers calmProcess noteCall adminContext
    ⟨"notes", 1, "list"⟩ noteEntry where
  parses := by decide +kernel
  shallow := by decide
  admitted := by decide +kernel
  isMatch := rfl
  permitted := by decide +kernel
  provider := rfl
  enabled := rfl

theorem logCall_not_reaches (parsed : ParsedSignature) (entry : CachedCapability) :
    ¬ReachesExtension calmAnswers calmProcess logCall adminContext parsed entry := by
  intro reaches
  have handled : Resolver.matched
      (calmAnswers .lockShared (guarded calmAnswers calmProcess parsed.namespace_)).1
      logCall.signature adminContext.userId = some (.tier1 ⟨(), "kernel.log"⟩) := rfl
  cases handled.symm.trans reaches.isMatch

theorem calmCalls_fail_closed :
    (∃ event ∈ Machine.trace calmAnswers (callCapability logCall adminContext) calmProcess,
      event.command.invokes = true ∧ ∃ parsed guard tables hit, Authorized logCall adminContext
        (Machine.trace calmAnswers (callCapability logCall adminContext) calmProcess) event
        parsed guard tables hit) ∧
    (∃ event ∈ Machine.trace calmAnswers (callCapabilityAsync noteCall adminContext) calmProcess,
      event.command.invokes = true ∧ ∃ parsed guard tables hit, Authorized noteCall adminContext
        (Machine.trace calmAnswers (callCapabilityAsync noteCall adminContext) calmProcess) event
        parsed guard tables hit) ∧
    ((callCapability noteCall adminContext).run calmAnswers calmProcess).1 =
      .error .asyncRequired ∧
    ((callCapabilityAsync logCall adminContext).run calmAnswers calmProcess).1 =
      (((callCapability logCall adminContext).run calmAnswers calmProcess).1, none) := by
  have logs : ∃ event ∈ Machine.trace calmAnswers (callCapability logCall adminContext)
      calmProcess, event.command.invokes = true := ⟨_, .tail _ (.tail _ (.head _)), rfl⟩
  have notes : ∃ event ∈ Machine.trace calmAnswers (callCapabilityAsync noteCall adminContext)
      calmProcess, event.command.invokes = true :=
    ⟨_, .tail _ (.tail _ (.tail _ (.head _))), rfl⟩
  rcases logs with ⟨logged, isLogged, logInvokes⟩
  rcases notes with ⟨noted, isNoted, noteInvokes⟩
  refine ⟨⟨logged, isLogged, logInvokes, ?_⟩, ⟨noted, isNoted, noteInvokes, ?_⟩, ?_, ?_⟩
  · exact (capabilities_fail_closed logCall adminContext).1 _ _ _ _ _ _
      (.of_run calmAnswers_performs _ calmProcess) isLogged logInvokes
  · exact (capabilities_fail_closed noteCall adminContext).2.1 _ _ _ _ _ _
      (.of_run calmAnswers_performs _ calmProcess) isNoted noteInvokes
  · exact ((capabilities_fail_closed noteCall adminContext).2.2 _ calmAnswers calmProcess).1 _ _
      noteCall_reaches |>.1
  · rw [((capabilities_fail_closed logCall adminContext).2.2 _ calmAnswers calmProcess).2
      logCall_not_reaches]

end Plinth.Capabilities
