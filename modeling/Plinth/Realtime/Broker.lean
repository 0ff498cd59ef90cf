import Plinth.Core.Transition
import Plinth.Rbac.ChannelRules

/-!
# Deliveries to JavaScript subscribers

The registry of the subscriptions that JavaScript contexts hold. A dispatch queues one delivery
for each matching registration on the loop of its owner, where the registration is looked up again
before the callback is called. Contexts and owners are named by their addresses.
-/

namespace Plinth.Realtime.Broker

open Core List Rbac

structure Subscription where
  channel : String
  callbackId : ℤ

structure BcRegistration where
  context : ℕ
  channels : Table Subscription String Subscription.channel := .empty
  owner : Option ℕ := none
  extensionName : String := ""

abbrev BcRegistry := Table BcRegistration ℕ BcRegistration.context

structure Delivery where
  identity : ℕ
  owner : ℕ
  channel : String

section Registry

variable (registry : BcRegistry) (bc : ℕ)

def dropBcSubscriptions : BcRegistry := registry.filter (·.context ≠ bc)

def registerJsSubscription (maxSubs : ℕ) (owner : Option ℕ) (extensionName channel : String)
    (callbackId : ℤ) : BcRegistry × Bool :=
  let registration := (registry.find? bc).getD { context := bc }
  if maxSubs ≤ registration.channels.rows.length &&
      (registration.channels.find? channel).isNone then
    (if registration.channels.rows.isEmpty then dropBcSubscriptions registry bc else registry,
      false)
  else
    (registry.upsert { registration with
      channels := registration.channels.upsert ⟨channel, callbackId⟩, owner, extensionName }, true)

def unregisterJsSubscription (channel : String) : BcRegistry :=
  match registry.find? bc with
  | none => registry
  | some registration =>
    let channels := registration.channels.filter (·.channel ≠ channel)
    if channels.rows.isEmpty then dropBcSubscriptions registry bc
    else registry.upsert { registration with channels }

def drainExtension (name : String) : BcRegistry :=
  (registry.update (fun registration => { registration with
    channels := registration.channels.filter (!channelBelongsToExtension ·.channel name) })
    fun _ => rfl).filter fun registration =>
      registration.extensionName ≠ name && !registration.channels.rows.isEmpty

/-- The deliveries that a dispatch queues, to the owners that are alive and bound to a loop and
for which a task was admitted. -/
def dispatchToJsSubscribers (channel : String) (admits : ℕ → Bool) : List Delivery :=
  (registry.rows.filter fun r => (r.channels.find? channel).isSome && admits r.context).filterMap
    fun r => r.owner.map fun owner => ⟨r.context, owner, channel⟩

def delivers (delivery : Delivery) : Bool :=
  (registry.find? delivery.identity).any fun found =>
    found.owner = some delivery.owner && (found.channels.find? delivery.channel).isSome

end Registry

inductive Call where
  | register (bc : ℕ) (owner : Option ℕ) (extensionName channel : String) (callbackId : ℤ)
  | unregister (bc : ℕ) (channel : String)
  | drop (bc : ℕ)
  | drain (name : String)

def Call.apply (maxSubs : ℕ) (registry : BcRegistry) : Call → BcRegistry
  | .register bc owner extensionName channel callbackId =>
    (registerJsSubscription registry bc maxSubs owner extensionName channel callbackId).1
  | .unregister bc channel => unregisterJsSubscription registry bc channel
  | .drop bc => dropBcSubscriptions registry bc
  | .drain name => drainExtension registry name

inductive Action where
  | call (call : Call)
  | dispatch (channel : String)
  | check (delivery : Delivery)
  | invoke (delivery : Delivery)

def Action.registers : Action → Bool
  | .call (.register ..) => true
  | _ => false

/-- A delivery that has passed its check calls its callback later. -/
structure State where
  registry : BcRegistry := .empty
  queued : List Delivery := []
  checked : List Delivery := []
  invoked : List Delivery := []

/-- The owner's gate refuses a visit at any time, and a cancelled context calls nothing. -/
inductive Step (maxSubs : ℕ) : State → Action → State → Prop where
  | call {s} (call) : Step maxSubs s (.call call)
      { s with registry := call.apply maxSubs s.registry }
  | dispatch {s channel admits} : Step maxSubs s (.dispatch channel)
      { s with queued := s.queued ++ dispatchToJsSubscribers s.registry channel admits }
  | refused {s delivery before after} (next : s.queued = before ++ delivery :: after) :
      Step maxSubs s (.check delivery) { s with queued := before ++ after }
  | passed {s delivery before after} (next : s.queued = before ++ delivery :: after)
      (passes : delivers s.registry delivery) : Step maxSubs s (.check delivery)
        { s with queued := before ++ after, checked := s.checked ++ [delivery] }
  | cancelled {s delivery before after} (next : s.checked = before ++ delivery :: after) :
      Step maxSubs s (.invoke delivery) { s with checked := before ++ after }
  | invoked {s delivery before after} (next : s.checked = before ++ delivery :: after) :
      Step maxSubs s (.invoke delivery)
        { s with checked := before ++ after, invoked := s.invoked ++ [delivery] }

def system (maxSubs : ℕ) : TransitionSystem State Action where
  initial s := s = {}
  step := Step maxSubs

/-- A subscription with what its context is registered with. -/
structure Entry extends Subscription where
  context : ℕ
  owner : Option ℕ
  extensionName : String

/-- The context and the owner that a delivery was queued for are those of the entry. -/
def Delivery.IsFor (delivery : Delivery) (entry : Entry) : Prop :=
  entry.context = delivery.identity ∧ entry.owner = some delivery.owner ∧
    entry.channel = delivery.channel

/-- The registry as the set of its subscriptions. -/
def Registered (registry : BcRegistry) (entry : Entry) : Prop :=
  ∃ r ∈ registry, r.context = entry.context ∧ r.owner = entry.owner ∧
    r.extensionName = entry.extensionName ∧ entry.toSubscription ∈ r.channels

def Bounded (maxSubs : ℕ) (registry : BcRegistry) : Prop :=
  ∀ r ∈ registry, r.channels.rows ≠ [] ∧ r.channels.rows.length ≤ maxSubs

/-- A callback is called by a delivery that passed its check, at which it was registered. -/
def Checks (s : State) (action : Action) (next : State) : Prop :=
  (next.checked ++ next.invoked).Subperm (s.checked ++ s.invoked) ∨
    ∃ delivery, action = .check delivery ∧ delivers s.registry delivery ∧
      next.checked = s.checked ++ [delivery] ∧ next.invoked = s.invoked

variable {registry : BcRegistry} {maxSubs : ℕ} {entry : Entry} {s next : State} {action : Action}

/-- A delivery runs exactly if its entry is still registered. -/
theorem delivers_iff {delivery : Delivery} :
    delivers registry delivery ↔ ∃ entry, Registered registry entry ∧ delivery.IsFor entry := by
  simp only [delivers, Option.any_eq_true, Bool.and_eq_true, decide_eq_true_eq,
    Option.isSome_iff_exists, Table.find?_eq_some]
  constructor
  · rintro ⟨r, ⟨mem, same⟩, isOwner, subscription, subscribed, isChannel⟩
    exact ⟨⟨subscription, _, _, _⟩, ⟨r, mem, rfl, rfl, rfl, subscribed⟩, same, isOwner, isChannel⟩
  · rintro ⟨entry, ⟨r, mem, same, isOwner, -, subscribed⟩, isContext, owned, isChannel⟩
    exact ⟨r, ⟨mem, same.trans isContext⟩, isOwner.trans owned, _, subscribed, isChannel⟩

/-- A drain takes the entries of the extension and those on its channels. -/
theorem registered_drainExtension {name : String} :
    Registered (drainExtension registry name) entry ↔ Registered registry entry ∧
      entry.extensionName ≠ name ∧ channelBelongsToExtension entry.channel name = false := by
  simp only [Registered, drainExtension, Table.mem_filter, Table.mem_update, Bool.and_eq_true,
    decide_eq_true_eq]
  constructor
  · rintro ⟨_, ⟨⟨r, mem, rfl⟩, other, -⟩, isContext, isOwner, isName, left⟩
    rcases Table.mem_filter.mp left with ⟨subscribed, foreign⟩
    exact ⟨⟨r, mem, isContext, isOwner, isName, subscribed⟩, isName ▸ other, by simpa using foreign⟩
  · rintro ⟨⟨r, mem, isContext, isOwner, isName, subscribed⟩, other, foreign⟩
    have left : entry.toSubscription ∈
        r.channels.filter (!channelBelongsToExtension ·.channel name) :=
      Table.mem_filter.mpr ⟨subscribed, by simp [foreign]⟩
    exact ⟨_, ⟨⟨r, mem, rfl⟩, isName ▸ other, by simpa using ne_nil_of_mem left⟩, isContext,
      isOwner, isName, left⟩

theorem Bounded.drop {bc : ℕ} (bounded : Bounded maxSubs registry) :
    Bounded maxSubs (dropBcSubscriptions registry bc) :=
  fun r mem => bounded r (Table.mem_filter.mp mem).1

theorem Bounded.upsert (bounded : Bounded maxSubs registry) {r : BcRegistration}
    (nonempty : r.channels.rows ≠ []) (few : r.channels.rows.length ≤ maxSubs) :
    Bounded maxSubs (registry.upsert r) := by
  intro other mem
  rcases Table.mem_upsert.mp mem with rfl | ⟨mem, -⟩
  · exact ⟨nonempty, few⟩
  · exact bounded other mem

theorem Bounded.apply (bounded : Bounded maxSubs registry) (call : Call) :
    Bounded maxSubs (call.apply maxSubs registry) := by
  cases call with
  | register bc owner extensionName channel callbackId =>
    simp only [Call.apply, registerJsSubscription]
    split
    · dsimp only
      split
      · exact bounded.drop
      · exact bounded
    case isFalse room =>
    have few : ((registry.find? bc).getD { context := bc }).channels.rows.length ≤ maxSubs := by
      cases found : registry.find? bc with
      | none => exact Nat.zero_le _
      | some r => exact (bounded r (Table.find?_eq_some.mp found).1).2
    simp only [Bool.and_eq_true, decide_eq_true_eq, Option.isNone_iff_eq_none, not_and] at room
    apply bounded.upsert
    · exact ne_nil_of_mem (Table.mem_upsert.mpr (.inl rfl))
    · rw [Table.length_upsert]
      split
      · exact few
      case isFalse absent =>
        exact Nat.lt_of_not_le fun full => room full (Option.not_isSome_iff_eq_none.mp absent)
  | unregister bc channel =>
    simp only [Call.apply, unregisterJsSubscription]
    split
    · exact bounded
    case h_2 r found =>
    split
    · exact bounded.drop
    case isFalse left =>
      refine bounded.upsert (by simpa using left) ?_
      exact (length_filter_le ..).trans (bounded r (Table.find?_eq_some.mp found).1).2
  | drop => exact bounded.drop
  | drain =>
    intro r mem
    rcases Table.mem_filter.mp mem with ⟨drained, kept⟩
    rcases Table.mem_update.mp drained with ⟨old, wasMem, rfl⟩
    simp only [Bool.and_eq_true, Bool.not_eq_true', isEmpty_eq_false_iff] at kept
    exact ⟨kept.2, (length_filter_le ..).trans (bounded old wasMem).2⟩

/-- No call but a registration adds an entry. -/
theorem registered_of_apply {call : Call} (quiet : (Action.call call).registers = false)
    (registered : Registered (call.apply maxSubs registry) entry) : Registered registry entry := by
  have dropped {bc : ℕ} (registered : Registered (dropBcSubscriptions registry bc) entry) :
      Registered registry entry :=
    registered.imp fun r ⟨mem, holds⟩ => ⟨(Table.mem_filter.mp mem).1, holds⟩
  cases call with
  | register => cases quiet
  | unregister bc channel =>
    simp only [Call.apply, unregisterJsSubscription] at registered
    split at registered
    · exact registered
    case h_2 old found =>
    split at registered
    · exact dropped registered
    rcases registered with ⟨r, mem, holds⟩
    rcases Table.mem_upsert.mp mem with rfl | ⟨mem, -⟩
    · rcases holds with ⟨isContext, isOwner, isName, subscribed⟩
      exact ⟨old, (Table.find?_eq_some.mp found).1, isContext, isOwner, isName,
        (Table.mem_filter.mp subscribed).1⟩
    · exact ⟨r, mem, holds⟩
  | drop => exact dropped registered
  | drain => exact (registered_drainExtension.mp registered).1

theorem Step.apply (step : Step maxSubs s action next) : next.registry = s.registry ∨
    ∃ call, action = .call call ∧ next.registry = call.apply maxSubs s.registry := by
  cases step with
  | call call => exact .inr ⟨call, rfl, rfl⟩
  | _ => exact .inl rfl

/-- Only a check that delivers adds a delivery. -/
theorem Step.checks (step : Step maxSubs s action next) : Checks s action next := by
  cases step with
  | call | dispatch | refused => exact .inl (.refl _)
  | passed _ passes => exact .inr ⟨_, rfl, passes, rfl, rfl⟩
  | cancelled isNext =>
    rw [Checks, isNext]
    exact .inl (((sublist_cons_self ..).append_left _).append_right _).subperm
  | @invoked delivery before after isNext =>
    have moved : (after ++ (s.invoked ++ [delivery])).Perm (delivery :: (after ++ s.invoked)) := by
      rw [← append_assoc]
      exact perm_append_singleton ..
    rw [Checks, isNext]
    exact .inl (by simpa using (moved.append_left before).subperm)

/-- The registry is bounded in every reachable state, a callback is called only after a check that
found its owner registered for the channel, and a drain takes away the registrations of the
extension and those on its channels, and no others, for as long as nothing is registered. -/
theorem jsDelivery_sound (reached : (system maxSubs).Reachable s) :
    Bounded maxSubs s.registry ∧
    (∀ action next, Step maxSubs s action next → Checks s action next) ∧
    ∀ name next, Step maxSubs s (.call (.drain name)) next →
      (∀ entry, Registered next.registry entry ↔ Registered s.registry entry ∧
        entry.extensionName ≠ name ∧ channelBelongsToExtension entry.channel name = false) ∧
      ∀ later finish, (system maxSubs).Run next later finish →
        (∀ action ∈ later, action.registers = false) →
          (∀ entry, Registered finish.registry entry → Registered next.registry entry) ∧
          ∀ delivery, delivers finish.registry delivery →
            ∃ entry, Registered next.registry entry ∧ delivery.IsFor entry := by
  refine ⟨?_, fun _ _ => Step.checks, ?_⟩
  · refine reached.invariant (fun s => Bounded maxSubs s.registry) ?_ ?_
    · rintro _ rfl r ⟨⟩
    · intro s action next bounded step
      rcases Step.apply step with same | ⟨call, -, applied⟩
      · rwa [same]
      · rw [applied]
        exact bounded.apply call
  rintro name next ⟨⟩
  refine ⟨fun _ => registered_drainExtension, fun later finish run quiet => ?_⟩
  have kept := run.preserves_of_labels (fun t => ∀ entry, Registered t.registry entry →
    Registered (drainExtension s.registry name) entry) ?_ quiet fun _ => id
  · refine ⟨kept, fun delivery passes => ?_⟩
    rcases delivers_iff.mp passes with ⟨entry, registered, isFor⟩
    exact ⟨entry, kept entry registered, isFor⟩
  · intro t action next quiet kept step entry registered
    rcases Step.apply step with same | ⟨call, rfl, applied⟩
    · exact kept entry (same ▸ registered)
    · rw [applied] at registered
      exact kept entry (registered_of_apply quiet registered)

/-- A delivery is queued for one of two registrations and would pass its check; after the drain of
its extension no run delivers it. -/
theorem jsDelivery_one : ∃ s next, (system 2).Reachable s ∧ s.registry.rows.length = 2 ∧
    s.queued = [⟨1, 4, "plinth:ext:notes:saved"⟩] ∧
    delivers s.registry ⟨1, 4, "plinth:ext:notes:saved"⟩ = true ∧ Bounded 2 s.registry ∧
    Step 2 s (.call (.drain "notes")) next ∧
    ∀ later finish, (system 2).Run next later finish →
      (∀ action ∈ later, action.registers = false) →
      delivers finish.registry ⟨1, 4, "plinth:ext:notes:saved"⟩ = false := by
  have reached : (system 2).Reachable _ := ⟨{}, _, rfl,
    .head (.call (.register 1 (some 4) "notes" "plinth:ext:notes:saved" 7)) <|
    .head (.call (.register 2 (some 5) "crm" "plinth:ext:crm:merged" 8)) <|
    .single (@Step.dispatch 2 _ "plinth:ext:notes:saved" fun _ => true)⟩
  rcases jsDelivery_sound reached with ⟨bounded, -, drains⟩
  rcases drains "notes" _ (.call (.drain "notes")) with ⟨left, quiet⟩
  refine ⟨_, _, reached, rfl, rfl, by decide, bounded, .call (.drain "notes"), ?_⟩
  intro later finish run isQuiet
  by_contra delivered
  rcases (quiet later finish run isQuiet).2 _ (by simpa using delivered) with
    ⟨entry, registered, -, -, isChannel⟩
  rw [left, isChannel] at registered
  exact absurd registered.2.2 (by decide)

end Plinth.Realtime.Broker
