import Plinth.ExtensionHttp.Arbiter

/-!
# Safety of the response arbiter

`Effect` lists once what an operation can do, with the guard under which it does it. The
monotone part of the state (`Advance`) and the facts that tie the state to the operations
performed so far (`History`) are derived from it and carried along runs.
-/

namespace Plinth.ExtensionHttp.ResponseArbiter

open List

def Terminal (wire : WireObservation) : Prop :=
  wire = .writeCompleted ∨ wire = .writeFailed

structure Advance (s t : ResponseArbiter) : Prop where
  identity : t.identity = s.identity
  bounds : t.bounds = s.bounds
  frozen : ∀ {choice}, s.frozen = some choice → t.frozen = some choice
  authorized : s.authorized = true → t.authorized = true
  cancelled : s.cancelled.isSome = true → t.cancelled.isSome = true
  ownerLive : t.ownerLive = true → s.ownerLive = true
  durable : s.durable = true → t.durable = true
  handed : s.handedToWriter = true → t.handedToWriter = true
  closed : s.closed = true → t.closed = true
  wire : s.handedToWriter = true → Terminal s.wire → t.wire = s.wire

namespace Advance

theorem refl (s : ResponseArbiter) : Advance s s :=
  ⟨rfl, rfl, id, id, id, id, id, id, id, fun _ _ => rfl⟩

theorem trans {s t u : ResponseArbiter} (first : Advance s t) (second : Advance t u) :
    Advance s u where
  identity := second.identity.trans first.identity
  bounds := second.bounds.trans first.bounds
  frozen := second.frozen ∘ first.frozen
  authorized := second.authorized ∘ first.authorized
  cancelled := second.cancelled ∘ first.cancelled
  ownerLive := first.ownerLive ∘ second.ownerLive
  durable := second.durable ∘ first.durable
  handed := second.handed ∘ first.handed
  closed := second.closed ∘ first.closed
  wire handed terminal := by
    have kept := first.wire handed terminal
    exact (second.wire (first.handed handed) (kept ▸ terminal)).trans kept

end Advance

section

variable (s : ResponseArbiter)

theorem freeze_advance (status : Option Int) (reason : ChoiceReason) :
    Advance s (s.freeze status reason) := by
  unfold freeze
  split
  case isTrue unfrozen =>
    refine { Advance.refl s with frozen := ?_ }
    intro choice had
    simp [had] at unfrozen
  case isFalse => exact .refl s

theorem closeWire_advance : Advance s s.closeWire := by
  refine { Advance.refl s with closed := fun _ => rfl, wire := ?_ }
  rintro - (completed | failed)
  · simp [closeWire, completed]
  · simp [closeWire, failed]

theorem cutoff_advance (now : Nat) : Advance s (s.cutoff now) := by
  unfold cutoff
  split
  · refine Advance.trans ?_ (freeze_advance _ _ _)
    exact { Advance.refl s with cancelled := fun _ => rfl }
  · exact .refl s

theorem expireWire_advance (now : Nat) : Advance s (s.expireWire now) := by
  unfold expireWire
  split
  case isTrue =>
    refine (closeWire_advance s).trans ?_
    dsimp only
    split
    case isTrue => exact .refl _
    case isFalse unhanded =>
      exact { Advance.refl s.closeWire with wire := fun handed => absurd handed unhanded }
  case isFalse => exact .refl s

theorem update_advance (now : Nat) : Advance s (s.update now) := by
  unfold update
  split
  · refine Advance.trans ?_ (closeWire_advance _)
    exact { Advance.refl s with ownerLive := by simp }
  · exact (cutoff_advance s now).trans (expireWire_advance _ now)

theorem freeze_eq (status : Option Int) (reason : ChoiceReason) :
    s.freeze status reason =
      { s with
        frozen := if s.frozen.isNone && s.authorized then
            some { identity := s.identity, status, reason } else s.frozen } := by
  unfold freeze
  split <;> rfl

end

/-- Reading the clock authorizes, stores and hands over nothing. -/
@[simp]
theorem update_frame (s : ResponseArbiter) (now : Nat) :
    (s.update now).authorized = s.authorized ∧ (s.update now).durable = s.durable ∧
      (s.update now).handedToWriter = s.handedToWriter := by
  simp only [update, expireWire, cutoff, freeze_eq, closeWire]
  repeat' split
  all_goals exact ⟨rfl, rfl, rfl⟩

variable {s : ResponseArbiter} {now : Nat}

theorem admitted_of_ownerLive (live : (s.update now).ownerLive) : s.bounds.admittedAtNs ≤ now := by
  by_contra early
  simp [update, Nat.not_le.mp early, closeWire] at live

theorem beforeExpiry_of_open (live : (s.update now).ownerLive)
    (isOpen : (s.update now).closed = false) : now < s.bounds.wireExpiryNs := by
  by_contra late
  have admitted := Nat.not_lt.mpr (admitted_of_ownerLive live)
  have sameBounds : (s.cutoff now).bounds = s.bounds := (cutoff_advance s now).bounds
  have closed : ((s.cutoff now).expireWire now).closed := by
    simp only [expireWire, sameBounds, Nat.not_lt.mp late, if_true]
    split <;> rfl
  rw [update, if_neg admitted, closed] at isOpen
  exact Bool.noConfusion isOpen

/-- The owner has met its cutoff: no dispatch can be authorized any more, and one that was
has its choice. -/
def Settled (s : ResponseArbiter) : Prop :=
  s.cancelled.isSome = true ∧ (s.authorized = true → s.frozen.isSome = true)

theorem Settled.advance {t : ResponseArbiter} (settled : s.Settled) (advance : Advance s t)
    (authorized : t.authorized → s.authorized) : t.Settled := by
  refine ⟨advance.cancelled settled.1, fun now => ?_⟩
  rcases Option.isSome_iff_exists.mp (settled.2 (authorized now)) with ⟨choice, had⟩
  exact Option.isSome_iff_exists.mpr ⟨choice, advance.frozen had⟩

theorem expireWire_frame (s : ResponseArbiter) (now : Nat) :
    (s.expireWire now).authorized = s.authorized ∧ (s.expireWire now).frozen = s.frozen := by
  unfold expireWire
  split
  · dsimp only
    split <;> exact ⟨rfl, rfl⟩
  · exact ⟨rfl, rfl⟩

theorem update_settled (admitted : s.bounds.admittedAtNs ≤ now)
    (late : s.bounds.executionCutoffNs ≤ now) : (s.update now).Settled := by
  have cut : (s.cutoff now).Settled := by
    refine ⟨by simp [cutoff, late, freeze_eq], fun authorized => ?_⟩
    simp only [cutoff, late, if_true, freeze_eq] at authorized ⊢
    cases had : s.frozen <;> simp [authorized]
  rw [update, if_neg (Nat.not_lt.mpr admitted)]
  exact cut.advance (expireWire_advance _ now) (by rw [(expireWire_frame _ _).1]; exact id)

namespace Operation

def updateReading : Operation → Option Nat
  | .authorizeDispatch now | .submitResponse now _ | .submitFailure now _ | .cancel now _
  | .expire now | .confirmChoice now _ | .dispatchWire now _ => some now
  | .entryPermitted _ | .remainingExecutionMs _ | .observeWire _ _ => none

def revokes : Operation → Bool
  | .cancel _ reason => reason != .deadline
  | _ => false

end Operation

namespace Event

def isAuthorization : Event → Bool
  | ⟨.authorizeDispatch _, .flag authorized⟩ => authorized
  | _ => false

def writerCall : Event → Option ChoiceRecord
  | ⟨.dispatchWire _ _, .handoff called⟩ => called
  | _ => none

def Confirms (choice : ChoiceRecord) (event : Event) : Prop :=
  ∃ now, event = ⟨.confirmChoice now choice, .flag true⟩

/-- An event that neither authorizes, hands over nor takes the wire away. -/
structure Inert (event : Event) : Prop where
  authorization : event.isAuthorization = false
  call : event.writerCall = none
  revocation : event.operation.revokes = false

end Event

/-- What an operation does to the state, and under which guard. -/
inductive Effect (s : ResponseArbiter) : Event → ResponseArbiter → Prop where
  | unread {event : Event} (inert : event.Inert)
      (reading : event.operation.updateReading = none) : Effect s event s
  | observed {event : Event} {observation : WireObservation} (inert : event.Inert)
      (reading : event.operation.updateReading = none) (handed : s.handedToWriter = true)
      (undecided : ¬Terminal s.wire) (terminal : Terminal observation) :
      Effect s event { s with wire := observation }
  | refused {event : Event} {now : Nat} (inert : event.Inert)
      (reading : event.operation.updateReading = some now) :
      Effect s event (s.update now)
  | authorized {now : Nat} (first : s.authorized = false)
      (uncancelled : (s.update now).cancelled = none) :
      Effect s ⟨.authorizeDispatch now, .flag true⟩ { s.update now with authorized := true }
  | accepted {event : Event} {now : Nat} {status : Int} {reason : ChoiceReason}
      (inert : event.Inert) (reading : event.operation.updateReading = some now)
      (authorized : s.authorized = true) (live : (s.update now).ownerLive = true)
      (unfrozen : (s.update now).frozen = none)
      (response : reason = .handlerResponse → event.operation = .submitResponse now status) :
      Effect s event ((s.update now).freeze (some status) reason)
  | cancelled {now : Nat} {reason : CancelReason} :
      Effect s ⟨.cancel now reason, .none⟩ (s.cancel now reason)
  | confirmed {now : Nat} {choice : ChoiceRecord} (frozen : (s.update now).frozen = some choice) :
      Effect s ⟨.confirmChoice now choice, .flag true⟩ { s.update now with durable := true }
  | handed {now : Nat} {write : Writer} {choice : ChoiceRecord}
      (live : (s.update now).ownerLive = true) (isOpen : (s.update now).closed = false)
      (first : s.handedToWriter = false) (durable : s.durable = true)
      (frozen : (s.update now).frozen = some choice) :
      Effect s ⟨.dispatchWire now (some write), .handoff (some choice)⟩
        { s.update now with
          handedToWriter := true, wire := recordObserved (write choice), closed := true }

variable {event : Event} {reason : CancelReason} {next : ResponseArbiter} {choice : ChoiceRecord}

theorem effect_of_submit {status : Int} {reason : ChoiceReason} (inert : event.Inert)
    (reading : event.operation.updateReading = some now)
    (response : reason = .handlerResponse → event.operation = .submitResponse now status) :
    Effect s event (s.submitCandidate now status reason).1 := by
  unfold submitCandidate
  dsimp only
  split
  · exact .refused inert reading
  · split
    · exact .refused inert reading
    · simp_all [Effect.accepted inert reading]

/-- What one operation can do. -/
theorem effect_of_step (step : system.step s event next) : Effect s event next := by
  rcases event with ⟨operation, result⟩
  change s.perform operation = (next, result) at step
  cases operation with
  | authorizeDispatch now =>
    simp only [perform, authorizeDispatch] at step
    split at step <;> cases step
    · exact .refused ⟨rfl, rfl, rfl⟩ rfl
    rename_i guard
    simp only [update_frame, Bool.or_eq_true, not_or, Bool.not_eq_true,
      Option.isSome_eq_false_iff, Option.isNone_iff_eq_none] at guard
    exact .authorized guard.1.1.1 guard.1.2
  | entryPermitted | remainingExecutionMs =>
    cases step
    exact .unread ⟨rfl, rfl, rfl⟩ rfl
  | submitResponse now status =>
    cases step
    unfold submitResponse
    split
    · exact effect_of_submit ⟨rfl, rfl, rfl⟩ rfl (fun _ => rfl)
    · exact effect_of_submit ⟨rfl, rfl, rfl⟩ rfl (by simp)
  | submitFailure now failure =>
    cases step
    cases failure <;> exact effect_of_submit ⟨rfl, rfl, rfl⟩ rfl (by simp)
  | cancel now reason =>
    cases step
    exact .cancelled
  | expire now =>
    cases step
    exact .refused ⟨rfl, rfl, rfl⟩ rfl
  | confirmChoice now acknowledged =>
    simp only [perform, confirmChoice] at step
    split at step <;> cases step
    · exact .refused ⟨rfl, rfl, rfl⟩ rfl
    rename_i guard
    refine .confirmed ?_
    simpa using (not_or.mp (mt Bool.or_eq_true_iff.mpr guard)).2
  | dispatchWire now writer =>
    simp only [perform, dispatchWire] at step
    split at step
    case h_1 write choice frozen =>
      split at step <;> cases step
      · exact .refused ⟨rfl, rfl, rfl⟩ rfl
      · rename_i guard
        simp only [update_frame, Bool.or_eq_true, not_or,
          Bool.not_eq_true', Bool.not_eq_true, Bool.not_eq_false] at guard
        exact .handed guard.1.1.1.1 guard.1.1.1.2 guard.1.1.2 guard.1.2 frozen
    case h_2 =>
      cases step
      exact .refused ⟨rfl, rfl, rfl⟩ rfl
  | observeWire identity observation =>
    simp only [perform, observeWire] at step
    split at step
    case isTrue =>
      cases step
      exact .unread ⟨rfl, rfl, rfl⟩ rfl
    case isFalse guard =>
      cases step
      simp only [Bool.or_eq_true, not_or, Bool.and_eq_true, not_and_or, bne_iff_ne,
        ne_eq, not_not, Bool.not_eq_true', Bool.not_eq_false] at guard
      obtain ⟨⟨⟨⟨-, handed⟩, -⟩, undecided⟩, terminal⟩ := guard
      refine .observed ⟨rfl, rfl, rfl⟩ rfl handed ?_ terminal
      rintro (completed | failed) <;> simp_all

theorem freezeCancelled_advance (s : ResponseArbiter) (reason : CancelReason) :
    Advance s (s.freezeCancelled reason) := by
  cases reason <;> exact freeze_advance _ _ _

theorem markCancelled_advance (s : ResponseArbiter) (reason : CancelReason) :
    Advance s (s.markCancelled reason) := by
  unfold markCancelled
  split
  · refine Advance.trans ?_ (freezeCancelled_advance _ reason)
    exact { Advance.refl s with cancelled := fun _ => rfl }
  · exact .refl s

theorem cancel_advance_update (s : ResponseArbiter) (now : Nat) (reason : CancelReason) :
    Advance (s.update now) (s.cancel now reason) := by
  have marked := markCancelled_advance (s.update now) reason
  cases reason with
  | deadline => exact marked
  | clientGone => exact marked.trans (closeWire_advance _)
  | shutdown | generationRetired =>
    exact marked.trans ((closeWire_advance _).trans
      { Advance.refl _ with ownerLive := fun live => absurd live Bool.false_ne_true })

theorem cancel_frame (s : ResponseArbiter) (now : Nat) (reason : CancelReason) :
    (s.cancel now reason).authorized = s.authorized ∧
      (s.cancel now reason).durable = s.durable ∧
      (s.cancel now reason).handedToWriter = s.handedToWriter := by
  cases reason <;>
    · simp only [cancel, markCancelled, freezeCancelled, freeze_eq, closeWire]
      split <;> simp

theorem cancel_closed (revokes : (Operation.cancel now reason).revokes) :
    (s.cancel now reason).closed := by
  cases reason with
  | deadline => simp [Operation.revokes] at revokes
  | clientGone | shutdown | generationRetired => rfl

theorem freezeCancelled_reason (unfrozen : s.frozen = none)
    (frozen : (s.freezeCancelled reason).frozen = some choice) :
    choice.reason ≠ .handlerResponse := by
  cases reason <;>
    · simp only [freezeCancelled, freeze_eq, unfrozen, Option.isNone_none, Bool.true_and] at frozen
      rcases Core.of_guard frozen with ⟨-, rfl⟩
      simp

/-- Nothing that was decided is taken back. -/
theorem Effect.advance (effect : Effect s event next) : Advance s next := by
  cases effect with
  | unread => exact .refl s
  | observed _ _ handed undecided _ =>
    exact { Advance.refl s with wire := fun _ terminal => absurd terminal undecided }
  | refused => exact update_advance s _
  | @authorized now =>
    refine (update_advance s now).trans ?_
    exact { Advance.refl (s.update now) with authorized := fun _ => rfl }
  | @accepted _ now => exact (update_advance s now).trans (freeze_advance _ _ _)
  | @cancelled now reason =>
    exact (update_advance s now).trans (cancel_advance_update s now reason)
  | @confirmed now =>
    refine (update_advance s now).trans ?_
    exact { Advance.refl (s.update now) with durable := fun _ => rfl }
  | @handed now write choice live isOpen first durable frozen =>
    refine (update_advance s now).trans ?_
    have unhanded : ¬(s.update now).handedToWriter := by simp [first]
    exact { Advance.refl (s.update now) with
      handed := fun _ => rfl
      closed := fun _ => rfl
      wire := fun handed => absurd handed unhanded }

theorem run_advance {t : ResponseArbiter} {events : List Event} (run : system.Run s events t) :
    Advance s t :=
  run.preserves (Advance s)
    (fun advance step => advance.trans (effect_of_step step).advance) (.refl s)

theorem terminal_of_closeWire (terminal : Terminal s.closeWire.wire) : Terminal s.wire := by
  simp only [closeWire] at terminal
  split at terminal
  · simp [Terminal] at terminal
  · exact terminal

theorem terminal_of_update (terminal : Terminal (s.update now).wire) : Terminal s.wire := by
  have same : (s.cutoff now).wire = s.wire := by
    unfold cutoff
    split
    · rw [freeze_eq]
    · rfl
  unfold update at terminal
  split at terminal
  · exact terminal_of_closeWire terminal
  rw [← same]
  unfold expireWire at terminal
  dsimp only at terminal
  split at terminal
  · split at terminal
    · exact terminal_of_closeWire terminal
    · simp [Terminal] at terminal
  · exact terminal

theorem terminal_of_cancel (terminal : Terminal (s.cancel now reason).wire) : Terminal s.wire := by
  have marked : ((s.update now).markCancelled reason).wire = (s.update now).wire := by
    unfold markCancelled
    split
    · cases reason <;> simp [freezeCancelled, freeze_eq]
    · rfl
  have beforeClose : Terminal ((s.update now).markCancelled reason).wire := by
    cases reason with
    | deadline => exact terminal
    | clientGone | shutdown | generationRetired => exact terminal_of_closeWire terminal
  exact terminal_of_update (marked ▸ beforeClose)

namespace Effect

variable {s next : ResponseArbiter} {event : Event}

section

variable (effect : Effect s event next)
include effect

theorem authorizations :
    s.authorized.toNat + (if event.isAuthorization then 1 else 0) = next.authorized.toNat := by
  cases effect with
  | unread inert | observed inert | refused inert => simp [inert.authorization]
  | authorized first => simp [Event.isAuthorization, first]
  | accepted inert => simp [inert.authorization, freeze_eq]
  | cancelled => simp [Event.isAuthorization, cancel_frame]
  | confirmed | handed => simp [Event.isAuthorization]

theorem calls :
    s.handedToWriter.toNat + event.writerCall.toList.length = next.handedToWriter.toNat := by
  cases effect with
  | unread inert | observed inert | refused inert => simp [inert.call]
  | authorized | confirmed => simp [Event.writerCall]
  | accepted inert => simp [inert.call, freeze_eq]
  | cancelled => simp [Event.writerCall, cancel_frame]
  | handed _ _ first => simp [Event.writerCall, first]

theorem confirmation (durable : next.durable) :
    s.durable ∨ ∃ choice, next.frozen = some choice ∧ event.Confirms choice := by
  cases effect with
  | unread | observed => exact .inl durable
  | refused | authorized => exact .inl (by simpa using durable)
  | accepted => exact .inl (by simpa [freeze_eq] using durable)
  | cancelled => exact .inl (by simpa [cancel_frame] using durable)
  | @confirmed now choice frozen => exact .inr ⟨choice, frozen, now, rfl⟩
  | handed _ _ _ wasDurable => exact .inl wasDurable

theorem revocation (revokes : event.operation.revokes) : next.closed := by
  cases effect with
  | unread inert | observed inert | refused inert | accepted inert =>
    simp [inert.revocation] at revokes
  | authorized | confirmed => simp [Operation.revokes] at revokes
  | cancelled => exact cancel_closed revokes
  | handed => rfl

/-- A wire ends only after the writer was called. -/
theorem terminal (was : Terminal s.wire → s.handedToWriter)
    (terminal : Terminal next.wire) : next.handedToWriter := by
  cases effect with
  | unread => exact was terminal
  | observed _ _ handed => exact handed
  | refused | authorized | confirmed => simpa using was (terminal_of_update terminal)
  | accepted =>
    rw [freeze_eq] at terminal ⊢
    simpa using was (terminal_of_update terminal)
  | cancelled => simpa [cancel_frame] using was (terminal_of_cancel terminal)
  | handed => rfl

theorem settled_of_update {now : Nat}
    (reading : event.operation.updateReading = some now) (settled : (s.update now).Settled) :
    next.Settled := by
  cases effect with
  | unread inert none | observed inert none => simp [none] at reading
  | refused inert same =>
    obtain rfl := Option.some.inj (same.symm.trans reading)
    exact settled
  | authorized first uncancelled =>
    cases reading
    simp [Settled, uncancelled] at settled
  | accepted inert same =>
    obtain rfl := Option.some.inj (same.symm.trans reading)
    exact settled.advance (freeze_advance _ _ _) (by simp [freeze_eq])
  | cancelled =>
    cases reading
    exact settled.advance (cancel_advance_update s _ _) (by simp [cancel_frame])
  | confirmed | handed => obtain rfl := Option.some.inj reading; exact settled

/-- What is settled stays so. -/
theorem settled (settled : s.Settled) : next.Settled := by
  cases reading : event.operation.updateReading with
  | some now =>
    exact effect.settled_of_update reading
      (settled.advance (update_advance s now) (by simp))
  | none =>
    cases effect with
    | unread | observed => exact settled
    | refused _ same | accepted _ same => simp [same] at reading
    | authorized | cancelled | confirmed | handed => simp [Operation.updateReading] at reading

end

end Effect

theorem update_freezes_deadline (unfrozen : s.frozen = none)
    (frozen : (s.update now).frozen = some choice) : choice.reason = .deadline := by
  unfold update at frozen
  split at frozen
  · simp [closeWire, unfrozen] at frozen
  rw [(expireWire_frame _ _).2] at frozen
  unfold cutoff at frozen
  split at frozen
  · simp only [freeze_eq, unfrozen, Option.isNone_none, Bool.true_and] at frozen
    rcases Core.of_guard frozen with ⟨-, rfl⟩
    rfl
  · simp [unfrozen] at frozen

theorem cancel_freezes_no_response (unfrozen : s.frozen = none)
    (frozen : (s.cancel now reason).frozen = some choice) : choice.reason ≠ .handlerResponse := by
  have marked : ((s.update now).markCancelled reason).frozen = some choice := by
    cases reason <;> exact frozen
  cases updated : (s.update now).frozen with
  | some earlier =>
    have kept := (markCancelled_advance (s.update now) reason).frozen updated
    obtain rfl := Option.some.inj (kept.symm.trans marked)
    simp [update_freezes_deadline unfrozen updated]
  | none =>
    unfold markCancelled at marked
    split at marked
    · exact freezeCancelled_reason
        (s := { s.update now with cancelled := some reason }) updated marked
    · simp [updated] at marked

/-- A handler response becomes the choice only by a submission that reads the clock between
admission and cutoff, on an authorized owner. -/
theorem Effect.response (effect : Effect s event next) (unfrozen : s.frozen = none)
    (frozen : next.frozen = some choice) (response : choice.reason = .handlerResponse) :
    s.authorized ∧ ∃ now status, event.operation = .submitResponse now status ∧
      s.bounds.admittedAtNs ≤ now ∧ now < s.bounds.executionCutoffNs := by
  cases effect with
  | unread | observed => simp [unfrozen] at frozen
  | refused | authorized | confirmed | handed =>
    have reason := update_freezes_deadline unfrozen frozen
    simp [reason] at response
  | cancelled => exact absurd response (cancel_freezes_no_response unfrozen frozen)
  | @accepted _ now status reason inert reading authorized live still isResponse =>
    simp only [freeze_eq, still, update_frame, authorized, Option.isNone_none,
      Bool.and_self, if_true] at frozen
    cases frozen
    have admitted := admitted_of_ownerLive live
    refine ⟨authorized, now, status, isResponse response, admitted, ?_⟩
    by_contra late
    have settled := update_settled admitted (Nat.not_lt.mp late)
    simpa [still] using settled.2 (by simpa using authorized)

structure History (events : List Event) (s : ResponseArbiter) : Prop where
  ordered : s.bounds.admittedAtNs < s.bounds.executionCutoffNs
  authorizations : events.countP Event.isAuthorization = s.authorized.toNat
  calls : (events.filterMap Event.writerCall).length = s.handedToWriter.toNat
  confirmed : s.durable = true → ∃ choice, s.frozen = some choice ∧
    ∃ event ∈ events, event.Confirms choice
  revoked : ∀ event ∈ events, event.operation.revokes = true → s.closed = true
  late : ∀ event ∈ events, ∀ now, event.operation.updateReading = some now →
    s.bounds.executionCutoffNs ≤ now → s.Settled
  terminal : Terminal s.wire → s.handedToWriter = true

theorem create_history (initial : system.initial s) : History [] s := by
  rcases initial with ⟨identity, bounds, admitted, charge, choiceCharge, created⟩
  unfold create at created
  split at created
  · simp at created
  rename_i valid
  split at created
  · simp at created
  cases created
  simp only [ge_iff_le, gt_iff_lt, Bool.or_eq_true, decide_eq_true_eq, not_or, Nat.not_le] at valid
  exact {
    ordered := valid.1.1.1.2
    authorizations := rfl
    calls := rfl
    confirmed := by simp
    revoked := by simp
    late := by simp
    terminal := by simp [Terminal] }

/-- Every event extends the history. -/
theorem step_history {events : List Event} (history : History events s)
    (step : system.step s event next) : History (events ++ [event]) next := by
  have effect := effect_of_step step
  have advance := effect.advance
  refine ⟨advance.bounds ▸ history.ordered, ?_, ?_, ?_, ?_, ?_, effect.terminal history.terminal⟩
  · rw [countP_append, history.authorizations, ← effect.authorizations]
    simp
  · rw [filterMap_append, length_append, history.calls, ← effect.calls]
    cases called : event.writerCall <;> simp [called]
  · intro durable
    rcases effect.confirmation durable with wasDurable | ⟨choice, frozen, confirms⟩
    · rcases history.confirmed wasDurable with ⟨choice, frozen, earlier, mem, confirms⟩
      exact ⟨choice, advance.frozen frozen, earlier, mem_append_left _ mem, confirms⟩
    · exact ⟨choice, frozen, event, mem_append_right _ mem_cons_self, confirms⟩
  · intro earlier mem revokes
    rcases mem_append.mp mem with old | new
    · exact advance.closed (history.revoked earlier old revokes)
    · obtain rfl := mem_singleton.mp new
      exact effect.revocation revokes
  · intro earlier mem now reading late
    rw [advance.bounds] at late
    rcases mem_append.mp mem with old | new
    · exact effect.settled (history.late earlier old now reading late)
    · obtain rfl := mem_singleton.mp new
      have admitted := Nat.le_of_lt (Nat.lt_of_lt_of_le history.ordered late)
      exact effect.settled_of_update reading (update_settled admitted late)

/-- Over every sequence of operations, with any clock readings: authorization succeeds and the
writer is called at most once; a frozen choice and an ended write never change; the writer is called
only with the frozen choice, durably confirmed, in time and on a live owner; and a handler response
becomes the choice only before the execution cutoff. -/
theorem arbiter_safe {start s : ResponseArbiter} {events : List Event}
    (initial : system.initial start) (run : system.Run start events s) :
    events.countP Event.isAuthorization ≤ 1 ∧
      (events.filterMap Event.writerCall).length ≤ 1 ∧
      (∀ later t, system.Run s later t →
        (∀ choice, s.frozen = some choice → t.frozen = some choice) ∧
          (Terminal s.wire → t.wire = s.wire)) ∧
      (∀ event next, system.step s event next →
        (∀ choice, event.writerCall = some choice →
          s.frozen = some choice ∧ (∃ earlier ∈ events, earlier.Confirms choice) ∧
            (∃ now write, event.operation = .dispatchWire now (some write) ∧
              s.bounds.admittedAtNs ≤ now ∧ now < s.bounds.wireExpiryNs) ∧
            s.ownerLive = true ∧ next.ownerLive = true ∧
            ∀ earlier ∈ events, earlier.operation.revokes = false) ∧
          (∀ choice, s.frozen = none → next.frozen = some choice →
            choice.reason = .handlerResponse →
            ∃ now status, event.operation = .submitResponse now status ∧
              s.bounds.admittedAtNs ≤ now ∧ now < s.bounds.executionCutoffNs ∧
              ∀ earlier ∈ events, ∀ before, earlier.operation.updateReading = some before →
                before < s.bounds.executionCutoffNs)) := by
  have history := run.history History step_history (create_history initial)
  refine ⟨?_, ?_, ?_, ?_⟩
  · rw [history.authorizations]
    exact Bool.toNat_le _
  · rw [history.calls]
    exact Bool.toNat_le _
  · intro later t laterRun
    have advance := run_advance laterRun
    exact ⟨fun choice => advance.frozen,
      fun terminal => advance.wire (history.terminal terminal) terminal⟩
  · intro event next step
    have effect := effect_of_step step
    refine ⟨?_, ?_⟩
    · intro choice called
      cases effect with
      | unread inert | observed inert | refused inert | accepted inert =>
        simp [inert.call] at called
      | authorized | cancelled | confirmed => simp [Event.writerCall] at called
      | @handed now write chosen live isOpen first durable frozen =>
        obtain rfl : chosen = choice := by simpa [Event.writerCall] using called
        rcases history.confirmed durable with ⟨held, frozenBefore, confirmed⟩
        have same := (update_advance s now).frozen frozenBefore
        obtain rfl := Option.some.inj (same.symm.trans frozen)
        refine ⟨frozenBefore, confirmed, ⟨now, write, rfl, admitted_of_ownerLive live,
          beforeExpiry_of_open live isOpen⟩, (update_advance s now).ownerLive live, live, ?_⟩
        intro earlier mem
        by_contra revokes
        have closed := history.revoked earlier mem (by simpa using revokes)
        simp [(update_advance s now).closed closed] at isOpen
    · intro choice unfrozen frozen response
      rcases effect.response unfrozen frozen response with
        ⟨authorized, now, status, submitted, admitted, early⟩
      refine ⟨now, status, submitted, admitted, early, ?_⟩
      intro earlier mem before reading
      by_contra late
      have settled := history.late earlier mem before reading (Nat.not_lt.mp late)
      simpa [unfrozen] using settled.2 authorized

/-- The usual life of an owner: authorized, answered with 200, confirmed, handed over. -/
theorem arbiter_safe_handoff :
    let identity : ChoiceIdentity :=
      { dispatchId := "00000000-0000-0000-0000-000000000001"
        ownerEpoch := "00000000-0000-0000-0000-000000000002"
        choiceId := "00000000-0000-0000-0000-000000000003" }
    let start : ResponseArbiter := { identity, bounds := ⟨10, 100, 200⟩ }
    let choice : ChoiceRecord := { identity, status := some 200 }
    let s := { start with authorized := true, frozen := some choice, durable := true }
    let events : List Event :=
      [⟨.authorizeDispatch 10, .flag true⟩, ⟨.submitResponse 20 200, .disposition .accepted⟩,
        ⟨.confirmChoice 30 choice, .flag true⟩]
    system.initial start ∧ system.Run start events s ∧
      (s.dispatchWire 40 (some fun _ => some .attemptStarted)).2 = some choice ∧
      ∀ earlier ∈ events, earlier.operation.revokes = false := by
  intro identity start choice s events
  have initial : system.initial start :=
    ⟨identity, ⟨10, 100, 200⟩, true, true, true, if_neg (by decide)⟩
  have authorized : system.step start ⟨.authorizeDispatch 10, .flag true⟩
      { start with authorized := true } := rfl
  have submitted : system.step { start with authorized := true }
      ⟨.submitResponse 20 200, .disposition .accepted⟩
      { start with authorized := true, frozen := some choice } := rfl
  have confirmed : system.step { start with authorized := true, frozen := some choice }
      ⟨.confirmChoice 30 choice, .flag true⟩ s := rfl
  have run : system.Run start events s :=
    .head authorized (.head submitted (.head confirmed (.refl s)))
  have handed : system.step s ⟨.dispatchWire 40 (some fun _ => some .attemptStarted),
      .handoff (some choice)⟩
      { s with handedToWriter := true, wire := .attemptStarted, closed := true } := rfl
  have safe := (arbiter_safe initial run).2.2.2 _ _ handed
  exact ⟨initial, run, rfl, (safe.1 choice rfl).2.2.2.2.2⟩

end Plinth.ExtensionHttp.ResponseArbiter
