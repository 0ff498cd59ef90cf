import Plinth.Core.Transition

/-!
# The response arbiter

Model of `ResponseArbiter` in `extension_http/ownership.cpp`: the owner of one dispatched
HTTP request, which freezes at most one response choice and hands it to the wire at most
once. Every public operation runs under the owner's mutex and reads the clock at most once,
so an operation is a function of the state and that reading.

A call of the wire writer is visible in the result of `dispatchWire`, which is the record the
writer was called with.
-/

namespace Plinth.ExtensionHttp

inductive CancelReason where
  | deadline
  | clientGone
  | shutdown
  | generationRetired
  deriving DecidableEq

inductive ChoiceReason where
  | handlerResponse
  | handlerFailed
  | responseInvalid
  | adapterUnavailable
  | resourceExhausted
  | deadline
  | clientGone
  | shutdown
  | generationRetired
  deriving DecidableEq

inductive AdapterFailure where
  | handlerFailed
  | responseInvalid
  | adapterUnavailable
  | resourceExhausted
  | executionCancelled

inductive CandidateDisposition where
  | accepted
  | duplicate
  | retired

inductive WireObservation where
  | notAttempted
  | attemptStarted
  | writeCompleted
  | writeFailed
  | unknown
  deriving DecidableEq

structure ChoiceIdentity where
  dispatchId : String
  ownerEpoch : String
  version : Nat := 1
  choiceId : String
  deriving DecidableEq

structure ChoiceRecord where
  identity : ChoiceIdentity
  status : Option Int
  reason : ChoiceReason := .handlerResponse
  deriving DecidableEq

structure DeadlineBounds where
  admittedAtNs : Nat := 0
  executionCutoffNs : Nat := 0
  wireExpiryNs : Nat := 0

def nsPerMs : Nat := 1000000

def uint64Max : Nat := 2 ^ 64 - 1

def saturatedAdd (left right : Nat) : Nat :=
  if left > uint64Max - right then uint64Max else left + right

def lowerHex (c : Char) : Bool :=
  ('0' ≤ c && c ≤ '9') || ('a' ≤ c && c ≤ 'f')

def validUuid (text : String) : Bool :=
  text.toList.length == 36 &&
    text.toList.zipIdx.all fun (c, i) =>
      if i == 8 || i == 13 || i == 18 || i == 23 then c == '-' else lowerHex c

/-- `ResponseArbiter::State`. The preallocated choice slot is no field: it becomes visible only
through `frozen`. -/
structure ResponseArbiter where
  identity : ChoiceIdentity
  bounds : DeadlineBounds
  frozen : Option ChoiceRecord := none
  cancelled : Option CancelReason := none
  authorized : Bool := false
  ownerLive : Bool := true
  durable : Bool := false
  handedToWriter : Bool := false
  closed : Bool := false
  wire : WireObservation := .notAttempted

inductive OwnerError where
  | invalidArgument (what : String)
  | badAlloc

namespace ResponseArbiter

/-- The constructor. `admitted` says whether a lease and a clock were given, and `charge`
and `choiceCharge` whether the lease had credit for the two reservations. -/
def create (identity : ChoiceIdentity) (bounds : DeadlineBounds)
    (admitted charge choiceCharge : Bool) : Except OwnerError ResponseArbiter :=
  if !admitted || !validUuid identity.dispatchId || !validUuid identity.ownerEpoch ||
      !validUuid identity.choiceId || identity.version == 0 ||
      bounds.admittedAtNs ≥ bounds.executionCutoffNs ||
      bounds.executionCutoffNs > bounds.wireExpiryNs ||
      bounds.wireExpiryNs > saturatedAdd bounds.admittedAtNs (5000 * nsPerMs) ||
      bounds.executionCutoffNs > saturatedAdd bounds.admittedAtNs (4500 * nsPerMs) then
    .error (.invalidArgument "invalid extension HTTP owner")
  else if !charge || !choiceCharge then
    .error .badAlloc
  else
    .ok { identity, bounds }

variable (s : ResponseArbiter) (now : Nat)

def freeze (status : Option Int) (reason : ChoiceReason) : ResponseArbiter :=
  if s.frozen.isNone && s.authorized then
    { s with frozen := some { identity := s.identity, status, reason } }
  else s

def closeWire : ResponseArbiter :=
  { s with
    closed := true
    wire :=
      if s.handedToWriter && s.wire != .writeCompleted && s.wire != .writeFailed then .unknown
      else s.wire }

/-- The part of `update` for a reading at or past the execution cutoff. -/
def cutoff : ResponseArbiter :=
  if s.bounds.executionCutoffNs ≤ now then
    { s with cancelled := some (s.cancelled.getD .deadline) }.freeze (some 504) .deadline
  else s

/-- The part of `update` for a reading at or past the wire expiry. -/
def expireWire : ResponseArbiter :=
  if s.bounds.wireExpiryNs ≤ now then
    let closed := s.closeWire
    if closed.handedToWriter then closed else { closed with wire := .unknown }
  else s

def update : ResponseArbiter :=
  if now < s.bounds.admittedAtNs then
    { s with ownerLive := false }.closeWire
  else
    (s.cutoff now).expireWire now

def authorizeDispatch : ResponseArbiter × Bool :=
  let s := s.update now
  if s.authorized || !s.ownerLive || s.cancelled.isSome || s.closed then (s, false)
  else ({ s with authorized := true }, true)

def entryPermitted : Bool :=
  s.authorized && s.ownerLive && s.cancelled.isNone &&
    decide (s.bounds.admittedAtNs ≤ now) && decide (now < s.bounds.executionCutoffNs)

def remainingExecutionMs : Nat :=
  if !s.ownerLive || s.cancelled.isSome || decide (now < s.bounds.admittedAtNs) ||
      decide (s.bounds.executionCutoffNs ≤ now) then 0
  else (s.bounds.executionCutoffNs - now) / nsPerMs % 2 ^ 32

/-- What `submit_response` and `submit_failure` share: the candidate becomes the choice
unless there was one already or the owner no longer accepts any. -/
def submitCandidate (status : Int) (reason : ChoiceReason) :
    ResponseArbiter × CandidateDisposition :=
  let hadChoice := s.frozen.isSome
  let s := s.update now
  if hadChoice then (s, .duplicate)
  else if !s.authorized || !s.ownerLive || s.frozen.isSome then (s, .retired)
  else (s.freeze (some status) reason, .accepted)

def submitResponse (status : Int) : ResponseArbiter × CandidateDisposition :=
  if 200 ≤ status ∧ status ≤ 599 then s.submitCandidate now status .handlerResponse
  else s.submitCandidate now 500 .responseInvalid

def submitFailure : AdapterFailure → ResponseArbiter × CandidateDisposition
  | .handlerFailed => s.submitCandidate now 500 .handlerFailed
  | .responseInvalid | .executionCancelled => s.submitCandidate now 500 .responseInvalid
  | .adapterUnavailable => s.submitCandidate now 503 .adapterUnavailable
  | .resourceExhausted => s.submitCandidate now 500 .resourceExhausted

def freezeCancelled : CancelReason → ResponseArbiter
  | .deadline => s.freeze (some 504) .deadline
  | .clientGone => s.freeze none .clientGone
  | .shutdown => s.freeze (some 503) .shutdown
  | .generationRetired => s.freeze (some 503) .generationRetired

def markCancelled (reason : CancelReason) : ResponseArbiter :=
  if s.cancelled.isNone then { s with cancelled := some reason }.freezeCancelled reason else s

def cancel (reason : CancelReason) : ResponseArbiter :=
  let s := (s.update now).markCancelled reason
  match reason with
  | .deadline => s
  | .clientGone => s.closeWire
  | .shutdown | .generationRetired => { s.closeWire with ownerLive := false }

def expire : ResponseArbiter := s.update now

def confirmChoice (acknowledged : ChoiceRecord) : ResponseArbiter × Bool :=
  let s := s.update now
  if !s.ownerLive || s.frozen != some acknowledged then (s, false)
  else ({ s with durable := true }, true)

/-- A wire writer; `none` stands for an exception. -/
abbrev Writer := ChoiceRecord → Option WireObservation

def recordObserved : Option WireObservation → WireObservation
  | some .notAttempted => .notAttempted
  | some .attemptStarted => .attemptStarted
  | _ => .unknown

/-- The result is the record that the writer was called with, if it was. The writer is `none` for an
empty `std::function`. -/
def dispatchWire (writer : Option Writer) : ResponseArbiter × Option ChoiceRecord :=
  let s := s.update now
  match writer, s.frozen with
  | some write, some choice =>
    if !s.ownerLive || s.closed || s.handedToWriter || !s.durable || choice.status.isNone then
      (s, none)
    else
      ({ s with handedToWriter := true, wire := recordObserved (write choice), closed := true },
        some choice)
  | _, _ => (s, none)

def observeWire (identity : ChoiceRecord) (observation : WireObservation) :
    ResponseArbiter × Bool :=
  if !s.ownerLive || !s.handedToWriter || s.frozen != some identity ||
      (s.wire != .attemptStarted && s.wire != .unknown) ||
      (observation != .writeCompleted && observation != .writeFailed) then (s, false)
  else ({ s with wire := observation }, true)

inductive Operation where
  | authorizeDispatch (now : Nat)
  | entryPermitted (now : Nat)
  | remainingExecutionMs (now : Nat)
  | submitResponse (now : Nat) (status : Int)
  | submitFailure (now : Nat) (failure : AdapterFailure)
  | cancel (now : Nat) (reason : CancelReason)
  | expire (now : Nat)
  | confirmChoice (now : Nat) (acknowledged : ChoiceRecord)
  | dispatchWire (now : Nat) (writer : Option Writer)
  | observeWire (identity : ChoiceRecord) (observation : WireObservation)

inductive Result where
  | none
  | flag (value : Bool)
  | millis (value : Nat)
  | disposition (value : CandidateDisposition)
  | handoff (called : Option ChoiceRecord)

def perform : Operation → ResponseArbiter × Result
  | .authorizeDispatch now => ((s.authorizeDispatch now).1, .flag (s.authorizeDispatch now).2)
  | .entryPermitted now => (s, .flag (s.entryPermitted now))
  | .remainingExecutionMs now => (s, .millis (s.remainingExecutionMs now))
  | .submitResponse now status =>
    ((s.submitResponse now status).1, .disposition (s.submitResponse now status).2)
  | .submitFailure now failure =>
    ((s.submitFailure now failure).1, .disposition (s.submitFailure now failure).2)
  | .cancel now reason => (s.cancel now reason, .none)
  | .expire now => (s.expire now, .none)
  | .confirmChoice now acknowledged =>
    ((s.confirmChoice now acknowledged).1, .flag (s.confirmChoice now acknowledged).2)
  | .dispatchWire now writer =>
    ((s.dispatchWire now writer).1, .handoff (s.dispatchWire now writer).2)
  | .observeWire identity observation =>
    ((s.observeWire identity observation).1, .flag (s.observeWire identity observation).2)

structure Event where
  operation : Operation
  result : Result

/-- Every order of the operations, with every clock reading, on a constructed owner. -/
def system : Core.TransitionSystem ResponseArbiter Event where
  initial s := ∃ identity bounds admitted charge choiceCharge,
    create identity bounds admitted charge choiceCharge = .ok s
  step s event next := s.perform event.operation = (next, event.result)

end ResponseArbiter

end Plinth.ExtensionHttp
