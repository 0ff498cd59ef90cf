import Plinth.Core.Transition

/-!
# Transactions under one lock

Clients read the database once and then run a transaction at isolation level READ COMMITTED, whose
first statement waits for a lock that all of them take. A statement sees what is committed at that
moment and the transaction's own writes, and the lock is held until the transaction ends. A client
learns of the commit in a later step, and each step may fail instead.

While one transaction holds the lock no other commits, so it takes effect as if it ran at once when
it commits. `serial` is the system in which it does; every reachable state of the interleaved system
is one of it, seen without the work of the transaction that holds the lock.
-/

namespace Plinth.Core.Locked

open List

variable {Db Request Tx Answer : Type}

/-- A transaction after it has got the lock. A statement computes a write and the rest of the
transaction from what it sees. -/
inductive Body (Db Answer : Type) where
  | statement (write : Db → Db → Db) (next : Db → Body Db Answer)
  | commit (answer : Answer)
  | rollback (answer : Answer)

inductive Outcome (Db Answer : Type) where
  | commits (db : Db) (answer : Answer)
  | refuses (answer : Answer)

def Body.query (next : Db → Body Db Answer) : Body Db Answer := .statement (fun _ db => db) next

/-- How a transaction with pending writes ends if nothing else is committed meanwhile. -/
def Body.outcome (db : Db) : (Db → Db) → Body Db Answer → Outcome Db Answer
  | pending, .statement write next =>
    (next (pending db)).outcome db (write (pending db) ∘ pending)
  | pending, .commit answer => .commits (pending db) answer
  | _, .rollback answer => .refuses answer

@[simp]
theorem Body.outcome_query (db : Db) (pending : Db → Db) (next : Db → Body Db Answer) :
    (Body.query next).outcome db pending = (next (pending db)).outcome db pending :=
  rfl

/-- What the clients' requests are: which may follow which, the read before the transaction, the
transaction, and the answer if something fails. -/
structure Protocol (Db Request Tx Answer : Type) where
  admits : Db → List Request → Request → Bool
  read : Request → Db → Except Answer Tx
  body : Tx → Body Db Answer
  failure : Request → Answer

inductive Phase (Db Tx Answer : Type) where
  | reads
  | waits (tx : Tx)
  | holds (tx : Tx) (pending : Db → Db) (body : Body Db Answer)
  | committed (tx : Tx) (answer : Answer)
  | done (answer : Answer)

structure Client (Db Request Tx Answer : Type) where
  request : Request
  phase : Phase Db Tx Answer

structure State (Db Request Tx Answer : Type) where
  db : Db
  clients : List (Client Db Request Tx Answer)

inductive Label (Request : Type) where
  | arrive (request : Request)
  | advance (index : Nat)
  | fail (index : Nat)

def Phase.isHolding : Phase Db Tx Answer → Bool
  | .holds _ _ _ => true
  | _ => false

def Phase.serial : Phase Db Tx Answer → Phase Db Tx Answer
  | .holds tx _ _ => .waits tx
  | phase => phase

namespace State

variable (s : State Db Request Tx Answer)

def set (index : Nat) (request : Request) (phase : Phase Db Tx Answer) :
    State Db Request Tx Answer :=
  { s with clients := s.clients.set index ⟨request, phase⟩ }

def isFree : Bool := s.clients.all fun client => !client.phase.isHolding

def exec (protocol : Protocol Db Request Tx Answer) :
    Label Request → Option (State Db Request Tx Answer)
  | .arrive request =>
    if protocol.admits s.db (s.clients.map Client.request) request then
      some { s with clients := s.clients ++ [⟨request, .reads⟩] }
    else none
  | .advance index =>
    match s.clients[index]? with
    | none => none
    | some ⟨request, .reads⟩ =>
      match protocol.read request s.db with
      | .error answer => some (s.set index request (.done answer))
      | .ok tx => some (s.set index request (.waits tx))
    | some ⟨request, .waits tx⟩ =>
      if s.isFree then some (s.set index request (.holds tx id (protocol.body tx))) else none
    | some ⟨request, .holds tx pending (.statement write next)⟩ =>
      let view := pending s.db
      some (s.set index request (.holds tx (write view ∘ pending) (next view)))
    | some ⟨request, .holds tx pending (.commit answer)⟩ =>
      some (State.set { s with db := pending s.db } index request (.committed tx answer))
    | some ⟨request, .holds _ _ (.rollback answer)⟩ =>
      some (s.set index request (.done answer))
    | some ⟨request, .committed _ answer⟩ => some (s.set index request (.done answer))
    | some ⟨_, .done _⟩ => none
  | .fail index =>
    match s.clients[index]? with
    | none => none
    | some ⟨_, .done _⟩ => none
    | some ⟨request, _⟩ => some (s.set index request (.done (protocol.failure request)))

/-- The state without the work of the transaction that holds the lock. -/
def serial : State Db Request Tx Answer :=
  { s with clients := s.clients.map fun client => ⟨client.request, client.phase.serial⟩ }

end State

inductive Serially (protocol : Protocol Db Request Tx Answer) (s : State Db Request Tx Answer) :
    State Db Request Tx Answer → Prop where
  | stays : Serially protocol s s
  | arrives {request : Request}
      (admitted : protocol.admits s.db (s.clients.map Client.request) request = true) :
      Serially protocol s { s with clients := s.clients ++ [⟨request, .reads⟩] }
  | refuses {index : Nat} {request : Request} {answer : Answer}
      (found : s.clients[index]? = some ⟨request, .reads⟩)
      (read : protocol.read request s.db = .error answer) :
      Serially protocol s (s.set index request (.done answer))
  | begins {index : Nat} {request : Request} {tx : Tx}
      (found : s.clients[index]? = some ⟨request, .reads⟩)
      (read : protocol.read request s.db = .ok tx) :
      Serially protocol s (s.set index request (.waits tx))
  | commits {index : Nat} {request : Request} {tx : Tx} {db : Db} {answer : Answer}
      (found : s.clients[index]? = some ⟨request, .waits tx⟩)
      (outcome : (protocol.body tx).outcome s.db id = .commits db answer) :
      Serially protocol s (State.set { s with db } index request (.committed tx answer))
  | rollsBack {index : Nat} {request : Request} {tx : Tx} {answer : Answer}
      (found : s.clients[index]? = some ⟨request, .waits tx⟩)
      (outcome : (protocol.body tx).outcome s.db id = .refuses answer) :
      Serially protocol s (s.set index request (.done answer))
  | answers {index : Nat} {request : Request} {tx : Tx} {answer : Answer}
      (found : s.clients[index]? = some ⟨request, .committed tx answer⟩) :
      Serially protocol s (s.set index request (.done answer))
  | fails {index : Nat} {request : Request} {phase : Phase Db Tx Answer}
      (found : s.clients[index]? = some ⟨request, phase⟩) :
      Serially protocol s (s.set index request (.done (protocol.failure request)))

structure State.IsNew (initial : Db → Prop) (s : State Db Request Tx Answer) : Prop where
  db : initial s.db
  clients : s.clients = []

def system (protocol : Protocol Db Request Tx Answer) (initial : Db → Prop) :
    TransitionSystem (State Db Request Tx Answer) (Label Request) where
  initial := State.IsNew initial
  step s label next := s.exec protocol label = some next

def serial (protocol : Protocol Db Request Tx Answer) (initial : Db → Prop) :
    TransitionSystem (State Db Request Tx Answer) (Label Request) where
  initial := State.IsNew initial
  step s _ next := Serially protocol s next

section Serialization

variable {protocol : Protocol Db Request Tx Answer} {s t : State Db Request Tx Answer}

/-- The transaction that holds the lock is the only one, and is on its way to what it would
come to if it ran at once now. -/
structure Consistent (protocol : Protocol Db Request Tx Answer) (s : State Db Request Tx Answer) :
    Prop where
  exclusive : ∀ {i j : Nat} {first second : Client Db Request Tx Answer},
    s.clients[i]? = some first → s.clients[j]? = some second →
    first.phase.isHolding = true → second.phase.isHolding = true → i = j
  outcome : ∀ {i : Nat} {request : Request} {tx : Tx} {pending : Db → Db} {body : Body Db Answer},
    s.clients[i]? = some ⟨request, .holds tx pending body⟩ →
    body.outcome s.db pending = (protocol.body tx).outcome s.db id

/-- The serial image of a client that moves on. -/
theorem State.serial_set (index : Nat) (request : Request) (phase : Phase Db Tx Answer) :
    (s.set index request phase).serial = s.serial.set index request phase.serial := by
  simp [State.serial, State.set]

variable {request : Request} {phase : Phase Db Tx Answer} {index : Nat}

theorem State.serial_getElem? (found : s.clients[index]? = some ⟨request, phase⟩) :
    s.serial.clients[index]? = some ⟨request, phase.serial⟩ := by
  simp [State.serial, found]

theorem State.set_self (found : s.clients[index]? = some ⟨request, phase⟩) :
    s.set index request phase = s := by
  rcases List.getElem?_eq_some_iff.mp found with ⟨bound, isClient⟩
  rw [State.set, ← isClient, set_getElem_self]

theorem State.getElem?_set {index other : Nat} {client : Client Db Request Tx Answer}
    (found : (s.set index request phase).clients[other]? = some client) :
    other = index ∧ client = ⟨request, phase⟩ ∨
      other ≠ index ∧ s.clients[other]? = some client := by
  simp only [State.set, List.getElem?_set] at found
  split at found
  · rename_i same
    split at found
    · exact .inl ⟨same.symm, (Option.some.inj found).symm⟩
    · cases found
  · rename_i different
    exact .inr ⟨Ne.symm different, found⟩

theorem State.getElem?_arrive {i : Nat} {client : Client Db Request Tx Answer}
    (found : (s.clients ++ [⟨request, .reads⟩])[i]? = some client) :
    s.clients[i]? = some client ∨ i = s.clients.length ∧ client = ⟨request, .reads⟩ := by
  by_cases early : i < s.clients.length
  · rw [getElem?_append_left early] at found
    exact .inl found
  rw [getElem?_append_right (Nat.le_of_not_lt early)] at found
  rcases List.getElem?_eq_some_iff.mp found with ⟨bound, isClient⟩
  simp only [length_singleton] at bound
  simp only [getElem_singleton] at isClient
  exact .inr ⟨by omega, isClient.symm⟩

open State (serial_getElem? serial_set getElem?_set set_self getElem?_arrive)

/-- A client that gives the lock back leaves the others as they were. -/
theorem Consistent.release (consistent : Consistent protocol s)
    (releases : phase.isHolding = false) : Consistent protocol (s.set index request phase) where
  exclusive := by
    intro i j first second isFirst isSecond firstHolds secondHolds
    rcases getElem?_set isFirst with ⟨_, rfl⟩ | ⟨_, oldFirst⟩
    · rw [releases] at firstHolds
      cases firstHolds
    rcases getElem?_set isSecond with ⟨_, rfl⟩ | ⟨_, oldSecond⟩
    · rw [releases] at secondHolds
      cases secondHolds
    exact consistent.exclusive oldFirst oldSecond firstHolds secondHolds
  outcome := by
    intro i other tx pending body found
    rcases getElem?_set found with ⟨_, isClient⟩ | ⟨_, old⟩
    · cases isClient
      cases releases
    · exact consistent.outcome old

/-- The holder of the lock may change the database when it ends. -/
theorem Consistent.end (consistent : Consistent protocol s)
    {holder : Client Db Request Tx Answer} (found : s.clients[index]? = some holder)
    (holding : holder.phase.isHolding) (releases : phase.isHolding = false) (db : Db) :
    Consistent protocol (State.set { s with db } index request phase) := by
  have noOther : ∀ {i : Nat} {other : Client Db Request Tx Answer},
      (State.set { s with db } index request phase).clients[i]? = some other →
      other.phase.isHolding → False := by
    intro i other isOther otherHolds
    rcases getElem?_set isOther with ⟨_, rfl⟩ | ⟨different, old⟩
    · rw [releases] at otherHolds
      cases otherHolds
    · exact different (consistent.exclusive old found otherHolds holding)
  constructor
  · intro i j first second isFirst _ firstHolds
    exact (noOther isFirst firstHolds).elim
  · intro i other tx pending body isOther
    exact (noOther isOther rfl).elim

/-- A client that holds the lock alone works on the database that it locked. -/
theorem Consistent.hold (consistent : Consistent protocol s) {tx : Tx}
    {pending : Db → Db} {body : Body Db Answer}
    (only : ∀ {i : Nat} {other : Client Db Request Tx Answer}, s.clients[i]? = some other →
      other.phase.isHolding → i = index)
    (outcome : body.outcome s.db pending = (protocol.body tx).outcome s.db id) :
    Consistent protocol (s.set index request (.holds tx pending body)) where
  exclusive := by
    intro i j first second isFirst isSecond firstHolds secondHolds
    have atIndex : ∀ {k : Nat} {other : Client Db Request Tx Answer},
        (s.set index request (.holds tx pending body)).clients[k]? = some other →
        other.phase.isHolding → k = index := by
      intro k other isOther otherHolds
      rcases getElem?_set isOther with ⟨same, _⟩ | ⟨_, old⟩
      · exact same
      · exact only old otherHolds
    rw [atIndex isFirst firstHolds, atIndex isSecond secondHolds]
  outcome := by
    intro i other otherTx otherPending otherBody isOther
    rcases getElem?_set isOther with ⟨_, isClient⟩ | ⟨_, old⟩
    · rcases Client.mk.inj isClient with ⟨_, ⟨⟩⟩
      exact outcome
    · exact consistent.outcome old

theorem State.isFree_iff : s.isFree ↔
    ∀ {i : Nat} {client : Client Db Request Tx Answer}, s.clients[i]? = some client →
      client.phase.isHolding = false := by
  simp only [State.isFree, all_eq_true, Bool.not_eq_true']
  constructor
  · intro free i client found
    exact free client (mem_of_getElem? found)
  · intro free client mem
    rcases mem_iff_getElem?.mp mem with ⟨i, found⟩
    exact free found

theorem Consistent.arrive (consistent : Consistent protocol s) (request : Request) :
    Consistent protocol { s with clients := s.clients ++ [⟨request, .reads⟩] } := by
  have old : ∀ {i : Nat} {client : Client Db Request Tx Answer},
      (s.clients ++ [⟨request, .reads⟩])[i]? = some client →
      client.phase.isHolding → s.clients[i]? = some client := by
    intro i client found holds
    rcases getElem?_arrive found with old | ⟨_, rfl⟩
    · exact old
    · cases holds
  constructor
  · intro i j first second isFirst isSecond firstHolds secondHolds
    exact consistent.exclusive (old isFirst firstHolds) (old isSecond secondHolds) firstHolds
      secondHolds
  · intro i other tx pending body found
    exact consistent.outcome (old found rfl)

/-- A step of the interleaved system is a step of the serial one, or none. -/
theorem Consistent.step (consistent : Consistent protocol s) {label : Label Request}
    (step : s.exec protocol label = some t) :
    Consistent protocol t ∧ Serially protocol s.serial t.serial := by
  cases label with
  | arrive request =>
    rcases of_guard step with ⟨admitted, rfl⟩
    refine ⟨consistent.arrive request, ?_⟩
    have same : s.serial.clients.map Client.request = s.clients.map Client.request := by
      simp [State.serial, Function.comp_def]
    have arrives : Serially protocol s.serial
        { s.serial with clients := s.serial.clients ++ [⟨request, .reads⟩] } :=
      .arrives (same ▸ admitted)
    simpa [State.serial, Phase.serial] using arrives
  | advance index =>
    simp only [State.exec] at step
    split at step
    · cases step
    · rename_i request found
      split at step <;> rename_i isRead <;> rcases Option.some.inj step with rfl <;>
        refine ⟨consistent.release rfl, ?_⟩ <;> rw [serial_set]
      · exact .refuses (serial_getElem? found) isRead
      · exact .begins (serial_getElem? found) isRead
    · rename_i request tx found
      rcases of_guard step with ⟨free, rfl⟩
      refine ⟨consistent.hold ?_ rfl, ?_⟩
      · intro i other isOther holds
        rw [State.isFree_iff.mp free isOther] at holds
        cases holds
      · have waits : s.serial.clients[index]? = some ⟨request, .waits tx⟩ :=
          serial_getElem? found
        rw [serial_set, Phase.serial, set_self waits]
        exact .stays
    · rename_i request tx pending write next found
      cases step
      have goesOn := consistent.outcome found
      rw [Body.outcome] at goesOn
      refine ⟨consistent.hold ?_ goesOn, ?_⟩
      · exact fun isOther holds => consistent.exclusive isOther found holds rfl
      · have waits : s.serial.clients[index]? = some ⟨request, .waits tx⟩ :=
          serial_getElem? found
        rw [serial_set, Phase.serial, set_self waits]
        exact .stays
    · rename_i request tx pending answer found
      cases step
      refine ⟨consistent.end found rfl rfl (pending s.db), ?_⟩
      rw [serial_set]
      exact .commits (serial_getElem? found) (consistent.outcome found).symm
    · rename_i request tx pending answer found
      cases step
      refine ⟨consistent.release rfl, ?_⟩
      rw [serial_set]
      exact .rollsBack (serial_getElem? found) (consistent.outcome found).symm
    · rename_i request tx answer found
      cases step
      refine ⟨consistent.release rfl, ?_⟩
      rw [serial_set]
      exact .answers (serial_getElem? found)
    · cases step
  | fail index =>
    simp only [State.exec] at step
    split at step
    · cases step
    · cases step
    · rename_i request phase _ found
      cases step
      refine ⟨consistent.release rfl, ?_⟩
      rw [serial_set]
      exact .fails (serial_getElem? found)

/-- Every reachable state of the interleaved system is a reachable state of the serial one,
seen without the work of the transaction that holds the lock. -/
theorem reachable_serial {initial : Db → Prop} (reachable : (system protocol initial).Reachable s) :
    (serial protocol initial).Reachable s.serial := by
  rcases reachable with ⟨start, labels, isNew, run⟩
  have runs : Consistent protocol s ∧
      (serial protocol initial).Run start.serial labels s.serial := by
    induction run with
    | refl =>
      refine ⟨⟨?_, ?_⟩, .refl _⟩
      · intro i j first second isFirst
        simp [isNew.clients] at isFirst
      · intro i request tx pending body found
        simp [isNew.clients] at found
    | step _ last ih =>
      rcases ih with ⟨consistent, serially⟩
      rcases consistent.step last with ⟨next, step⟩
      exact ⟨next, serially.step step⟩
  refine ⟨start.serial, labels, ⟨isNew.db, ?_⟩, runs.2⟩
  simp [State.serial, isNew.clients]

/-- The answer that a client has got, or is about to get for a transaction that has committed. -/
def Phase.answer? : Phase Db Tx Answer → Option Answer
  | .committed _ answer | .done answer => some answer
  | _ => none

theorem Phase.answer?_serial (phase : Phase Db Tx Answer) :
    phase.serial.answer? = phase.answer? := by
  cases phase <;> rfl

section Answers

variable {Sound : Db → Prop} {Backed : Db → Answer → Prop}

structure Answered (Sound : Db → Prop) (Backed : Db → Answer → Prop)
    (s : State Db Request Tx Answer) : Prop where
  sound : Sound s.db
  backed : ∀ {i : Nat} {client : Client Db Request Tx Answer} {answer : Answer},
    s.clients[i]? = some client → client.phase.answer? = some answer → Backed s.db answer

/-- A step that keeps the database sound and backs its own answer keeps every answer backed. -/
theorem Answered.set (answered : Answered Sound Backed s) {request : Request}
    {phase : Phase Db Tx Answer} {db : Db} (sound : Sound db)
    (keeps : ∀ {earlier}, Backed s.db earlier → Backed db earlier)
    (backed : ∀ {answer}, phase.answer? = some answer → Backed db answer) :
    Answered Sound Backed (State.set { s with db } index request phase) where
  sound := sound
  backed := by
    intro i client answer found isAnswer
    rcases getElem?_set found with ⟨_, rfl⟩ | ⟨_, old⟩
    · exact backed isAnswer
    · exact keeps (answered.backed old isAnswer)

/-- The invariant rule for transactions under one lock: what every transaction preserves when it
runs at once holds of the database in every reachable state, which backs the answers given. -/
theorem reachable_answered {initial : Db → Prop} (initially : ∀ {db}, initial db → Sound db)
    (commits : ∀ {db tx next answer}, Sound db →
      (protocol.body tx).outcome db id = .commits next answer →
      Sound next ∧ Backed next answer ∧ ∀ {earlier}, Backed db earlier → Backed next earlier)
    (rollsBack : ∀ {db tx answer}, (protocol.body tx).outcome db id = .refuses answer →
      Backed db answer)
    (refuses : ∀ {db request answer}, protocol.read request db = .error answer → Backed db answer)
    (fails : ∀ db request, Backed db (protocol.failure request))
    (reachable : (system protocol initial).Reachable s) : Answered Sound Backed s := by
  have serially : Answered Sound Backed s.serial := by
    refine (reachable_serial reachable).invariant (Answered Sound Backed) ?_ ?_
    · intro start isNew
      refine ⟨initially isNew.db, ?_⟩
      intro i client answer found
      simp [isNew.clients] at found
    · intro state _ next answered step
      cases step with
      | stays => exact answered
      | arrives =>
        refine ⟨answered.sound, ?_⟩
        intro i client answer found isAnswer
        rcases getElem?_arrive found with old | ⟨_, rfl⟩
        · exact answered.backed old isAnswer
        · cases isAnswer
      | refuses _ read =>
        exact answered.set answered.sound id fun | rfl => refuses read
      | begins => exact answered.set answered.sound id fun isAnswer => nomatch isAnswer
      | commits _ outcome =>
        rcases commits answered.sound outcome with ⟨sound, backed, keeps⟩
        exact answered.set sound keeps fun | rfl => backed
      | rollsBack _ outcome =>
        exact answered.set answered.sound id fun | rfl => rollsBack outcome
      | answers found =>
        exact answered.set answered.sound id fun | rfl => answered.backed found rfl
      | fails => exact answered.set answered.sound id fun | rfl => fails _ _
  refine ⟨serially.sound, ?_⟩
  intro i client answer found isAnswer
  refine serially.backed (serial_getElem? found) ?_
  rw [Phase.answer?_serial, isAnswer]

end Answers

end Serialization

end Plinth.Core.Locked
