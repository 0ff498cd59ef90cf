import Plinth.Core.Table
import Plinth.Core.Transition

/-!
# Reservations of floating panels

Model of the budget in `panels/float-reservations.js`. A symbol is a number that no symbol
before it has. An operation has changed the records before it calls the observers, so what an
observer calls is a later operation of the same sequence.
-/

namespace Plinth.Shell.FloatReservations

open List Core

def floatLimit : Nat := 5

abbrev Symbol := Nat

inductive Argument where
  | symbol (value : Symbol)
  | null
  | undefined
  | other
  deriving DecidableEq

inductive Action where
  | beginAttempt
  | settleAttempt (attempt : Argument)
  | completeCleanup (attempt : Argument)
  | holdCleanup
  | retire
  | failCleanup

inductive Operation where
  | reserve
  | poison
  | on (token : Symbol) (action : Action)

/-- An operation that is refused returns `null` or `false`. -/
inductive Outcome where
  | refused
  | done
  | symbol (value : Symbol)
  deriving DecidableEq

structure Record where
  token : Symbol
  attempt : Option Symbol
  pending : Bool
  cleanupComplete : Bool
  retiring : Bool
  poisoned : Bool

structure Budget where
  records : Table Record Symbol Record.token
  poisoned : Bool
  symbols : Nat

def Argument.is (attempt : Option Symbol) : Argument → Bool
  | .symbol value => attempt = some value
  | .null => attempt = none
  | _ => false

namespace Budget

variable (b : Budget)

def created : Budget := ⟨.empty, false, 0⟩

def set (record : Record) : Budget := { b with records := b.records.upsert record }

def draw : Budget × Outcome := ({ b with symbols := b.symbols + 1 }, .symbol b.symbols)

/-- A record that was changed is deleted if nothing holds it any more. -/
def release (record : Record) : Budget :=
  if record.retiring && !record.pending && record.cleanupComplete && !record.poisoned then
    { b with records := b.records.erase record.token }
  else b.set record

def change (record : Record) : Action → Budget × Outcome
  | .beginAttempt =>
    if b.poisoned || record.retiring || record.pending || !record.cleanupComplete then
      (b, .refused)
    else
      (b.set { record with
        attempt := some b.symbols, pending := true, cleanupComplete := false }).draw
  | .settleAttempt attempt =>
    if !attempt.is record.attempt || !record.pending then (b, .refused)
    else (b.release { record with pending := false }, .done)
  | .completeCleanup attempt =>
    if !(attempt.is record.attempt || (record.attempt = none && attempt = .undefined)) ||
        record.cleanupComplete || record.poisoned then (b, .refused)
    else (b.release { record with cleanupComplete := true }, .done)
  | .holdCleanup =>
    if record.poisoned then (b, .refused)
    else (b.set { record with cleanupComplete := false }, .done)
  | .retire => (b.release { record with retiring := true }, .done)
  | .failCleanup =>
    ({ b.set { record with poisoned := true, retiring := true, cleanupComplete := false } with
      poisoned := true }, .done)

def exec : Operation → Budget × Outcome
  | .reserve =>
    if b.poisoned || floatLimit ≤ b.records.rows.length then (b, .refused)
    else (b.set ⟨b.symbols, none, false, true, false, false⟩).draw
  | .poison => ({ b with poisoned := true }, .done)
  | .on token action =>
    match b.records.find? token with
    | none => (b, .refused)
    | some record => b.change record action

end Budget

abbrev Call := Operation × Outcome

def reservations : TransitionSystem Budget Call where
  initial b := b = .created
  step b call next := b.exec call.1 = (next, call.2)

def settles : Call → Option Argument
  | (.on _ (.settleAttempt attempt), .done) => some attempt
  | _ => none

/-- What a record that an operation releases has, or gets by it. -/
structure Releasable (operation : Operation) (record : Record) : Prop where
  retiring : record.retiring = true ∨ operation = .on record.token .retire
  settled : record.pending = false ∨
    ∃ attempt, operation = .on record.token (.settleAttempt attempt)
  cleaned : record.cleanupComplete = true ∨
    ∃ attempt, operation = .on record.token (.completeCleanup attempt)
  sound : record.poisoned = false

def Record.outstanding (record : Record) : Option Argument :=
  if record.pending then some (record.attempt.elim .null .symbol) else none

namespace Budget

variable {b next : Budget} {settled : List Argument} {old new : Record} {action : Action}
  {operation : Operation} {outcome : Outcome}

def outstanding (b : Budget) : List Argument := b.records.rows.filterMap Record.outstanding

inductive Effect (b : Budget) : Operation → Budget × Outcome → Prop where
  | refuses {operation : Operation} : Effect b operation (b, .refused)
  | poisons : Effect b .poison ({ b with poisoned := true }, .done)
  | reserves {new : Record} (free : b.poisoned = false)
      (room : b.records.rows.length < floatLimit) (idle : new.outstanding = none) :
      Effect b .reserve (b.set new).draw
  | begins {old new : Record} (free : b.poisoned = false)
      (found : b.records.find? new.token = some old) (idle : old.outstanding = none)
      (opens : new.outstanding = some (.symbol b.symbols)) :
      Effect b (.on new.token .beginAttempt) (b.set new).draw
  | sets {old new : Record} {action : Action} {poisoned : Bool}
      (found : b.records.find? new.token = some old)
      (moved : (settles (.on new.token action, .done)).toList ++ new.outstanding.toList =
        old.outstanding.toList)
      (poisons : b.poisoned = true → poisoned = true) :
      Effect b (.on new.token action) ({ b.set new with poisoned }, .done)
  | erases {old : Record} {action : Action} (found : b.records.find? old.token = some old)
      (moved : (settles (.on old.token action, .done)).toList = old.outstanding.toList)
      (releasable : Releasable (.on old.token action) old) :
      Effect b (.on old.token action) ({ b with records := b.records.erase old.token }, .done)

theorem release_effect (found : b.records.find? old.token = some old) (same : new.token = old.token)
    (moved : (settles (.on new.token action, .done)).toList ++ new.outstanding.toList =
      old.outstanding.toList)
    (releasable : new.retiring = true → new.pending = false → new.cleanupComplete = true →
      new.poisoned = false → Releasable (.on old.token action) old) :
    Effect b (.on old.token action) (b.release new, .done) := by
  simp only [release]
  split
  · rename_i free
    simp only [Bool.and_eq_true, Bool.not_eq_true'] at free
    have idle : new.outstanding = none := by simp [Record.outstanding, free.1.1.2]
    rw [same, idle, Option.toList_none, append_nil] at moved
    rw [same]
    exact .erases found moved (releasable free.1.1.1 free.1.1.2 free.1.2 free.2)
  · rw [← same] at found ⊢
    exact .sets found moved id

theorem change_effect (found : b.records.find? old.token = some old) :
    Effect b (.on old.token action) (b.change old action) := by
  cases action with
  | beginAttempt =>
    simp only [change]
    split
    · exact .refuses
    rename_i free
    simp only [Bool.or_eq_true, not_or, Bool.not_eq_true] at free
    exact @Effect.begins b old { old with
      attempt := some b.symbols, pending := true, cleanupComplete := false } free.1.1.1 found
      (by simp [Record.outstanding, free.1.2]) rfl
  | settleAttempt attempt =>
    simp only [change]
    split
    · exact .refuses
    rename_i free
    simp only [Bool.or_eq_true, not_or, Bool.not_eq_true, Bool.not_eq_false'] at free
    refine release_effect found rfl ?_ fun retiring _ cleaned sound =>
      ⟨.inl retiring, .inr ⟨_, rfl⟩, .inl cleaned, sound⟩
    cases attempt <;> simp_all [Argument.is, Record.outstanding, settles]
  | completeCleanup attempt =>
    simp only [change]
    split
    · exact .refuses
    · exact release_effect found rfl rfl fun retiring isSettled _ sound =>
        ⟨.inl retiring, .inl isSettled, .inr ⟨_, rfl⟩, sound⟩
  | holdCleanup =>
    simp only [change]
    split
    · exact .refuses
    · exact @Effect.sets b old { old with cleanupComplete := false } _ _ found rfl id
  | retire =>
    exact release_effect found rfl rfl fun _ isSettled cleaned sound =>
      ⟨.inr rfl, .inl isSettled, .inl cleaned, sound⟩
  | failCleanup =>
    exact @Effect.sets b old { old with
      poisoned := true, retiring := true, cleanupComplete := false } _ _ found rfl fun _ => rfl

/-- What an operation can do. -/
theorem exec_effect (b : Budget) (operation : Operation) :
    Effect b operation (b.exec operation) := by
  cases operation with
  | poison => exact .poisons
  | reserve =>
    simp only [exec]
    split
    · exact .refuses
    rename_i free
    simp only [Bool.or_eq_true, decide_eq_true_eq, not_or, Bool.not_eq_true, Nat.not_le] at free
    exact .reserves free.1 free.2 rfl
  | on token action =>
    simp only [exec]
    split
    · exact .refuses
    · rename_i record found
      rcases (Table.find?_eq_some.mp found).2 with rfl
      exact change_effect found

/-- The attempts that were settled and those that can be are different symbols. -/
structure Sound (b : Budget) (settled : List Argument) : Prop where
  bounded : b.records.rows.length ≤ floatLimit
  drawn : (settled ++ b.outstanding).Subperm ((range b.symbols).map .symbol)

theorem filterMap_cons_toList (record : Record) (records : List Record) :
    (record :: records).filterMap Record.outstanding =
      record.outstanding.toList ++ records.filterMap Record.outstanding := by
  cases isOpen : record.outstanding <;> simp [isOpen]

theorem outstanding_set (b : Budget) (record : Record) :
    (b.set record).outstanding.Perm (record.outstanding.toList ++
      (b.records.erase record.token).rows.filterMap Record.outstanding) := by
  rw [← filterMap_cons_toList]
  exact (b.records.perm_upsert record).filterMap _

theorem outstanding_of_find? (found : b.records.find? new.token = some old) :
    b.outstanding.Perm (old.outstanding.toList ++
      (b.records.erase new.token).rows.filterMap Record.outstanding) := by
  rw [← filterMap_cons_toList]
  exact (Table.perm_erase found).filterMap _

theorem Sound.length_set (sound : b.Sound settled) (found : b.records.find? new.token = some old) :
    (b.set new).records.rows.length ≤ floatLimit :=
  ((b.records.perm_upsert new).length_eq.trans
    (Table.perm_erase found).length_eq.symm).trans_le sound.bounded

/-- Every operation keeps the budget sound. -/
theorem Sound.step (sound : b.Sound settled) (effect : Effect b operation (next, outcome)) :
    next.Sound (settled ++ (settles (operation, outcome)).toList) := by
  have fewer : ∀ token, (b.records.erase token).rows.Sublist b.records.rows :=
    fun token => filter_sublist
  have quiet (none : settles (operation, outcome) = none) (kept : next.Sound settled) :
      next.Sound (settled ++ (settles (operation, outcome)).toList) := by
    rwa [none, Option.toList_none, append_nil]
  cases effect with
  | refuses => exact quiet (by simp [settles]) sound
  | poisons => exact quiet rfl ⟨sound.bounded, sound.drawn⟩
  | @reserves new free room idle =>
    have stored := b.outstanding_set new
    rw [idle] at stored
    refine quiet rfl ⟨?_, ?_⟩
    · have length := (b.records.perm_upsert new).length_eq
      have le := (fewer new.token).length_le
      simp only [set, length_cons] at length ⊢
      omega
    · have kept := (subperm_append_left settled).mpr
        (stored.subperm.trans ((fewer new.token).filterMap _).subperm)
      have more := ((range_sublist.mpr (Nat.le_succ b.symbols)).map Argument.symbol).subperm
      exact kept.trans (sound.drawn.trans more)
  | @begins old new free found idle opens =>
    have before := outstanding_of_find? found
    have after := b.outstanding_set new
    rw [idle] at before
    rw [opens] at after
    refine quiet rfl ⟨sound.length_set found, ?_⟩
    have grown := ((after.trans (before.symm.cons _)).append_left settled).trans perm_middle
    have drawn := grown.subperm.trans ((subperm_cons (.symbol b.symbols)).mpr sound.drawn)
    rw [range_succ, map_append]
    exact drawn.trans (perm_append_singleton _ _).symm.subperm
  | @sets old new action poisoned found moved _ =>
    have before := outstanding_of_find? found
    have after := (b.outstanding_set new).append_left
      (settles (.on new.token action, .done)).toList
    rw [← append_assoc, moved] at after
    refine ⟨sound.length_set found, ?_⟩
    rw [append_assoc]
    exact ((after.trans before.symm).append_left settled).subperm.trans sound.drawn
  | @erases old action found moved _ =>
    have before := outstanding_of_find? found
    rw [← moved] at before
    refine ⟨Nat.le_trans (fewer old.token).length_le sound.bounded, ?_⟩
    rw [append_assoc]
    exact (before.symm.append_left settled).subperm.trans sound.drawn

/-- A record leaves only by an operation that may release it. -/
theorem Effect.releasable (effect : Effect b operation (next, outcome)) {record : Record}
    (mem : record ∈ b.records) (gone : next.records.find? record.token = none) :
    Releasable operation record := by
  have absent := Table.find?_eq_none.mp gone
  have stored : ∀ new, ¬ ∀ other ∈ b.records.upsert new, other.token ≠ record.token := by
    intro new none
    by_cases same : record.token = new.token
    · exact none new (Table.mem_upsert.mpr (.inl rfl)) same.symm
    · exact none record (Table.mem_upsert.mpr (.inr ⟨mem, same⟩)) rfl
  cases effect with
  | refuses | poisons => exact absurd rfl (absent record mem)
  | reserves | begins | sets => exact absurd absent (stored _)
  | @erases old action found _ releasable =>
    by_cases same : record.token = old.token
    · rwa [Table.eq_of_key mem (Table.find?_eq_some.mp found).1 same]
    · exact absurd rfl (absent record (Table.mem_erase.mpr ⟨mem, same⟩))

theorem Effect.poisoned (effect : Effect b operation (next, outcome))
    (isPoisoned : b.poisoned = true) :
    next.poisoned = true ∧ ∀ value, outcome ≠ .symbol value := by
  cases effect with
  | refuses | erases => exact ⟨isPoisoned, nofun⟩
  | poisons => exact ⟨rfl, nofun⟩
  | reserves free | begins free => simp [isPoisoned] at free
  | sets _ _ poisons => exact ⟨poisons isPoisoned, nofun⟩

end Budget

/-- In every sequence of operations there are at most five records, no attempt is settled twice,
a record is released only when nothing holds it, and once the budget is poisoned no record is
reserved and no attempt begun. -/
theorem reservations_sound {calls : List Call} {b : Budget}
    (run : reservations.Run .created calls b) :
    b.records.rows.length ≤ 5 ∧ (calls.filterMap settles).Nodup ∧
      (∀ operation, ∀ record ∈ b.records,
        (b.exec operation).1.records.find? record.token = none → Releasable operation record) ∧
      (b.exec .poison).1.poisoned = true ∧
      (b.poisoned = true → ∀ later c, reservations.Run b later c →
        ∀ call ∈ later, ∀ value, call.2 ≠ .symbol value) := by
  have effect : ∀ {b call next}, reservations.step b call next →
      Budget.Effect b call.1 (next, call.2) := fun step => step ▸ Budget.exec_effect _ _
  have sound : b.Sound (calls.filterMap settles) := by
    refine run.history (fun calls b => b.Sound (calls.filterMap settles)) ?_ ?_
    · intro calls b call next sound step
      have kept := sound.step (effect step)
      cases isSettled : settles call with
      | none | some => simpa [isSettled] using kept
    · exact ⟨by decide, .refl _⟩
  refine ⟨sound.bounded, ?_, fun operation _ => (b.exec_effect operation).releasable, rfl, ?_⟩
  · rcases sound.drawn with ⟨part, perm, sublist⟩
    have distinct : part.Nodup := (nodup_range.map fun _ _ => by simp).sublist sublist
    exact (perm.nodup_iff.mp distinct).of_append_left
  · intro isPoisoned later c rest
    refine (rest.history (fun calls b => b.poisoned = true ∧ ∀ call ∈ calls, ∀ value,
      call.2 ≠ .symbol value) ?_ ⟨isPoisoned, by simp⟩).2
    intro calls b call next kept step
    have stays := (effect step).poisoned kept.1
    refine ⟨stays.1, fun other mem => ?_⟩
    rcases mem_append.mp mem with old | new
    · exact kept.2 other old
    · rcases mem_singleton.mp new with rfl
      exact stays.2

def onePanel : List Call :=
  [(.reserve, .symbol 0), (.on 0 .beginAttempt, .symbol 1),
    (.on 0 (.settleAttempt (.symbol 1)), .done), (.on 0 (.settleAttempt (.symbol 1)), .refused),
    (.on 0 (.completeCleanup (.symbol 1)), .done), (.on 0 .retire, .done), (.poison, .done)]

/-- A panel is prepared, settled, cleaned and retired, and then the budget is poisoned. -/
theorem onePanel_sound : ∃ b, reservations.Run .created onePanel b ∧ b.records.rows = [] ∧
    b.poisoned = true ∧ onePanel.filterMap settles = [.symbol 1] ∧ ∀ later c,
      reservations.Run b later c → ∀ call ∈ later, ∀ value, call.2 ≠ .symbol value := by
  have played : ∃ b, TransitionSystem.replay (fun b call =>
      if (Budget.exec b call.1).2 = call.2 then some (b.exec call.1).1 else none) .created
      onePanel = some b ∧ b.records.rows = [] ∧ b.poisoned = true := ⟨_, rfl, rfl, rfl⟩
  rcases played with ⟨b, isPlayed, empty, isPoisoned⟩
  have run : reservations.Run .created onePanel b := by
    refine .of_replay ?_ isPlayed
    intro b call next step
    rcases of_guard step with ⟨same, rfl⟩
    exact Prod.ext rfl same
  exact ⟨b, run, empty, isPoisoned, rfl, (reservations_sound run).2.2.2.2 isPoisoned⟩

end Plinth.Shell.FloatReservations
