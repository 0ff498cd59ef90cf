import Plinth.Core.Transition
import Plinth.Rbac.Registration

/-!
# Concurrent registrations

The statements on `plinth.rbac_rules` that the REGISTERING transactions of installs and upgrades
execute, interleaved. The advisory lock on a package's name allows one transaction for a name at a
time; those of different names run concurrently under READ COMMITTED, so a statement sees the
committed rows and the transaction's own writes, and a write waits while another transaction has
written the same row.

The ownership of a rule is checked by one statement and written by a later one, and another
transaction may commit the rule in between.
-/

namespace Plinth.Rbac

open Core List

structure Session where
  name : String
  upgrade : Bool
  provides : List ProvidedSignature
  /-- Rules that have not been validated. -/
  unchecked : List RbacRule
  rejected : Bool := false
  /-- Rules that are checked and not written. -/
  checked : List RbacRule := []
  /-- Rules of the old version to orphan, once they are selected. -/
  dropped : Option (List String) := none
  /-- The rows written, oldest first. -/
  written : List RuleRow := []

inductive Statement where
  | check
  | selectOld
  | upsert
  | orphan

namespace Session

def seen (session : Session) (rules : RuleTable) : RuleTable :=
  session.written.foldl Table.upsert rules

/-- All rules passed the checks, and an upgrade has selected the old rules. -/
def validated (session : Session) : Bool :=
  session.unchecked.isEmpty && !session.rejected && (!session.upgrade || session.dropped.isSome)

def finished (session : Session) : Bool :=
  session.validated && session.checked.isEmpty && (session.dropped.getD []).isEmpty

def droppedRules (session : Session) (rules : RuleTable) : List String :=
  (((session.seen rules).rows.filter fun row => row.extensionName == session.name).map
    RuleRow.rule).filter fun rule => !session.checked.any fun r => r.rule == rule

/-- The next statement of a transaction; `locked` says which rows it has to wait for. -/
def execute (session : Session) (rules : RuleTable) (locked : String → Bool) :
    Statement → Option Session
  | .check =>
    match session.unchecked with
    | [] => none
    | r :: rest =>
      let idx := session.checked.length
      let findings := checkStaticRule r idx session.provides session.name ++
        checkRuleA5 r idx session.name (session.seen rules)
      some { session with
        unchecked := rest
        rejected := session.rejected || (firstError findings).isSome
        checked := session.checked ++ [r] }
  | .selectOld =>
    if session.unchecked.isEmpty && !session.rejected && session.upgrade &&
        session.dropped.isNone then
      some { session with dropped := some (session.droppedRules rules) }
    else none
  | .upsert =>
    match session.checked with
    | [] => none
    | r :: rest =>
      if session.validated && !locked r.rule then
        some { session with
          checked := rest
          written := session.written ++ [r.row session.name] }
      else none
  | .orphan =>
    match session.dropped with
    | none | some [] => none
    | some (rule :: rest) =>
      if session.validated && session.checked.isEmpty then
        match ((session.seen rules).find? rule).filter fun row =>
            row.extensionName == session.name && !row.orphaned with
        | none => some { session with dropped := some rest }
        | some row =>
          if locked rule then none else
            some { session with
              dropped := some rest
              written := session.written ++ [{ row with orphaned := true }] }
      else none

end Session

structure Registrations where
  rules : RuleTable
  sessions : Table Session String Session.name

inductive Step where
  | begin (name : String) (upgrade : Bool) (provides : List ProvidedSignature)
      (rules : List RbacRule)
  | statement (name : String) (statement : Statement)
  | commit (name : String)
  | rollback (name : String)

namespace Registrations

def locked (state : Registrations) (name rule : String) : Bool :=
  state.sessions.rows.any fun other =>
    other.name != name && other.written.any fun row => row.rule == rule

def close (state : Registrations) (name : String) : Table Session String Session.name :=
  state.sessions.filter fun session => session.name != name

def exec (state : Registrations) : Step → Option Registrations
  | .begin name upgrade provides rules =>
    if fresh : state.sessions.find? name = none then
      some { state with
        sessions := state.sessions.insert { name, upgrade, provides, unchecked := rules } fresh }
    else none
  | .statement name statement =>
    (state.sessions.find? name).bind fun session =>
      (session.execute state.rules (state.locked name) statement).map fun next =>
        { state with sessions := state.sessions.upsert next }
  | .commit name =>
    ((state.sessions.find? name).filter Session.finished).map fun session =>
      { rules := session.seen state.rules
        sessions := state.close name }
  | .rollback name =>
    (state.sessions.find? name).map fun _ => { state with sessions := state.close name }

/-- No other transaction has checked a rule that the commit makes visible and is still to
write it. -/
def Undisputed (state : Registrations) : Step → Prop
  | .commit name =>
    ∀ session ∈ state.sessions, session.name = name →
      ∀ other ∈ state.sessions, other.name ≠ name → other.rejected = false →
        ∀ row ∈ session.written, ∀ r ∈ other.checked, row.rule ≠ r.rule
  | _ => True

instance (state : Registrations) : DecidablePred state.Undisputed
  | .begin .. | .statement .. | .rollback .. => inferInstanceAs (Decidable True)
  | .commit name =>
    inferInstanceAs (Decidable (∀ session ∈ state.sessions.rows, session.name = name →
      ∀ other ∈ state.sessions.rows, other.name ≠ name → other.rejected = false →
        ∀ row ∈ session.written, ∀ r ∈ other.checked, row.rule ≠ r.rule))

def system : TransitionSystem Registrations Step where
  initial state := state.sessions.rows = []
  step state step next := state.exec step = some next

/-- The interleavings in which every commit is undisputed. -/
def undisputedSystem : TransitionSystem Registrations Step where
  initial state := state.sessions.rows = []
  step state step next := state.exec step = some next ∧ state.Undisputed step

end Registrations

variable {rule : String}

variable {rules : RuleTable}

namespace Session

/-- Checked rules are free for the session as long as none was rejected, and so are the rows that
it has written under its own name. -/
structure Safe (session : Session) (rules : RuleTable) : Prop where
  checked : session.rejected = false → ∀ r ∈ session.checked, FreeFor rules session.name r.rule
  written : ∀ row ∈ session.written,
    row.extensionName = session.name ∧ FreeFor rules session.name row.rule

theorem Safe.freeFor_of_seen {session : Session} (safe : session.Safe rules)
    (free : FreeFor (session.seen rules) session.name rule) :
    FreeFor rules session.name rule := by
  by_cases own : ∃ row ∈ session.written, row.rule = rule
  · rcases own with ⟨row, isWritten, rfl⟩
    exact (safe.written row isWritten).2
  intro row found
  apply free row
  refine (Table.find?_foldl_upsert_of_not_mem rules ?_).trans found
  exact fun row' isWritten same => own ⟨row', isWritten, same⟩

structure Executed (session next : Session) (rules : RuleTable) (locked : String → Bool) :
    Prop where
  name : next.name = session.name
  safe : next.Safe rules
  written : ∀ row ∈ next.written, row ∈ session.written ∨ locked row.rule = false

/-- A statement writes only rules that no other session has locked. -/
theorem execute_executed {session next : Session} {locked : String → Bool}
    {statement : Statement} (safe : session.Safe rules)
    (executed : session.execute rules locked statement = some next) :
    Executed session next rules locked := by
  cases statement with
  | check =>
    simp only [execute] at executed
    split at executed
    case h_1 => cases executed
    case h_2 r rest _ =>
    cases executed
    refine ⟨rfl, ⟨fun passed r' isChecked => ?_, safe.written⟩, fun _ => .inl⟩
    simp only [Bool.or_eq_false_iff, Option.isSome_eq_false_iff, Option.isNone_iff_eq_none,
      firstError, find?_append, Option.or_eq_none_iff] at passed
    rcases mem_append.mp isChecked with old | new
    · exact safe.checked passed.1 r' old
    · rw [mem_singleton.mp new]
      exact safe.freeFor_of_seen (freeFor_iff_checkRuleA5.mpr passed.2.2)
  | selectOld =>
    simp only [execute] at executed
    split_ifs at executed
    cases executed
    exact ⟨rfl, ⟨safe.checked, safe.written⟩, fun _ => .inl⟩
  | upsert =>
    simp only [execute] at executed
    split at executed
    case h_1 => cases executed
    case h_2 r rest isChecked =>
    split_ifs at executed with allowed
    cases executed
    simp only [Bool.and_eq_true, validated, Bool.not_eq_true'] at allowed
    have free : FreeFor rules session.name r.rule :=
      safe.checked allowed.1.1.2 r (by simp [isChecked])
    refine ⟨rfl, ⟨fun passed r' mem => ?_, fun row mem => ?_⟩, fun row mem => ?_⟩
    · exact safe.checked passed r' (by simp [isChecked, mem])
    · rcases mem_append.mp mem with old | new
      · exact safe.written row old
      · rw [mem_singleton.mp new]
        exact ⟨rfl, free⟩
    · rcases mem_append.mp mem with old | new
      · exact .inl old
      · rw [mem_singleton.mp new]
        exact .inr allowed.2
  | orphan =>
    simp only [execute] at executed
    split at executed
    case h_1 | h_2 => cases executed
    case h_3 rule rest _ =>
      split at executed
      case isFalse => cases executed
      split at executed
      case h_1 =>
        cases executed
        exact ⟨rfl, ⟨safe.checked, safe.written⟩, fun _ => .inl⟩
      case h_2 row isRow =>
        split_ifs at executed with waits
        cases executed
        rcases Option.filter_eq_some_iff.mp isRow with ⟨found, own⟩
        simp only [Bool.and_eq_true, beq_iff_eq] at own
        have isRule : row.rule = rule := (Table.find?_eq_some.mp found).2
        have free : FreeFor rules session.name row.rule := by
          apply safe.freeFor_of_seen
          intro other isOther
          rw [isRule, found] at isOther
          exact Option.some.inj isOther ▸ own.1
        refine ⟨rfl, ⟨safe.checked, fun row' mem => ?_⟩, fun row' mem => ?_⟩
        · rcases mem_append.mp mem with old | new
          · exact safe.written row' old
          · rw [mem_singleton.mp new]
            exact ⟨own.1, free⟩
        · rcases mem_append.mp mem with old | new
          · exact .inl old
          · rw [mem_singleton.mp new]
            exact .inr (isRule ▸ Bool.eq_false_iff.mpr waits)

end Session

namespace Registrations

/-- Every transaction is safe, and no two of them have written the same rule. -/
structure Consistent (state : Registrations) : Prop where
  safe : ∀ session ∈ state.sessions, session.Safe state.rules
  exclusive : ∀ session ∈ state.sessions, ∀ other ∈ state.sessions, session.name ≠ other.name →
    ∀ row ∈ session.written, ∀ row' ∈ other.written, row.rule ≠ row'.rule

variable {state : Registrations}

theorem consistent_of_no_sessions (none : state.sessions.rows = []) : state.Consistent := by
  constructor <;> simp [Table.mem_rows, none]

variable {name : String} {session : Session} {next : Registrations}

theorem mem_close :
    session ∈ state.close name ↔ session ∈ state.sessions ∧ session.name ≠ name := by
  simp [close, Table.mem_filter]

theorem Consistent.close (consistent : state.Consistent)
    (safe : ∀ session ∈ state.sessions, session.name ≠ name → session.Safe rules) :
    Consistent { rules, sessions := state.close name } where
  safe session mem := by
    rcases mem_close.mp mem with ⟨isSession, other⟩
    exact safe session isSession other
  exclusive session mem other otherMem :=
    consistent.exclusive session (mem_close.mp mem).1 other (mem_close.mp otherMem).1

/-- A new session has seen nothing and written nothing. -/
theorem Consistent.begin (consistent : state.Consistent)
    (fresh : state.sessions.find? session.name = none) (safe : session.Safe state.rules)
    (silent : session.written = []) :
    Consistent { state with sessions := state.sessions.insert session fresh } := by
  have cases {other : Session} (mem : other ∈ state.sessions.insert session fresh) :
      other ∈ state.sessions ∨ other = session := by
    simpa [Table.insert, Table.mem_rows] using mem
  constructor
  · intro other mem
    rcases cases mem with old | rfl
    · exact consistent.safe other old
    · exact safe
  · intro first firstMem second secondMem apart row isRow row' isRow'
    rcases cases firstMem with firstOld | rfl
    · rcases cases secondMem with secondOld | rfl
      · exact consistent.exclusive first firstOld second secondOld apart row isRow row' isRow'
      · simp [silent] at isRow'
    · simp [silent] at isRow

/-- A statement keeps the sessions consistent, since the rows of others are locked. -/
theorem Consistent.statement (consistent : state.Consistent) {next : Session}
    (mem : session ∈ state.sessions)
    (executed : session.Executed next state.rules (state.locked session.name)) :
    Consistent { state with sessions := state.sessions.upsert next } := by
  have unlocked {other : Session} (otherMem : other ∈ state.sessions)
      (apart : session.name ≠ other.name) :
      ∀ row ∈ next.written, ∀ row' ∈ other.written, row.rule ≠ row'.rule := by
    intro row isRow row' isRow' same
    rcases executed.written row isRow with old | free
    · exact consistent.exclusive session mem other otherMem apart row old row' isRow' same
    · simp only [locked, any_eq_false, Bool.and_eq_true, bne_iff_ne, any_eq_true, not_and] at free
      exact free other otherMem apart.symm ⟨row', isRow', by simp [same]⟩
  constructor
  · intro other otherMem
    rcases Table.mem_upsert.mp otherMem with rfl | ⟨old, -⟩
    · exact executed.safe
    · exact consistent.safe other old
  · intro first firstMem second secondMem apart row isRow row' isRow'
    rcases Table.mem_upsert.mp firstMem with rfl | ⟨firstOld, -⟩
    · rcases Table.mem_upsert.mp secondMem with rfl | ⟨secondOld, -⟩
      · exact absurd rfl apart
      · exact unlocked secondOld (executed.name ▸ apart) row isRow row' isRow'
    · rcases Table.mem_upsert.mp secondMem with rfl | ⟨secondOld, -⟩
      · exact (unlocked firstOld (executed.name ▸ apart.symm) row' isRow' row isRow).symm
      · exact consistent.exclusive first firstOld second secondOld apart row isRow row' isRow'

theorem freeFor_seen (free : FreeFor rules name rule)
    (other : ∀ row ∈ session.written, row.rule ≠ rule) :
    FreeFor (session.seen rules) name rule := by
  intro row found
  exact free row ((Table.find?_foldl_upsert_of_not_mem rules other).symm.trans found)

theorem exec_commit (executed : state.exec (.commit name) = some next) :
    ∃ session ∈ state.sessions, session.name = name ∧
      next = { rules := session.seen state.rules, sessions := state.close name } := by
  rcases Option.map_eq_some_iff.mp executed with ⟨session, isSession, rfl⟩
  rcases Table.find?_eq_some.mp (Option.filter_eq_some_iff.mp isSession).1 with ⟨mem, isName⟩
  exact ⟨session, mem, isName, rfl⟩

/-- An undisputed step keeps the sessions consistent. -/
theorem Consistent.exec (consistent : state.Consistent) {step : Step}
    (executed : state.exec step = some next) (undisputed : state.Undisputed step) :
    next.Consistent := by
  cases step with
  | begin name upgrade provides rules =>
    simp only [Registrations.exec] at executed
    split_ifs at executed with fresh
    cases executed
    exact consistent.begin fresh ⟨by simp, by simp⟩ rfl
  | statement name statement =>
    rcases Option.bind_eq_some_iff.mp executed with ⟨session, found, rest⟩
    rcases Option.map_eq_some_iff.mp rest with ⟨after, isAfter, rfl⟩
    rcases Table.find?_eq_some.mp found with ⟨mem, rfl⟩
    exact consistent.statement mem
      (Session.execute_executed (consistent.safe session mem) isAfter)
  | commit name =>
    rcases exec_commit executed with ⟨session, mem, rfl, rfl⟩
    apply consistent.close
    intro other otherMem apart
    have safe := consistent.safe other otherMem
    constructor
    · intro passed r isChecked
      apply freeFor_seen (safe.checked passed r isChecked)
      intro row isRow
      exact undisputed session mem rfl other otherMem apart passed row isRow r isChecked
    · intro row' isRow'
      refine ⟨(safe.written row' isRow').1, freeFor_seen (safe.written row' isRow').2 ?_⟩
      intro row isRow
      exact consistent.exclusive session mem other otherMem apart.symm row isRow row' isRow'
  | rollback name =>
    rcases Option.map_eq_some_iff.mp executed with ⟨session, _, rfl⟩
    exact consistent.close fun other otherMem _ => consistent.safe other otherMem

/-- A step keeps the owner of every rule, and only a commit of the owner changes its row. -/
theorem Consistent.keeps (consistent : state.Consistent) {step : Step}
    (executed : state.exec step = some next) {row : RuleRow}
    (registered : state.rules.find? rule = some row) :
    (∃ now, next.rules.find? rule = some now ∧ now.extensionName = row.extensionName) ∧
      (step ≠ .commit row.extensionName → next.rules.find? rule = some row) := by
  have unchanged (same : next.rules.find? rule = state.rules.find? rule) :
      (∃ now, next.rules.find? rule = some now ∧ now.extensionName = row.extensionName) ∧
        (step ≠ .commit row.extensionName → next.rules.find? rule = some row) :=
    ⟨⟨row, same.trans registered, rfl⟩, fun _ => same.trans registered⟩
  cases step with
  | begin name upgrade provides rules =>
    simp only [Registrations.exec] at executed
    split_ifs at executed
    cases executed
    exact unchanged rfl
  | statement name statement =>
    rcases Option.bind_eq_some_iff.mp executed with ⟨session, _, rest⟩
    rcases Option.map_eq_some_iff.mp rest with ⟨after, _, rfl⟩
    exact unchanged rfl
  | commit name =>
    rcases exec_commit executed with ⟨session, mem, rfl, rfl⟩
    by_cases own : ∃ row' ∈ session.written, row'.rule = rule
    · rcases Table.find?_foldl_upsert_of_mem state.rules own with ⟨now, isWritten, found⟩
      have isRule : now.rule = rule := (Table.find?_eq_some.mp found).2
      rcases (consistent.safe session mem).written now isWritten with ⟨isOwn, free⟩
      have isOwner : row.extensionName = session.name := free row (isRule ▸ registered)
      exact ⟨⟨now, found, isOwn.trans isOwner.symm⟩, fun other => absurd (by rw [isOwner]) other⟩
    · refine unchanged (Table.find?_foldl_upsert_of_not_mem state.rules ?_)
      exact fun row' isWritten same => own ⟨row', isWritten, same⟩
  | rollback name =>
    rcases Option.map_eq_some_iff.mp executed with ⟨session, _, rfl⟩
    exact unchanged rfl

/-- In every interleaving whose commits are undisputed a registered rule keeps its owner, and
its row is the same as long as its owner commits nothing. -/
theorem undisputed_keeps_owner {start state finish : Registrations} {earlier later : List Step}
    (initial : undisputedSystem.initial start) (before : undisputedSystem.Run start earlier state)
    (after : undisputedSystem.Run state later finish) {rule : String} {row : RuleRow}
    (registered : state.rules.find? rule = some row) :
    (∃ now, finish.rules.find? rule = some now ∧ now.extensionName = row.extensionName) ∧
      (.commit row.extensionName ∉ later → finish.rules.find? rule = some row) := by
  have consistent : state.Consistent := by
    refine before.preserves Consistent ?_ (consistent_of_no_sessions initial)
    rintro reached step next holds ⟨executed, free⟩
    exact holds.exec executed free
  refine (after.history
    (fun steps reached => reached.Consistent ∧
      (∃ now, reached.rules.find? rule = some now ∧ now.extensionName = row.extensionName) ∧
        (.commit row.extensionName ∉ steps → reached.rules.find? rule = some row))
    ?step ⟨consistent, ⟨row, registered, rfl⟩, fun _ => registered⟩).2
  case step =>
    rintro steps reached step next ⟨holds, ⟨now, isNow, isOwner⟩, untouched⟩ ⟨executed, free⟩
    refine ⟨holds.exec executed free, ?_, fun absent => ?_⟩
    · rcases (holds.keeps executed isNow).1 with ⟨now', isNow', same⟩
      exact ⟨now', isNow', same.trans isOwner⟩
    · simp only [mem_append, mem_singleton, not_or] at absent
      exact (holds.keeps executed (untouched absent.1)).2 (Ne.symm absent.2)

def idle : Registrations where
  rules := .empty
  sessions := .empty

def ruleOf (name rule : String) : RbacRule where
  rule := rule
  namespace_ := name
  description := ""

/-- Two installs, each with one rule, whose checks come before either's upsert. -/
def checkedTogether (chatRule notesRule : String) : List Step :=
  [.begin "chat" false [] [ruleOf "chat" chatRule],
    .begin "notes" false [] [ruleOf "notes" notesRule],
    .statement "chat" .check, .statement "notes" .check, .statement "chat" .upsert,
    .commit "chat"]

def notesFinishes : List Step := [.statement "notes" .upsert, .commit "notes"]

def execUndisputed (state : Registrations) (step : Step) : Option Registrations :=
  if state.Undisputed step then state.exec step else none

theorem execUndisputed_sound {step : Step} (executed : state.execUndisputed step = some next) :
    undisputedSystem.step state step next := by
  simp only [execUndisputed] at executed
  split_ifs at executed with undisputed
  exact ⟨executed, undisputed⟩

theorem undisputed_installs_keep_owner :
    ∃ state finish row, undisputedSystem.Run idle (checkedTogether "chat.read" "notes.read") state ∧
      undisputedSystem.Run state notesFinishes finish ∧
      state.rules.find? "chat.read" = some row ∧ finish.rules.find? "chat.read" = some row := by
  let state := (TransitionSystem.replay execUndisputed idle
    (checkedTogether "chat.read" "notes.read")).get (by decide)
  let finish := (TransitionSystem.replay execUndisputed state notesFinishes).get (by decide)
  have before : undisputedSystem.Run idle (checkedTogether "chat.read" "notes.read") state :=
    .of_replay execUndisputed_sound (Option.some_get _).symm
  have after : undisputedSystem.Run state notesFinishes finish :=
    .of_replay execUndisputed_sound (Option.some_get _).symm
  have initial : undisputedSystem.initial idle := rfl
  let row := (state.rules.find? "chat.read").get (by decide)
  have registered : state.rules.find? "chat.read" = some row := (Option.some_get _).symm
  have other : row.extensionName ≠ "notes" := by decide
  exact ⟨state, finish, row, before, after, registered,
    (undisputed_keeps_owner initial before after registered).2 (by simp [notesFinishes, other])⟩

/-- With the same rule the second install takes it from the first one. -/
theorem commit_takes_rule :
    ∃ state finish, system.Run idle (checkedTogether "shared.read" "shared.read") state ∧
      system.Run state notesFinishes finish ∧
      (state.rules.find? "shared.read").map RuleRow.extensionName = some "chat" ∧
      (finish.rules.find? "shared.read").map RuleRow.extensionName = some "notes" := by
  let state := (TransitionSystem.replay exec idle (checkedTogether "shared.read" "shared.read")).get
    (by decide)
  refine ⟨state, (TransitionSystem.replay exec state notesFinishes).get (by decide), ?_, ?_, ?_, ?_⟩
  · exact TransitionSystem.Run.of_replay id (Option.some_get _).symm
  · exact TransitionSystem.Run.of_replay id (Option.some_get _).symm
  · decide
  · decide

end Registrations

end Plinth.Rbac
