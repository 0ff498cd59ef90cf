import Plinth.Core.Transition

/-!
# The delivery cursors

Model of `record_delivered` and `flush_all_for_shutdown` in `realtime/cursor_store.cpp`. Entries,
statements and rows are kept by user, and the order of the cache is used by neither. A lock section
is one step, and each UPSERT lands or fails in a later one.
-/

namespace Plinth.Realtime.CursorStore

open Core Function

structure Config where
  cursorCacheTtlMs : Nat
  cursorFlushThreshold : Nat

/-- The clock counts nanoseconds. -/
structure CacheEntry where
  lastSeq : Int
  lastFlush : Nat
  pendingDelta : Nat

/-- What there is for one user: the cached entry, the numbers of the UPSERTs under way, `last_seq`
of the row, if there is one, and the greatest number recorded so far. -/
structure Cursor where
  entry : Option CacheEntry
  underWay : List Int
  stored : WithBot Int
  delivered : WithBot Int

namespace Cursor

def scheduleFlush (c : Cursor) (e : CacheEntry) (now : Nat) : Cursor :=
  { c with
    entry := some { e with pendingDelta := 0, lastFlush := now }
    underWay := e.lastSeq :: c.underWay }

def note (c : Cursor) (newSeq : Int) (now : Nat) : Option CacheEntry :=
  match c.entry with
  | none => some ⟨newSeq, now, 1⟩
  | some e =>
    if newSeq ≤ e.lastSeq then none
    else some { e with lastSeq := newSeq, pendingDelta := e.pendingDelta + 1 }

/-- The lock section of `record_delivered`, which reads the clock up to three times. -/
def recordDelivered (cfg : Config) (c : Cursor) (newSeq : Int) (now : Fin 3 → Nat) : Cursor :=
  let recorded := { c with delivered := max c.delivered newSeq }
  match c.note newSeq (now 0) with
  | none => recorded
  | some e =>
    if cfg.cursorCacheTtlMs = 0 ∨ cfg.cursorCacheTtlMs * 1000000 ≤ now 1 - e.lastFlush ∨
        cfg.cursorFlushThreshold ≤ e.pendingDelta then
      recorded.scheduleFlush e (now 2)
    else { recorded with entry := some e }

def flushForShutdown (c : Cursor) (now : Nat) : Cursor :=
  match c.entry with
  | some e => if 0 < e.pendingDelta then c.scheduleFlush e now else c
  | none => c

/-- The row advances with `GREATEST`; a failure is only logged. -/
@[simp]
def upsertAdvance (c : Cursor) (seq : Int) (succeeds : Bool) : Cursor :=
  { c with
    underWay := c.underWay.erase seq
    stored := if succeeds then max c.stored seq else c.stored }

end Cursor

structure Store where
  cursors : String → Cursor
  flushed : Bool

inductive Label where
  | recordDelivered (userId : String) (newSeq : Int) (now : Fin 3 → Nat)
  | upsertAdvance (userId : String) (seq : Int) (succeeds : Bool)
  | flushAllForShutdown (now : String → Nat)

namespace Store

def empty : Store := ⟨fun _ => ⟨none, [], ⊥, ⊥⟩, false⟩

def setCursor (s : Store) (userId : String) (c : Cursor) : Store :=
  { s with cursors := update s.cursors userId c }

/-- Nothing is recorded once the flush at shutdown has run. -/
def exec (cfg : Config) (s : Store) : Label → Option Store
  | .recordDelivered userId newSeq now =>
    if s.flushed then none
    else some (s.setCursor userId ((s.cursors userId).recordDelivered cfg newSeq now))
  | .upsertAdvance userId seq succeeds =>
    if seq ∈ (s.cursors userId).underWay then
      some (s.setCursor userId ((s.cursors userId).upsertAdvance seq succeeds))
    else none
  | .flushAllForShutdown now =>
    if s.flushed then none
    else some ⟨fun userId => (s.cursors userId).flushForShutdown (now userId), true⟩

/-- An UPSERT that fails does not carry the greatest number so far, unless the row has it. -/
def Spares (s : Store) : Label → Prop
  | .upsertAdvance userId seq false =>
    seq < (s.cursors userId).delivered ∨ seq ≤ (s.cursors userId).stored
  | _ => True

end Store

/-- The steps that `allowed` admits, from rows of an earlier process. -/
def system (cfg : Config) (allowed : Store → Label → Prop) : TransitionSystem Store Label where
  initial s := ∃ rows : String → WithBot Int, s = ⟨fun userId => ⟨none, [], rows userId, ⊥⟩, false⟩
  step s label next := allowed s label ∧ s.exec cfg label = some next

/-- The greatest number is in the entry, and it is pending, under way or in the row. -/
structure Cursor.Covered (c : Cursor) : Prop where
  noted : c.delivered = c.entry.elim ⊥ fun e => ↑e.lastSeq
  written : ∀ e, c.entry = some e → e.pendingDelta = 0 →
    e.lastSeq ∈ c.underWay ∨ ↑e.lastSeq ≤ c.stored

namespace Cursor

variable {c : Cursor}

theorem Covered.scheduleFlush {e : CacheEntry} (last : c.delivered = ↑e.lastSeq) (now : Nat) :
    (c.scheduleFlush e now).Covered := by
  refine ⟨last, ?_⟩
  rintro _ ⟨⟩ _
  exact .inl List.mem_cons_self

/-- A delivery leaves the position covered. -/
theorem Covered.recordDelivered (covered : c.Covered) (cfg : Config) (newSeq : Int)
    (now : Fin 3 → Nat) : (c.recordDelivered cfg newSeq now).Covered := by
  simp only [Cursor.recordDelivered, note]
  cases found : c.entry with
  | none =>
    have last : max c.delivered ↑newSeq = ↑newSeq := by simp [covered.noted, found]
    simp only [last]
    split
    · exact .scheduleFlush rfl _
    · exact ⟨rfl, by rintro _ ⟨⟩ ⟨⟩⟩
  | some e =>
    have last : c.delivered = ↑e.lastSeq := by simp [covered.noted, found]
    by_cases stale : newSeq ≤ e.lastSeq
    · have kept : max c.delivered ↑newSeq = c.delivered := by simpa [last] using stale
      simp only [stale, if_true, kept, ← found]
      exact covered
    · have greater : max c.delivered ↑newSeq = ↑newSeq := by
        rw [last, max_eq_right (WithBot.coe_le_coe.mpr (not_le.mp stale).le)]
      simp only [stale, if_false, greater]
      split
      · exact .scheduleFlush rfl _
      · exact ⟨rfl, by rintro _ ⟨⟩ ⟨⟩⟩

/-- The last flush leaves nothing waiting. -/
theorem Covered.flushForShutdown (covered : c.Covered) (now : Nat) :
    (c.flushForShutdown now).Covered ∧
      ∀ e, (c.flushForShutdown now).entry = some e → e.pendingDelta = 0 := by
  simp only [Cursor.flushForShutdown]
  split
  · rename_i e found
    split
    · exact ⟨.scheduleFlush (by simp [covered.noted, found]) now, by rintro _ ⟨⟩; rfl⟩
    · rename_i idle
      exact ⟨covered, by simpa [found] using idle⟩
  · rename_i none
    exact ⟨covered, by simp [none]⟩

/-- A write that fails must be spared by a later one. -/
theorem Covered.upsertAdvance (covered : c.Covered) (seq : Int) (succeeds : Bool)
    (spares : succeeds = false → ↑seq < c.delivered ∨ ↑seq ≤ c.stored) :
    (c.upsertAdvance seq succeeds).Covered := by
  refine ⟨covered.noted, ?_⟩
  intro e found idle
  have last : c.delivered = ↑e.lastSeq := by simp [covered.noted, show c.entry = some e from found]
  by_cases same : e.lastSeq = seq
  · right
    cases succeeds with
    | true => simp [same]
    | false => simpa [last, same] using spares rfl
  · refine (covered.written e found idle).imp (fun mem => ?_) fun stored => ?_
    · simpa [List.mem_erase_of_ne same] using mem
    · simp only [Cursor.upsertAdvance]
      split <;> simp [stored]

theorem Covered.delivered_le (covered : c.Covered) (landed : c.underWay = [])
    (idle : ∀ e, c.entry = some e → e.pendingDelta = 0) : c.delivered ≤ c.stored := by
  rw [covered.noted]
  cases found : c.entry with
  | none => exact bot_le
  | some e => simpa [landed] using covered.written e found (idle e found)

end Cursor

namespace Store

variable {cfg : Config} {s t : Store} {label : Label}

structure Covered (s : Store) : Prop where
  cursors : ∀ userId, (s.cursors userId).Covered
  idle : s.flushed → ∀ userId e, (s.cursors userId).entry = some e → e.pendingDelta = 0

theorem Covered.step (covered : s.Covered) (spares : s.Spares label)
    (step : s.exec cfg label = some t) : t.Covered := by
  cases label with
  | recordDelivered user newSeq now =>
    rcases of_guard_not step with ⟨unflushed, rfl⟩
    refine ⟨(forall_update_iff s.cursors fun _ c => c.Covered).mpr ?_, (absurd · unflushed)⟩
    exact ⟨(covered.cursors user).recordDelivered cfg newSeq now, fun other _ =>
      covered.cursors other⟩
  | upsertAdvance user seq succeeds =>
    rcases of_guard step with ⟨-, rfl⟩
    refine ⟨(forall_update_iff s.cursors fun _ c => c.Covered).mpr ?_, fun flushed => ?_⟩
    · refine ⟨(covered.cursors user).upsertAdvance seq succeeds ?_, fun other _ =>
        covered.cursors other⟩
      rintro rfl
      exact spares
    · exact (forall_update_iff s.cursors fun _ c =>
        ∀ e, c.entry = some e → e.pendingDelta = 0).mpr
        ⟨covered.idle flushed user, fun other _ => covered.idle flushed other⟩
  | flushAllForShutdown now =>
    rcases of_guard_not step with ⟨-, rfl⟩
    exact ⟨fun user => ((covered.cursors user).flushForShutdown _).1,
      fun _ user => ((covered.cursors user).flushForShutdown _).2⟩

/-- A stored cursor never goes back. -/
theorem stored_le_of_exec (step : s.exec cfg label = some t) (userId : String) :
    (s.cursors userId).stored ≤ (t.cursors userId).stored := by
  have atUser : ∀ {user c}, (s.cursors user).stored ≤ c.stored →
      (s.cursors userId).stored ≤ ((s.setCursor user c).cursors userId).stored := by
    intro user c grows
    by_cases same : userId = user
    · simpa [setCursor, same] using grows
    · simp [setCursor, same]
  cases label with
  | recordDelivered user newSeq now =>
    rcases of_guard_not step with ⟨-, rfl⟩
    refine atUser (le_of_eq ?_)
    simp only [Cursor.recordDelivered]
    split
    · rfl
    · split <;> rfl
  | upsertAdvance user seq succeeds =>
    rcases of_guard step with ⟨-, rfl⟩
    refine atUser ?_
    cases succeeds <;> simp
  | flushAllForShutdown now =>
    rcases of_guard_not step with ⟨-, rfl⟩
    simp only [Cursor.flushForShutdown]
    split
    · split <;> rfl
    · rfl

end Store

/-- No step takes a row back. If each failing UPSERT spares the greatest number delivered so far,
then after the flush at shutdown the row of each user whose statements are done has it. -/
theorem shutdown_keeps_cursors {cfg : Config} {start s : Store} {labels : List Label}
    (new : (system cfg Store.Spares).initial start)
    (run : (system cfg Store.Spares).Run start labels s) :
    (∀ middle label next, (system cfg fun _ _ => True).step middle label next → ∀ userId,
      (middle.cursors userId).stored ≤ (next.cursors userId).stored) ∧
    (s.flushed = true → ∀ userId, (s.cursors userId).underWay = [] →
      (s.cursors userId).delivered ≤ (s.cursors userId).stored) := by
  have covered : s.Covered := by
    rcases new with ⟨rows, rfl⟩
    refine run.preserves Store.Covered ?_ ⟨fun _ => ⟨rfl, by simp⟩, by simp⟩
    intro middle label next before step
    exact before.step step.1 step.2
  refine ⟨fun middle label next step => Store.stored_le_of_exec step.2, ?_⟩
  intro flushed userId landed
  exact (covered.cursors userId).delivered_le landed (covered.idle flushed userId)

/-- One delivery is flushed at once, and its UPSERT ends before the shutdown. -/
def oneDelivery (succeeds : Bool) : List Label :=
  [.recordDelivered "ada" 5 fun _ => 0, .upsertAdvance "ada" 5 succeeds,
    .flushAllForShutdown fun _ => 0]

theorem oneDelivery_kept : ∃ s, (system ⟨0, 1⟩ Store.Spares).Run .empty (oneDelivery true) s ∧
    (s.flushed = true → ∀ userId, (s.cursors userId).underWay = [] →
      (s.cursors userId).delivered ≤ (s.cursors userId).stored) := by
  have run : (system ⟨0, 1⟩ Store.Spares).Run .empty (oneDelivery true) _ :=
    .head ⟨trivial, rfl⟩ (.head ⟨trivial, rfl⟩ (.single ⟨trivial, rfl⟩))
  exact ⟨_, run, (shutdown_keeps_cursors ⟨fun _ => ⊥, rfl⟩ run).2⟩

/-- The UPSERT fails, and the flush finds nothing pending. -/
theorem oneDelivery_lost :
    ∃ s, (system ⟨0, 1⟩ fun _ _ => True).Run .empty (oneDelivery false) s ∧ s.flushed = true ∧
      (s.cursors "ada").underWay = [] ∧
      ¬ (s.cursors "ada").delivered ≤ (s.cursors "ada").stored :=
  ⟨_, .head ⟨trivial, rfl⟩ (.head ⟨trivial, rfl⟩ (.single ⟨trivial, rfl⟩)), rfl, rfl, by decide⟩

end Plinth.Realtime.CursorStore
