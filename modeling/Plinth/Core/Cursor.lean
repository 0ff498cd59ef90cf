import Mathlib

/-!
# Reading an ordered log through a cursor

An append-only log whose entries have strictly increasing keys, read by a consumer that
remembers only the key of the last entry it has passed. `after` is what is left for such a
consumer, `between` is what it has passed since its baseline.
-/

namespace Plinth.Core.Cursor

open List

universe u v

variable {Entry : Type u} {Key : Type v} [LinearOrder Key] (key : Entry → Key)

def Ordered (log : List Entry) : Prop :=
  log.Pairwise fun first second => key first < key second

def after (log : List Entry) (cursor : Key) : List Entry :=
  log.filter fun entry => cursor < key entry

def between (log : List Entry) (baseline cursor : Key) : List Entry :=
  log.filter fun entry => baseline < key entry ∧ key entry ≤ cursor

variable {key} {log : List Entry} {cursor : Key} {entry : Entry}

/-- What a cursor has not passed. -/
theorem mem_after : entry ∈ after key log cursor ↔ entry ∈ log ∧ cursor < key entry := by
  simp [after]

/-- What a cursor has passed since its baseline. -/
theorem mem_between {baseline : Key} :
    entry ∈ between key log baseline cursor ↔
      entry ∈ log ∧ baseline < key entry ∧ key entry ≤ cursor := by
  simp [between]

theorem after_append (log more : List Entry) (cursor : Key) :
    after key (log ++ more) cursor = after key log cursor ++ after key more cursor := by
  simp [after]

theorem after_eq_nil (passed : ∀ entry ∈ log, key entry ≤ cursor) : after key log cursor = [] := by
  apply filter_eq_nil_iff.mpr
  intro entry mem
  simp only [decide_eq_true_eq, not_lt]
  exact passed entry mem

/-- Entries above the cursor are not passed. -/
theorem between_append {more : List Entry} (later : ∀ entry ∈ more, cursor < key entry)
    (baseline : Key) :
    between key (log ++ more) baseline cursor = between key log baseline cursor := by
  have none : between key more baseline cursor = [] := by
    apply filter_eq_nil_iff.mpr
    intro entry mem
    simp only [decide_eq_true_eq, not_and, not_le]
    intro _
    exact later entry mem
  rw [between, filter_append]
  exact (congrArg _ none).trans (append_nil _)

theorem between_self (log : List Entry) (cursor : Key) : between key log cursor cursor = [] := by
  apply filter_eq_nil_iff.mpr
  intro entry _
  simp only [decide_eq_true_eq, not_and, not_le]
  exact id

/-- A log grows in order by entries above all of its own. -/
theorem ordered_append {more : List Entry} (ordered : Ordered key log)
    (moreOrdered : Ordered key more) (later : ∀ old ∈ log, ∀ new ∈ more, key old < key new) :
    Ordered key (log ++ more) :=
  pairwise_append.mpr ⟨ordered, moreOrdered, later⟩

/-- An entry is in a page, or the page is full of entries below it. -/
theorem mem_take_or (ordered : Ordered key log) (mem : entry ∈ log) (count : Nat) :
    entry ∈ log.take count ∨
      count ≤ (log.take count).length ∧ ∀ other ∈ log.take count, key other < key entry := by
  rw [Ordered, ← take_append_drop count log, pairwise_append] at ordered
  rw [← take_append_drop count log] at mem
  rcases mem_append.mp mem with early | late
  · exact .inl early
  right
  constructor
  · have some := length_pos_of_mem late
    rw [length_drop] at some
    rw [length_take]
    omega
  · intro other inTake
    exact ordered.2.2 other inTake entry late

/-- One step of the cursor passes exactly the next entry. -/
theorem advance {rest : List Entry} {baseline : Key} (ordered : Ordered key log)
    (started : baseline ≤ cursor) (next : after key log cursor = entry :: rest) :
    after key log (key entry) = rest ∧
      between key log baseline (key entry) = between key log baseline cursor ++ [entry] := by
  have past : cursor < key entry :=
    (mem_after.mp (next ▸ mem_cons_self)).2
  induction log with
  | nil => simp [after] at next
  | cons head tail ih =>
    rcases pairwise_cons.mp ordered with ⟨headFirst, tailOrdered⟩
    by_cases found : cursor < key head
    · -- the head is the entry, and the whole tail lies past it
      have tailAfter : ∀ {bound}, bound ≤ key head → after key tail bound = tail := by
        intro bound below
        apply filter_eq_self.mpr
        intro other mem
        simpa using lt_of_le_of_lt below (headFirst other mem)
      have tailBetween : ∀ {bound}, bound ≤ key head → between key tail baseline bound = [] := by
        intro bound below
        apply filter_eq_nil_iff.mpr
        intro other mem
        simp only [decide_eq_true_eq, not_and, not_le]
        intro _
        exact lt_of_le_of_lt below (headFirst other mem)
      have split : head = entry ∧ after key tail cursor = rest := by
        simpa [after, filter_cons, found] using next
      rcases split with ⟨rfl, rfl⟩
      constructor
      · have skip : after key (head :: tail) (key head) = after key tail (key head) := by
          simp [after]
        rw [skip, tailAfter le_rfl, tailAfter found.le]
      · have whole : between key (head :: tail) baseline (key head) =
            head :: between key tail baseline (key head) := by
          simp [between, lt_of_le_of_lt started found]
        have nothing : between key (head :: tail) baseline cursor =
            between key tail baseline cursor := by
          simp [between, found]
        rw [whole, nothing, tailBetween le_rfl, tailBetween found.le]
        rfl
    · have below : key head ≤ cursor := not_lt.mp found
      have skip : ∀ {bound}, cursor ≤ bound →
          after key (head :: tail) bound = after key tail bound := by
        intro bound above
        simp [after, not_lt.mpr (below.trans above)]
      have keep : ∀ {bound}, cursor ≤ bound → between key (head :: tail) baseline bound =
          (if baseline < key head then [head] else []) ++ between key tail baseline bound := by
        intro bound above
        by_cases later : baseline < key head <;>
          simp [between, later, below.trans above]
      rw [skip le_rfl] at next
      rcases ih tailOrdered next with ⟨restEq, passedEq⟩
      rw [skip past.le, keep past.le, keep le_rfl, restEq, passedEq, append_assoc]
      exact ⟨rfl, rfl⟩

end Plinth.Core.Cursor
