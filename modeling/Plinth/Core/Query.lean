import Mathlib

/-!
# Queries

Joins of tables as lists of rows, with the rows that each of them selects.
-/

namespace Plinth.Core.Query

open List

variable {Row Other : Type*}

/-- `JOIN … ON`. -/
def join (on : Row → Other → Bool) (rows : List Row) (others : List Other) : List (Row × Other) :=
  rows.flatMap fun row => (others.filter (on row)).map fun other => (row, other)

/-- `LEFT JOIN LATERAL … ON TRUE`: a row without partners is kept. -/
def leftJoinLateral (partners : Row → List Other) (rows : List Row) : List (Row × Option Other) :=
  rows.flatMap fun row =>
    if (partners row).isEmpty then [(row, none)]
    else (partners row).map fun other => (row, some other)

/-- `LEFT JOIN … ON`. -/
def leftJoin (on : Row → Other → Bool) (rows : List Row) (others : List Other) :
    List (Row × Option Other) :=
  leftJoinLateral (fun row => others.filter (on row)) rows

variable {rows : List Row} {partners : Row → List Other}

/-- The rows of an inner join. -/
@[simp]
theorem mem_join {on : Row → Other → Bool} {others : List Other} {row : Row} {other : Other} :
    (row, other) ∈ join on rows others ↔ row ∈ rows ∧ other ∈ others ∧ on row other := by
  simp only [join, mem_flatMap, mem_map, List.mem_filter, Prod.mk.injEq]
  constructor
  · rintro ⟨_, isRow, _, isOther, rfl, rfl⟩
    exact ⟨isRow, isOther⟩
  · rintro ⟨isRow, isOther⟩
    exact ⟨row, isRow, other, isOther, rfl, rfl⟩

/-- A join of tables without repeated rows repeats none. -/
theorem nodup_join {on : Row → Other → Bool} {others : List Other} (rowsNodup : rows.Nodup)
    (othersNodup : others.Nodup) : (join on rows others).Nodup := by
  refine nodup_flatMap.mpr ⟨fun row _ => ?_, ?_⟩
  · exact (othersNodup.filter _).map fun first second same => (Prod.mk.inj same).2
  · refine rowsNodup.imp fun {first second} differ => ?_
    intro pair inFirst inSecond
    rcases mem_map.mp inFirst with ⟨_, -, rfl⟩
    rcases mem_map.mp inSecond with ⟨_, -, same⟩
    exact differ (Prod.mk.inj same).1.symm

theorem mem_leftJoinLateral_some {row : Row} {other : Other} :
    (row, some other) ∈ leftJoinLateral partners rows ↔ row ∈ rows ∧ other ∈ partners row := by
  simp only [leftJoinLateral, mem_flatMap]
  constructor
  · rintro ⟨found, isRow, mem⟩
    split at mem
    · simp at mem
    · rcases mem_map.mp mem with ⟨partner, isPartner, same⟩
      rcases same with ⟨rfl, rfl⟩
      exact ⟨isRow, isPartner⟩
  · rintro ⟨isRow, isPartner⟩
    refine ⟨row, isRow, ?_⟩
    rw [if_neg (by simpa using ne_nil_of_mem isPartner)]
    exact mem_map.mpr ⟨other, isPartner, rfl⟩

/-- A row without partners is joined with none. -/
theorem mem_leftJoinLateral_none {row : Row} :
    (row, none) ∈ leftJoinLateral partners rows ↔ row ∈ rows ∧ partners row = [] := by
  simp only [leftJoinLateral, mem_flatMap]
  constructor
  · rintro ⟨found, isRow, mem⟩
    split at mem
    case isTrue empty =>
      rcases mem_singleton.mp mem with ⟨rfl, -⟩
      exact ⟨isRow, List.isEmpty_iff.mp empty⟩
    case isFalse => simp at mem
  · rintro ⟨isRow, empty⟩
    exact ⟨row, isRow, by simp [empty]⟩

theorem mem_of_mem_leftJoinLateral {row : Row} {found : Option Other}
    (joined : (row, found) ∈ leftJoinLateral partners rows) : row ∈ rows := by
  cases found with
  | none => exact (mem_leftJoinLateral_none.mp joined).1
  | some => exact (mem_leftJoinLateral_some.mp joined).1

/-- A left join keeps every row. -/
theorem exists_mem_leftJoinLateral {row : Row} (isRow : row ∈ rows) :
    ∃ partner, (row, partner) ∈ leftJoinLateral partners rows := by
  rcases empty : partners row with _ | ⟨other, others⟩
  · exact ⟨none, mem_leftJoinLateral_none.mpr ⟨isRow, empty⟩⟩
  · exact ⟨some other, mem_leftJoinLateral_some.mpr ⟨isRow, by simp [empty]⟩⟩

end Plinth.Core.Query
