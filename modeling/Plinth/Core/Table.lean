import Mathlib

/-!
# Tables with a unique key

Finite relational tables whose rows are identified by a key. Uniqueness of the key is part
of the type, so that every operation keeps it and a lookup determines a row.
-/

namespace Plinth.Core

open List

universe u v

@[ext]
structure Table (Row : Type u) (Key : Type v) (key : Row → Key) where
  rows : List Row
  unique : (rows.map key).Nodup

namespace Table

variable {Row : Type u} {Key : Type v} {key : Row → Key}

instance : Membership Row (Table Row Key key) := ⟨fun table row => row ∈ table.rows⟩

variable {table : Table Row Key key}

theorem mem_rows {row : Row} : row ∈ table ↔ row ∈ table.rows :=
  Iff.rfl

/-- A key identifies its row. -/
theorem eq_of_key {first second : Row} (firstMem : first ∈ table) (secondMem : second ∈ table)
    (same : key first = key second) : first = second :=
  inj_on_of_nodup_map table.unique firstMem secondMem same

def empty : Table Row Key key := ⟨[], nodup_nil⟩

def update (table : Table Row Key key) (f : Row → Row) (keeps : ∀ row, key (f row) = key row) :
    Table Row Key key where
  rows := table.rows.map f
  unique := by
    have same : (table.rows.map f).map key = table.rows.map key := by
      rw [map_map]
      exact map_congr_left fun row _ => keeps row
    rw [same]
    exact table.unique

def filter (table : Table Row Key key) (keep : Row → Bool) : Table Row Key key where
  rows := table.rows.filter keep
  unique := table.unique.sublist (filter_sublist.map key)

theorem mem_update {f : Row → Row} {keeps : ∀ row, key (f row) = key row} {row : Row} :
    row ∈ table.update f keeps ↔ ∃ old ∈ table, f old = row :=
  mem_map

theorem mem_filter {keep : Row → Bool} {row : Row} :
    row ∈ table.filter keep ↔ row ∈ table ∧ keep row :=
  List.mem_filter

/-- A partial unique index: the rows that have a key have pairwise different ones. -/
def UniqueOn {Index : Type v} (index : Row → Option Index) (rows : List Row) : Prop :=
  (rows.filterMap index).Nodup

instance {Index : Type v} [DecidableEq Index] (index : Row → Option Index) (rows : List Row) :
    Decidable (UniqueOn index rows) :=
  inferInstanceAs (Decidable (rows.filterMap index).Nodup)

section

variable {Index : Type v} {index : Row → Option Index} {rows : List Row}
  (unique : UniqueOn index rows)
include unique

/-- A value of a unique index identifies its row. -/
theorem UniqueOn.eq_of_mem {first second : Row} {k : Index} (firstMem : first ∈ rows)
    (secondMem : second ∈ rows) (firstKey : index first = some k)
    (secondKey : index second = some k) : first = second := by
  induction rows with
  | nil => cases firstMem
  | cons row rows ih =>
    cases rowKey : index row with
    | none =>
      simp only [UniqueOn, filterMap_cons_none rowKey] at unique
      rcases mem_cons.mp firstMem with rfl | firstMem
      · simp [rowKey] at firstKey
      rcases mem_cons.mp secondMem with rfl | secondMem
      · simp [rowKey] at secondKey
      exact ih unique firstMem secondMem
    | some other =>
      simp only [UniqueOn, filterMap_cons_some rowKey, nodup_cons] at unique
      have apart : ∀ {row'}, row' ∈ rows → index row' ≠ some other := fun mem same =>
        unique.1 (mem_filterMap.mpr ⟨_, mem, same⟩)
      rcases mem_cons.mp firstMem with rfl | firstTail
      · rcases mem_cons.mp secondMem with rfl | secondTail
        · rfl
        · exact absurd (secondKey.trans (firstKey.symm.trans rowKey)) (apart secondTail)
      · rcases mem_cons.mp secondMem with rfl | secondTail
        · exact absurd (firstKey.trans (secondKey.symm.trans rowKey)) (apart firstTail)
        · exact ih unique.2 firstTail secondTail

theorem UniqueOn.filter (keep : Row → Bool) : UniqueOn index (rows.filter keep) :=
  unique.sublist (filter_sublist.filterMap index)

/-- A change that only gives index values up keeps the index unique. -/
theorem UniqueOn.map {f : Row → Row}
    (releases : ∀ row ∈ rows, index (f row) = index row ∨ index (f row) = none) :
    UniqueOn index (rows.map f) := by
  refine List.Nodup.sublist ?_ unique
  rw [filterMap_map]
  clear unique
  induction rows with
  | nil => simp
  | cons row rows ih =>
    have rest := ih fun other mem => releases other (by simp [mem])
    rcases releases row (by simp) with same | gone
    · cases rowKey : index row with
      | none | some => simpa [same, rowKey] using rest
    · cases rowKey : index row with
      | none => simpa [gone, rowKey] using rest
      | some k => simpa [gone, rowKey] using rest.cons k

end

section DecidableKey

variable [DecidableEq Key]

def find? (table : Table Row Key key) (k : Key) : Option Row :=
  table.rows.find? fun row => key row = k

variable {k : Key} {row : Row}

/-- A lookup finds the row with the key. -/
theorem find?_eq_some : table.find? k = some row ↔ row ∈ table ∧ key row = k := by
  constructor
  · intro found
    exact ⟨mem_of_find?_eq_some found, by simpa using find?_some found⟩
  · rintro ⟨mem, rfl⟩
    cases found : table.find? (key row) with
    | none =>
      have absent := List.find?_eq_none.mp found row mem
      simp at absent
    | some other =>
      have same : key other = key row := by simpa using find?_some found
      rw [eq_of_key (mem_of_find?_eq_some found) mem same]

theorem find?_eq_none : table.find? k = none ↔ ∀ row ∈ table, key row ≠ k := by
  simp [find?, mem_rows]

def insert (table : Table Row Key key) (row : Row) (fresh : table.find? (key row) = none) :
    Table Row Key key where
  rows := table.rows ++ [row]
  unique := by
    rw [map_append, nodup_append]
    refine ⟨table.unique, by simp, ?_⟩
    intro k mem other otherMem
    rcases mem_map.mp mem with ⟨old, oldMem, rfl⟩
    have absent := find?_eq_none.mp fresh old oldMem
    simpa [mem_singleton.mp otherMem] using absent

def upsert (table : Table Row Key key) (row : Row) : Table Row Key key :=
  if found : (table.find? (key row)).isSome then
    table.update (fun old => if key old = key row then row else old) fun old => by
      by_cases same : key old = key row <;> simp [same]
  else table.insert row (Option.not_isSome_iff_eq_none.mp found)

/-- An upsert replaces the row with its key. -/
theorem mem_upsert {other : Row} :
    other ∈ table.upsert row ↔ other = row ∨ other ∈ table ∧ key other ≠ key row := by
  unfold upsert
  split
  case isTrue found =>
    rcases Option.isSome_iff_exists.mp found with ⟨old, isOld⟩
    rcases find?_eq_some.mp isOld with ⟨oldMem, oldKey⟩
    rw [mem_update]
    constructor
    · rintro ⟨source, mem, rfl⟩
      by_cases same : key source = key row
      · simp [same]
      · simp [same, mem]
    · rintro (rfl | ⟨mem, apart⟩)
      · exact ⟨old, oldMem, by simp [oldKey]⟩
      · exact ⟨other, mem, by simp [apart]⟩
  case isFalse absent =>
    have fresh := find?_eq_none.mp (Option.not_isSome_iff_eq_none.mp absent)
    simp only [insert, mem_rows, mem_append, mem_singleton]
    constructor
    · rintro (mem | rfl)
      · exact .inr ⟨mem, fresh other mem⟩
      · exact .inl rfl
    · rintro (rfl | ⟨mem, -⟩)
      · exact .inr rfl
      · exact .inl mem

section

variable (table : Table Row Key key)

theorem find?_upsert_self (row : Row) : (table.upsert row).find? (key row) = some row :=
  find?_eq_some.mpr ⟨mem_upsert.mpr (.inl rfl), rfl⟩

theorem length_upsert (row : Row) : (table.upsert row).rows.length =
    table.rows.length + if (table.find? (key row)).isSome then 0 else 1 := by
  unfold upsert
  split <;> simp [update, insert, *]

theorem find?_upsert_of_ne (apart : k ≠ key row) : (table.upsert row).find? k = table.find? k := by
  ext other
  simp only [find?_eq_some, mem_upsert]
  constructor
  · rintro ⟨rfl | ⟨mem, -⟩, rfl⟩
    · exact absurd rfl apart
    · exact ⟨mem, rfl⟩
  · rintro ⟨mem, rfl⟩
    exact ⟨.inr ⟨mem, apart⟩, rfl⟩

/-- After many upserts a lookup finds the last row written under the key. -/
theorem find?_foldl_upsert (written : List Row) (k : Key) :
    (written.foldl upsert table).find? k =
      (written.reverse.find? fun row => decide (key row = k)).or (table.find? k) := by
  induction written generalizing table with
  | nil => rfl
  | cons row written ih =>
    rw [foldl_cons, ih, reverse_cons, find?_append, Option.or_assoc]
    congr 1
    by_cases same : key row = k
    · simp [← same, find?_upsert_self]
    · simp [same, find?_upsert_of_ne _ (Ne.symm same)]

theorem find?_foldl_upsert_of_not_mem {written : List Row} (other : ∀ row ∈ written, key row ≠ k) :
    (written.foldl upsert table).find? k = table.find? k := by
  rw [find?_foldl_upsert, List.find?_eq_none.mpr (by simpa using other), Option.none_or]

theorem find?_foldl_upsert_of_mem {written : List Row} (mem : ∃ row ∈ written, key row = k) :
    ∃ row ∈ written, (written.foldl upsert table).find? k = some row := by
  have found : (written.reverse.find? fun row => decide (key row = k)).isSome := by simpa using mem
  rcases Option.isSome_iff_exists.mp found with ⟨row, isRow⟩
  refine ⟨row, by simpa using mem_of_find?_eq_some isRow, ?_⟩
  rw [find?_foldl_upsert, isRow, Option.some_or]

/-- An update that keeps the keys is seen by every lookup. -/
theorem find?_update {f : Row → Row} (keeps : ∀ row, key (f row) = key row) (k : Key) :
    (table.update f keeps).find? k = (table.find? k).map f := by
  ext row
  simp only [find?_eq_some, mem_update, Option.map_eq_some_iff]
  constructor
  · rintro ⟨⟨old, mem, rfl⟩, rfl⟩
    exact ⟨old, ⟨mem, (keeps old).symm⟩, rfl⟩
  · rintro ⟨old, ⟨mem, rfl⟩, rfl⟩
    exact ⟨⟨old, mem, rfl⟩, keeps old⟩

theorem find?_filter (keep : Row → Bool) (k : Key) :
    (table.filter keep).find? k = (table.find? k).filter keep := by
  ext row
  simp only [find?_eq_some, mem_filter, Option.filter_eq_some_iff]
  tauto

end

def erase (table : Table Row Key key) (k : Key) : Table Row Key key :=
  table.filter fun row => key row ≠ k

theorem mem_erase : row ∈ table.erase k ↔ row ∈ table ∧ key row ≠ k := by
  simp [erase, mem_filter]

theorem erase_of_find?_eq_none (absent : table.find? k = none) : table.erase k = table := by
  ext1
  refine filter_eq_self.mpr fun row mem => ?_
  simpa using find?_eq_none.mp absent row mem

theorem cons_erase_nodup (table : Table Row Key key) (row : Row) :
    (row :: (table.erase (key row)).rows).Nodup := by
  refine nodup_cons.mpr ⟨fun mem => (mem_erase.mp mem).2 rfl, ?_⟩
  exact (table.erase (key row)).unique.of_map

theorem perm_erase (found : table.find? k = some row) :
    table.rows.Perm (row :: (table.erase k).rows) := by
  rcases find?_eq_some.mp found with ⟨mem, rfl⟩
  refine (perm_ext_iff_of_nodup table.unique.of_map (table.cons_erase_nodup row)).mpr ?_
  intro other
  rw [mem_cons, ← mem_rows, ← mem_rows, mem_erase]
  constructor
  · intro otherMem
    by_cases same : key other = key row
    · exact .inl (eq_of_key otherMem mem same)
    · exact .inr ⟨otherMem, same⟩
  · rintro (rfl | ⟨otherMem, -⟩)
    · exact mem
    · exact otherMem

/-- An upserted table, up to order. -/
theorem perm_upsert (table : Table Row Key key) (row : Row) :
    (table.upsert row).rows.Perm (row :: (table.erase (key row)).rows) := by
  refine (perm_ext_iff_of_nodup (table.upsert row).unique.of_map
    (table.cons_erase_nodup row)).mpr ?_
  intro other
  rw [mem_cons, ← mem_rows, ← mem_rows, mem_upsert, mem_erase]

def total (table : Table Row Key key) (weight : Row → Nat) : Nat := (table.rows.map weight).sum

/-- A row takes its weight with it. -/
theorem total_erase (found : table.find? k = some row) (weight : Row → Nat) :
    table.total weight = weight row + (table.erase k).total weight := by
  simpa [total] using ((perm_erase found).map weight).sum_eq

/-- An upsert weighs its own row and the rows with other keys. -/
theorem total_upsert (table : Table Row Key key) (row : Row) (weight : Row → Nat) :
    (table.upsert row).total weight = weight row + (table.erase (key row)).total weight := by
  simpa [total] using ((table.perm_upsert row).map weight).sum_eq

end DecidableKey

end Table

end Plinth.Core
