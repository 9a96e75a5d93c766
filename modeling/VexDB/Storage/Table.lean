import Mathlib.Algebra.BigOperators.Group.List.Basic
import Mathlib.Algebra.Order.Ring.Int
import Mathlib.Data.List.Nodup

/-!
# Tables with a primary key

A table is a finite list of rows under distinct keys.  The operations are the
statement forms of a relational store: insert or replace a row, delete the rows
that satisfy a condition, and rewrite every row in place.  Everything a client
needs to know about them is how they change `get`.
-/

namespace VexDB.Storage

open List Prod

/-- No element of a list is above the maximum over the list. -/
theorem le_foldr_max (limit : Nat) {list : List Nat} {key : Nat} (member : key ∈ list) :
    key <= list.foldr max limit := by
  induction list with
  | nil => cases member
  | cons head tail step =>
    rcases mem_cons.1 member with rfl | inTail
    · exact Nat.le_max_left _ _
    · exact Nat.le_trans (step inTail) (Nat.le_max_right _ _)

/-- A finite map from keys to rows, kept as a list. -/
structure Table (K V : Type*) where
  entries : List (K × V)
  nodup : (entries.map fst).Nodup

namespace Table

variable {K V : Type*} [DecidableEq K] {row : V} {rows : List (K × V)} {key : K}

/-- The table without rows. -/
def empty : Table K V := ⟨[], nodup_nil⟩

instance : Inhabited (Table K V) := ⟨empty⟩

/-- The row under a key. -/
def get (table : Table K V) (key : K) : Option V :=
  (table.entries.find? fun entry => entry.1 = key).map snd

/-- The keys of the rows. -/
def keys (table : Table K V) : List K := table.entries.map fst

/-- Delete the rows that fail a test. -/
def filter (table : Table K V) (keep : K -> V -> Bool) : Table K V where
  entries := table.entries.filter fun entry => keep entry.1 entry.2
  nodup := table.nodup.sublist (filter_sublist.map fst)

/-- Rewrite every row in place. -/
def update (table : Table K V) (change : K -> V -> V) : Table K V where
  entries := table.entries.map fun entry => (entry.1, change entry.1 entry.2)
  nodup := by
    rw [List.map_map]
    exact table.nodup

/-- Delete the row under a key. -/
def erase (table : Table K V) (key : K) : Table K V :=
  table.filter fun other _ => other ≠ key

/-- Insert a row, replacing the one under its key. -/
def set (table : Table K V) (key : K) (row : V) : Table K V where
  entries := (table.erase key).entries ++ [(key, row)]
  nodup := by
    rw [map_append, nodup_append]
    refine ⟨(table.erase key).nodup, nodup_singleton _, ?_⟩
    rintro _ member _ last rfl
    simp only [erase, filter, mem_map, mem_filter, decide_eq_true_eq] at member
    obtain ⟨_, ⟨_, different⟩, rfl⟩ := member
    exact different (by simpa using last)

/-- Insert a list of rows in order. -/
def setAll (table : Table K V) (rows : List (K × V)) : Table K V :=
  rows.foldl (fun table row => table.set row.1 row.2) table

section

variable (table : Table K V)

omit [DecidableEq K] in
theorem eq_of_mem (left : (key, row) ∈ table.entries) (right : (key, other) ∈ table.entries) :
    row = other := by
  have same := inj_on_of_nodup_map table.nodup left right rfl
  exact (Prod.mk.inj same).2

theorem mem_entries (key : K) (row : V) :
    (key, row) ∈ table.entries ↔ table.get key = some row := by
  unfold get
  constructor
  · intro member
    cases found : table.entries.find? fun entry => entry.1 = key with
    | none =>
      have absent := find?_eq_none.1 found _ member
      simp at absent
    | some entry =>
      have same : entry.1 = key := by simpa using find?_some found
      have stored : (key, entry.2) ∈ table.entries := by
        rw [<- same]
        exact mem_of_find?_eq_some found
      simp [table.eq_of_mem member stored]
  · intro read
    obtain ⟨entry, found, rfl⟩ := Option.map_eq_some_iff.1 read
    have same : entry.1 = key := by simpa using find?_some found
    rw [<- same]
    exact mem_of_find?_eq_some found

theorem get_eq_none (key : K) : table.get key = none ↔ key ∉ table.keys := by
  rw [Option.eq_none_iff_forall_ne_some]
  simp only [ne_eq, <- table.mem_entries, keys, mem_map, Prod.exists, exists_and_right,
    exists_eq_right, not_exists]

theorem mem_keys (key : K) : key ∈ table.keys ↔ ∃ row, table.get key = some row := by
  simp only [<- table.mem_entries, keys, mem_map, Prod.exists, exists_and_right, exists_eq_right]

end

@[simp] theorem get_empty (key : K) : (empty : Table K V).get key = none := rfl

/-- Two reads agree when the tables hold the same rows under the key. -/
theorem get_congr {left right : Table K V}
    (same : ∀ row, (key, row) ∈ left.entries ↔ (key, row) ∈ right.entries) :
    left.get key = right.get key := by
  ext row
  rw [<- left.mem_entries, <- right.mem_entries]
  exact same row

section

variable (table : Table K V) {keep : K -> V -> Bool}

@[simp] theorem get_filter (keep : K → V → Bool) (key : K) :
    (table.filter keep).get key = (table.get key).filter (keep key) := by
  ext row
  rw [<- mem_entries, Option.filter_eq_some_iff, <- mem_entries]
  simp [filter]

@[simp] theorem get_update (change : K → V → V) (key : K) :
    (table.update change).get key = (table.get key).map (change key) := by
  ext row
  rw [<- mem_entries, Option.map_eq_some_iff]
  simp only [update, mem_map, Prod.mk.injEq, Prod.exists, <- mem_entries]
  constructor
  · rintro ⟨_, old, member, rfl, rfl⟩
    exact ⟨old, member, rfl⟩
  · rintro ⟨old, member, rfl⟩
    exact ⟨key, old, member, rfl, rfl⟩

/-- A filter that keeps every row of a key. -/
theorem get_filter_of_kept
    (kept : ∀ row, keep key row = true) : (table.filter keep).get key = table.get key := by
  rw [get_filter]
  cases table.get key with
  | none => rfl
  | some row => rw [Option.filter_some, if_pos (kept row)]

/-- A filter that drops every row of a key. -/
theorem get_filter_of_dropped
    (dropped : ∀ row, keep key row = false) : (table.filter keep).get key = none := by
  rw [get_filter]
  cases table.get key with
  | none => rfl
  | some row => rw [Option.filter_some, if_neg (by rw [dropped row]; exact Bool.false_ne_true)]

omit [DecidableEq K] in
/-- The rows under some keys and the others are all there are. -/
theorem length_filter_keys {dropped : K -> Bool} {gone : List K}
    (lists : ∀ key, dropped key = true ↔ key ∈ gone) (distinct : gone.Nodup)
    (present : ∀ key ∈ gone, key ∈ table.keys) :
    (table.filter fun key _ => !dropped key).keys.length + gone.length = table.keys.length := by
  have left : (table.filter fun key _ => !dropped key).keys =
      table.keys.filter fun key => !dropped key := by
    unfold keys filter
    rw [filter_map]
    rfl
  have same : (table.keys.filter dropped).length = gone.length := by
    refine ((perm_ext_iff_of_nodup (table.nodup.filter _) distinct).2 fun key =>
      ?_).length_eq
    rw [mem_filter, lists]
    exact ⟨fun both => both.2, fun member => ⟨present key member, member⟩⟩
  have parts := length_eq_length_filter_add (l := table.keys) dropped
  rw [left, parts, same, Nat.add_comm]

/-- A change that leaves the row of a key as it is. -/
theorem get_update_of_kept
    (kept : ∀ row, change key row = row) : (table.update change).get key = table.get key := by
  rw [get_update]
  cases table.get key with
  | none => rfl
  | some row => rw [Option.map_some, kept row]

theorem get_erase (key other : K) :
    (table.erase key).get other = if other = key then none else table.get other := by
  unfold erase
  rw [get_filter]
  by_cases same : other = key
  · cases table.get other <;> simp [same]
  · cases table.get other <;> simp [same]

theorem get_set (key other : K) (row : V) :
    (table.set key row).get other = if other = key then some row else table.get other := by
  by_cases same : other = key
  · subst same
    rw [if_pos rfl, <- mem_entries]
    simp [set]
  · rw [if_neg same]
    apply get_congr
    intro value
    have kept := (table.erase key).mem_entries other value
    rw [get_erase, if_neg same, <- mem_entries] at kept
    simp [set, kept, same]

@[simp] theorem get_set_self (key : K) (row : V) : (table.set key row).get key = some row := by
  rw [get_set, if_pos rfl]

theorem get_set_of_ne (row : V) (different : other ≠ key) :
    (table.set key row).get other = table.get other := by
  rw [get_set, if_neg different]

theorem get_erase_of_ne (different : other ≠ key) :
    (table.erase key).get other = table.get other := by
  rw [get_erase, if_neg different]

end

/-- The last row of a list under a key. -/
def lastRow (rows : List (K × V)) (key : K) : Option V :=
  (rows.reverse.find? fun row => row.1 = key).map snd

/-- Inserting a list of rows leaves the last of them under each key. -/
theorem get_setAll (table : Table K V) (rows : List (K × V)) (key : K) :
    (table.setAll rows).get key = (lastRow rows key).or (table.get key) := by
  induction rows generalizing table with
  | nil => rfl
  | cons row rows step =>
    rw [setAll, foldl_cons, <- setAll, step, get_set]
    simp only [lastRow, reverse_cons, find?_append]
    cases found : rows.reverse.find? fun row => row.1 = key with
    | some => simp
    | none =>
      by_cases same : key = row.1
      · subst same
        simp
      · have different : ¬ row.1 = key := fun equal => same equal.symm
        simp [same, different]

/-- The rows of a table in the order of a list of distinct keys. -/
theorem lastRow_eq_some (distinct : (rows.map fst).Nodup) (key : K) (row : V) :
    lastRow rows key = some row ↔ (key, row) ∈ rows := by
  have reversed : (rows.reverse.map fst).Nodup := by
    rw [map_reverse]
    exact nodup_reverse.2 distinct
  have found := (⟨rows.reverse, reversed⟩ : Table K V).mem_entries key row
  rw [mem_reverse] at found
  exact found.symm

theorem lastRow_eq_none (rows : List (K × V)) (key : K) :
    lastRow rows key = none ↔ ∀ row, (key, row) ∉ rows := by
  unfold lastRow
  rw [Option.map_eq_none_iff, find?_eq_none]
  constructor
  · intro absent row member
    exact absent (key, row) (mem_reverse.2 member) (by simp)
  · rintro absent ⟨other, row⟩ member same
    obtain rfl : _ = _ := by simpa using same
    exact absent row (mem_reverse.1 member)

theorem mem_of_lastRow (found : lastRow rows key = some row) : (key, row) ∈ rows := by
  obtain ⟨entry, entryFound, rfl⟩ := Option.map_eq_some_iff.1 found
  have same : entry.1 = key := by simpa using find?_some entryFound
  rw [<- same]
  exact mem_reverse.1 (mem_of_find?_eq_some entryFound)

/-- A key with one row in a list is left with that row. -/
theorem lastRow_of_unique (member : (key, row) ∈ rows)
    (unique : ∀ other, (key, other) ∈ rows -> other = row) : lastRow rows key = some row := by
  cases found : lastRow rows key with
  | none => exact absurd member ((lastRow_eq_none rows key).1 found row)
  | some other => rw [unique other (mem_of_lastRow found)]

/-- Inserting all rows of a table lays it over another one. -/
theorem get_setAll_entries (table layer : Table K V) (key : K) :
    (table.setAll layer.entries).get key = (layer.get key).or (table.get key) := by
  rw [get_setAll]
  congr 1
  ext row
  rw [lastRow_eq_some layer.nodup, mem_entries]

/-! ## Marked changes -/

/-- A change of a table that marks the keys of the rows it changes. -/
def Marks (rows marks after marked : Table K V) : Prop :=
  ∀ key, marked.get key = none -> after.get key = rows.get key ∧ marks.get key = none

section Marks

variable (rows marks : Table K V)

theorem marks_refl : Marks rows marks rows marks := fun _ clean => ⟨rfl, clean⟩

theorem marks_set (key : K) (row : V) :
    Marks rows marks (rows.set key row) (marks.set key row) := by
  intro _ clean
  rw [get_set] at clean ⊢
  split_ifs at clean ⊢
  exact ⟨rfl, clean⟩

theorem marks_setAll (added : Table K V) :
    Marks rows marks (rows.setAll added.entries) (marks.setAll added.entries) := by
  intro _ clean
  rw [get_setAll_entries] at clean ⊢
  obtain ⟨absent, before⟩ := Option.or_eq_none_iff.1 clean
  rw [absent, Option.none_or]
  exact ⟨rfl, before⟩

theorem marks_filter (condition : K -> Bool) :
    Marks rows marks (rows.filter fun key _ => !condition key)
      (marks.setAll (rows.entries.filter fun entry => condition entry.1)) := by
  intro key clean
  rw [get_setAll] at clean
  obtain ⟨unmarked, before⟩ := Option.or_eq_none_iff.1 clean
  refine ⟨?_, before⟩
  by_cases dropped : condition key = true
  · rw [get_filter_of_dropped _ fun _ => by simp [dropped], eq_comm,
      Option.eq_none_iff_forall_ne_some]
    intro row stored
    exact (lastRow_eq_none _ _).1 unmarked row
      (mem_filter.2 ⟨(rows.mem_entries _ _).2 stored, dropped⟩)
  · exact get_filter_of_kept _ fun _ => by simp [dropped]

end Marks

/-! ## Totals -/

section

variable {M : Type*} [AddCommMonoid M]

section

omit [DecidableEq K]

/-- The sum of a weight over the rows. -/
def total (table : Table K V) (weight : K -> V -> M) : M :=
  (table.entries.map fun entry => weight entry.1 entry.2).sum

theorem total_filter (table : Table K V) (keep : K -> V -> Bool) (weight : K -> V -> M) :
    (table.filter keep).total weight =
      table.total fun key row => if keep key row then weight key row else 0 := by
  unfold total filter
  dsimp only
  induction table.entries with
  | nil => rfl
  | cons entry entries step =>
    rw [filter_cons, map_cons, sum_cons]
    split_ifs with kept
    · rw [map_cons, sum_cons, step]
    · rw [step, zero_add]

/-- Rewriting some of the rows moves a total by what it moves their weights. -/
theorem total_update (table : Table K V) (change : K -> V -> Option V) (weight : V -> Int) :
    (table.update fun key row => (change key row).getD row).total (fun _ => weight) =
      table.total (fun _ => weight) +
        ((table.entries.filterMap fun entry =>
            (change entry.1 entry.2).map fun row => (entry.1, entry.2, row)).map
          fun changed => weight changed.2.2 - weight changed.2.1).sum := by
  unfold total update
  dsimp only
  induction table.entries with
  | nil => rfl
  | cons entry entries step =>
    rw [map_cons, map_cons, sum_cons, step, map_cons, sum_cons, filterMap_cons]
    cases change entry.1 entry.2 with
    | none => exact (add_assoc _ _ _).symm
    | some row =>
      rw [Option.map_some, map_cons, sum_cons, Option.getD_some]
      dsimp only
      omega

end

/-- Tables with the same rows have the same totals. -/
theorem total_of_get {left right : Table K V} (same : ∀ key, left.get key = right.get key)
    (weight : K -> V -> M) : left.total weight = right.total weight := by
  have distinct : ∀ table : Table K V, table.entries.Nodup := fun table =>
    List.Nodup.of_map fst table.nodup
  have rows : left.entries.Perm right.entries := by
    rw [perm_ext_iff_of_nodup (distinct left) (distinct right)]
    rintro ⟨_, _⟩
    rw [mem_entries, mem_entries, same]
  exact (rows.map _).sum_eq

/-- The weight of the row under a key. -/
def weightAt (table : Table K V) (weight : K -> V -> M) (key : K) : M :=
  ((table.get key).map (weight key)).getD 0

theorem total_erase (table : Table K V) (weight : K -> V -> M) (key : K) :
    (table.erase key).total weight + table.weightAt weight key = table.total weight := by
  have split : ∀ entries : List (K × V), (entries.map fst).Nodup ->
      ((entries.filter fun entry => decide (entry.1 ≠ key)).map fun entry =>
          weight entry.1 entry.2).sum +
        (((entries.find? fun entry => entry.1 = key).map snd).map (weight key)).getD 0 =
          (entries.map fun entry => weight entry.1 entry.2).sum := by
    intro entries distinct
    induction entries with
    | nil => simp
    | cons entry entries step =>
      rw [map_cons, nodup_cons] at distinct
      obtain ⟨isNew, distinct⟩ := distinct
      by_cases same : entry.1 = key
      · have others : (entries.filter fun other => decide (other.1 ≠ key)) = entries := by
          apply filter_eq_self.2
          intro _ member
          refine decide_eq_true fun equal => isNew ?_
          rw [same, <- equal]
          exact mem_map_of_mem member
        rw [filter_cons_of_neg (by simpa using same), others,
          find?_cons_of_pos (by simpa using same), map_cons, sum_cons, add_comm]
        simp [same]
      · rw [filter_cons_of_pos (by simpa using same),
          find?_cons_of_neg (by simpa using same), map_cons, map_cons,
          sum_cons, sum_cons, add_assoc, step distinct]
  exact split table.entries table.nodup

theorem total_set (table : Table K V) (weight : K -> V -> M) (key : K) (row : V) :
    (table.set key row).total weight + table.weightAt weight key =
      table.total weight + weight key row := by
  have appended : (table.set key row).total weight =
      (table.erase key).total weight + weight key row := by
    unfold total set
    rw [map_append, sum_append, map_singleton, sum_singleton]
  rw [appended, <- table.total_erase weight key]
  exact add_right_comm _ _ _

end

/-- An integer key above every key of a table and above a lower limit. -/
def fresh (table : Table Nat V) (limit : Nat) : Nat :=
  table.keys.foldr max limit + 1

section

variable (table : Table Nat V)

theorem lt_fresh (limit : Nat) {key : Nat} (member : key ∈ table.keys) : key < table.fresh limit :=
  Nat.lt_succ_of_le (le_foldr_max limit member)

theorem get_fresh (limit : Nat) : table.get (table.fresh limit) = none := by
  rw [get_eq_none]
  intro member
  exact absurd (table.lt_fresh limit member) (Nat.lt_irrefl _)

theorem ne_fresh (limit : Nat) {key : Nat}
    (stored : table.get key = some row) : key ≠ table.fresh limit := by
  rintro rfl
  rw [get_fresh] at stored
  cases stored

end

end Table
end VexDB.Storage
