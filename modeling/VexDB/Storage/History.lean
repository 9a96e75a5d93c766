import Mathlib.Data.Finset.Basic
import Mathlib.Data.Nat.Find
import VexDB.Storage.Table

/-!
# Row histories

A history keeps rows under a key and a point in time.  The state of a key at a
point is its latest row that is not after the point.  Adding rows at a later
point does not change what an earlier point shows; deleting a row can, because
an older row of the key then becomes the latest.
-/

namespace VexDB.Storage
namespace Table

open Option List List.Nodup

variable {K V W : Type*} [DecidableEq K] {states : Table (K × Nat) V} {limit : Nat}

/-- The rows of a table as a set. -/
def rows (table : Table K V) : Finset (K × V) :=
  ⟨table.entries, of_map Prod.fst table.nodup⟩

/-- Keep the rows for which a function gives a value, with that value. -/
def filterMap (table : Table K V) (choose : K -> V -> Option W) : Table K W where
  entries := table.entries.filterMap fun entry =>
    (choose entry.1 entry.2).map fun value => (entry.1, value)
  nodup := by
    refine sublist ?_ table.nodup
    rw [map_filterMap]
    induction table.entries with
    | nil => exact List.Sublist.slnil
    | cons entry entries step =>
      rw [filterMap_cons, map_cons]
      cases choose entry.1 entry.2 with
      | none => exact step.cons _
      | some => exact step.cons_cons _

@[simp] theorem get_filterMap (table : Table K V) (choose : K → V → Option W) (key : K) :
    (table.filterMap choose).get key = (table.get key).bind (choose key) := by
  ext value
  rw [<- mem_entries, bind_eq_some_iff]
  simp only [filterMap, mem_filterMap, map_eq_some_iff, Prod.mk.injEq, Prod.exists,
    <- mem_entries]
  constructor
  · rintro ⟨_, row, member, _, chosen, rfl, rfl⟩
    exact ⟨row, member, chosen⟩
  · rintro ⟨row, member, chosen⟩
    exact ⟨key, row, member, value, chosen, rfl, rfl⟩

/-- A row is the latest row of its key at a point. -/
def isLatest (states : Table (K × Nat) V) (limit : Nat) (key : K) (point : Nat) : Bool :=
  decide (point <= limit) && states.entries.all fun other =>
    !(decide (other.1.1 = key) && decide (point < other.1.2) && decide (other.1.2 <= limit))

theorem isLatest_iff (states : Table (K × Nat) V) (limit : Nat) (key : K) (point : Nat) :
    states.isLatest limit key point = true ↔
      point ≤ limit ∧ ∀ later, point < later -> later ≤ limit → states.get (key, later) = none := by
  unfold isLatest
  rw [Bool.and_eq_true, decide_eq_true_eq, List.all_eq_true]
  apply and_congr_right
  intro _
  constructor
  · intro none_later later after within
    rw [eq_none_iff_forall_ne_some]
    intro row stored
    have refused := none_later _ ((states.mem_entries _ _).2 stored)
    simp [after, within] at refused
  · rintro absent ⟨⟨other, later⟩, row⟩ member
    by_cases same : other = key
    · subst same
      have stored := (states.mem_entries _ _).1 member
      by_cases after : point < later
      · by_cases within : later <= limit
        · rw [absent later after within] at stored
          cases stored
        · simp [within]
      · simp [after]
    · simp [same]

/-- The latest row of every key at a point. -/
def latest (states : Table (K × Nat) V) (limit : Nat) : Table K V where
  entries := (states.entries.filter fun entry =>
    states.isLatest limit entry.1.1 entry.1.2).map fun entry => (entry.1.1, entry.2)
  nodup := by
    rw [List.map_map]
    apply map_on
    · rintro ⟨⟨key, point⟩, row⟩ left ⟨⟨other, time⟩, value⟩ right same
      obtain rfl : key = other := same
      rw [List.mem_filter, isLatest_iff, mem_entries] at left right
      obtain ⟨stored, within, none_later⟩ := left
      obtain ⟨kept, inside, none_after⟩ := right
      rcases Nat.lt_trichotomy point time with before | rfl | after
      · rw [none_later time before inside] at kept
        cases kept
      · obtain rfl : row = value := Option.mem_unique stored kept
        rfl
      · rw [none_after point after within] at stored
        cases stored
    · exact (of_map Prod.fst states.nodup).filter _

theorem get_latest (states : Table (K × Nat) V) (limit : Nat) (key : K) (row : V) :
    (states.latest limit).get key = some row ↔ ∃ point ≤ limit, states.get (key, point) = some row ∧
        ∀ later, point < later -> later <= limit -> states.get (key, later) = none := by
  rw [<- mem_entries]
  simp only [latest, List.mem_map, List.mem_filter, isLatest_iff, Prod.mk.injEq, Prod.exists,
    mem_entries]
  constructor
  · rintro ⟨_, point, _, ⟨stored, within, none_later⟩, rfl, rfl⟩
    exact ⟨point, within, stored, none_later⟩
  · rintro ⟨point, within, stored, none_later⟩
    exact ⟨key, point, row, ⟨stored, within, none_later⟩, rfl, rfl⟩

theorem latest_eq_none (states : Table (K × Nat) V) (limit : Nat) (key : K) :
    (states.latest limit).get key = none ↔
      ∀ point ≤ limit, states.get (key, point) = none := by
  constructor
  · intro absent
    by_contra some_row
    push Not at some_row
    obtain ⟨first, firstWithin, _⟩ := some_row
    -- The largest point with a row would be the latest.
    have found : ∃ distance, limit - distance ≤ limit ∧ states.get (key, limit - distance) ≠ none :=
      ⟨limit - first, Nat.sub_le _ _, by rwa [Nat.sub_sub_self firstWithin]⟩
    classical
    have least := Nat.find_spec found
    obtain ⟨row, stored⟩ := ne_none_iff_exists'.1 least.2
    have isLast : (states.latest limit).get key = some row := by
      rw [get_latest]
      refine ⟨_, least.1, stored, ?_⟩
      intro later _ within
      by_contra present
      refine Nat.find_min found (m := limit - later) ?_ ⟨Nat.sub_le _ _, ?_⟩
      · omega
      · rwa [Nat.sub_sub_self within]
    rw [absent] at isLast
    cases isLast
  · intro absent
    rw [eq_none_iff_forall_ne_some]
    intro row present
    obtain ⟨point, within, stored, _⟩ := (states.get_latest limit key row).1 present
    rw [absent point within] at stored
    cases stored

/-- What a point shows depends on the rows that are not after it. -/
theorem latest_congr {left right : Table (K × Nat) V} {key : K}
    (same : ∀ point ≤ limit, left.get (key, point) = right.get (key, point)) :
    (left.latest limit).get key = (right.latest limit).get key := by
  ext row
  rw [get_latest, get_latest]
  constructor
  · rintro ⟨point, within, stored, none_later⟩
    exact ⟨point, within, (same point within).symm.trans stored, fun later after inside =>
      (same later inside).symm.trans (none_later later after inside)⟩
  · rintro ⟨point, within, stored, none_later⟩
    exact ⟨point, within, (same point within).trans stored, fun later after inside =>
      (same later inside).trans (none_later later after inside)⟩

/-- A row at the point itself is the latest. -/
theorem latest_of_get (stored : states.get (key, limit) = some row) :
    (states.latest limit).get key = some row := by
  rw [get_latest]
  exact ⟨limit, Nat.le_refl _, stored, fun later after within => absurd after (by omega)⟩

/-- Without rows after an earlier point, a point shows what the earlier one shows. -/
theorem latest_eq_of_none (within : early <= limit)
    (none_after : ∀ point, early < point -> point <= limit -> states.get (key, point) = none) :
    (states.latest limit).get key = (states.latest early).get key := by
  ext row
  rw [get_latest, get_latest]
  constructor
  · rintro ⟨point, inside, stored, none_later⟩
    have before : point <= early := by
      by_contra after
      rw [none_after point (by omega) inside] at stored
      cases stored
    exact ⟨point, before, stored, fun later after bound =>
      none_later later after (by omega)⟩
  · rintro ⟨point, inside, stored, none_later⟩
    refine ⟨point, by omega, stored, fun later after bound => ?_⟩
    rcases Nat.lt_or_ge early later with past | notPast
    · exact none_after later past bound
    · exact none_later later after notPast

/-- Inserting rows at one point of a history, at most one for each key. -/
theorem get_setAll_point (states : Table (K × Nat) V) {rows : List ((K × Nat) × V)}
    {value : K -> Option V} (content : ∀ key point row, ((key, point), row) ∈ rows ↔
      point = commit ∧ value key = some row) (key : K) (point : Nat) :
    (states.setAll rows).get (key, point) =
      if point = commit then (value key).or (states.get (key, point))
      else states.get (key, point) := by
  rw [get_setAll]
  split_ifs with here
  · congr 1
    cases stored : value key with
    | none =>
      rw [lastRow_eq_none]
      intro row member
      rw [content, stored] at member
      cases member.2
    | some row =>
      apply lastRow_of_unique
      · exact (content key point row).2 ⟨here, stored⟩
      · intro _ member
        rw [content, stored] at member
        exact (some.inj member.2).symm
  · have absent : lastRow rows (key, point) = none := by
      rw [lastRow_eq_none]
      intro row member
      exact here ((content key point row).1 member).1
    rw [absent, none_or]

end Table
end VexDB.Storage
