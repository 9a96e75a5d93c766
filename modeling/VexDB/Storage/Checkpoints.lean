import VexDB.Storage.History

/-!
# Recording changes at points of a history

Live rows are recorded at points of time, each time only those that may have
changed since the last recording, the dirty ones.  A history shows a value for a
key at a point when its latest row there has one.  As long as every change marks
its key, recording at the head makes the head show exactly the live values; it
leaves earlier points as they are.  Rows up to a point can be replaced by those
that show at it, without a difference at that point or later.
-/

namespace VexDB.Storage
namespace Table

open Option

variable {K V W : Type*} [DecidableEq K]

/-- What a history shows at a point. -/
def view (states : Table (K × Nat) V) (shown : V -> Option W) (point : Nat) : Table K W :=
  (states.latest point).filterMap fun _ row => shown row

theorem get_view (states : Table (K × Nat) V) (shown : V -> Option W) (point : Nat) (key : K) :
    (states.view shown point).get key = ((states.latest point).get key).bind shown :=
  get_filterMap _ _ _

/-- Replace the rows up to a point by the rows that show at it. -/
def flatten (states : Table (K × Nat) V) (shown : V -> Option W) (floor : Nat) :
    Table (K × Nat) V :=
  (states.filter fun key _ => decide (floor < key.2)).setAll
    (((states.latest floor).entries.filter fun entry => (shown entry.2).isSome).map fun entry =>
      ((entry.1, floor), entry.2))

section

variable {states : Table (K × Nat) V} {shown : V -> Option W} {key : K}

theorem get_flatten :
    (states.flatten shown floor).get (key, point) =
      if point = floor then ((states.latest floor).get key).filter fun row => (shown row).isSome
      else if floor < point then states.get (key, point) else none := by
  have content : ∀ other time row,
      ((other, time), row) ∈ ((states.latest floor).entries.filter fun entry =>
        (shown entry.2).isSome).map (fun entry => ((entry.1, floor), entry.2)) ↔
        time = floor ∧
          ((states.latest floor).get other).filter (fun row => (shown row).isSome) = some row := by
    intro other _ row
    simp only [List.mem_map, List.mem_filter, Prod.exists, mem_entries, Prod.mk.injEq,
      filter_eq_some_iff]
    constructor
    · rintro ⟨_, _, ⟨stored, shows⟩, ⟨rfl, rfl⟩, rfl⟩
      exact ⟨rfl, stored, shows⟩
    · rintro ⟨rfl, stored, shows⟩
      exact ⟨other, row, ⟨stored, shows⟩, ⟨rfl, rfl⟩, rfl⟩
  unfold flatten
  rw [get_setAll_point _ content]
  by_cases here : point = floor
  · subst here
    rw [if_pos rfl, if_pos rfl, get_filter_of_dropped _ fun _ => by simp, or_none]
  · rw [if_neg here, if_neg here]
    by_cases later : floor < point
    · rw [if_pos later, get_filter_of_kept _ fun _ => by simp [later]]
    · rw [if_neg later, get_filter_of_dropped _ fun _ => by simp [later]]

/-- Flattening makes no difference at its point or later. -/
theorem get_view_flatten (within : floor <= point) :
    ((states.flatten shown floor).view shown point).get key =
      (states.view shown point).get key := by
  rw [get_view, get_view]
  by_cases newer : ∃ time, floor < time ∧ time <= point ∧ states.get (key, time) ≠ none
  · -- A row after the floor hides whatever was flattened.
    have same : ∀ row, ((states.flatten shown floor).latest point).get key = some row ↔
        (states.latest point).get key = some row := by
      intro row
      obtain ⟨time, after, inside, present⟩ := newer
      rw [get_latest, get_latest]
      constructor
      · rintro ⟨last, bound, stored, none_later⟩
        have past : floor < last := by
          by_contra early
          have absent := none_later time (by omega) inside
          rw [get_flatten, if_neg (by omega), if_pos after] at absent
          exact present absent
        rw [get_flatten, if_neg (by omega), if_pos past] at stored
        refine ⟨last, bound, stored, fun later further limit => ?_⟩
        have absent := none_later later further limit
        rwa [get_flatten, if_neg (by omega), if_pos (by omega)] at absent
      · rintro ⟨last, bound, stored, none_later⟩
        have past : floor < last := by
          by_contra early
          exact present (none_later time (by omega) inside)
        refine ⟨last, bound, ?_, fun later further limit => ?_⟩
        · rwa [get_flatten, if_neg (by omega), if_pos past]
        · rw [get_flatten, if_neg (by omega), if_pos (by omega)]
          exact none_later later further limit
    rw [ext same]
  · push Not at newer
    have flat : ((states.flatten shown floor).latest point).get key =
        ((states.flatten shown floor).latest floor).get key := by
      apply latest_eq_of_none within
      intro time after inside
      rw [get_flatten, if_neg (by omega), if_pos after]
      exact newer time after inside
    rw [flat, latest_eq_of_none within newer]
    have atFloor : ((states.flatten shown floor).latest floor).get key =
        ((states.latest floor).get key).filter fun row => (shown row).isSome := by
      cases stored : ((states.latest floor).get key).filter fun row => (shown row).isSome with
      | some =>
        apply latest_of_get
        rw [get_flatten, if_pos rfl, stored]
      | none =>
        rw [latest_eq_none]
        intro _ _
        rw [get_flatten]
        split_ifs with here later
        · exact stored
        · omega
        · rfl
    rw [atFloor]
    cases (states.latest floor).get key with
    | none => rfl
    | some row =>
      rw [bind_some]
      cases shows : shown row with
      | none => rw [filter_some, if_neg (by simp [shows]), bind_none]
      | some => rw [filter_some, if_pos (by simp [shows]), bind_some, shows]

/-- Recording at a later point leaves a view as it is. -/
theorem get_view_setAll {rows : List ((K × Nat) × V)} (later : ∀ entry ∈ rows, point < entry.1.2) :
    ((states.setAll rows).view shown point).get key = (states.view shown point).get key := by
  rw [get_view, get_view]
  congr 1
  apply latest_congr
  intro time _
  rw [get_setAll]
  have absent : lastRow rows (key, time) = none := by
    rw [lastRow_eq_none]
    intro _ member
    have bound := later _ member
    dsimp only at bound
    omega
  rw [absent, none_or]

end

/-! ## Dirty keys -/

/-- The rows recorded at a point for the keys of a table. -/
theorem mem_rowsAt (marks : Table K W) (row : K × W -> V) :
    ((key, time), value) ∈ marks.entries.map (fun mark => ((mark.1, head), row mark)) ↔
      time = head ∧ ((marks.get key).map fun mark => row (key, mark)) = some value := by
  rw [List.mem_map, map_eq_some_iff]
  constructor
  · rintro ⟨⟨_, mark⟩, member, same⟩
    obtain ⟨⟨rfl, rfl⟩, rfl⟩ := same
    exact ⟨rfl, mark, (mem_entries _ _ _).1 member, rfl⟩
  · rintro ⟨rfl, mark, marked, rfl⟩
    exact ⟨(key, mark), (mem_entries _ _ _).2 marked, rfl⟩

/-- The head of a history, which is after every row of it, shows the live value of every
key that is not dirty. -/
structure Recorded (states : Table (K × Nat) V) (shown : V -> Option W) (head : Nat)
    (dirty : K -> Prop) (live : K -> Option W) : Prop where
  shows : ∀ key, ¬ dirty key -> (states.view shown head).get key = live key
  bounded : ∀ key time row, states.get (key, time) = some row -> time <= head

namespace Recorded

variable {states : Table (K × Nat) V} {shown : V -> Option W} {head : Nat} {dirty : K -> Prop}
  {live : K -> Option W}

section

variable (recorded : states.Recorded shown head dirty live)
include recorded

/-- A change of live values that marks what it changes keeps the rest recorded. -/
theorem evolve (marks : ∀ key, dirty key → marked key)
    (same : ∀ key, ¬ marked key -> changed key = live key) :
    states.Recorded shown head marked changed where
  shows key clean := by
    rw [same key clean]
    exact recorded.shows key fun before => clean (marks key before)
  bounded := recorded.bounded

/-- A point after every row shows what the last one shows. -/
theorem advance (within : head <= next) : states.Recorded shown next dirty live where
  shows key clean := by
    have same : (states.latest next).get key = (states.latest head).get key := by
      apply latest_eq_of_none within
      intro time _ _
      rw [eq_none_iff_forall_ne_some]
      intro row stored
      have := recorded.bounded key time row stored
      omega
    have shows := recorded.shows key clean
    rw [get_view] at shows ⊢
    rw [same, shows]
  bounded key time row stored := (recorded.bounded key time row stored).trans within

/-- Flattening keeps what the head shows. -/
theorem flatten
    (within : floor <= head) : (states.flatten shown floor).Recorded shown head dirty live where
  shows key clean := by
    rw [get_view_flatten within]
    exact recorded.shows key clean
  bounded key time row stored := by
    rw [get_flatten] at stored
    split_ifs at stored with here later
    · omega
    · exact recorded.bounded key time row stored

end

section

variable {rows : List ((K × Nat) × V)} {value : K -> Option V}

/-- Recording every dirty key at the head makes the head show the live values. -/
theorem get_view_record (recorded : states.Recorded shown head dirty live)
    (content : ∀ key time row, ((key, time), row) ∈ rows ↔ time = head ∧ value key = some row)
    (shows : ∀ key, dirty key -> ∃ row, value key = some row ∧ shown row = live key)
    (others : ∀ key, ¬ dirty key -> value key = none) (key : K) :
    ((states.setAll rows).view shown head).get key = live key := by
  by_cases isDirty : dirty key
  · obtain ⟨row, stored, same⟩ := shows key isDirty
    have last : ((states.setAll rows).latest head).get key = some row := by
      apply latest_of_get
      rw [get_setAll_point _ content, if_pos rfl, stored, some_or]
    rw [get_view, last, bind_some, same]
  · have unchanged : ((states.setAll rows).latest head).get key = (states.latest head).get key := by
      apply latest_congr
      intro _ _
      rw [get_setAll_point _ content, others key isDirty, none_or]
      split_ifs
      · rfl
      · rfl
    have before := recorded.shows key isDirty
    rw [get_view] at before ⊢
    rw [unchanged, before]

/-- After a recording nothing is dirty. -/
theorem record (recorded : states.Recorded shown head dirty live)
    (content : ∀ key time row, ((key, time), row) ∈ rows ↔ time = head ∧ value key = some row)
    (shows : ∀ key, dirty key -> ∃ row, value key = some row ∧ shown row = live key)
    (others : ∀ key, ¬ dirty key -> value key = none) (marked : K -> Prop) :
    (states.setAll rows).Recorded shown head marked live where
  shows key _ := recorded.get_view_record content shows others key
  bounded key time row stored := by
    rw [get_setAll_point _ content] at stored
    split_ifs at stored with here
    · omega
    · exact recorded.bounded key time row stored

end

end Recorded

end Table
end VexDB.Storage
