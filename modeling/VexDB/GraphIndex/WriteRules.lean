import VexDB.GraphIndex.Algorithm

/-!
# Rules for the writes of an insert

What an insert writes, for any store behind it: the row goes to a point with the
same vector, or a new base record is placed and then only links, upper records
and the entry point are written.  A property of the store kept by those writes
is kept by the whole insert.
-/

namespace VexDB.GraphIndex

variable {S P V D Tid : Type*} [Inhabited P] [Inhabited V] {state : S}

section Merge

variable (params : Params V D) (pt : PointType P Tid)

/-- The point of `apply_arrangement` the row is added to. -/
def arrangedPoint (elems : List P) (query : V) : List (Candidate V D) -> Option Nat
  | [] => none
  | cand :: rest =>
    if params.sameBytes (cand.val.getD default) query then
      if pt.empty (elems.getD cand.id default) then arrangedPoint elems query rest
      else some cand.id
    else none

/-- The point an insert adds its row to; none if it makes a new one. -/
def mergeTarget (store : GraphStore P V D) (query : V) (insertLevel : Nat) : Option Nat :=
  store.entry.bind fun entry =>
    arrangedPoint params pt store.elems query
      (getNeighborsData store (insertSearch params store entry query insertLevel).2)

end Merge

section Rules

variable {params : Params V D} {pt : PointType P Tid} {impl : StoreImpl S P V D Tid}

/-- The property survives what is written once the base record is placed. -/
structure Continues (params : Params V D) (impl : StoreImpl S P V D Tid) (Holds : S -> Prop) :
    Prop where
  stat : ∀ state layer idx stat, Holds state -> Holds (impl.write state (.setStat layer idx stat))
  link : ∀ state layer idx slot neighbor dist, Holds state ->
    Holds (impl.write state (.setNeighbor layer idx slot neighbor dist))
  raise : ∀ state lower id neighbors dists, Holds state ->
    Holds (impl.write (impl.write state (.assign .upper))
      (.addPoint .upper ((impl.view state).nextId .upper) lower id neighbors dists))
  enter : ∀ state entry, Holds state -> Holds (impl.write state (.setEntrypoint (some entry)))

variable {Holds : S -> Prop}

section

variable (continues : Continues params impl Holds)
include continues

section

omit [Inhabited P]

theorem Continues.updateReverseEdges (holds : Holds state) (layer : Layer) (newPoint : Nat × Nat)
    (neighbors : List (Candidate V D)) :
    Holds (updateReverseEdges params impl layer newPoint state neighbors) := by
  rw [GraphIndex.updateReverseEdges]
  refine List.foldlRecOn neighbors _ holds fun state holds nbr _ => ?_
  simp only [updateReverseEdge]
  generalize selectPruned params false (impl.view state) layer _ _ _ _ = choice
  obtain ⟨pruned, stat⟩ := choice
  cases stat with
  | none =>
    cases pruned with
    | none => exact holds
    | some slot => exact continues.link _ layer nbr.curLayerIdx slot newPoint _ holds
  | some stat =>
    have counted : Holds (if params.useDistCache then state
        else impl.write state (.setStat layer nbr.curLayerIdx stat)) := by
      split
      · exact holds
      · exact continues.stat state layer nbr.curLayerIdx stat holds
    cases pruned with
    | none => exact counted
    | some slot => exact continues.link _ layer nbr.curLayerIdx slot newPoint _ counted

theorem Continues.insertUppers (id : Nat)
    (nbrRecord : List (List (Candidate V D))) (holds : Holds state) (lower : Nat) :
    Holds (insertUppers params impl id state lower nbrRecord).1 := by
  induction nbrRecord generalizing state lower with
  | nil => exact holds
  | cons found rest ih =>
    rw [GraphIndex.insertUppers]
    exact ih (continues.updateReverseEdges (continues.raise state _ _ _ _ holds) _ _ _) _

end

omit [Inhabited P] [Inhabited V]

theorem Continues.addFirstUpperpoints (id : Nat)
    (levels : Nat) (holds : Holds state) (lower : Nat) :
    Holds (addFirstUpperpoints params impl id levels state lower).1 := by
  induction levels generalizing state lower with
  | zero => exact holds
  | succ levels ih =>
    rw [GraphIndex.addFirstUpperpoints]
    exact ih (continues.raise state _ _ _ _ holds) _

theorem Continues.updateEntry (holds : Holds state) (id idx entryLevel insertLevel : Nat) :
    Holds (updateEntry params impl state id idx entryLevel insertLevel) := by
  rw [GraphIndex.updateEntry]
  split
  · exact continues.enter _ _ (continues.addFirstUpperpoints id _ holds idx)
  · exact holds

end

/-- The writes that place a new point. -/
def place (impl : StoreImpl S P V D Tid) (state : S) (idx : Nat) (query : V) (tid : Tid)
    (neighbors : List (Option (Nat × Nat))) (dists : Option (List D)) : S :=
  let id := (impl.view state).nextId .base
  let state := impl.write state (.assign .base)
  let state := impl.write state (.addElem id tid)
  let state := impl.write state (.addPoint .base idx none none neighbors dists)
  impl.write state (.addVector id query)

section

variable (takes : ∀ point tid, (pt.insertTid point tid).1 = true)
include takes

/-- A point that takes every row takes it in one write. -/
theorem applyArrangement_eq (query : V) (tid : Tid) (state : S) (found : List (Candidate V D)) :
    applyArrangement params pt impl query tid state found =
      match arrangedPoint params pt (impl.view state).elems query found with
      | some id => (impl.write state (.insertTid id tid), some id)
      | none => (state, none) := by
  induction found with
  | nil => rfl
  | cons cand rest ih =>
    simp only [applyArrangement, arrangedPoint]
    by_cases same : params.sameBytes (cand.val.getD default) query = true
    · by_cases isEmpty : pt.empty ((impl.view state).elems.getD cand.id default) = true
      · simp only [same, isEmpty]
        exact ih
      · simp only [same, isEmpty, takes, if_true, Bool.false_eq_true, if_false]
    · simp [same]

/-- An insert adds a row to a point, or places a new point and continues from there. -/
theorem insert_rule (continues : Continues params impl Holds) {Result : S -> Prop}
    (merged : ∀ id, mergeTarget params pt (impl.view state) query insertLevel = some id ->
      Result (impl.write state (.insertTid id tid)))
    (placedFirst : (impl.view state).entry = none -> ∀ neighbors dists entry,
      Holds (impl.write (place impl state 0 query tid neighbors dists)
        (.setEntrypoint (some entry)))) (placed : (impl.view state).entry ≠ none ->
      mergeTarget params pt (impl.view state) query insertLevel = none ->
      ∀ neighbors dists,
        Holds (place impl state ((impl.view state).nextId .base) query tid neighbors dists))
    (continued : ∀ after, Holds after -> Result after) :
    Result (insert params pt impl query tid insertLevel state).1 := by
  cases entered : (impl.view state).entry with
  | none =>
    simp only [insert, entered]
    exact continued _ (placedFirst entered _ _ _)
  | some entry =>
    have target : mergeTarget params pt (impl.view state) query insertLevel =
        arrangedPoint params pt (impl.view state).elems query (getNeighborsData (impl.view state)
          (insertSearch params (impl.view state) entry query insertLevel).2) := by
      rw [mergeTarget, entered, Option.bind_some]
    simp only [insert, entered, applyArrangement_eq takes, <- target]
    cases arranged : mergeTarget params pt (impl.view state) query insertLevel with
    | some id => exact merged id arranged
    | none =>
      refine continued _ ?_
      exact continues.updateEntry (continues.insertUppers _ _
        (continues.updateReverseEdges (placed (by simp [entered]) arranged _ _) _ _ _) _) _ _ _ _

end

end Rules

end VexDB.GraphIndex
