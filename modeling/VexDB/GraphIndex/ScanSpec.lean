import Mathlib.Algebra.Order.Group.Multiset
import VexDB.GraphIndex.Layering
import VexDB.GraphIndex.Scan
import VexDB.GraphIndex.VacuumRounds
import VexDB.GraphIndex.WriteRules

/-!
# What an ordered scan returns

A search returns its rows in order of distance and no row twice, so a scan
returns every row that one of its searches finds, once.  It ends at the first
search that finds fewer rows than its width, whether or not rows are missing.
-/

namespace VexDB.GraphIndex

open Storage Vtl List Function Nat Restart
open GraphStore (impl elems_modifyPoint elems_assign)

variable {P V D Tid : Type*} [Inhabited V] {ef : Nat} {tid : Tid}
  {candidates : List (Candidate V D)}

section Scored

theorem suffix_visitNew (visited : List Nat) (neighbors : List (Nat × Nat)) :
    visited <:+ (visitNew visited neighbors).2 := by
  induction neighbors generalizing visited with
  | nil => exact suffix_refl _
  | cons neighbor neighbors ih =>
    rw [visitNew]
    split
    · exact ih visited
    · exact (suffix_cons _ _).trans (ih _)

variable {params : Params V D} {store : GraphStore P V D} {query : V} {filter : Nat -> Bool}

/-- The greedy search of a layer ends where it began or at a point it scored. -/
theorem upperLoop_scored (start fuel : Nat)
    (known : state.cur.id = start ∨ state.cur.id ∈ state.visited) :
    (upperLoop params store query fuel state).cur.id = start ∨
      (upperLoop params store query fuel state).cur.id ∈
        (upperLoop params store query fuel state).visited := by
  induction fuel generalizing state with
  | zero => exact known
  | succ fuel ih =>
    have next : (upperStep params store query state).1.cur.id = start ∨
        (upperStep params store query state).1.cur.id ∈
          (upperStep params store query state).1.visited := by
      rcases upperStep_cases params store query state with stays | ⟨_, fresh, moved⟩
      · rw [stays]
        exact known.imp_right fun seen => mem_visitNew_visited.2 (.inl seen)
      · rw [moved]
        exact .inr (mem_visitNew_visited.2 (.inr (mem_map_of_mem fresh)))
    rw [upperLoop]
    dsimp only
    split
    · exact next
    · exact ih next

/-- The point at which a search begins stays the first one visited. -/
theorem suffix_searchFinal (entrypoint : List (Candidate V D)) :
    (entrypoint.map Candidate.id).reverse <:+
      (searchFinal params store layer query ef filter entrypoint).visited := by
  have step : ∀ state next : SearchState V D,
      (entrypoint.map Candidate.id).reverse <:+ state.visited ->
        searchStep params store layer query ef filter state = some next ->
          (entrypoint.map Candidate.id).reverse <:+ next.visited := by
    intro _ _ suffix step
    obtain ⟨_, round⟩ := searchStep_eq_some step
    rw [round.visited]
    exact suffix.trans (suffix_visitNew _ _)
  exact searchLoop_invariant step _ (suffix_refl _)

omit [Inhabited V] in
theorem closed_true (params : Params V D) (store : GraphStore P V D) (layer : Layer) :
    Closed params store layer fun _ _ => True :=
  fun _ _ _ _ _ => trivial

/-- A search from a point returns points it visited after it, or the point. -/
theorem searchLayer_scored (found : cand ∈ searchLayer params store layer query ef filter [start]) :
    cand.id ∈ (searchFinal params store layer query ef filter [start]).visited.dropLast ∨
      cand.id = start.id := by
  have invariant : SearchInvariant params store layer filter (fun _ _ => True)
      (searchFinal params store layer query ef filter [start]) :=
    searchFinal_invariant (closed_true _ _ _) (fun _ _ => trivial) (nodup_singleton _)
  have seen := invariant.visited cand.id (Multiset.mem_add.2 (.inr
    (mem_heapIds.2 ⟨cand, mem_searchLayer.1 found, rfl⟩)))
  obtain ⟨_, visited⟩ : [start.id] <:+
      (searchFinal params store layer query ef filter [start]).visited := suffix_searchFinal [start]
  rw [<- visited] at seen ⊢
  rw [dropLast_concat]
  exact (mem_append.1 seen).imp_right mem_singleton.1

end Scored

section Distinct

variable {params : ScanParams V D} {rt : RowType P Tid} {store : GraphStore P V D} {query : V}

/-- The base layer begins at the entry point or at a point scored on the way. -/
theorem descend_scored (levels : Nat) (cand : Candidate V D) :
    (descend params.toParams store query levels cand).id ∈
      descendScored params store query levels cand ++ [cand.id] := by
  induction levels generalizing cand with
  | zero => exact mem_singleton_self _
  | succ levels ih =>
    have below := ih (replaceLowerLayerIdx (searchUpperLayer params.toParams store query cand))
    have here : (searchUpperLayer params.toParams store query cand).id = cand.id ∨
        (searchUpperLayer params.toParams store query cand).id ∈
          (upperLoop params.toParams store query (slotCount store .upper + 1)
            ⟨cand, [], params.fltMax⟩).visited :=
      upperLoop_scored cand.id _ (.inl rfl)
    rw [descend, descendScored, append_assoc, mem_append]
    rcases mem_append.1 below with deeper | atStart
    · exact .inl deeper
    · refine .inr (mem_append.2 ?_)
      rw [mem_singleton] at atStart ⊢
      rw [atStart]
      exact here.symm

/-- A search returns points it scored. -/
theorem searchInternal_scored (entry : EntryInfo) (efSearch : Nat)
    (found : cand ∈ searchInternal params store query entry efSearch) :
    cand.id ∈ searchScored params store query entry efSearch := by
  unfold searchInternal at found
  unfold searchScored
  dsimp only at found ⊢
  split at found
  next covers =>
    rw [if_pos covers]
    obtain ⟨_, member, rfl⟩ := mem_map.1 ((mergeSort_perm _ _).mem_iff.1 found)
    exact member
  next narrow =>
    rw [if_neg narrow, append_assoc, mem_append]
    refine (searchLayer_scored found).imp_right fun atStart => ?_
    rw [atStart]
    exact descend_scored entry.level _

/-- A search returns no point twice. -/
theorem nodup_searchInternal (entry : EntryInfo) (efSearch : Nat) :
    ((searchInternal params store query entry efSearch).map Candidate.id).Nodup := by
  unfold searchInternal
  dsimp only
  split
  · have same : ((range store.base.length).map (scored params store query)).map Candidate.id =
        range store.base.length := by
      rw [map_map]
      exact map_id _
    rw [((mergeSort_perm _ _).map Candidate.id).nodup_iff, same]
    exact nodup_range
  · exact searchLayer_distinct (closed_true _ _ _) (fun _ _ => trivial) (nodup_singleton _)

theorem nodup_complete (signature : Signature V) (distinct : (points.map Candidate.id).Nodup)
    (known : ∀ cand ∈ points, cand.id ∈ scoredIds) :
    ((complete params store query signature scoredIds points).map Candidate.id).Nodup := by
  unfold complete
  split
  next => exact distinct
  next nominees nominated =>
    have same : (nominees.map (scored params store query)).map Candidate.id = nominees := by
      rw [map_map]
      exact map_id _
    rw [((mergeSort_perm _ _).map Candidate.id).nodup_iff, map_append, same]
    refine distinct.append (signature.distinct nominated) ?_
    intro _ found nominee
    obtain ⟨cand, member, rfl⟩ := mem_map.1 found
    exact signature.unseen nominated cand.id nominee (known cand member)

section

omit [Inhabited V]

theorem nodup_refine (distinct : (candidates.map Candidate.id).Nodup) :
    ((refine params query candidates).map Candidate.id).Nodup := by
  unfold refine
  split
  · exact distinct
  · rw [((mergeSort_perm _ _).map Candidate.id).nodup_iff, map_map]
    exact distinct

variable {id : Nat}

theorem tidsAt_eq (inBounds : id < store.elems.length) :
    tidsAt rt store id = rt.getTids store.elems[id] := by
  rw [tidsAt, getElem?_eq_getElem inBounds]
  rfl

theorem tidsAt_of_length_le (beyond : store.elems.length <= id) : tidsAt rt store id = [] := by
  rw [tidsAt, getElem?_eq_none beyond]
  rfl

theorem mem_storedTids_of_mem_tidsAt (found : tid ∈ tidsAt rt store id) :
    tid ∈ storedTids rt store := by
  rcases lt_or_ge id store.elems.length with inBounds | beyond
  · rw [tidsAt_eq inBounds] at found
    exact mem_flatMap.2 ⟨_, getElem_mem inBounds, found⟩
  · rw [tidsAt_of_length_le beyond] at found
    cases found

/-- Different points have different rows. -/
theorem nodup_flatMap_tidsAt (stored : (storedTids rt store).Nodup) {ids : List Nat}
    (distinct : ids.Nodup) : (ids.flatMap (tidsAt rt store)).Nodup := by
  obtain ⟨each, apart⟩ := nodup_flatMap.1 stored
  refine nodup_flatMap.2 ⟨fun id _ => ?_, distinct.imp ?_⟩
  · rcases lt_or_ge id store.elems.length with inBounds | beyond
    · rw [tidsAt_eq inBounds]
      exact each _ (getElem_mem inBounds)
    · rw [tidsAt_of_length_le beyond]
      exact nodup_nil
  · intro id other different
    rcases lt_or_ge id store.elems.length with inBounds | beyond
    · rcases lt_or_ge other store.elems.length with otherIn | otherBeyond
      · rw [onFun_apply, tidsAt_eq inBounds, tidsAt_eq otherIn]
        rw [pairwise_iff_getElem] at apart
        rcases lt_or_gt_of_ne different with before | behind
        · exact apart id other inBounds otherIn before
        · exact (apart other id otherIn inBounds behind).symm
      · rw [onFun_apply, tidsAt_of_length_le otherBeyond]
        exact disjoint_nil_right _
    · rw [onFun_apply, tidsAt_of_length_le beyond]
      exact disjoint_nil_left _

theorem keys_rowsOf (candidates : List (Candidate V D)) :
    (rowsOf rt store candidates).map Prod.fst =
      (candidates.map Candidate.id).flatMap (tidsAt rt store) := by
  rw [rowsOf, map_flatMap, flatMap_map]
  refine congrArg (fun rows => candidates.flatMap rows) (funext fun cand => ?_)
  rw [map_map]
  exact map_id _

end

variable (params rt store query) in
/-- The rows of a search are those of distinct points. -/
theorem exists_keys_searchRound (route : Route V) (ef : Nat) :
    ∃ ids : List Nat, ids.Nodup ∧
      ((searchRound params rt store query route ef).rows.map Prod.fst).Perm
        (ids.flatMap (tidsAt rt store)) := by
  unfold searchRound
  split
  · refine ⟨range store.base.length, nodup_range, ?_⟩
    refine ((mergeSort_perm _ _).map Prod.fst).trans (.of_eq ?_)
    rw [map_flatMap]
    refine congrArg (fun rows => (range store.base.length).flatMap rows) (funext fun id => ?_)
    rw [map_map]
    exact map_id _
  · split
    · exact ⟨[], nodup_nil, .refl _⟩
    next entry _ =>
      refine ⟨_, ?_, .of_eq (keys_rowsOf _)⟩
      exact nodup_refine (nodup_searchInternal entry _)
  · split
    · exact ⟨[], nodup_nil, .refl _⟩
    next entry _ =>
      refine ⟨_, ?_, .of_eq (keys_rowsOf _)⟩
      exact nodup_refine (nodup_complete _ (nodup_searchInternal entry _)
        fun cand found => searchInternal_scored entry _ found)

theorem nodup_searchRound (stored : (storedTids rt store).Nodup) (route : Route V) (ef : Nat) :
    ((searchRound params rt store query route ef).rows.map Prod.fst).Nodup := by
  obtain ⟨_, distinct, perm⟩ := exists_keys_searchRound params rt store query route ef
  exact perm.nodup_iff.2 (nodup_flatMap_tidsAt stored distinct)

theorem mem_storedTids_of_mem_searchRound
    (found : tid ∈ (searchRound params rt store query route ef).rows.map Prod.fst) :
    tid ∈ storedTids rt store := by
  obtain ⟨_, -, perm⟩ := exists_keys_searchRound params rt store query route ef
  obtain ⟨_, -, member⟩ := mem_flatMap.1 (perm.mem_iff.1 found)
  exact mem_storedTids_of_mem_tidsAt member

end Distinct

section Stored

variable {α β : Type*} {list : List α} {f : α -> List β} {change : α -> α}

/-- Changing one element adds at most what its change adds. -/
theorem flatMap_modify_subperm
    (grows : ∀ x, list[idx]? = some x -> (f (change x)).Subperm (extra ++ f x)) :
    ((list.modify idx change).flatMap f).Subperm (extra ++ list.flatMap f) := by
  induction list generalizing idx with
  | nil => simp
  | cons head tail ih =>
    cases idx with
    | zero =>
      have here := Multiset.coe_le.2 (grows head rfl)
      rw [modify_zero_cons, flatMap_cons, flatMap_cons, <- Multiset.coe_le,
        <- append_assoc, <- Multiset.coe_add, <- Multiset.coe_add (extra ++ f head)]
      exact add_le_add_left here _
    | succ idx =>
      have rest : ((tail.modify idx change).flatMap f).Subperm (extra ++ tail.flatMap f) :=
        ih fun x found => grows x found
      rw [modify_succ_cons, flatMap_cons, flatMap_cons, <- Multiset.coe_le,
        <- Multiset.coe_add, <- Multiset.coe_add, <- Multiset.coe_add, add_left_comm,
        Multiset.coe_add extra]
      exact add_le_add_right (Multiset.coe_le.2 rest) _

theorem flatMap_map_subperm (shrinks : ∀ x ∈ list, (f (change x)).Subperm (f x)) :
    ((list.map change).flatMap f).Subperm (list.flatMap f) := by
  induction list with
  | nil => exact .refl _
  | cons head tail ih =>
    obtain ⟨here, rest⟩ := forall_mem_cons.1 shrinks
    rw [map_cons, flatMap_cons, flatMap_cons, <- Multiset.coe_le, <- Multiset.coe_add,
      <- Multiset.coe_add]
    exact add_le_add (Multiset.coe_le.2 here) (Multiset.coe_le.2 (ih rest))

/-- Setting an element or the one behind the end adds at most the new one. -/
theorem flatMap_setGrow_subperm (f : α -> List β) (value pad : α) (next : idx <= list.length) :
    ((setGrow list idx value pad).flatMap f).Subperm (f value ++ list.flatMap f) := by
  rcases eq_or_lt_of_le next with rfl | inside
  · rw [setGrow_length, flatMap_append, flatMap_singleton]
    exact perm_append_comm.subperm
  · have changed : setGrow list idx value pad = list.modify idx fun _ => value := by
      refine ext_getElem? fun position => ?_
      rw [getElem?_setGrow list value pad next, getElem?_modify]
      by_cases here : position = idx
      · subst here
        simp [getElem?_eq_getElem inside]
      · simp [here, Ne.symm here]
    rw [changed]
    refine flatMap_modify_subperm fun x _ => ?_
    exact (sublist_append_left _ _).subperm

end Stored

section Reached

variable [Inhabited P] {params : Params V D} {rt : RowType P Tid} {store : GraphStore P V D}
  {vt : VacuumType P Tid}

theorem insertTid_stored (id : Nat) (tid : Tid) :
    (storedTids rt ((impl params rt.toPointType).write store (.insertTid id tid))).Subperm
      ((if (rt.insertTid (store.elems.getD id default) tid).1 then [tid] else []) ++
        storedTids rt store) := by
  refine flatMap_modify_subperm fun point found => ?_
  rw [getD_eq_getElem?_getD, found, Option.getD_some]
  exact rt.getTids_insertTid point tid

/-- Adding a row to an existing point stores it at most once, and not at all if no
point takes it. -/
theorem applyArrangement_stored (query : V) (tid : Tid) (candidates : List (Candidate V D)) :
    let result := applyArrangement params rt.toPointType (impl params rt.toPointType)
      query tid store candidates
    (storedTids rt result.1).Subperm
      ((if result.2.isSome then [tid] else []) ++ storedTids rt store) := by
  induction candidates generalizing store with
  | nil => exact .refl _
  | cons cand rest ih =>
    simp only [applyArrangement]
    split
    · split
      · exact ih
      · have written : (storedTids rt ((impl params rt.toPointType).write store
            (.insertTid cand.id tid))).Subperm _ := insertTid_stored cand.id tid
        split
        next taken =>
          rw [if_pos taken] at written
          exact written
        next refused =>
          rw [if_neg refused] at written
          exact ih.trans ((subperm_append_left _).2 written)
    · exact .refl _

/-- The elements stay once a new one is placed. -/
theorem continues_elems (elems : List P) :
    Continues params (impl params rt.toPointType) fun after => after.elems = elems where
  stat _ _ _ _ same := (elems_modifyPoint _ _ _ _).trans same
  link _ _ _ _ _ _ same := (elems_modifyPoint _ _ _ _).trans same
  raise _ _ _ _ _ same := (elems_modifyPoint _ _ _ _).trans ((elems_assign params _ _).trans same)
  enter _ _ same := same

theorem elems_place (idx : Nat) (query : V) (tid : Tid) (neighbors : List (Option (Nat × Nat)))
    (dists : Option (List D)) :
    (place (impl params rt.toPointType) store idx query tid neighbors dists).elems =
      setGrow store.elems (store.nextId .base) (rt.init tid) default := by
  refine (elems_modifyPoint _ _ _ _).trans ?_
  exact congrArg (fun elems => setGrow elems (store.nextId .base) (rt.init tid) default)
    (elems_assign params store .base)

omit [Inhabited V] [Inhabited P] in
/-- A store in order places a new element within its elements or behind them. -/
theorem InOrder.nextId_le (order : InOrder params vt store) :
    store.nextId .base <= store.elems.length := by
  obtain ⟨⟨_, graph⟩, recycled⟩ := order
  rw [recycled.elems_length]
  exact GraphIndex.nextId_le graph

section

variable (order : InOrder params rt.toVacuumType store)
include order

omit [Inhabited V] in
theorem placed_stored {after : GraphStore P V D}
    (placed : after.elems = setGrow store.elems (store.nextId .base) (rt.init tid) default) :
    (storedTids rt after).Subperm (tid :: storedTids rt store) := by
  rw [storedTids, placed]
  refine (flatMap_setGrow_subperm rt.getTids _ _ order.nextId_le).trans ?_
  rw [<- Multiset.coe_le, <- Multiset.coe_add]
  exact add_le_add_left (Multiset.coe_le.2 (rt.getTids_init tid)) _

/-- An insert stores its row at most once and no other. -/
theorem InOrder.insert_stored (query : V) (tid : Tid) (insertLevel : Nat) :
    (storedTids rt (GraphIndex.insert params rt.toPointType
      (impl params rt.toPointType) query tid insertLevel store).1).Subperm
        (tid :: storedTids rt store) := by
  cases isEntry : store.entry with
  | none =>
    rw [insert_of_entry_none query tid insertLevel isEntry]
    exact placed_stored order (elems_place 0 query tid (replicate (params.nbrNum .base) none) none)
  | some =>
    obtain ⟨⟨levels, graph⟩, recycled⟩ := order
    rw [GraphIndex.insert]
    simp only [isEntry]
    generalize getNeighborsData store _ = found
    have arranged : Arranged rt.toPointType tid store (applyArrangement params rt.toPointType
        (impl params rt.toPointType) query tid store found).1 :=
      applyArrangement_arranged query tid found
    have stored : (storedTids rt (applyArrangement params rt.toPointType
        (impl params rt.toPointType) query tid store found).1).Subperm _ :=
      applyArrangement_stored query tid found
    generalize applyArrangement params rt.toPointType (impl params rt.toPointType)
      query tid store found = applied at arranged stored ⊢
    obtain ⟨between, merged⟩ := applied
    cases merged with
    | some => exact stored
    | none =>
      have orderBetween : InOrder params rt.toVacuumType between :=
        ⟨⟨levels, arranged.graph.linked graph⟩, recycled.of_arranged arranged⟩
      refine (placed_stored orderBetween ?_).trans ((subperm_cons tid).2 stored)
      have continues : Continues params (impl params rt.toPointType) _ :=
        continues_elems (setGrow between.elems (between.nextId .base) (rt.init tid) default)
      exact continues.updateEntry (continues.insertUppers _ _
        (continues.updateReverseEdges (elems_place _ query tid _ _) _ _ _) _) _ _ _ _

omit [Inhabited P] [Inhabited V] order in
theorem removeHeaptids_stored (dead : Tid -> Bool) :
    (storedTids rt (removeHeaptids rt.toVacuumType dead store).1).Subperm (storedTids rt store) :=
  flatMap_map_subperm fun point _ => rt.getTids_vacuumTids dead point

/-- A vacuum stores no row. -/
theorem InOrder.vacuum_stored (dead : Tid -> Bool) :
    (storedTids rt (vacuum params rt.toVacuumType dead store)).Subperm (storedTids rt store) := by
  obtain ⟨⟨_, graph⟩, recycled⟩ := order
  obtain ⟨_, repairs, marked⟩ := vacuum_stages graph recycled dead
  refine .trans ?_ (removeHeaptids_stored dead)
  rw [storedTids, storedTids, marked.elems, repairs.elems]
  refine flatMap_map_subperm fun point _ => ?_
  split
  · exact rt.getTids_setDeleted point
  · exact .refl _

end

omit [Inhabited P] [Inhabited V] in
/-- A vacuum that is interrupted once the rows are removed leaves the graph. -/
theorem InOrder.removeHeaptids (order : InOrder params vt store)
    (dead : Tid -> Bool) : InOrder params vt (removeHeaptids vt dead store).1 := by
  obtain ⟨⟨levels, graph⟩, recycled⟩ := order
  have same : SameGraph store (GraphIndex.removeHeaptids vt dead store).1 :=
    ⟨rfl, rfl, rfl, rfl, rfl, rfl⟩
  refine ⟨⟨levels, same.linked graph⟩, ?_⟩
  constructor
  case elems_length => exact (length_map _).trans recycled.elems_length
  case freed =>
    intro id elem found
    obtain ⟨before, beforeFound, rfl⟩ := Option.map_eq_some_iff.1
      ((getElem?_map ..).symm.trans found)
    rw [vt.isDeleted_vacuumTids]
    exact recycled.freed id before beforeFound
  case sync =>
    intro _ present
    obtain ⟨before, member, rfl⟩ := mem_map.1 present
    rw [vt.isAsync_vacuumTids]
    exact recycled.sync before member
  case cleared => exact recycled.cleared
  case lost => exact recycled.lost
  case idle => exact recycled.idle

variable (params rt) in
/-- The states of an index between two calls: a build and inserts add rows that are
not stored, as a heap reuses the place of a row after a vacuum only, and a vacuum
runs to its end or is interrupted once the rows are removed. -/
inductive Reachable : GraphStore P V D -> Prop
  | empty : Reachable GraphStore.empty
  | insert {store : GraphStore P V D} (query : V) (tid : Tid) (insertLevel : Nat) :
      Reachable store -> tid ∉ storedTids rt store ->
      Reachable (GraphIndex.insert params rt.toPointType (impl params rt.toPointType)
        query tid insertLevel store).1
  | vacuum {store : GraphStore P V D} (dead : Tid -> Bool) :
      Reachable store -> Reachable (GraphIndex.vacuum params rt.toVacuumType dead store)
  | interrupted {store : GraphStore P V D} (dead : Tid -> Bool) :
      Reachable store -> Reachable (GraphIndex.removeHeaptids rt.toVacuumType dead store).1

theorem nodup_of_subperm {α : Type*} {list larger : List α} (within : list.Subperm larger)
    (distinct : larger.Nodup) : list.Nodup :=
  Multiset.coe_nodup.1 (Multiset.nodup_of_le (Multiset.coe_le.2 within)
    (Multiset.coe_nodup.2 distinct))

/-- A reachable index is in order and stores no row twice. -/
theorem Reachable.sound (reachable : Reachable params rt store) :
    InOrder params rt.toVacuumType store ∧ (storedTids rt store).Nodup := by
  induction reachable with
  | empty => exact ⟨inOrder_empty, nodup_nil⟩
  | insert query tid insertLevel _ fresh sound =>
    exact ⟨sound.1.insert query tid insertLevel,
      nodup_of_subperm (sound.1.insert_stored query tid insertLevel)
        (nodup_cons.2 ⟨fresh, sound.2⟩)⟩
  | vacuum dead _ sound =>
    exact ⟨sound.1.round (.vacuum dead), nodup_of_subperm (sound.1.vacuum_stored dead) sound.2⟩
  | interrupted dead _ sound =>
    exact ⟨sound.1.removeHeaptids dead, nodup_of_subperm (removeHeaptids_stored dead) sound.2⟩

/-- New rows may be inserted one after the other. -/
theorem reachable_runInserts {rows : List (V × Tid × Nat)}
    (distinct : (rows.map fun row => row.2.1).Nodup) :
    Reachable params rt (runInserts params rt.toPointType rows) := by
  suffices from_ : ∀ store, Reachable params rt store ->
      (∀ row ∈ rows, row.2.1 ∉ storedTids rt store) ->
      Reachable params rt (rows.foldl (fun store row => (GraphIndex.insert params rt.toPointType
        (impl params rt.toPointType) row.1 row.2.1 row.2.2 store).1) store) from
    from_ _ .empty fun _ _ => not_mem_nil
  induction rows with
  | nil => exact fun _ reachable _ => reachable
  | cons row rows ih =>
    intro store reachable fresh
    obtain ⟨newer, distinct⟩ := nodup_cons.1 distinct
    obtain ⟨first, fresh⟩ := forall_mem_cons.1 fresh
    refine ih distinct _ (reachable.insert row.1 row.2.1 row.2.2 first) ?_
    intro later member stored
    have within := (reachable.sound.1.insert_stored row.1 row.2.1 row.2.2).subset stored
    rcases mem_cons.1 within with same | before
    · exact newer (mem_map.2 ⟨later, member, same⟩)
    · exact fresh later member before

end Reached

section Scan

variable [DecidableEq Tid] {params : ScanParams V D} {rt : RowType P Tid}
  {store : GraphStore P V D}

theorem nextWidth_le (width : Nat) : nextWidth width <= 2 ^ 32 - 1 := min_le_left _ _

/-- Every scan of a reachable index ends, whatever its route and its first width, and has
then returned stored rows only, each of them once. -/
theorem returns_stored_once [Inhabited P] (reachable : Reachable params.toParams rt store)
    (query : V) (route : Route V) (ef : Nat) :
    ∃ rows, (∀ other, Returns params rt store query route ef other ↔ other = rows) ∧
      (rows.map Prod.fst).Nodup ∧ ∀ tid ∈ rows.map Prod.fst, tid ∈ storedTids rt store := by
  obtain ⟨last, isLast⟩ :=
    exists_lastRound (searchRound params rt store query route) nextWidth_le ef
  have drains := isLast.drains []
  refine ⟨_, fun other => ⟨fun returns => returns.unique drains, fun same => same ▸ drains⟩,
    nodup_keys_fresh (nodup_searchRound reachable.sound.2 route) _ _ _, ?_⟩
  intro tid returned
  obtain ⟨_, _, _, found⟩ := mem_keys_fresh.1 returned
  exact mem_storedTids_of_mem_searchRound found

end Scan

/-- Elements that keep their rows in a list. -/
def scanRows : RowType Rows Nat where
  toVacuumType := rowsType
  getTids := Rows.rows
  getTids_init _ := List.Subperm.refl _
  getTids_insertTid _ _ := (List.perm_append_singleton _ _).subperm
  getTids_vacuumTids _ _ := List.filter_sublist.subperm
  getTids_setDeleted _ := List.Subperm.refl _

/-- Points of the plane, compared as they are. -/
def planeScan : ScanParams (Int × Int) Nat where
  m := 2
  efConstruction := 4
  useDistCache := true
  keepsStat := false
  zeroFilled := true
  encode := id
  distance left right := ((left.1 - right.1) ^ 2 + (left.2 - right.2) ^ 2).natAbs
  sameBytes left right := left == right
  lt left right := left < right
  le left right := left <= right
  eq left right := left == right
  fltMax := 1000000
  zero := 0
  invalidDist := 0
  precise := none
  widen := id

/-- Two points. -/
def twoPoints : GraphStore Rows (Int × Int) Nat :=
  runInserts planeScan.toParams scanRows.toPointType [((0, 0), 7, 0), ((5, 0), 8, 0)]

theorem reachable_twoPoints : Reachable planeScan.toParams scanRows twoPoints :=
  reachable_runInserts (by decide)

theorem returns_stored_once_twoPoints :
    ∃ rows, Returns planeScan scanRows twoPoints (5, 0) .graph 1 rows := by
  obtain ⟨rows, only, _⟩ := returns_stored_once reachable_twoPoints (5, 0) .graph 1
  exact ⟨rows, (only rows).2 rfl⟩

end VexDB.GraphIndex
