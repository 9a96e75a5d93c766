import VexDB.GraphIndex.LinkedReads
import VexDB.GraphIndex.LinkedWrites

/-!
# Linking neighbours back

`update_reverse_edges` gives every chosen neighbour a slot for the new point, or
none.  It changes only the lists of those neighbours, and there only by putting
the new point into a slot in use or into the first free one.
-/

namespace VexDB.GraphIndex

open List GraphStore
open GraphStore (modifyPoint withLayer layer impl)

variable {P V D Tid : Type*} {params : Params V D} {levels : Nat -> Nat} {level :
  Nat} {newPoint : Nat × Nat}

section Slots

variable (params) (layer : Layer) (selected : List (Candidate V D))

theorem neighborSlots_eq :
    neighborSlots params layer selected =
      (selected.map fun cand => (cand.id, cand.curLayerIdx)).map some ++
        replicate (params.nbrNum layer - selected.length) none := by
  rw [neighborSlots, map_map]
  rfl

theorem validNeighbors_neighborSlots :
    validNeighbors (neighborSlots params layer selected) =
      selected.map fun cand => (cand.id, cand.curLayerIdx) := by
  rw [neighborSlots_eq]
  exact (packed_pad _ _).2

/-- The record of distinct points other than its own is well shaped. -/
theorem shaped_neighborSlots (slots : point.neighbors = neighborSlots params layer selected)
    (few : selected.length <= params.nbrNum layer) (distinct : (selected.map Candidate.id).Nodup)
    (noSelf : ∀ own, ownId layer idx point = some own -> ∀ cand ∈ selected, cand.id ≠ own) :
    Shaped params strict layer idx point := by
  have ids : neighborIds point = selected.map Candidate.id := by
    rw [neighborIds, slots, validNeighbors_neighborSlots, map_map]
    rfl
  constructor
  case length_eq =>
    rw [slots, neighborSlots, length_append, length_map, length_replicate]
    omega
  case packed =>
    rw [slots, neighborSlots_eq]
    exact (packed_pad _ _).1
  case distinct =>
    intro _
    rw [ids]
    exact distinct
  case noSelf =>
    intro own isOwn present
    rw [ids] at present
    obtain ⟨cand, candPresent, same⟩ := mem_map.1 present
    exact noSelf own isOwn cand candPresent same

end Slots

/-- Records of a layer changed only at the given indices, by new slots for one
point. -/
structure Relinked (layer : Layer) (newPoint : Nat × Nat) (changed : List Nat)
    (store after : GraphStore P V D) : Prop where
  skeleton : SameSkeleton store after
  entry : after.entry = store.entry
  elems : after.elems = store.elems
  vectors : after.vectors = store.vectors
  underVacuum : after.underVacuum = store.underVacuum
  kept : ∀ other (position : Nat), ¬ (other = layer ∧ position ∈ changed) ->
    (after.layer other)[position]? = (store.layer other)[position]?
  slots : ∀ (position : Nat) (point : Point D), (after.layer layer)[position]? = some point ->
    ∃ before, (store.layer layer)[position]? = some before ∧
      ∀ neighbor ∈ validNeighbors point.neighbors,
        neighbor ∈ validNeighbors before.neighbors ∨ neighbor = newPoint

theorem Relinked.refl (layer : Layer) (newPoint : Nat × Nat) (store : GraphStore P V D) :
    Relinked layer newPoint [] store store :=
  ⟨SameSkeleton.refl store, rfl, rfl, rfl, rfl, fun _ _ _ => rfl,
    fun _ point found => ⟨point, found, fun _ => .inl⟩⟩

theorem Relinked.trans {layer : Layer} {changed more : List Nat}
    {first second third : GraphStore P V D} (one : Relinked layer newPoint changed first second)
    (two : Relinked layer newPoint more second third) :
    Relinked layer newPoint (changed ++ more) first third := by
  refine ⟨one.skeleton.trans two.skeleton, two.entry.trans one.entry, two.elems.trans one.elems,
    two.vectors.trans one.vectors, two.underVacuum.trans one.underVacuum, ?_, ?_⟩
  · intro other position untouched
    rw [two.kept other position, one.kept other position]
    · exact fun both => untouched ⟨both.1, mem_append_left _ both.2⟩
    · exact fun both => untouched ⟨both.1, mem_append_right _ both.2⟩
  · intro position point found
    obtain ⟨between, betweenFound, fromBetween⟩ := two.slots position point found
    obtain ⟨before, beforeFound, fromBefore⟩ := one.slots position between betweenFound
    refine ⟨before, beforeFound, ?_⟩
    intro neighbor present
    rcases fromBetween neighbor present with earlier | new
    · exact fromBefore neighbor earlier
    · exact .inr new

section ReverseEdge

variable [Inhabited P] [Inhabited V] {pt : PointType P Tid} {store : GraphStore P V D}

section

omit [Inhabited V] [Inhabited P]

theorem modifyPoint_modifyPoint (layer : Layer) (idx : Nat) (one two : Point D -> Point D) :
    (store.modifyPoint layer idx one).modifyPoint layer idx two =
      store.modifyPoint layer idx (two ∘ one) := by
  cases layer <;>
    simp only [modifyPoint, withLayer, layer, modify_modify_eq]

theorem modifyPoint_id (layer : Layer) (idx : Nat) : store.modifyPoint layer idx id = store := by
  cases layer <;>
    simp only [modifyPoint, withLayer, layer, modify_id]

end

variable (params pt store) in
/-- A new slot after a change that leaves a record's neighbours alone. -/
theorem link_modifyPoint (layer : Layer) (newPoint : Nat × Nat) (nbr : Candidate V D)
    (pruned : Option Nat) (marks : Point D -> Point D)
    (marksId : ∀ point, (marks point).id = point.id)
    (marksLower : ∀ point, (marks point).lowerLayerIdx = point.lowerLayerIdx)
    (marksNeighbors : ∀ point, (marks point).neighbors = point.neighbors) :
    ∃ change : Point D -> Point D,
      (match pruned with
        | some slot => (store.modifyPoint layer nbr.curLayerIdx marks).write params pt
            (.setNeighbor layer nbr.curLayerIdx slot newPoint
              (if params.useDistCache then none else some nbr.dist))
        | none => store.modifyPoint layer nbr.curLayerIdx marks) =
          store.modifyPoint layer nbr.curLayerIdx change ∧
        (∀ point, (change point).id = point.id) ∧
        (∀ point, (change point).lowerLayerIdx = point.lowerLayerIdx) ∧
        ((∀ point, (change point).neighbors = point.neighbors) ∨ ∃ slot, pruned = some slot ∧
            ∀ point, (change point).neighbors = point.neighbors.set slot (some newPoint)) := by
  cases pruned with
  | none => exact ⟨marks, rfl, marksId, marksLower, .inl marksNeighbors⟩
  | some slot =>
    refine ⟨_, modifyPoint_modifyPoint layer nbr.curLayerIdx marks _, marksId, marksLower,
      .inr ⟨slot, rfl, ?_⟩⟩
    intro point
    exact congrArg (fun slots => set slots slot (some newPoint)) (marksNeighbors point)

variable (params pt store) in
/-- What `update_reverse_edges` does to one neighbour's record. -/
theorem updateReverseEdge_eq (layer : Layer) (newPoint : Nat × Nat) (nbr : Candidate V D) :
    ∃ change : Point D -> Point D,
      updateReverseEdge params (impl params pt) layer newPoint store nbr =
          store.modifyPoint layer nbr.curLayerIdx change ∧
        (∀ point, (change point).id = point.id) ∧
        (∀ point, (change point).lowerLayerIdx = point.lowerLayerIdx) ∧
        ((∀ point, (change point).neighbors = point.neighbors) ∨
          ∃ slot, (selectPruned params false store layer (getNeighbors params store layer nbr)
              newPoint.1 (store.pointInfo params layer nbr.curLayerIdx) nbr).1 = some slot ∧
            ∀ point, (change point).neighbors = point.neighbors.set slot (some newPoint)) := by
  rw [updateReverseEdge]
  simp only
  generalize selectPruned params false store layer (getNeighbors params store layer nbr)
    newPoint.1 (store.pointInfo params layer nbr.curLayerIdx) nbr = result
  obtain ⟨pruned, stat⟩ := result
  -- The occlusion bits are written first; they leave the neighbours alone.
  have unmarked := link_modifyPoint params pt store layer newPoint nbr pruned id
    (fun _ => rfl) (fun _ => rfl) (fun _ => rfl)
  rw [modifyPoint_id] at unmarked
  cases stat with
  | none => exact unmarked
  | some stat =>
    by_cases cached : params.useDistCache
    · simp only [cached, if_true] at unmarked ⊢
      exact unmarked
    · have marked := link_modifyPoint params pt store layer newPoint nbr pruned
        (fun point => { point with stat := stat, hasStat := params.keepsStat })
        (fun _ => rfl) (fun _ => rfl) (fun _ => rfl)
      simp only [cached] at marked ⊢
      exact marked

section

omit [Inhabited P] [Inhabited V]

theorem length_getNeighbors (layer : Layer) (cand : Candidate V D) :
    (getNeighbors params store layer cand).length =
      (validNeighbors (store.pointInfo params layer (recordIdx layer cand)).neighbors).length := by
  simp [getNeighbors]

/-- The record that is read for a point is the one that is written. -/
theorem Related.recordIdx_eq (related : Related store levels level cand.id cand.curLayerIdx) :
    recordIdx (layerOf level) cand = cand.curLayerIdx := by
  cases level with
  | zero => exact related.1.symm
  | succ => rfl

/-- Putting a point that is not in a list yet into the list keeps it well shaped. -/
theorem Shaped.set {layer : Layer} {idx slot : Nat} {point changed : Point D}
    (shaped : Shaped params strict layer idx point) (sameId : changed.id = point.id)
    (slots : changed.neighbors = point.neighbors.set slot (some newPoint))
    (inBounds : slot < params.nbrNum layer) (next : slot <= (validNeighbors point.neighbors).length)
    (other : ownId layer idx point ≠ some newPoint.1)
    (unlisted : strict -> newPoint.1 ∉ neighborIds point) :
    Shaped params strict layer idx changed ∧ ∀ neighbor ∈ validNeighbors changed.neighbors,
        neighbor ∈ validNeighbors point.neighbors ∨ neighbor = newPoint := by
  obtain ⟨packed, valid⟩ := validNeighbors_set newPoint shaped.packed next
    (shaped.length_eq ▸ inBounds)
  rw [<- slots] at packed valid
  have members : ∀ neighbor ∈ validNeighbors changed.neighbors,
      neighbor ∈ validNeighbors point.neighbors ∨ neighbor = newPoint := by
    intro neighbor present
    rw [valid, mem_append, mem_cons] at present
    rcases present with front | rfl | back
    · exact .inl (mem_of_mem_take front)
    · exact .inr rfl
    · exact .inl (mem_of_mem_drop back)
  refine ⟨⟨?_, packed, ?_, ?_⟩, members⟩
  · rw [slots, length_set, shaped.length_eq]
  · intro isStrict
    have rest : (((validNeighbors point.neighbors).eraseIdx slot).map Prod.fst).Sublist
        (neighborIds point) := (eraseIdx_sublist _ _).map _
    rw [eraseIdx_eq_take_drop_succ, map_append] at rest
    rw [neighborIds, valid, map_append, map_cons, nodup_middle, nodup_cons]
    exact ⟨fun present => unlisted isStrict (rest.subset present),
      rest.nodup (shaped.distinct isStrict)⟩
  · intro own isOwn present
    have wasOwn : ownId layer idx point = some own := (ownId_of_same sameId).symm.trans isOwn
    obtain ⟨neighbor, inList, rfl⟩ := mem_map.1 present
    rcases members neighbor inList with before | rfl
    · exact shaped.noSelf _ wasOwn (mem_map_of_mem before)
    · exact other wasOwn

end

section

variable (graph : Linked params strict store levels)
  (new : Related store levels level newPoint.1 newPoint.2)
include graph new

/-- Linking one neighbour back keeps the graph in order. -/
theorem updateReverseEdge_linked {nbr : Candidate V D}
    (related : Related store levels level nbr.id nbr.curLayerIdx) (different : nbr.id ≠ newPoint.1)
    (unlisted : strict -> ∀ point, (store.layer (layerOf level))[nbr.curLayerIdx]? = some point ->
      newPoint.1 ∉ neighborIds point) :
    Linked params strict (updateReverseEdge params (impl params pt) (layerOf level)
        newPoint store nbr) levels ∧
      Relinked (layerOf level) newPoint [nbr.curLayerIdx] store
        (updateReverseEdge params (impl params pt) (layerOf level) newPoint store
          nbr) := by
  obtain ⟨change, equation, keepsId, keepsLower, slots⟩ :=
    updateReverseEdge_eq params pt store (layerOf level) newPoint nbr
  obtain ⟨record, found, owned, sameLevel⟩ := related.exists_point
  have before := graph.points _ _ _ found
  have changed : Shaped params strict (layerOf level) nbr.curLayerIdx (change record) ∧
      ∀ neighbor ∈ validNeighbors (change record).neighbors,
        neighbor ∈ validNeighbors record.neighbors ∨ neighbor = newPoint := by
    rcases slots with same | ⟨_, pruned, set⟩
    · refine ⟨before.shaped.of_same (same record) (keepsId record), ?_⟩
      intro neighbor present
      exact .inl (same record ▸ present)
    · have width : (getNeighbors params store (layerOf level) nbr).length =
          (validNeighbors record.neighbors).length := by
        rw [length_getNeighbors, related.recordIdx_eq, pointInfo_of_getElem? found]
      have fits : (getNeighbors params store (layerOf level) nbr).length <=
          params.nbrNum (layerOf level) := by
        rw [width, <- before.shaped.length_eq]
        exact length_validNeighbors_le _
      obtain ⟨inBounds, next⟩ := selectPruned_slot params fits pruned
      refine before.shaped.set (keepsId record) (set record) inBounds (width ▸ next) ?_
        (fun isStrict => unlisted isStrict record found)
      rw [owned]
      exact fun same => different (Option.some.inj same)
  rw [equation]
  refine ⟨graph.modifyPoint (fun _ => keepsId) (fun _ => keepsLower) ?_ ?_ ?_, ?_⟩
  · intro isUpper point pointFound unowned
    rw [isUpper] at found owned
    obtain rfl : record = point := Option.mem_unique found pointFound
    cases unowned.symm.trans owned
  · intro point pointFound
    cases found.symm.trans pointFound
    exact changed.1
  · intro point pointFound neighbor present
    cases found.symm.trans pointFound
    rcases changed.2 neighbor present with earlier | rfl
    · exact before.linked neighbor earlier
    · rw [sameLevel]
      exact new
  · refine ⟨sameSkeleton_modifyPoint store _ _ (fun _ => keepsId),
      entry_modifyPoint _ _ _ _,
      ?_, ?_, underVacuum_modifyPoint _ _ _ _, ?_, ?_⟩
    · cases level <;> rfl
    · cases level <;> rfl
    · intro _ position untouched
      rw [getElem?_layer_modifyPoint, if_neg]
      exact fun both => untouched ⟨both.1, mem_singleton.2 both.2⟩
    · intro position point pointFound
      rw [getElem?_layer_modifyPoint] at pointFound
      split at pointFound
      next here =>
        obtain ⟨-, rfl⟩ := here
        rw [found] at pointFound
        cases pointFound
        exact ⟨record, found, changed.2⟩
      next => exact ⟨point, pointFound, fun _ => .inl⟩

/-- Linking the chosen neighbours back keeps the graph in order. -/
theorem updateReverseEdges_linked {neighbors : List (Candidate V D)}
    (points : PointsOf store levels level neighbors)
    (different : ∀ nbr ∈ neighbors, nbr.id ≠ newPoint.1)
    (unlisted : strict -> ∀ nbr ∈ neighbors, ∀ point,
      (store.layer (layerOf level))[nbr.curLayerIdx]? = some point → newPoint.1 ∉ neighborIds point)
    :
    Linked params strict (updateReverseEdges params (impl params pt) (layerOf level)
        newPoint store neighbors) levels ∧
      Relinked (layerOf level) newPoint (neighbors.map Candidate.curLayerIdx) store
        (updateReverseEdges params (impl params pt) (layerOf level) newPoint store
          neighbors) := by
  induction neighbors generalizing store with
  | nil => exact ⟨graph, Relinked.refl _ _ _⟩
  | cons nbr neighbors ih =>
    have isFirst : nbr ∈ nbr :: neighbors := mem_cons_self
    obtain ⟨firstGraph, firstStep⟩ : _ ∧ Relinked _ newPoint [nbr.curLayerIdx] store
        (updateReverseEdge params (impl params pt) (layerOf level) newPoint store nbr) :=
      updateReverseEdge_linked graph new (points.related nbr isFirst) (different nbr isFirst)
        (fun isStrict => unlisted isStrict nbr isFirst)
    have extension := firstStep.skeleton.extends levels
    have distinctIdx := points.distinct_idx
    rw [map_cons, nodup_cons] at distinctIdx
    have rest : PointsOf store levels level neighbors :=
      ⟨fun cand present => points.related cand (mem_cons_of_mem _ present),
        (nodup_cons.1 points.distinct).2⟩
    obtain ⟨lastGraph, lastStep⟩ := ih firstGraph (new.mono extension) (rest.mono extension)
      (fun other present => different other (mem_cons_of_mem _ present)) (by
        -- The first neighbour's record is not one of the others'.
        intro isStrict other present point found
        rw [firstStep.kept] at found
        · exact unlisted isStrict other (mem_cons_of_mem _ present) point found
        · rintro ⟨-, same⟩
          rw [<- mem_singleton.1 same] at distinctIdx
          exact distinctIdx.1 (mem_map_of_mem present))
    exact ⟨lastGraph, firstStep.trans lastStep⟩

end

end ReverseEdge

end VexDB.GraphIndex
