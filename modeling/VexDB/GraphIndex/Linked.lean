import VexDB.GraphIndex.SearchSpec
import VexDB.GraphIndex.SelectSpec

/-!
# The graph invariant

Every neighbour list is a packed prefix of valid ids without its own node, and
every slot, lower index and entry point refers to a record of the right level
that belongs to the id next to it.  The level of an upper record is not stored,
so the invariant is stated for an assignment of levels to upper indices.
-/

namespace VexDB.GraphIndex

open List

section Packed

/-- Valid ids come first and only invalid ones follow. -/
def Packed (slots : List (Option (Nat × Nat))) : Prop :=
  ∀ slot ∈ slots.drop (validNeighbors slots).length, slot = none

@[simp] theorem validNeighbors_cons_some (neighbor : Nat × Nat)
    (slots : List (Option (Nat × Nat))) :
    validNeighbors (some neighbor :: slots) = neighbor :: validNeighbors slots := rfl

@[simp] theorem validNeighbors_cons_none (slots : List (Option (Nat × Nat))) :
    validNeighbors (none :: slots) = [] := rfl

@[simp] theorem validNeighbors_nil : validNeighbors [] = [] := rfl

@[simp] theorem validNeighbors_replicate_none (count : Nat) :
    validNeighbors (replicate count none) = [] := by
  cases count <;> rfl

variable {slots : List (Option (Nat × Nat))}

theorem packed_cons_some : Packed (some neighbor :: slots) ↔ Packed slots := by
  simp [Packed]

theorem packed_replicate_none (count : Nat) : Packed (replicate count none) := by
  intro _ present
  exact eq_of_mem_replicate (drop_subset _ _ present)

/-- A list padded with invalid ids is packed. -/
theorem packed_pad (neighbors : List (Nat × Nat)) (count : Nat) :
    Packed (neighbors.map some ++ replicate count none) ∧
      validNeighbors (neighbors.map some ++ replicate count none) = neighbors := by
  induction neighbors with
  | nil => exact ⟨packed_replicate_none count, validNeighbors_replicate_none count⟩
  | cons neighbor neighbors ih =>
    refine ⟨packed_cons_some.2 ih.1, ?_⟩
    simp only [map_cons, cons_append, validNeighbors_cons_some, ih.2]

/-- Writing a slot in use replaces that neighbour; writing the first free slot
appends one. -/
theorem validNeighbors_set (neighbor : Nat × Nat) (packed : Packed slots)
    (next : slot <= (validNeighbors slots).length) (inBounds : slot < slots.length) :
    Packed (slots.set slot (some neighbor)) ∧ validNeighbors (slots.set slot (some neighbor)) =
        (validNeighbors slots).take slot ++ neighbor :: (validNeighbors slots).drop (slot + 1) := by
  induction slots generalizing slot with
  | nil => exact absurd inBounds (Nat.not_lt_zero _)
  | cons first slots ih =>
    cases first with
    | none =>
      obtain rfl : slot = 0 := by simpa using next
      have rest : ∀ other ∈ slots, other = none := by
        intro other present
        exact packed other (mem_cons_of_mem _ present)
      rw [eq_replicate_of_mem rest]
      simp only [set_cons_zero, validNeighbors_cons_some, validNeighbors_replicate_none]
      exact ⟨packed_replicate_none _, rfl⟩
    | some =>
      cases slot with
      | zero =>
        simp only [set_cons_zero, packed_cons_some]
        exact ⟨packed_cons_some.1 packed, rfl⟩
      | succ =>
        have step := ih (packed_cons_some.1 packed)
          (by simpa using next) (by simpa using inBounds)
        simp only [set_cons_succ, validNeighbors_cons_some,
          take_succ_cons, drop_succ_cons, cons_append]
        exact ⟨step.1, by rw [step.2]⟩

end Packed

variable {P V D : Type*} (params : Params V D) {id : Nat} {strict : Bool} {layer : Layer} {kept :
  Point D} {idx level : Nat} {store : GraphStore P V D} {levels : Nat -> Nat} {point : Point D}

/-- The ids a record links to. -/
def neighborIds (point : Point D) : List Nat :=
  (validNeighbors point.neighbors).map Prod.fst

/-- The node a record belongs to. -/
def ownId (layer : Layer) (idx : Nat) (point : Point D) : Option Nat :=
  match layer with
  | .base => some idx
  | .upper => point.id

/-- A well-shaped neighbour list; distinctness is only asked for when `strict`. -/
structure Shaped (strict : Bool) (layer : Layer) (idx : Nat) (point : Point D) : Prop where
  length_eq : point.neighbors.length = params.nbrNum layer
  packed : Packed point.neighbors
  distinct : strict -> (neighborIds point).Nodup
  noSelf : ∀ own, ownId layer idx point = some own -> own ∉ neighborIds point

/-- An id and a layer index of one point on a level: on the base layer they
agree, above it the record at the index belongs to the id. -/
def Related (store : GraphStore P V D) (levels : Nat -> Nat) : Nat -> Nat -> Nat -> Prop
  | 0, id, idx => idx = id ∧ id < store.base.length ∧ id ∉ store.freeIds
  | level + 1, id, idx =>
    (levels idx = level + 1 ∧ idx ∉ store.freeUppers ∧
      ∃ point, store.upper[idx]? = some point ∧ point.id = some id) ∧
    id < store.base.length ∧ id ∉ store.freeIds

/-- The layer a level lives in. -/
def layerOf : Nat -> Layer
  | 0 => .base
  | _ + 1 => .upper

/-- The level of a record. -/
def levelOf (levels : Nat -> Nat) (layer : Layer) (idx : Nat) : Nat :=
  match layer with
  | .base => 0
  | .upper => levels idx

/-- A record of the graph: well shaped, linked on its own level, and above the
base layer either without owner and neighbours or above the record of its owner
one level below. -/
structure PointOk (strict : Bool) (store : GraphStore P V D) (levels : Nat -> Nat)
    (layer : Layer) (idx : Nat) (point : Point D) : Prop where
  shaped : Shaped params strict layer idx point
  linked : ∀ neighbor ∈ validNeighbors point.neighbors,
    Related store levels (levelOf levels layer idx) neighbor.1 neighbor.2
  chained : layer = .upper -> ∀ id, point.id = some id ->
    ∃ level low, levels idx = level + 1 ∧ point.lowerLayerIdx = some low ∧
      Related store levels level id low
  unowned : layer = .upper -> point.id = none -> validNeighbors point.neighbors = []

/-- The graph invariant for an assignment of levels. -/
structure Linked (strict : Bool) (store : GraphStore P V D) (levels : Nat -> Nat) : Prop where
  points : ∀ layer (idx : Nat) (point : Point D), (store.layer layer)[idx]? = some point ->
    PointOk params strict store levels layer idx point
  entered : ∀ entry, store.entry = some entry ->
    Related store levels entry.level entry.id entry.curLayerIdx
  /-- A point has one record on each of its levels. -/
  unique : ∀ level id idx other, Related store levels level id idx ->
    Related store levels level id other -> idx = other
  freeIds_lt : ∀ id ∈ store.freeIds, id < store.base.length
  freeIds_nodup : store.freeIds.Nodup
  freeUppers_unowned : ∀ idx ∈ store.freeUppers,
    ∃ point, store.upper[idx]? = some point ∧ point.id = none
  freeUppers_nodup : store.freeUppers.Nodup

section Relations

variable {params} {after : GraphStore P V D} {levelsAfter : Nat -> Nat}

section

variable (related : Related store levels level id idx)
include related

theorem Related.lt : id < store.base.length ∧ id ∉ store.freeIds := by
  cases level with
  | zero => exact related.2
  | succ => exact related.2

/-- A related index has a record on its layer. -/
theorem Related.exists_point :
    ∃ point, (store.layer (layerOf level))[idx]? = some point ∧
      ownId (layerOf level) idx point = some id ∧ levelOf levels (layerOf level) idx = level := by
  cases level with
  | zero =>
    obtain ⟨rfl, inBounds, -⟩ := related
    exact ⟨store.base[idx], getElem?_eq_getElem inBounds, rfl, rfl⟩
  | succ =>
    obtain ⟨⟨sameLevel, -, point, found, owned⟩, -⟩ := related
    exact ⟨point, found, owned, sameLevel⟩

/-- A related index is not free. -/
theorem Related.notMem_freeList : idx ∉ store.freeList (layerOf level) := by
  cases level with
  | zero =>
    obtain ⟨rfl, -, notFree⟩ := related
    exact notFree
  | succ => exact related.1.2.1

/-- Points of one level with one index are the same point. -/
theorem Related.id_eq (alsoRelated : Related store levels level other idx) : id = other := by
  obtain ⟨_, found, owned, -⟩ := related.exists_point
  obtain ⟨_, alsoFound, alsoOwned, -⟩ := alsoRelated.exists_point
  rw [found] at alsoFound
  cases alsoFound
  rw [owned] at alsoOwned
  exact Option.some.inj alsoOwned

end

theorem pointInfo_of_getElem? (found : (store.layer layer)[idx]? = some point) :
    store.pointInfo params layer idx = point := by
  rw [GraphStore.pointInfo, getD_eq_getElem?_getD, found]
  rfl

/-- Searching a level stays on it. -/
theorem Linked.closed (graph : Linked params strict store levels) (level : Nat) :
    Closed params store (layerOf level) (Related store levels level) := by
  intro _ _ related neighbor present
  obtain ⟨_, found, -, sameLevel⟩ := related.exists_point
  rw [pointInfo_of_getElem? found] at present
  have linked := (graph.points _ _ _ found).linked neighbor present
  rwa [sameLevel] at linked

/-- The lower index of a record on an upper level is the point one level below. -/
theorem Linked.lower_related (graph : Linked params strict store levels)
    (related : Related store levels (level + 1) id idx) :
    ∃ low, (store.pointInfo params .upper idx).lowerLayerIdx = some low ∧
      Related store levels level id low := by
  obtain ⟨⟨_, -, point, found, owned⟩, -⟩ := related
  obtain ⟨lowerLevel, low, _, lowEq, lowRelated⟩ :=
    (graph.points .upper idx point found).chained rfl id owned
  obtain rfl : lowerLevel = level := by omega
  refine ⟨low, ?_, lowRelated⟩
  rw [pointInfo_of_getElem? (show (store.layer .upper)[idx]? = some point from found)]
  exact lowEq

/-- A later store keeps every point of an earlier one where it was. -/
structure Extends (store : GraphStore P V D) (levels : Nat -> Nat)
    (after : GraphStore P V D) (levelsAfter : Nat -> Nat) : Prop where
  base : ∀ id, id < store.base.length -> id ∉ store.freeIds ->
    id < after.base.length ∧ id ∉ after.freeIds
  upper : ∀ (idx : Nat) (point : Point D) id, store.upper[idx]? = some point -> point.id = some id →
    idx ∉ store.freeUppers ->
    ∃ kept, after.upper[idx]? = some kept ∧ kept.id = some id ∧
      idx ∉ after.freeUppers ∧ levelsAfter idx = levels idx

theorem Extends.refl (store : GraphStore P V D) (levels : Nat -> Nat) :
    Extends store levels store levels :=
  ⟨fun _ inBounds notFree => ⟨inBounds, notFree⟩,
    fun _ point _ found owned notFree => ⟨point, found, owned, notFree, rfl⟩⟩

theorem Extends.trans
    (one : Extends first levels₁ second levels₂) (two : Extends second levels₂ third levels₃) :
    Extends first levels₁ third levels₃ := by
  constructor
  · intro id inBounds notFree
    obtain ⟨inSecond, notFreeSecond⟩ := one.base id inBounds notFree
    exact two.base id inSecond notFreeSecond
  · intro idx point id found owned notFree
    obtain ⟨kept, keptFound, keptOwned, keptFree, keptLevel⟩ :=
      one.upper idx point id found owned notFree
    obtain ⟨last, lastFound, lastOwned, lastFree, lastLevel⟩ :=
      two.upper idx kept id keptFound keptOwned keptFree
    exact ⟨last, lastFound, lastOwned, lastFree, lastLevel.trans keptLevel⟩

theorem Related.mono (extension : Extends store levels after levelsAfter)
    (related : Related store levels level id idx) : Related after levelsAfter level id idx := by
  cases level with
  | zero =>
    obtain ⟨rfl, inBounds, notFree⟩ := related
    exact ⟨rfl, extension.base idx inBounds notFree⟩
  | succ =>
    obtain ⟨⟨sameLevel, notFree, point, found, owned⟩, inBounds, idNotFree⟩ := related
    obtain ⟨kept, keptFound, keptOwned, keptFree, keptLevel⟩ :=
      extension.upper idx point id found owned notFree
    exact ⟨⟨keptLevel.trans sameLevel, keptFree, kept, keptFound, keptOwned⟩,
      extension.base id inBounds idNotFree⟩

theorem ownId_of_same (sameId : kept.id = point.id) :
    ownId layer idx kept = ownId layer idx point := by
  cases layer with
  | base => rfl
  | upper => exact sameId

theorem Shaped.of_same (shaped : Shaped params strict layer idx point)
    (sameNeighbors : kept.neighbors = point.neighbors) (sameId : kept.id = point.id) :
    Shaped params strict layer idx kept := by
  obtain ⟨lengthEq, packed, distinct, noSelf⟩ := shaped
  refine ⟨?_, ?_, ?_, ?_⟩
  · rw [sameNeighbors, lengthEq]
  · rw [sameNeighbors]
    exact packed
  · rw [neighborIds, sameNeighbors]
    exact distinct
  · intro own isOwn
    rw [neighborIds, sameNeighbors]
    exact noSelf own ((ownId_of_same sameId).symm.trans isOwn)

section

variable (graph : Linked params strict store levels)
include graph

/-- An owned record is not free. -/
theorem Linked.notMem_freeUppers (found : store.upper[idx]? = some point)
    (owned : point.id = some id) : idx ∉ store.freeUppers := by
  intro free
  obtain ⟨_, otherFound, unowned⟩ := graph.freeUppers_unowned idx free
  rw [found] at otherFound
  cases otherFound
  rw [owned] at unowned
  cases unowned

/-- A record that keeps its neighbours, owner and lower index stays in order. -/
theorem Linked.point_mono (extension : Extends store levels after levelsAfter)
    (found : (store.layer layer)[idx]? = some point)
    (sameNeighbors : kept.neighbors = point.neighbors) (sameId : kept.id = point.id)
    (sameLower : kept.lowerLayerIdx = point.lowerLayerIdx) :
    PointOk params strict after levelsAfter layer idx kept := by
  have before := graph.points layer idx point found
  have sameLevel : ∀ id, layer = .upper -> point.id = some id ->
      levelsAfter idx = levels idx := by
    rintro id rfl owned
    obtain ⟨_, -, -, -, levelEq⟩ := extension.upper idx point id found owned
      (graph.notMem_freeUppers found owned)
    exact levelEq
  constructor
  case shaped => exact before.shaped.of_same sameNeighbors sameId
  case linked =>
    intro neighbor present
    rw [sameNeighbors] at present
    have related := before.linked neighbor present
    have levelEq : levelOf levelsAfter layer idx = levelOf levels layer idx := by
      cases layer with
      | base => rfl
      | upper =>
        cases owner : point.id with
        | none =>
          rw [before.unowned rfl owner] at present
          cases present
        | some id => exact sameLevel id rfl owner
    rw [levelEq]
    exact related.mono extension
  case chained =>
    intro isUpper id owned
    rw [sameId] at owned
    obtain ⟨level, low, levelEq, lowEq, related⟩ := before.chained isUpper id owned
    exact ⟨level, low, (sameLevel id isUpper owned).trans levelEq, sameLower.trans lowEq,
      related.mono extension⟩
  case unowned =>
    intro isUpper none
    rw [sameNeighbors]
    exact before.unowned isUpper (sameId.symm.trans none)

end

end Relations

end VexDB.GraphIndex
