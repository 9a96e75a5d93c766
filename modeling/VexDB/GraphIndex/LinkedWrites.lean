import VexDB.GraphIndex.Algorithm
import VexDB.GraphIndex.Linked

/-!
# Writes that keep the graph invariant

One lemma for each way the algorithm changes a record: replacing the neighbours
of an existing record, adding a record, and moving the entry point.
-/

namespace VexDB.GraphIndex

open List Option Function GraphStore Nat

namespace GraphStore

variable {P V D : Type*}

section

variable (store : GraphStore P V D) (points : List (Point D))

@[simp] theorem layer_withLayer_self (layer : Layer) :
    (store.withLayer points layer).layer layer = points := by
  cases layer <;> rfl

theorem layer_withLayer_of_ne {layer other : Layer} (different : other ≠ layer) :
    (store.withLayer points layer).layer other = store.layer other := by
  cases layer <;> cases other <;> first | rfl | exact absurd rfl different

@[simp] theorem layer_withFreeList (free : List Nat) (layer other : Layer) :
    (store.withFreeList free layer).layer other = store.layer other := by
  cases layer <;> cases other <;> rfl

@[simp] theorem freeList_withLayer (layer other : Layer) :
    (store.withLayer points layer).freeList other = store.freeList other := by
  cases layer <;> cases other <;> rfl

@[simp] theorem freeList_withFreeList_self (free : List Nat) (layer : Layer) :
    (store.withFreeList free layer).freeList layer = free := by
  cases layer <;> rfl

theorem freeList_withFreeList_of_ne (free : List Nat) {layer other : Layer}
    (different : other ≠ layer) :
    (store.withFreeList free layer).freeList other = store.freeList other := by
  cases layer <;> cases other <;> first | rfl | exact absurd rfl different

variable (layer : Layer) (idx : Nat) (change : Point D -> Point D)

/-- Changing one record leaves the others as they were. -/
theorem getElem?_layer_modifyPoint (other : Layer) (position : Nat) :
    ((store.modifyPoint layer idx change).layer other)[position]? =
      if other = layer ∧ position = idx then ((store.layer other)[position]?).map change
      else (store.layer other)[position]? := by
  rw [modifyPoint]
  by_cases sameLayer : other = layer
  · subst sameLayer
    by_cases samePosition : position = idx
    · simp [samePosition]
    · have different : idx ≠ position := fun equal => samePosition equal.symm
      simp [samePosition, different]
  · rw [layer_withLayer_of_ne _ _ sameLayer, if_neg (fun both => sameLayer both.1)]

@[simp] theorem freeIds_modifyPoint :
    (store.modifyPoint layer idx change).freeIds = store.freeIds := by
  cases layer <;> rfl

@[simp] theorem freeUppers_modifyPoint :
    (store.modifyPoint layer idx change).freeUppers = store.freeUppers := by
  cases layer <;> rfl

@[simp] theorem entry_modifyPoint : (store.modifyPoint layer idx change).entry = store.entry := by
  cases layer <;> rfl

@[simp] theorem freeList_modifyPoint (other : Layer) :
    (store.modifyPoint layer idx change).freeList other = store.freeList other :=
  freeList_withLayer _ _ _ _

@[simp] theorem underVacuum_modifyPoint :
    (store.modifyPoint layer idx change).underVacuum = store.underVacuum := by
  cases layer <;> rfl

@[simp] theorem elems_modifyPoint : (store.modifyPoint layer idx change).elems = store.elems := by
  cases layer <;> rfl

@[simp] theorem vectors_modifyPoint :
    (store.modifyPoint layer idx change).vectors = store.vectors := by
  cases layer <;> rfl

end

@[simp] theorem elems_assign (params : Params V D) (store : GraphStore P V D) (layer : Layer) :
    (store.assign params layer).elems = store.elems := by
  rw [assign]
  split <;> cases layer <;> rfl

@[simp] theorem vectors_assign (params : Params V D) (store : GraphStore P V D) (layer : Layer) :
    (store.assign params layer).vectors = store.vectors := by
  rw [assign]
  split <;> cases layer <;> rfl

@[simp] theorem underVacuum_assign
    (params : Params V D) (store : GraphStore P V D) (layer : Layer) :
    (store.assign params layer).underVacuum = store.underVacuum := by
  rw [assign]
  split <;> cases layer <;> rfl

end GraphStore

variable {P V D Tid : Type*} {params : Params V D} {strict : Bool} {store after : GraphStore P V D}
  {levels : Nat -> Nat} {point : Point D} {idx : Nat}

/-! ### Changes that keep every point where it is -/

/-- The same points with the same owners, live and free. -/
structure SameSkeleton (store after : GraphStore P V D) : Prop where
  base : after.base.length = store.base.length
  upper : ∀ idx : Nat, (after.upper[idx]?).map Point.id = (store.upper[idx]?).map Point.id
  freeIds : after.freeIds = store.freeIds
  freeUppers : after.freeUppers = store.freeUppers

theorem SameSkeleton.refl (store : GraphStore P V D) : SameSkeleton store store :=
  ⟨rfl, fun _ => rfl, rfl, rfl⟩

theorem SameSkeleton.trans (one : SameSkeleton first second) (two : SameSkeleton second third) :
    SameSkeleton first third :=
  ⟨two.base.trans one.base, fun idx => (two.upper idx).trans (one.upper idx),
    two.freeIds.trans one.freeIds, two.freeUppers.trans one.freeUppers⟩

section

variable (same : SameSkeleton store after)
include same

theorem SameSkeleton.symm : SameSkeleton after store :=
  ⟨same.base.symm, fun idx => (same.upper idx).symm, same.freeIds.symm, same.freeUppers.symm⟩

/-- A record of the later store was there before, with the same owner. -/
theorem SameSkeleton.exists_before (found : after.upper[idx]? = some point) :
    ∃ before, store.upper[idx]? = some before ∧ before.id = point.id := by
  have owners := same.upper idx
  rw [found] at owners
  exact map_eq_some_iff.1 owners.symm

theorem SameSkeleton.upper_length : after.upper.length = store.upper.length := by
  have owners : after.upper.map Point.id = store.upper.map Point.id := by
    refine ext_getElem? fun idx => ?_
    rw [getElem?_map, getElem?_map]
    exact same.upper idx
  simpa using congrArg length owners

theorem SameSkeleton.extends (levels : Nat -> Nat) : Extends store levels after levels := by
  constructor
  · intro id inBounds notFree
    rw [same.base, same.freeIds]
    exact ⟨inBounds, notFree⟩
  · intro _ _ id found owned notFree
    obtain ⟨kept, keptFound, keptOwner⟩ := same.symm.exists_before found
    exact ⟨kept, keptFound, keptOwner.trans owned, same.freeUppers ▸ notFree, rfl⟩

theorem SameSkeleton.related_iff {level id : Nat} :
    Related after levels level id idx ↔ Related store levels level id idx :=
  ⟨Related.mono (same.symm.extends levels), Related.mono (same.extends levels)⟩

end

/-- Changes that keep the skeleton and leave every record in order keep the
graph in order. -/
theorem Linked.of_sameSkeleton (graph : Linked params strict store levels)
    (same : SameSkeleton store after) (sameEntry : after.entry = store.entry)
    (records : ∀ layer (idx : Nat) (point : Point D), (after.layer layer)[idx]? = some point ->
      PointOk params strict after levels layer idx point) : Linked params strict after levels := by
  constructor
  case points => exact records
  case entered =>
    intro entry isEntry
    rw [sameEntry] at isEntry
    exact same.related_iff.2 (graph.entered entry isEntry)
  case unique =>
    intro level id idx other related otherRelated
    exact graph.unique level id idx other (same.related_iff.1 related)
      (same.related_iff.1 otherRelated)
  case freeIds_lt =>
    intro id free
    rw [same.freeIds] at free
    rw [same.base]
    exact graph.freeIds_lt id free
  case freeIds_nodup => exact same.freeIds ▸ graph.freeIds_nodup
  case freeUppers_unowned =>
    intro idx free
    rw [same.freeUppers] at free
    obtain ⟨_, found, unowned⟩ := graph.freeUppers_unowned idx free
    obtain ⟨kept, keptFound, keptOwner⟩ := same.symm.exists_before found
    exact ⟨kept, keptFound, keptOwner.trans unowned⟩
  case freeUppers_nodup => exact same.freeUppers ▸ graph.freeUppers_nodup

/-- The same records, free lists and entry point. -/
structure SameGraph (store after : GraphStore P V D) : Prop where
  base : after.base = store.base
  upper : after.upper = store.upper
  entry : after.entry = store.entry
  freeIds : after.freeIds = store.freeIds
  freeUppers : after.freeUppers = store.freeUppers
  underVacuum : after.underVacuum = store.underVacuum

theorem SameGraph.trans
    (one : SameGraph first second) (two : SameGraph second third) : SameGraph first third :=
  ⟨two.base.trans one.base, two.upper.trans one.upper, two.entry.trans one.entry,
    two.freeIds.trans one.freeIds, two.freeUppers.trans one.freeUppers,
    two.underVacuum.trans one.underVacuum⟩

section

variable (same : SameGraph store after)
include same

theorem SameGraph.layer (layer : Layer) : after.layer layer = store.layer layer := by
  cases layer
  · exact same.base
  · exact same.upper

theorem SameGraph.sameSkeleton : SameSkeleton store after :=
  ⟨congrArg length same.base, fun _ => by rw [same.upper], same.freeIds, same.freeUppers⟩

theorem SameGraph.linked (graph : Linked params strict store levels) :
    Linked params strict after levels := by
  refine graph.of_sameSkeleton same.sameSkeleton same.entry ?_
  intro layer _ _ found
  rw [same.layer layer] at found
  exact graph.point_mono (same.sameSkeleton.extends levels) found rfl rfl rfl

end

section Modify

variable {store : GraphStore P V D} {levels : Nat -> Nat} {change : Point D -> Point D}

theorem sameSkeleton_modifyPoint (store : GraphStore P V D) (layer : Layer) (idx : Nat)
    (keepsId : layer = .upper -> ∀ point, (change point).id = point.id) :
    SameSkeleton store (store.modifyPoint layer idx change) := by
  constructor
  case base =>
    cases layer with
    | base => exact length_modify _ _ _
    | upper => rfl
  case upper =>
    intro position
    have read := store.getElem?_layer_modifyPoint layer idx change .upper position
    rw [show (store.modifyPoint layer idx change).upper[position]? = _ from read]
    split
    next here =>
      rw [Option.map_map]
      exact congrArg (fun owner => Option.map owner _) (funext (keepsId here.1.symm))
    next => rfl
  case freeIds => exact freeIds_modifyPoint _ _ _ _
  case freeUppers => exact freeUppers_modifyPoint _ _ _ _

/-- Giving a record a well-shaped list of points of its level keeps the graph in
order; an upper record keeps its owner and lower index. -/
theorem Linked.modifyPoint (graph : Linked params strict store levels) {layer : Layer} {idx : Nat}
    (keepsId : layer = .upper -> ∀ point, (change point).id = point.id)
    (keepsLower : layer = .upper -> ∀ point, (change point).lowerLayerIdx = point.lowerLayerIdx)
    (owned : layer = .upper -> ∀ point, store.upper[idx]? = some point -> point.id ≠ none)
    (shaped : ∀ point, (store.layer layer)[idx]? = some point ->
      Shaped params strict layer idx (change point))
    (linked : ∀ point, (store.layer layer)[idx]? = some point ->
      ∀ neighbor ∈ validNeighbors (change point).neighbors,
        Related store levels (levelOf levels layer idx) neighbor.1 neighbor.2) :
    Linked params strict (store.modifyPoint layer idx change) levels := by
  have same := sameSkeleton_modifyPoint store layer idx keepsId
  refine graph.of_sameSkeleton same (entry_modifyPoint _ _ _ _) ?_
  intro _ _ _ found
  rw [getElem?_layer_modifyPoint] at found
  split at found
  case isFalse => exact graph.point_mono (same.extends levels) found rfl rfl rfl
  case isTrue changed =>
    obtain ⟨rfl, rfl⟩ := changed
    obtain ⟨before, beforeFound, rfl⟩ := map_eq_some_iff.1 found
    have kept := graph.point_mono (same.extends levels) beforeFound rfl rfl rfl
    constructor
    case shaped => exact shaped before beforeFound
    case linked =>
      intro neighbor present
      exact same.related_iff.2 (linked before beforeFound neighbor present)
    case chained =>
      intro isUpper own isOwn
      rw [keepsId isUpper] at isOwn
      rw [keepsLower isUpper]
      exact kept.chained isUpper own isOwn
    case unowned =>
      intro isUpper unowned
      rw [keepsId isUpper] at unowned
      subst isUpper
      exact absurd unowned (owned rfl before beforeFound)

end Modify

/-! ### New records -/

/-- A record added at a free index or behind the last one; everything else is kept. -/
structure NewRecord (store after : GraphStore P V D) (layer : Layer) (idx : Nat)
    (point : Point D) : Prop where
  added : (after.layer layer)[idx]? = some point
  kept : ∀ other (position : Nat), ¬ (other = layer ∧ position = idx) ->
    (after.layer other)[position]? = (store.layer other)[position]?
  taken : after.freeList layer = (store.freeList layer).erase idx
  keptFree : ∀ other, other ≠ layer -> after.freeList other = store.freeList other
  entry : after.entry = store.entry
  underVacuum : after.underVacuum = store.underVacuum
  fresh : idx ∈ store.freeList layer ∨ idx = (store.layer layer).length

section Assign

variable (params) (store : GraphStore P V D) (layer : Layer)

theorem nextId_cases :
    (store.assign params layer = store.withLayer (store.layer layer ++ [blank params layer]) layer ∧
      store.nextId layer = (store.layer layer).length) ∨
    (store.assign params layer = store.withFreeList (store.freeList layer).tail layer ∧
      ∃ rest, store.freeList layer = store.nextId layer :: rest) := by
  rw [assign, nextId]
  by_cases vacuum : store.underVacuum
  · exact .inl ⟨by simp [vacuum], by simp [vacuum]⟩
  · cases free : store.freeList layer with
    | nil => exact .inl ⟨by simp, by simp⟩
    | cons head rest => exact .inr ⟨by simp [vacuum], rest, by simp [vacuum]⟩

/-- Assigning an index and writing the record at it adds that record. -/
theorem newRecord_assign (inBounds : ∀ idx ∈ store.freeList layer, idx < (store.layer layer).length)
    (change : Point D -> Point D) :
    ∃ point, NewRecord store
      ((store.assign params layer).modifyPoint layer (store.nextId layer) change) layer
      (store.nextId layer) (change point) := by
  rcases nextId_cases params store layer with ⟨assigned, next⟩ | ⟨assigned, _, free⟩
  · refine ⟨blank params layer, ?_⟩
    rw [assigned, next]
    constructor
    case added =>
      rw [getElem?_layer_modifyPoint, if_pos ⟨rfl, rfl⟩,
        layer_withLayer_self, getElem?_concat_length]
      rfl
    case kept =>
      intro other position different
      rw [getElem?_layer_modifyPoint, if_neg different]
      by_cases sameLayer : other = layer
      · subst sameLayer
        rw [layer_withLayer_self]
        have behind : position ≠ (store.layer other).length := fun equal => different ⟨rfl, equal⟩
        rcases lt_or_gt_of_ne behind with before | _
        · exact getElem?_append_left before
        · rw [getElem?_eq_none (by simp; omega), getElem?_eq_none (by omega)]
      · rw [layer_withLayer_of_ne _ _ sameLayer]
    case taken =>
      rw [freeList_modifyPoint, freeList_withLayer, erase_of_not_mem]
      intro free
      exact absurd (inBounds _ free) (lt_irrefl _)
    case keptFree => intro other _; simp
    case entry => cases layer <;> rfl
    case underVacuum => cases layer <;> rfl
    case fresh => exact .inr rfl
  · have present : store.nextId layer ∈ store.freeList layer := by
      rw [free]
      exact mem_cons_self
    have inLayer := inBounds _ present
    have found := getElem?_eq_getElem inLayer
    refine ⟨(store.layer layer)[store.nextId layer], ?_⟩
    rw [assigned]
    constructor
    case added =>
      rw [getElem?_layer_modifyPoint, if_pos ⟨rfl, rfl⟩, layer_withFreeList, found]
      rfl
    case kept =>
      intro other _ different
      rw [getElem?_layer_modifyPoint, if_neg different, layer_withFreeList]
    case taken =>
      rw [freeList_modifyPoint, freeList_withFreeList_self]
      rw [free, erase_cons_head, tail_cons]
    case keptFree =>
      intro _ different
      rw [freeList_modifyPoint, freeList_withFreeList_of_ne _ _ different]
    case entry => cases layer <;> rfl
    case underVacuum => cases layer <;> rfl
    case fresh => exact .inl present

end Assign

theorem NewRecord.lt_length_iff {layer : Layer}
    (new : NewRecord store after layer idx point) (position : Nat) :
    position < (after.layer layer).length ↔
      position < (store.layer layer).length ∨ position = idx := by
  by_cases same : position = idx
  · subst same
    obtain ⟨inBounds, -⟩ := List.getElem?_eq_some_iff.1 new.added
    exact ⟨fun _ => .inr rfl, fun _ => inBounds⟩
  · have sameRead := new.kept layer position (fun both => same both.2)
    rw [<- not_iff_not, not_or, not_lt, <- List.getElem?_eq_none_iff, sameRead,
      List.getElem?_eq_none_iff, not_lt]
    exact ⟨fun behind => ⟨behind, same⟩, And.left⟩

theorem Linked.nodup_freeList
    (graph : Linked params strict store levels) (layer : Layer) : (store.freeList layer).Nodup := by
  cases layer
  · exact graph.freeIds_nodup
  · exact graph.freeUppers_nodup

section

variable {layer : Layer} (new : NewRecord store after layer idx point)
include new

theorem NewRecord.layer_eq (other : Layer) (different : other ≠ layer) :
    after.layer other = store.layer other :=
  ext_getElem? fun position => new.kept other position fun both => different both.1

theorem NewRecord.lt_length (other : Layer) {position : Nat}
    (inBounds : position < (store.layer other).length) : position < (after.layer other).length := by
  by_cases same : other = layer
  · subst same
    exact (new.lt_length_iff position).2 (.inl inBounds)
  · rwa [new.layer_eq other same]

variable (graph : Linked params strict store levels)
include graph

theorem NewRecord.nodup_freeList (other : Layer) : (after.freeList other).Nodup := by
  by_cases same : other = layer
  · subst same
    rw [new.taken]
    exact (graph.nodup_freeList other).erase idx
  · rw [new.keptFree other same]
    exact graph.nodup_freeList other

theorem NewRecord.of_mem_freeList (other : Layer) (free : position ∈ after.freeList other) :
    position ∈ store.freeList other ∧ ¬ (other = layer ∧ position = idx) := by
  by_cases same : other = layer
  · subst same
    rw [new.taken, (graph.nodup_freeList other).mem_erase_iff] at free
    exact ⟨free.2, fun both => free.1 both.2⟩
  · rw [new.keptFree other same] at free
    exact ⟨free, fun both => same both.1⟩

/-- A record that is in order and the first of its point on its level keeps the
graph in order. -/
theorem NewRecord.linked (extension : Extends store levels after levelsAfter)
    (relates : ∀ level id position, Related after levelsAfter level id position ↔
      Related store levels level id position ∨ (level = height ∧ id = owner ∧ position = idx))
    (first : ∀ other, ¬ Related store levels height owner other)
    (ok : PointOk params strict after levelsAfter layer idx point) :
    Linked params strict after levelsAfter := by
  constructor
  case points =>
    intro other position record found
    by_cases added : other = layer ∧ position = idx
    · obtain ⟨rfl, rfl⟩ := added
      obtain rfl : _ = record := mem_unique new.added found
      exact ok
    · rw [new.kept other position added] at found
      exact graph.point_mono extension found rfl rfl rfl
  case entered =>
    intro entry isEntry
    rw [new.entry] at isEntry
    exact (graph.entered entry isEntry).mono extension
  case unique =>
    intro level id position other related otherRelated
    rw [relates] at related otherRelated
    rcases related with related | ⟨rfl, rfl, rfl⟩
    · rcases otherRelated with otherRelated | ⟨rfl, rfl, rfl⟩
      · exact graph.unique level id position other related otherRelated
      · exact absurd related (first _)
    · rcases otherRelated with otherRelated | ⟨-, -, rfl⟩
      · exact absurd otherRelated (first _)
      · rfl
  case freeIds_lt =>
    intro id free
    exact new.lt_length .base (graph.freeIds_lt id (new.of_mem_freeList graph .base free).1)
  case freeIds_nodup => exact new.nodup_freeList graph .base
  case freeUppers_unowned =>
    intro position free
    obtain ⟨free, untouched⟩ := new.of_mem_freeList graph .upper free
    obtain ⟨record, found, unowned⟩ := graph.freeUppers_unowned position free
    exact ⟨record, (new.kept .upper position untouched).trans found, unowned⟩
  case freeUppers_nodup => exact new.nodup_freeList graph .upper

end

/-- The owner of a record is a live point. -/
theorem Linked.owner_lt (graph : Linked params strict store levels)
    {id : Nat} (found : store.upper[idx]? = some point)
    (owned : point.id = some id) : id < store.base.length ∧ id ∉ store.freeIds := by
  obtain ⟨_, _, -, -, related⟩ := (graph.points .upper idx point found).chained rfl id owned
  exact related.lt

section NewBase

variable {store after : GraphStore P V D} {levels : Nat -> Nat} {id : Nat} {point : Point D}

section

variable (new : NewRecord store after .base id point)
include new

theorem NewRecord.notMem_freeIds (graph : Linked params strict store levels) (other : Nat) :
    other ∉ after.freeIds ↔ other ∉ store.freeIds ∨ other = id := by
  have taken : after.freeIds = store.freeIds.erase id := new.taken
  rw [taken, graph.freeIds_nodup.mem_erase_iff]
  tauto

/-- A fresh base record belongs to no point of the graph so far. -/
theorem NewRecord.unrelated : ¬ Related store levels level id idx := by
  intro related
  obtain ⟨inBounds, notFree⟩ := related.lt
  rcases new.fresh with free | behind
  · exact notFree free
  · exact absurd (behind ▸ inBounds) (lt_irrefl _)

variable (graph : Linked params strict store levels)
include graph

theorem NewRecord.related_base_iff {level other idx : Nat} :
    Related after levels level other idx ↔
      Related store levels level other idx ∨ (level = 0 ∧ other = id ∧ idx = id) := by
  have sameUpper : after.upper = store.upper := new.layer_eq .upper (by decide)
  have sameFree : after.freeUppers = store.freeUppers := new.keptFree .upper (by decide)
  have grown : other < after.base.length ↔ other < store.base.length ∨ other = id :=
    new.lt_length_iff other
  have free := new.notMem_freeIds graph other
  cases level with
  | zero =>
    simp only [Related, grown, free, true_and]
    constructor
    · rintro ⟨rfl, inBounds | rfl, notFree | new⟩
      · exact .inl ⟨rfl, inBounds, notFree⟩
      · exact .inr ⟨new, new⟩
      · exact .inr ⟨rfl, rfl⟩
      · exact .inr ⟨rfl, rfl⟩
    · rintro (⟨rfl, inBounds, notFree⟩ | ⟨rfl, rfl⟩)
      · exact ⟨rfl, .inl inBounds, .inl notFree⟩
      · exact ⟨rfl, .inr rfl, .inr rfl⟩
  | succ =>
    simp only [Related, grown, free, sameUpper, sameFree, succ_ne_zero, false_and, or_false]
    constructor
    · rintro ⟨⟨sameLevel, notFree, found⟩, -⟩
      obtain ⟨owner, ownerFound, owned⟩ := found
      exact ⟨⟨sameLevel, notFree, owner, ownerFound, owned⟩, graph.owner_lt ownerFound owned⟩
    · rintro ⟨found, inBounds, notFree⟩
      exact ⟨found, .inl inBounds, .inl notFree⟩

theorem NewRecord.extends_base : Extends store levels after levels := by
  constructor
  · intro other inBounds notFree
    exact ⟨(new.lt_length_iff other).2 (.inl inBounds),
      (new.notMem_freeIds graph other).2 (.inl notFree)⟩
  · intro idx record _ found owned _
    refine ⟨record, ?_, owned, ?_, rfl⟩
    · exact (new.kept .upper idx (fun both => absurd both.1 (by decide))).trans found
    · rwa [show after.freeUppers = store.freeUppers from new.keptFree .upper (by decide)]

/-- A new base record linked to points of the graph keeps the graph in order. -/
theorem NewRecord.linked_base (shaped : Shaped params strict .base id point)
    (linked : ∀ neighbor ∈ validNeighbors point.neighbors,
      Related store levels 0 neighbor.1 neighbor.2) : Linked params strict after levels :=
  new.linked graph (new.extends_base graph) (fun _ _ _ => new.related_base_iff graph)
    (fun _ => new.unrelated)
    ⟨shaped, fun neighbor present => (linked neighbor present).mono (new.extends_base graph),
      nofun, nofun⟩

end

end NewBase

section NewUpper

variable {store after : GraphStore P V D} {levels : Nat -> Nat} {id idx level low : Nat}
  {point : Point D}

section

variable (new : NewRecord store after .upper idx point) (graph : Linked params strict store levels)
include new graph

/-- A fresh upper record belongs to no point of the graph so far. -/
theorem NewRecord.unowned (found : store.upper[idx]? = some record) : record.id ≠ some owner := by
  intro owned
  rcases new.fresh with free | behind
  · exact graph.notMem_freeUppers found owned free
  · obtain ⟨inBounds, -⟩ := List.getElem?_eq_some_iff.1 found
    exact absurd (behind ▸ inBounds) (lt_irrefl _)

theorem NewRecord.extends_upper (height : Nat) :
    Extends store levels after (update levels idx height) := by
  constructor
  · intro other inBounds notFree
    rw [show after.freeIds = store.freeIds from new.keptFree .base (by decide),
      show after.base = store.base from new.layer_eq .base (by decide)]
    exact ⟨inBounds, notFree⟩
  · intro other record _ found owned notFree
    have different : other ≠ idx := by
      rintro rfl
      exact new.unowned graph found owned
    refine ⟨record, (new.kept .upper other (fun both => different both.2)).trans found, owned, ?_,
      update_of_ne different _ _⟩
    rw [show after.freeUppers = store.freeUppers.erase idx from new.taken]
    exact fun free => notFree (mem_of_mem_erase free)

theorem NewRecord.related_upper_iff
    (owned : point.id = some id) (live : id < store.base.length ∧ id ∉ store.freeIds) :
    Related after (update levels idx (level + 1)) height other position ↔
      Related store levels height other position ∨
        (height = level + 1 ∧ other = id ∧ position = idx) := by
  have sameBase : after.base = store.base := new.layer_eq .base (by decide)
  have sameFree : after.freeIds = store.freeIds := new.keptFree .base (by decide)
  have taken : after.freeUppers = store.freeUppers.erase idx := new.taken
  constructor
  · cases height with
    | zero =>
      intro related
      exact .inl (by rwa [Related, sameBase, sameFree] at related)
    | succ =>
      rintro ⟨⟨sameLevel, notFree, record, found, recordOwned⟩, otherLive⟩
      rw [sameBase, sameFree] at otherLive
      by_cases same : position = idx
      · subst same
        obtain rfl : point = record := mem_unique new.added found
        rw [update_self] at sameLevel
        exact .inr ⟨sameLevel.symm, mem_unique recordOwned owned, rfl⟩
      · rw [update_of_ne same] at sameLevel
        rw [taken, mem_erase_of_ne same] at notFree
        have kept : store.upper[position]? = some record :=
          (new.kept .upper position (fun both => same both.2)).symm.trans found
        exact .inl ⟨⟨sameLevel, notFree, record, kept, recordOwned⟩, otherLive⟩
  · rintro (related | ⟨rfl, rfl, rfl⟩)
    · exact related.mono (new.extends_upper graph _)
    · refine ⟨⟨update_self _ _ _, ?_, point, new.added, owned⟩, ?_⟩
      · rw [taken]
        exact graph.freeUppers_nodup.not_mem_erase
      · rw [sameBase, sameFree]
        exact live

end

/-- A new upper record of a point, above its record one level below and linked
to points of its level, keeps the graph in order. -/
theorem NewRecord.linked_upper (new : NewRecord store after .upper idx point)
    (graph : Linked params strict store levels)
    (owned : point.id = some id) (lower : point.lowerLayerIdx = some low)
    (below : Related store levels level id low)
    (first : ∀ other, ¬ Related store levels (level + 1) id other)
    (shaped : Shaped params strict .upper idx point)
    (linked : ∀ neighbor ∈ validNeighbors point.neighbors,
      Related store levels (level + 1) neighbor.1 neighbor.2) :
    Linked params strict after (update levels idx (level + 1)) := by
  have extension := new.extends_upper graph (level + 1)
  refine new.linked graph extension (fun _ _ _ => new.related_upper_iff graph owned below.lt) first
    ⟨shaped, ?_, ?_, fun _ unowned => nomatch owned.symm.trans unowned⟩
  · intro neighbor present
    rw [levelOf, update_self]
    exact (linked neighbor present).mono extension
  · intro _ _ isOwner
    cases owned.symm.trans isOwner
    exact ⟨level, low, update_self _ _ _, lower, below.mono extension⟩

end NewUpper

/-- Moving the entry point to a point of the graph keeps the graph in order. -/
theorem Linked.setEntrypoint (graph : Linked params strict store levels) {entry : Option EntryInfo}
    (related : ∀ info, entry = some info ->
      Related store levels info.level info.id info.curLayerIdx) :
    Linked params strict { store with entry := entry } levels := by
  have same : SameSkeleton store { store with entry := entry } := ⟨rfl, fun _ => rfl, rfl, rfl⟩
  exact {
    points := fun layer idx point found =>
      graph.point_mono (same.extends levels)
        (show (store.layer layer)[idx]? = some point by cases layer <;> exact found) rfl rfl rfl
    entered := fun info isEntry => same.related_iff.2 (related info isEntry)
    unique := fun level id idx other one two =>
      graph.unique level id idx other (same.related_iff.1 one) (same.related_iff.1 two)
    freeIds_lt := graph.freeIds_lt
    freeIds_nodup := graph.freeIds_nodup
    freeUppers_unowned := graph.freeUppers_unowned
    freeUppers_nodup := graph.freeUppers_nodup }

end VexDB.GraphIndex
