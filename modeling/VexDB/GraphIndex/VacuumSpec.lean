import VexDB.GraphIndex.LinkedRepair
import VexDB.GraphIndex.Vacuum

/-!
# The stages of a vacuum

The repairs leave no record of a kept point with a removed neighbour, so marking
the removed points deleted and clearing their records leaves a graph in order
whose free lists hold exactly the deleted elements.
-/

namespace VexDB.GraphIndex

open List GraphStore Nat

section Positions

variable {α : Type*}

theorem mem_positions :
    position ∈ positions test list ↔ ∃ value, list[position]? = some value ∧ test value = true := by
  rw [positions, mem_map]
  constructor
  · rintro ⟨⟨value, _⟩, present, rfl⟩
    obtain ⟨inZip, passes⟩ := mem_filter.1 present
    exact ⟨value, mem_zipIdx_iff_getElem?.mp inZip, passes⟩
  · rintro ⟨value, found, passes⟩
    exact ⟨(value, position), mem_filter.2 ⟨mem_zipIdx_iff_getElem?.mpr found, passes⟩, rfl⟩

theorem nodup_positions (test : α -> Bool) (list : List α) : (positions test list).Nodup := by
  have indices : (list.zipIdx.map Prod.snd).Nodup := by
    rw [zipIdx_map_snd]
    exact nodup_range'
  exact (filter_sublist.map Prod.snd).nodup indices

theorem positions_congr (agree : ∀ value ∈ list, test value = other value) :
    positions test list = positions other list := by
  refine congrArg (map Prod.snd) (filter_congr ?_)
  intro entry present
  exact agree entry.1 (fst_mem_of_mem_zipIdx present)

end Positions

variable {P V D Tid : Type*} [Inhabited P] [Inhabited V] {params : Params V D}
  {vt : VacuumType P Tid} {levels : Nat -> Nat}

section Repairs

/-- What the repairs of a vacuum leave alone. -/
structure RepairFrame (start store : GraphStore P V D) : Prop where
  skeleton : SameSkeleton start store
  entry : store.entry = start.entry
  elems : store.elems = start.elems
  vectors : store.vectors = start.vectors

section

omit [Inhabited P] [Inhabited V]

theorem RepairFrame.refl (store : GraphStore P V D) : RepairFrame store store :=
  ⟨SameSkeleton.refl store, rfl, rfl, rfl⟩

theorem RepairFrame.repaired
    {start store after : GraphStore P V D} {layer : Layer} {deleted : List Nat} {id idx : Nat}
    (frame : RepairFrame start store) (repaired : Repaired layer deleted id idx store after) :
    RepairFrame start after :=
  ⟨frame.skeleton.trans repaired.skeleton, repaired.entry.trans frame.entry,
    repaired.elems.trans frame.elems, repaired.vectors.trans frame.vectors⟩

end

/-- A store in the middle of the repairs. -/
structure Repairing (params : Params V D) (levels : Nat -> Nat)
    (start store : GraphStore P V D) : Prop where
  linked : Linked params false store levels
  cleared : FreeCleared store
  frame : RepairFrame start store

variable {store start : GraphStore P V D}

omit [Inhabited P] [Inhabited V] in
theorem Repairing.repaired
    {after : GraphStore P V D} {layer : Layer} {deleted : List Nat} {id idx : Nat}
    (repairing : Repairing params levels start store) (linked : Linked params false after levels)
    (repaired : Repaired layer deleted id idx store after) :
    Repairing params levels start after := by
  refine ⟨linked, ?_, repairing.frame.repaired repaired⟩
  intro other free point found
  rw [repaired.skeleton.freeIds] at free
  have kept : store.base[other]? = some point := by
    cases layer with
    | base => exact (repaired.free other free).symm.trans found
    | upper => exact (repaired.other .base (by decide) other).symm.trans found
  exact repairing.cleared other free point kept

/-- What repairing records of one layer leaves: the named ones are clean, and so are
those that were. -/
structure RepairedPoints (params : Params V D) (levels : Nat -> Nat) (deleted : List Nat)
    (start : GraphStore P V D) (layer : Layer) (named : Nat -> Prop)
    (store after : GraphStore P V D) : Prop where
  repairing : Repairing params levels start after
  cleaned : ∀ idx, named idx -> CleanAt deleted after layer idx
  kept : ∀ layer idx, CleanAt deleted store layer idx -> CleanAt deleted after layer idx

section

omit [Inhabited P] [Inhabited V]

variable {layer : Layer} {deleted : List Nat} {live : Nat -> Prop}

theorem Repairing.points
    {after : GraphStore P V D} {id idx : Nat} (repairing : Repairing params levels start store)
    (linked : Linked params false after levels)
    (repaired : Repaired layer deleted id idx store after) (kept : id ∉ deleted) :
    RepairedPoints params levels deleted start layer (fun other => other = idx ∧ live other)
      store after :=
  ⟨repairing.repaired linked repaired, fun _ named => repaired.cleanAt kept (.inr ⟨rfl, named.1⟩),
    fun _ _ clean => repaired.cleanAt kept (.inl clean)⟩

theorem foldl_repairs
    (step : ∀ store idx, Repairing params levels start store -> RepairedPoints params levels deleted
      start layer (fun other => other = idx ∧ live other) store (repair store idx))
    (ids : List Nat) (repairing : Repairing params levels start store) :
    RepairedPoints params levels deleted start layer (fun idx => idx ∈ ids ∧ live idx) store
      (ids.foldl repair store) := by
  induction ids generalizing store with
  | nil =>
    exact ⟨repairing, fun _ named => absurd named.1 not_mem_nil, fun _ _ clean => clean⟩
  | cons idx ids ih =>
    have first := step store idx repairing
    have rest := ih first.repairing
    refine ⟨rest.repairing, ?_, fun layer other clean =>
      rest.kept layer other (first.kept layer other clean)⟩
    rintro other ⟨present, named⟩
    rcases mem_cons.1 present with same | later
    · exact rest.kept layer other (first.cleaned other ⟨same, named⟩)
    · exact rest.cleaned other ⟨later, named⟩

end

variable (vt) in
/-- Repairing base points in any order. -/
theorem repairBasepoints_spec (deleted ids : List Nat)
    (repairing : Repairing params levels start store) :
    RepairedPoints params levels deleted start .base (fun id => id ∈ ids ∧ id ∉ deleted) store
      (ids.foldl (fun store id => if deleted.contains id then store
        else repairBasepoint params (impl params vt.toPointType) deleted id store)
        store) := by
  refine foldl_repairs (fun store id repairing => ?_) ids repairing
  by_cases gone : deleted.contains id = true
  · rw [if_pos gone]
    refine ⟨repairing, ?_, fun _ _ clean => clean⟩
    rintro _ ⟨rfl, live⟩
    exact absurd (contains_iff_mem.1 gone) live
  · rw [if_neg gone]
    obtain ⟨linked, frame⟩ := repairBasepoint_linked vt.toPointType repairing.linked
      repairing.cleared deleted id nofun
    rcases frame with ⟨clean, same⟩ | repaired
    · rw [same]
      exact ⟨repairing, fun _ named => named.1 ▸ clean, fun _ _ before => before⟩
    · exact repairing.points linked repaired
        fun present => gone (contains_iff_mem.2 present)

variable (vt) in
/-- Repairing upper points in any order. -/
theorem repairUpperpoints_spec (deleted ids : List Nat)
    (repairing : Repairing params levels start store) :
    RepairedPoints params levels deleted start .upper (fun idx => idx ∈ ids ∧
        ∃ (point : Point D) (id : Nat), start.upper[idx]? = some point ∧ point.id = some id ∧
          id ∉ deleted) store
      (ids.foldl (fun store idx =>
        repairUpperpoint params (impl params vt.toPointType) deleted idx store)
        store) := by
  refine foldl_repairs (fun store idx repairing => ?_) ids repairing
  obtain ⟨linked, frame⟩ := repairUpperpoint_linked vt.toPointType repairing.linked deleted idx
    nofun
  rcases frame with ⟨clean, same⟩ | ⟨_, live, repaired⟩
  · rw [same]
    refine ⟨repairing, ?_, fun _ _ before => before⟩
    rintro _ ⟨rfl, _, id, found, owned, kept⟩
    obtain ⟨current, currentFound, sameOwner⟩ :=
      repairing.frame.skeleton.symm.exists_before found
    refine clean id ?_ kept
    rw [pointInfo_of_getElem? (show (store.layer .upper)[_]? = some current from currentFound)]
    exact sameOwner.trans owned
  · exact repairing.points linked repaired live

omit [Inhabited P] [Inhabited V] in
theorem Linked.withVacuum (graph : Linked params strict store levels)
    (flag : Bool) : Linked params strict { store with underVacuum := flag } levels := by
  have same : SameSkeleton store { store with underVacuum := flag } :=
    ⟨rfl, fun _ => rfl, rfl, rfl⟩
  refine graph.of_sameSkeleton same rfl ?_
  intro layer idx point found
  have kept : (store.layer layer)[idx]? = some point := by cases layer <;> exact found
  exact graph.point_mono (same.extends levels) kept rfl rfl rfl

/-- The graph after the repairs. -/
structure RepairedGraph (params : Params V D) (levels : Nat -> Nat) (deleted : List Nat)
    (store after : GraphStore P V D) : Prop where
  linked : Linked params false after levels
  cleared : FreeCleared after
  skeleton : SameSkeleton store after
  entry : after.entry = repairedEntry params store deleted
  elems : after.elems = store.elems
  vectors : after.vectors = store.vectors
  idle : after.underVacuum = false
  /-- No record of a kept point names a removed one. -/
  clean : ∀ layer (idx : Nat) (point : Point D) own, (after.layer layer)[idx]? = some point ->
    ownId layer idx point = some own -> own ∉ deleted -> CleanAt deleted after layer idx

variable (vt) in
theorem repairGraph_spec (deleted : List Nat)
    (graph : Linked params false store levels) (cleared : FreeCleared store) :
    let result := repairGraph params vt deleted store
    result.2 = (store.base.length, store.upper.length) ∧
      RepairedGraph params levels deleted store result.1 := by
  let entered := repairEntry params (impl params vt.toPointType) deleted store
  have enteredEq : entered = { store with entry := repairedEntry params store deleted } :=
    repairEntry_eq vt.toPointType deleted
  let start : GraphStore P V D := { entered with underVacuum := true }
  have startSkeleton : SameSkeleton store start := by
    simp only [start, enteredEq]
    exact ⟨rfl, fun _ => rfl, rfl, rfl⟩
  have startRepairing : Repairing params levels start start := by
    refine ⟨(repairEntry_linked vt.toPointType graph deleted).withVacuum true, ?_,
      RepairFrame.refl start⟩
    simp only [start, enteredEq]
    exact cleared
  have afterBase := repairBasepoints_spec vt deleted (range' 0 start.base.length) startRepairing
  have afterUpper := repairUpperpoints_spec vt deleted (range' 0 start.upper.length)
    afterBase.repairing
  let repaired := repairUpperRange params vt deleted 0 start.upper.length
    (repairBaseRange params vt deleted 0 start.base.length start)
  have skeleton : SameSkeleton start repaired := afterUpper.repairing.frame.skeleton
  -- Nothing was added meanwhile, so the second ranges are empty.
  have equation : repairGraph params vt deleted store =
      ({ repaired with underVacuum := false }, start.base.length, start.upper.length) := by
    rw [repairGraph]
    simp only
    rw [if_neg, if_neg]
    · exact fun grown => absurd skeleton.base (ne_of_gt grown)
    · exact fun grown => absurd skeleton.upper_length (ne_of_gt grown)
  rw [equation]
  refine ⟨congrArg₂ Prod.mk startSkeleton.base startSkeleton.upper_length, ?_⟩
  have last : SameSkeleton repaired { repaired with underVacuum := false } :=
    ⟨rfl, fun _ => rfl, rfl, rfl⟩
  constructor
  case linked => exact afterUpper.repairing.linked.withVacuum false
  case cleared => exact afterUpper.repairing.cleared
  case skeleton => exact (startSkeleton.trans skeleton).trans last
  case entry => exact afterUpper.repairing.frame.entry.trans (congrArg entry enteredEq)
  case elems => exact afterUpper.repairing.frame.elems.trans (by simp only [start, enteredEq])
  case vectors => exact afterUpper.repairing.frame.vectors.trans (by simp only [start, enteredEq])
  case idle => rfl
  case clean =>
    intro layer idx _ own found isOwn kept
    cases layer with
    | base =>
      cases isOwn
      have inBounds : idx < start.base.length :=
        skeleton.base ▸ (List.getElem?_eq_some_iff.1 found).1
      exact afterUpper.kept .base idx
        (afterBase.cleaned idx ⟨List.mem_range'_1.2 ⟨zero_le _, by omega⟩, kept⟩)
    | upper =>
      obtain ⟨before, beforeFound, sameOwner⟩ := skeleton.exists_before found
      have : idx < start.upper.length := (List.getElem?_eq_some_iff.1 beforeFound).1
      exact afterUpper.cleaned idx ⟨List.mem_range'_1.2 ⟨zero_le _, by omega⟩, before, own,
        beforeFound, sameOwner.trans isOwn, kept⟩

end Repairs

section Marking

/-- Initialising records one by one, each as often as it is named. -/
theorem getElem?_foldl_modify {α : Type*} {change : α -> α}
    (idempotent : ∀ value, change (change value) = change value)
    (ids : List Nat) (list : List α) (position : Nat) :
    (ids.foldl (fun list id => list.modify id change) list)[position]? =
      if position ∈ ids then list[position]?.map change else list[position]? := by
  induction ids generalizing list with
  | nil => simp
  | cons id ids ih =>
    rw [foldl_cons, ih, getElem?_modify]
    by_cases here : id = position
    · subst here
      cases list[id]? with
      | none => simp
      | some => simp [idempotent]
    · have other : ¬ position = id := fun same => here same.symm
      simp [here, other]

/-- What marking does to a store: the removed points are marked, their records
initialised and their indices freed. -/
structure Marked (params : Params V D) (vt : VacuumType P Tid) (deleted : List Nat)
    (store after : GraphStore P V D) : Prop where
  elems : after.elems = store.elems.map fun elem =>
    if vt.empty elem && !vt.isDeleted elem then vt.setDeleted elem else elem
  base : ∀ position : Nat, after.base[position]? =
    if position ∈ deleted then store.base[position]?.map (initBase params)
    else store.base[position]?
  upper : after.upper = store.upper.map fun point =>
    if ownedBy deleted point then initUpper params point else point
  freeIds : after.freeIds = deleted.reverse ++ store.freeIds
  freeUppers : after.freeUppers =
    (positions (ownedBy deleted) store.upper).reverse ++ store.freeUppers
  entry : after.entry = store.entry
  vectors : after.vectors = store.vectors
  underVacuum : after.underVacuum = store.underVacuum

omit [Inhabited V] in
variable (params vt) in
theorem markDeleted_spec (sync : ∀ elem ∈ store.elems, vt.isAsync elem = false)
    (recyclable : positions (fun elem => vt.empty elem && !vt.isDeleted elem) store.elems = deleted)
    (sameLength : store.elems.length = store.base.length) :
    Marked params vt deleted store
      (markDeleted params vt store.base.length store.upper.length store) := by
  have whole : store.elems.take store.base.length = store.elems :=
    take_of_length_le (le_of_eq sameLength)
  have rest : store.elems.drop store.base.length = [] :=
    drop_eq_nil_of_le (le_of_eq sameLength)
  rw [markDeleted]
  simp only [whole, rest, append_nil, take_length, drop_length, recyclable]
  split
  next none =>
    subst none
    have unowned : ∀ point : Point D, ownedBy [] point = false := by
      intro point
      rw [ownedBy]
      cases point.id <;> rfl
    refine ⟨rfl, fun position => by simp, ?_, rfl, ?_, rfl, rfl, rfl⟩
    · simp [unowned]
    · simp [positions, unowned]
  next =>
    have allCleared : deleted.filter (fun id => !vt.isAsync ((store.elems.map fun elem =>
        if vt.empty elem && !vt.isDeleted elem then vt.setDeleted elem else elem).getD id
          default)) = deleted := by
      refine filter_eq_self.2 ?_
      intro id removed
      rw [<- recyclable] at removed
      obtain ⟨elem, found, passes⟩ := mem_positions.1 removed
      have marked : (store.elems.map fun elem =>
          if vt.empty elem && !vt.isDeleted elem then vt.setDeleted elem else elem).getD id
            default = vt.setDeleted elem := by
        rw [getD_eq_getElem?_getD, getElem?_map, found]
        simp only [Option.map_some, Option.getD_some, passes, if_true]
      rw [marked, vt.isAsync_setDeleted, sync elem (mem_of_getElem? found)]
      rfl
    rw [allCleared]
    have idempotent : ∀ point : Point D, initBase params (initBase params point) =
        initBase params point := fun _ => rfl
    exact ⟨rfl, getElem?_foldl_modify idempotent deleted store.base, rfl, rfl, rfl, rfl, rfl, rfl⟩

section Marked

variable {deleted : List Nat} {store after : GraphStore P V D}

section

omit [Inhabited P] [Inhabited V]

theorem ownedBy_iff : ownedBy deleted point = true ↔ ∃ id, point.id = some id ∧ id ∈ deleted := by
  rw [ownedBy]
  cases point.id with
  | none => simp
  | some => simp

variable (marked : Marked params vt deleted store after)
include marked

theorem Marked.base_length : after.base.length = store.base.length := by
  have bounds : ∀ position, position < after.base.length ↔ position < store.base.length := by
    intro position
    have read := marked.base position
    rw [← not_iff_not, not_lt, not_lt, ← getElem?_eq_none_iff, ← getElem?_eq_none_iff, read]
    split <;> simp
  have := bounds store.base.length
  have := bounds after.base.length
  omega

theorem Marked.getElem?_upper (idx : Nat) :
    after.upper[idx]? = store.upper[idx]?.map fun point =>
      if ownedBy deleted point then initUpper params point else point := by
  rw [marked.upper, getElem?_map]

/-- Marking removes the deleted points from every level and nothing else. -/
theorem Marked.related_iff {level id idx : Nat} :
    Related after levels level id idx ↔ Related store levels level id idx ∧ id ∉ deleted := by
  have free : id ∉ after.freeIds ↔ id ∉ store.freeIds ∧ id ∉ deleted := by
    rw [marked.freeIds, mem_append, mem_reverse]
    tauto
  cases level with
  | zero =>
    simp only [Related, marked.base_length]
    tauto
  | succ =>
    simp only [Related, marked.base_length, free, marked.getElem?_upper, marked.freeUppers,
      mem_append, mem_reverse, mem_positions]
    constructor
    · rintro ⟨⟨sameLevel, notFree, point, found, owned⟩, inBounds, idNotFree, kept⟩
      obtain ⟨before, beforeFound, rfl⟩ := Option.map_eq_some_iff.1 found
      have notOwned : ¬ ownedBy deleted before = true :=
        fun removed => notFree (.inl ⟨before, beforeFound, removed⟩)
      rw [if_neg notOwned] at owned
      exact ⟨⟨⟨sameLevel, fun earlier => notFree (.inr earlier), before, beforeFound, owned⟩,
        inBounds, idNotFree⟩, kept⟩
    · rintro ⟨⟨⟨sameLevel, notFree, point, found, owned⟩, inBounds, idNotFree⟩, kept⟩
      have notOwned : ¬ ownedBy deleted point = true := by
        rw [ownedBy_iff]
        rintro ⟨other, isOwner, removed⟩
        rw [owned] at isOwner
        exact kept (Option.some.inj isOwner ▸ removed)
      refine ⟨⟨sameLevel, ?_, point, ?_, owned⟩, inBounds, idNotFree, kept⟩
      · rintro (⟨_, otherFound, removed⟩ | earlier)
        · rw [found] at otherFound
          exact notOwned (Option.some.inj otherFound ▸ removed)
        · exact notFree earlier
      · rw [found, Option.map_some, if_neg notOwned]

/-- A record of the marked store: initialised, or the one before. -/
theorem Marked.record_cases
    {layer : Layer} {idx : Nat} {point : Point D} (found : (after.layer layer)[idx]? = some point) :
    (point.neighbors = replicate (params.nbrNum layer) none ∧ (layer = .upper -> point.id = none)) ∨
    ((store.layer layer)[idx]? = some point ∧
      ∀ own, ownId layer idx point = some own -> own ∉ deleted) := by
  cases layer with
  | base =>
    have read := marked.base idx
    rw [show after.base[idx]? = some point from found] at read
    split at read
    · obtain ⟨before, -, rfl⟩ := Option.map_eq_some_iff.1 read.symm
      exact .inl ⟨rfl, nofun⟩
    next kept =>
      refine .inr ⟨read.symm, ?_⟩
      intro own isOwn
      exact Option.some.inj isOwn ▸ kept
  | upper =>
    have read := marked.getElem?_upper idx
    rw [show after.upper[idx]? = some point from found] at read
    obtain ⟨before, beforeFound, rfl⟩ := Option.map_eq_some_iff.1 read.symm
    by_cases removed : ownedBy deleted before = true
    · rw [if_pos removed]
      exact .inl ⟨rfl, fun _ => rfl⟩
    · rw [if_neg removed]
      refine .inr ⟨beforeFound, ?_⟩
      intro own isOwn gone
      exact removed (ownedBy_iff.2 ⟨own, isOwn, gone⟩)

/-- Marking the removed points of a repaired graph keeps the graph in order. -/
theorem Marked.linked (graph : Linked params false store levels)
    (clean : ∀ layer (idx : Nat) (point : Point D) own, (store.layer layer)[idx]? = some point ->
      ownId layer idx point = some own -> own ∉ deleted -> CleanAt deleted store layer idx)
    (entered : ∀ info, store.entry = some info -> info.id ∉ deleted) (distinct : deleted.Nodup)
    (live : ∀ id ∈ deleted, id < store.base.length ∧ id ∉ store.freeIds) :
    Linked params false after levels := by
  constructor
  case points =>
    intro layer idx point found
    rcases marked.record_cases found with ⟨slots, unowned⟩ | ⟨before, kept⟩
    · have none : validNeighbors point.neighbors = [] := by
        rw [slots, validNeighbors_replicate_none]
      constructor
      case shaped => exact shaped_empty slots
      case linked =>
        intro neighbor present
        rw [none] at present
        cases present
      case chained =>
        intro isUpper id owned
        cases (unowned isUpper).symm.trans owned
      case unowned => exact fun _ _ => none
    · have record := graph.points layer idx point before
      constructor
      case shaped => exact record.shaped
      case linked =>
        intro neighbor present
        refine marked.related_iff.2 ⟨record.linked neighbor present, ?_⟩
        cases isOwn : ownId layer idx point with
        | none =>
          cases layer with
          | base => exact absurd isOwn (by simp [ownId])
          | upper =>
            rw [record.unowned rfl isOwn] at present
            cases present
        | some own =>
          exact clean layer idx point own before isOwn (kept own isOwn) point before neighbor
            present
      case chained =>
        intro isUpper id owned
        obtain ⟨level, low, levelEq, lowEq, below⟩ := record.chained isUpper id owned
        subst isUpper
        exact ⟨level, low, levelEq, lowEq, marked.related_iff.2 ⟨below, kept id owned⟩⟩
      case unowned => exact record.unowned
  case entered =>
    intro info isEntry
    rw [marked.entry] at isEntry
    exact marked.related_iff.2 ⟨graph.entered info isEntry, entered info isEntry⟩
  case unique =>
    intro level id idx other related otherRelated
    exact graph.unique level id idx other (marked.related_iff.1 related).1
      (marked.related_iff.1 otherRelated).1
  case freeIds_lt =>
    intro id free
    rw [marked.base_length]
    rw [marked.freeIds, mem_append, mem_reverse] at free
    rcases free with removed | earlier
    · exact (live id removed).1
    · exact graph.freeIds_lt id earlier
  case freeIds_nodup =>
    rw [marked.freeIds]
    refine nodup_append'.2 ⟨nodup_reverse.2 distinct, graph.freeIds_nodup, ?_⟩
    intro id removed earlier
    exact (live id (mem_reverse.1 removed)).2 earlier
  case freeUppers_unowned =>
    intro idx free
    rw [marked.freeUppers, mem_append, mem_reverse, mem_positions] at free
    rw [marked.getElem?_upper]
    rcases free with ⟨point, found, removed⟩ | earlier
    · refine ⟨initUpper params point, ?_, rfl⟩
      rw [found, Option.map_some, if_pos removed]
    · obtain ⟨point, found, unowned⟩ := graph.freeUppers_unowned idx earlier
      have notOwned : ¬ ownedBy deleted point = true := by
        rw [ownedBy_iff, unowned]
        simp
      exact ⟨point, by rw [found, Option.map_some, if_neg notOwned], unowned⟩
  case freeUppers_nodup =>
    rw [marked.freeUppers]
    refine nodup_append'.2 ⟨nodup_reverse.2 (nodup_positions _ _), graph.freeUppers_nodup, ?_⟩
    intro _ removed earlier
    obtain ⟨_, found, isOwned⟩ := mem_positions.1 (mem_reverse.1 removed)
    obtain ⟨id, owned, -⟩ := ownedBy_iff.1 isOwned
    exact graph.notMem_freeUppers found owned earlier

end

end Marked

end Marking

end VexDB.GraphIndex
