import VexDB.GraphIndex.SearchComplete
import VexDB.GraphIndex.Structure
import VexDB.GraphIndex.VacuumSpec

/-!
# Rounds of inserts and vacuums

Over any number of rounds the graph stays in order and the free lists hold
exactly the deleted elements.  The entry point survives a vacuum unless the
searches of `repair_entry` miss the surviving points: on the levels below the
second one it starts from an index of another level.
-/

namespace VexDB.GraphIndex

open List GraphStore

variable {P V D Tid : Type*} [Inhabited P] [Inhabited V] {params : Params V D} {vt : VacuumType P
  Tid} {deleted : List Nat}

/-- The elements of a store agree with its free list. -/
structure Recycled (vt : VacuumType P Tid) (store : GraphStore P V D) : Prop where
  elems_length : store.elems.length = store.base.length
  freed : ∀ (id : Nat) (elem : P), store.elems[id]? = some elem ->
    (id ∈ store.freeIds ↔ vt.isDeleted elem = true)
  sync : ∀ elem ∈ store.elems, vt.isAsync elem = false
  cleared : FreeCleared store
  lost : store.entry = none -> store.base = [] ∨ store.freeIds ≠ []
  idle : store.underVacuum = false

section Elements

section

omit [Inhabited P]

/-- Lists of elements with the same flags. -/
def SameFlags (vt : VacuumType P Tid) (before after : List P) : Prop :=
  after.map (fun elem => (vt.isDeleted elem, vt.isAsync elem)) =
    before.map (fun elem => (vt.isDeleted elem, vt.isAsync elem))

theorem SameFlags.exists_before
    {before after : List P} (same : SameFlags vt before after) {id : Nat} {elem : P}
    (found : after[id]? = some elem) :
    ∃ earlier, before[id]? = some earlier ∧ vt.isDeleted earlier = vt.isDeleted elem ∧
      vt.isAsync earlier = vt.isAsync elem := by
  have read := congrArg (fun flags => flags[id]?) same
  simp only [getElem?_map, found, Option.map_some] at read
  obtain ⟨earlier, earlierFound, flags⟩ := Option.map_eq_some_iff.1 read.symm
  exact ⟨earlier, earlierFound, (Prod.mk.inj flags).1, (Prod.mk.inj flags).2⟩

end

theorem sameFlags_of_refill {tid : Tid} {before after : List P}
    (refills : Relation.ReflTransGen (Refill vt.toPointType tid) before after) :
    SameFlags vt before after := by
  induction refills with
  | refl => rfl
  | tail _ refill ih =>
    refine Eq.trans ?_ ih
    obtain ⟨id, -, rfl⟩ := refill
    refine ext_getElem? fun position => ?_
    rw [getElem?_map, getElem?_map, getElem?_modify, Option.map_eq_map, Option.map_map]
    congr 1
    funext elem
    by_cases here : id = position
    · simp [here, vt.isDeleted_insertTid, vt.isAsync_insertTid]
    · simp [here]

omit [Inhabited V] in
theorem Recycled.of_arranged
    {tid : Tid} {store after : GraphStore P V D} (recycled : Recycled vt store)
    (arranged : Arranged vt.toPointType tid store after) : Recycled vt after := by
  have same := sameFlags_of_refill arranged.elems
  obtain ⟨base, -, entry, freeIds, -, underVacuum⟩ := arranged.graph
  constructor
  case elems_length =>
    rw [base, <- recycled.elems_length]
    simpa using congrArg length same
  case freed =>
    intro id elem found
    obtain ⟨earlier, earlierFound, deleted, -⟩ := same.exists_before found
    rw [freeIds, <- deleted]
    exact recycled.freed id earlier earlierFound
  case sync =>
    intro _ present
    obtain ⟨id, found⟩ := mem_iff_getElem?.mp present
    obtain ⟨earlier, earlierFound, -, async⟩ := same.exists_before found
    rw [<- async]
    exact recycled.sync earlier (mem_of_getElem? earlierFound)
  case cleared =>
    intro id free point found
    rw [freeIds] at free
    rw [base] at found
    exact recycled.cleared id free point found
  case lost =>
    rw [entry, base, freeIds]
    exact recycled.lost
  case idle => exact underVacuum.trans recycled.idle

end Elements

section Insert

variable {levels : Nat -> Nat} {store after : GraphStore P V D}

omit [Inhabited P] [Inhabited V] in
theorem nextId_le (graph : Linked params false store levels) :
    store.nextId .base <= store.base.length := by
  rcases nextId_cases params store .base with ⟨-, next⟩ | ⟨-, _, free⟩
  · exact Nat.le_of_eq next
  · exact Nat.le_of_lt (graph.freeIds_lt _ (by
      rw [show store.freeIds = _ from free]
      exact mem_cons_self))

omit [Inhabited V] in
/-- A new point takes a free id out of the free list. -/
theorem Recycled.of_inserted {id bound : Nat}
    (graph : Linked params false store levels) (recycled : Recycled vt store)
    (inserted : Inserted id bound (vt.init tid) store levels after levelsAfter)
    (isNext : id = store.nextId .base) (entered : after.entry ≠ none) : Recycled vt after := by
  have next : id <= store.elems.length := by
    rw [isNext, recycled.elems_length]
    exact nextId_le graph
  have read : ∀ position : Nat, after.elems[position]? =
      if position = id then some (vt.init tid) else store.elems[position]? := by
    intro position
    rw [inserted.elems]
    exact getElem?_setGrow _ _ _ next position
  constructor
  case elems_length =>
    have grown : after.base.length = max store.base.length (id + 1) := by
      have bounds := inserted.base
      have := bounds after.base.length
      have := bounds (store.base.length - 1)
      have := bounds id
      have := bounds (max store.base.length (id + 1))
      omega
    rw [inserted.elems, length_setGrow, recycled.elems_length, grown]
  case freed =>
    intro other elem found
    rw [inserted.freeIds, graph.freeIds_nodup.mem_erase_iff]
    rw [read] at found
    by_cases same : other = id
    · rw [if_pos same] at found
      cases found
      simp [same, vt.isDeleted_init]
    · rw [if_neg same] at found
      rw [<- recycled.freed other elem found]
      exact ⟨And.right, fun free => ⟨same, free⟩⟩
  case sync =>
    intro elem present
    obtain ⟨other, found⟩ := mem_iff_getElem?.mp present
    rw [read] at found
    by_cases same : other = id
    · rw [if_pos same] at found
      cases found
      exact vt.isAsync_init tid
    · rw [if_neg same] at found
      exact recycled.sync elem (mem_of_getElem? found)
  case cleared => exact inserted.cleared recycled.cleared
  case lost => exact fun lost => absurd lost entered
  case idle => exact inserted.underVacuum.trans recycled.idle

end Insert

section Vacuum

variable {levels : Nat -> Nat} {store : GraphStore P V D}

/-- The element has rows and is not deleted. -/
def Live (vt : VacuumType P Tid) (store : GraphStore P V D) (id : Nat) : Prop :=
  ∃ elem, store.elems[id]? = some elem ∧ vt.isDeleted elem = false ∧ vt.empty elem = false

/-- The element keeps rows when the dead ones go. -/
def Survives (vt : VacuumType P Tid) (dead : Tid -> Bool) (store : GraphStore P V D) (id : Nat) :
    Prop :=
  ∃ elem, store.elems[id]? = some elem ∧ vt.isDeleted elem = false ∧
    vt.empty (vt.vacuumTids dead elem) = false

omit [Inhabited P] [Inhabited V] in
theorem mem_removeHeaptids (recycled : Recycled vt store) (dead : Tid -> Bool) {id : Nat} :
    id ∈ (removeHeaptids vt dead store).2 ↔
      ∃ elem, store.elems[id]? = some elem ∧ vt.isDeleted elem = false ∧
        vt.empty (vt.vacuumTids dead elem) = true := by
  rw [removeHeaptids]
  simp only [mem_positions, getElem?_map]
  constructor
  · rintro ⟨_, found, passes⟩
    obtain ⟨elem, elemFound, rfl⟩ := Option.map_eq_some_iff.1 found
    simp only [vt.isDeleted_vacuumTids, Bool.and_eq_true, Bool.not_eq_true'] at passes
    exact ⟨elem, elemFound, passes.1.2, passes.1.1⟩
  · rintro ⟨elem, found, kept, empty⟩
    refine ⟨vt.vacuumTids dead elem, by rw [found, Option.map_some], ?_⟩
    have sync := recycled.sync elem (mem_of_getElem? found)
    simp [vt.isDeleted_vacuumTids, vt.isAsync_vacuumTids, kept, empty, sync]

/-- The stages of a vacuum: the repaired store, and what marking does to it. -/
theorem vacuum_stages (graph : Linked params false store levels) (recycled : Recycled vt store)
    (dead : Tid -> Bool) :
    ∃ repaired, RepairedGraph params levels (removeHeaptids vt dead store).2
        (removeHeaptids vt dead store).1 repaired ∧
      Marked params vt (removeHeaptids vt dead store).2 repaired
        (vacuum params vt dead store) := by
  have same : SameGraph store (removeHeaptids vt dead store).1 := ⟨rfl, rfl, rfl, rfl, rfl, rfl⟩
  have removedGraph := same.linked graph
  obtain ⟨counts, repaired⟩ := repairGraph_spec vt (removeHeaptids vt dead store).2 removedGraph
    recycled.cleared
  have elems : (repairGraph params vt (removeHeaptids vt dead store).2
      (removeHeaptids vt dead store).1).1.elems = store.elems.map (vt.vacuumTids dead) :=
    repaired.elems
  refine ⟨_, repaired, ?_⟩
  have sync : ∀ elem ∈ store.elems.map (vt.vacuumTids dead), vt.isAsync elem = false := by
    intro elem present
    obtain ⟨before, beforePresent, rfl⟩ := mem_map.1 present
    rw [vt.isAsync_vacuumTids, recycled.sync before beforePresent]
  have recyclable : positions (fun elem => vt.empty elem && !vt.isDeleted elem)
      (store.elems.map (vt.vacuumTids dead)) = (removeHeaptids vt dead store).2 := by
    simp only [removeHeaptids]
    refine positions_congr fun elem present => ?_
    rw [sync elem present, Bool.not_false, Bool.and_true]
  have sameLength : (store.elems.map (vt.vacuumTids dead)).length =
      (repairGraph params vt (removeHeaptids vt dead store).2
        (removeHeaptids vt dead store).1).1.base.length := by
    rw [length_map, recycled.elems_length]
    exact repaired.skeleton.base.symm
  rw [<- elems] at sync recyclable sameLength
  have marked := markDeleted_spec params vt sync recyclable sameLength
  rw [repaired.skeleton.base, repaired.skeleton.upper_length] at marked
  rw [vacuum]
  simp only [counts]
  exact marked

section Marked

variable {repaired after : GraphStore P V D} {dead : Tid -> Bool}

section

omit [Inhabited P] [Inhabited V]

variable (repairedElems : repaired.elems = store.elems.map (vt.vacuumTids dead))
include repairedElems

/-- The elements a vacuum leaves. -/
theorem getElem?_elems_vacuum (marked : Marked params vt deleted repaired after) (id : Nat) :
    after.elems[id]? = store.elems[id]?.map fun elem =>
      if vt.empty (vt.vacuumTids dead elem) && !vt.isDeleted elem then
        vt.setDeleted (vt.vacuumTids dead elem) else vt.vacuumTids dead elem := by
  rw [marked.elems, repairedElems, map_map, getElem?_map]
  congr 1
  funext elem
  rw [Function.comp_apply, vt.isDeleted_vacuumTids]

/-- The points live after a vacuum are those that keep a row. -/
theorem live_iff_survives (marked : Marked params vt deleted repaired after) (id : Nat) :
    Live vt after id ↔ Survives vt dead store id := by
  rw [Live, Survives, getElem?_elems_vacuum repairedElems marked]
  cases store.elems[id]? with
  | none => simp
  | some elem =>
    cases empty : vt.empty (vt.vacuumTids dead elem) <;>
      cases gone : vt.isDeleted elem <;>
        simp [empty, gone, vt.isDeleted_setDeleted, vt.isDeleted_vacuumTids]

end

omit [Inhabited P] in
theorem Recycled.of_vacuum (recycled : Recycled vt store)
    (repairs : RepairedGraph params levels (removeHeaptids vt dead store).2
      (removeHeaptids vt dead store).1 repaired)
    (marked : Marked params vt (removeHeaptids vt dead store).2 repaired after) :
    Recycled vt after := by
  have repairedElems : repaired.elems = store.elems.map (vt.vacuumTids dead) := repairs.elems
  have freeIds : repaired.freeIds = store.freeIds := repairs.skeleton.freeIds
  have baseLength : repaired.base.length = store.base.length := repairs.skeleton.base
  constructor
  case elems_length =>
    rw [marked.elems, repairedElems, length_map, length_map, marked.base_length,
      baseLength, recycled.elems_length]
  case freed =>
    intro id elem found
    rw [getElem?_elems_vacuum repairedElems marked] at found
    obtain ⟨before, beforeFound, rfl⟩ := Option.map_eq_some_iff.1 found
    rw [marked.freeIds, mem_append, mem_reverse, mem_removeHeaptids recycled, freeIds,
      recycled.freed id before beforeFound]
    simp only [beforeFound, Option.some.injEq, exists_eq_left']
    cases empty : vt.empty (vt.vacuumTids dead before) <;>
      cases gone : vt.isDeleted before <;>
        simp [gone, vt.isDeleted_setDeleted, vt.isDeleted_vacuumTids]
  case sync =>
    intro _ present
    obtain ⟨id, found⟩ := mem_iff_getElem?.mp present
    rw [getElem?_elems_vacuum repairedElems marked] at found
    obtain ⟨before, beforeFound, rfl⟩ := Option.map_eq_some_iff.1 found
    have sync := recycled.sync before (mem_of_getElem? beforeFound)
    split <;> simp [vt.isAsync_setDeleted, vt.isAsync_vacuumTids, sync]
  case cleared =>
    intro id free point found
    rcases marked.record_cases (show (after.layer .base)[id]? = some point from found) with
      ⟨slots, -⟩ | ⟨before, kept⟩
    · rw [slots, validNeighbors_replicate_none]
    · rw [marked.freeIds, mem_append, mem_reverse] at free
      exact repairs.cleared id (free.resolve_left (kept id rfl)) point before
  case lost =>
    intro lost
    rw [marked.entry, repairs.entry, repairedEntry] at lost
    cases isEntry : store.entry with
    | none =>
      rcases recycled.lost isEntry with empty | free
      · left
        rw [<- length_eq_zero_iff, marked.base_length, baseLength, empty]
        rfl
      · right
        rw [marked.freeIds, freeIds]
        exact append_ne_nil_of_right_ne_nil _ free
    | some entry =>
      have removed : entry.id ∈ (removeHeaptids vt dead store).2 := by
        by_contra kept
        rw [show (removeHeaptids vt dead store).1.entry = some entry from isEntry,
          Option.bind_some, if_neg kept] at lost
        cases lost
      right
      rw [marked.freeIds]
      refine append_ne_nil_of_left_ne_nil ?_ _
      exact ne_nil_of_mem (mem_reverse.2 removed)
  case idle => exact marked.underVacuum.trans repairs.idle

end Marked

variable (params vt) in
/-- A store between two calls: the graph is in order and the free list is that
of the deleted elements. -/
structure InOrder (store : GraphStore P V D) : Prop where
  linked : ∃ levels, Linked params false store levels
  recycled : Recycled vt store

omit [Inhabited P] [Inhabited V] in
theorem inOrder_empty : InOrder params vt (empty : GraphStore P V D) where
  linked := ⟨fun _ => 0, linked_empty false _⟩
  recycled :=
    { elems_length := rfl
      freed := fun id elem found => absurd found (by simp [empty])
      sync := nofun
      cleared := nofun
      lost := fun _ => .inl rfl
      idle := rfl }

/-- A vacuum keeps the store in order. -/
theorem vacuum_linked (graph : Linked params false store levels) (recycled : Recycled vt store)
    (dead : Tid -> Bool) :
    Linked params false (vacuum params vt dead store) levels ∧
      Recycled vt (vacuum params vt dead store) := by
  obtain ⟨_, repairs, marked⟩ := vacuum_stages graph recycled dead
  have distinct : (removeHeaptids vt dead store).2.Nodup := by
    simp only [removeHeaptids]
    exact nodup_positions _ _
  refine ⟨marked.linked repairs.linked repairs.clean ?_ distinct ?_,
    recycled.of_vacuum repairs marked⟩
  · intro _ isEntry
    have same : SameGraph store (removeHeaptids vt dead store).1 := ⟨rfl, rfl, rfl, rfl, rfl, rfl⟩
    rw [repairs.entry] at isEntry
    exact (repairedEntry_related (same.linked graph) _ isEntry).2
  · intro id removed
    obtain ⟨elem, found, kept, -⟩ := (mem_removeHeaptids recycled dead).1 removed
    rw [repairs.skeleton.base, repairs.skeleton.freeIds]
    refine ⟨recycled.elems_length ▸ (List.getElem?_eq_some_iff.1 found).1, ?_⟩
    intro free
    rw [(recycled.freed id elem found).1 free] at kept
    cases kept

/-- An insert keeps the store in order. -/
theorem InOrder.insert
    (order : InOrder params vt store) (query : V) (tid : Tid) (insertLevel : Nat) :
    InOrder params vt (GraphIndex.insert params vt.toPointType
      (impl params vt.toPointType) query tid insertLevel store).1 := by
  obtain ⟨⟨levels, graph⟩, recycled⟩ := order
  cases isEntry : store.entry with
  | none =>
    have ready : FirstReady params store :=
      (recycled.lost isEntry).imp_right fun free => .inr ⟨free, recycled.idle⟩
    obtain ⟨isNext, after, inserted, entered⟩ :=
      insertFirst_spec vt.toPointType query tid graph ready
    rw [insert_of_entry_none query tid insertLevel isEntry]
    exact ⟨⟨levels, after⟩, recycled.of_inserted graph inserted isNext (by rw [entered]; simp)⟩
  | some entry =>
    obtain ⟨levelsAfter, after, effect⟩ :=
      insert_linked vt.toPointType query tid insertLevel graph isEntry
    refine ⟨⟨levelsAfter, after⟩, ?_⟩
    cases effect with
    | merged arranged => exact recycled.of_arranged arranged
    | added between arranged isNext inserted entered =>
      refine (recycled.of_arranged arranged).of_inserted (arranged.graph.linked graph) inserted
        isNext ?_
      split at entered
      · obtain ⟨_, raised⟩ := entered
        rw [raised]
        simp
      · rw [entered, arranged.graph.entry, isEntry]
        simp

/-- A round: an insert or a vacuum. -/
inductive Round (V Tid : Type*) where
  | insert (query : V) (tid : Tid) (insertLevel : Nat)
  | vacuum (dead : Tid -> Bool)

variable (params vt) in
def Round.run (store : GraphStore P V D) : Round V Tid -> GraphStore P V D
  | .insert query tid insertLevel =>
    (GraphIndex.insert params vt.toPointType (impl params vt.toPointType) query tid
      insertLevel store).1
  | .vacuum dead => GraphIndex.vacuum params vt dead store

variable (params vt) in
def runRounds (store : GraphStore P V D) (rounds : List (Round V Tid)) : GraphStore P V D :=
  rounds.foldl (Round.run params vt) store

theorem InOrder.round (order : InOrder params vt store) (round : Round V Tid) :
    InOrder params vt (round.run params vt store) := by
  cases round with
  | insert query tid insertLevel => exact order.insert query tid insertLevel
  | vacuum dead =>
    obtain ⟨⟨levels, graph⟩, recycled⟩ := order
    obtain ⟨after, recycledAfter⟩ := vacuum_linked graph recycled dead
    exact ⟨⟨levels, after⟩, recycledAfter⟩

/-- Any number of rounds. -/
theorem InOrder.rounds (order : InOrder params vt store) (rounds : List (Round V Tid)) :
    InOrder params vt (runRounds params vt store rounds) := by
  induction rounds generalizing store with
  | nil => exact order
  | cons round rest ih => exact ih (order.round round)

section Entry

variable {strict : Bool} {start : Nat × Nat}

omit [Inhabited V] [Inhabited P] in
/-- Points reached from a record of a level, or from any base record, are points
of the level. -/
theorem Reaches.related (graph : Linked params strict store levels)
    (from_ : Related store levels start.1 own start.2 ∨ start.1 = 0) {id idx : Nat}
    (reached : Reaches params store (layerOf start.1) allowed start.2 id idx) :
    Related store levels start.1 id idx := by
  induction reached with
  | first present _ =>
    rcases from_ with related | isBase
    · exact graph.closed start.1 own start.2 related _ present
    · rw [isBase] at present ⊢
      exact graph.neighbor_base present
  | next _ present _ ih =>
    exact graph.closed start.1 _ _ ih _ present

omit [Inhabited P] in
/-- `repair_entry` finds a point from a record exactly when the search can reach
one that is kept. -/
theorem foundEntry_isSome_iff (graph : Linked params strict store levels) {entry : EntryInfo}
    (from_ : Related store levels start.1 entry.id start.2 ∨ start.1 = 0) :
    (foundEntry params store entry deleted start).isSome ↔
      ∃ id idx, Reaches params store (layerOf start.1)
        (Admitted params store (store.readData entry.id) entry.id) start.2 id idx ∧
          id ∉ deleted := by
  have unique : ∀ id idx other, Reaches params store (layerOf start.1)
        (Admitted params store (store.readData entry.id) entry.id) start.2 id idx ->
      Reaches params store (layerOf start.1)
        (Admitted params store (store.readData entry.id) entry.id) start.2 id other ->
      idx = other := fun id idx other here there =>
    graph.unique start.1 id idx other (here.related graph from_) (there.related graph from_)
  have rejectsOwn : repairFilter deleted entry.id entry.id = false := by
    rw [<- Bool.not_eq_true, repairFilter_iff]
    simp
  have search := searchLayer_ne_nil_iff Nat.one_pos rejectsOwn params.zero unique
  rw [foundEntry, Option.isSome_map, isSome_head?, search]
  refine exists_congr fun id => exists_congr fun idx => and_congr_right fun reached => ?_
  rw [repairFilter_iff]
  exact and_iff_right reached.admitted.1

omit [Inhabited P] [Inhabited V] in
/-- Reachability reads the records and what is admitted, nothing else. -/
theorem Reaches.transfer
    {other : GraphStore P V D} {layer : Layer} {allowed allowedOther : Nat -> Prop}
    {start id idx : Nat}
    (records : ∀ idx, other.pointInfo params layer idx = store.pointInfo params layer idx)
    (admits : ∀ id, allowed id -> allowedOther id)
    (reached : Reaches params store layer allowed start id idx) :
    Reaches params other layer allowedOther start id idx := by
  induction reached with
  | first present admitted => exact .first (records _ ▸ present) (admits _ admitted)
  | next _ present admitted ih =>
    exact .next ih (records _ ▸ present) (admits _ admitted)

variable (params vt) in
/-- If the entry point goes although a surviving point is reachable from it on
the base layer, then a surviving point is reachable from a record at which
`repair_entry` starts a search, through points closer than the largest distance. -/
def EntryReplaceable (dead : Tid -> Bool) (store : GraphStore P V D) : Prop :=
  ∀ entry, store.entry = some entry -> ¬ Survives vt dead store entry.id ->
    (∃ id idx, Reaches params store .base (fun _ => True) entry.id id idx ∧
      Survives vt dead store id) ->
    ∃ start ∈ entryStarts params store entry, ∃ id idx,
      Reaches params store (layerOf start.1)
        (Admitted params store (store.readData entry.id) entry.id) start.2 id idx ∧
      Survives vt dead store id

omit [Inhabited V] [Inhabited P] in
/-- A point in use is kept by the repairs exactly when it survives. -/
theorem survives_iff_notMem (recycled : Recycled vt store) {level id idx : Nat}
    (related : Related store levels level id idx) :
    Survives vt dead store id ↔ id ∉ (removeHeaptids vt dead store).2 := by
  obtain ⟨inBounds, used⟩ := related.lt
  rw [<- recycled.elems_length] at inBounds
  have found : store.elems[id]? = some store.elems[id] := getElem?_eq_getElem inBounds
  have kept : vt.isDeleted store.elems[id] = false := by
    rw [<- Bool.not_eq_true, <- recycled.freed id _ found]
    exact used
  rw [mem_removeHeaptids recycled, Survives]
  simp [found, kept]

omit [Inhabited P] in
/-- The entry point is lost exactly when it goes and no search finds another. -/
theorem repairedEntry_isSome_iff
    (graph : Linked params false store levels) (recycled : Recycled vt store)
    (dead : Tid -> Bool) {entry : EntryInfo} (isEntry : store.entry = some entry) :
    (repairedEntry params (removeHeaptids vt dead store).1
        (removeHeaptids vt dead store).2).isSome ↔
      Survives vt dead store entry.id ∨ ∃ start ∈ entryStarts params store entry, ∃ id idx,
          Reaches params store (layerOf start.1)
            (Admitted params store (store.readData entry.id) entry.id) start.2 id idx ∧
          Survives vt dead store id := by
  have same : SameGraph store (removeHeaptids vt dead store).1 := ⟨rfl, rfl, rfl, rfl, rfl, rfl⟩
  have removedGraph := same.linked graph
  have related := graph.entered entry isEntry
  have removedEntry : (removeHeaptids vt dead store).1.entry = some entry := isEntry
  rw [survives_iff_notMem recycled related, repairedEntry, removedEntry, Option.bind_some]
  by_cases gone : entry.id ∈ (removeHeaptids vt dead store).2
  · rw [if_pos gone, findSome?_isSome_iff]
    simp only [gone, not_true_eq_false, false_or]
    refine exists_congr fun start => and_congr_right fun present => ?_
    have from_ := entryStarts_related removedGraph (removedGraph.entered entry removedEntry) present
    rw [foundEntry_isSome_iff removedGraph from_]
    refine exists_congr fun id => exists_congr fun idx => ?_
    -- Removing rows changes neither the records nor the vectors.
    have records : ∀ idx, (removeHeaptids vt dead store).1.pointInfo params (layerOf start.1) idx =
        store.pointInfo params (layerOf start.1) idx := by
      intro idx
      cases layerOf start.1 <;> rfl
    constructor
    · rintro ⟨reached, kept⟩
      have here := reached.transfer (fun idx => (records idx).symm) (fun _ admitted => admitted)
      exact ⟨here, (survives_iff_notMem recycled (here.related graph
        (entryStarts_related graph related present))).2 kept⟩
    · rintro ⟨reached, survives⟩
      exact ⟨reached.transfer records (fun _ admitted => admitted),
        (survives_iff_notMem recycled (reached.related graph
          (entryStarts_related graph related present))).1 survives⟩
  · rw [if_neg gone]
    simp [gone]

end Entry

variable (params vt) in
/-- What a vacuum has to leave: live points list no recycled point, the entry
point is live or no live point was reachable from the old one on the base layer,
and the free lists name records of deleted elements only, each once. -/
structure VacuumSound (store after : GraphStore P V D) : Prop where
  neighbors : ∀ layer (idx : Nat) (point : Point D) own, (after.layer layer)[idx]? = some point ->
    ownId layer idx point = some own -> Live vt after own ->
    ∀ id ∈ neighborIds point, Live vt after id ∧ id ∉ after.freeIds
  entry : ∀ info, after.entry = some info -> Live vt after info.id
  lost : after.entry = none -> ∀ old, store.entry = some old ->
    ∀ id idx, Reaches params store .base (fun _ => True) old.id id idx -> ¬ Live vt after id
  freeIds : ∀ id ∈ after.freeIds, ∃ elem, after.elems[id]? = some elem ∧ vt.isDeleted elem = true
  freeUppers : ∀ idx ∈ after.freeUppers, ∃ point, after.upper[idx]? = some point ∧
    point.id = none ∧ (idx ∈ store.freeUppers ∨
      ∃ before id elem, store.upper[idx]? = some before ∧ before.id = some id ∧
        after.elems[id]? = some elem ∧ vt.isDeleted elem = true)
  distinct : after.freeIds.Nodup ∧ after.freeUppers.Nodup

/-- One vacuum of a store in order is sound exactly when the entry point can be
replaced. -/
theorem vacuumSound_iff (order : InOrder params vt store) (dead : Tid -> Bool) :
    VacuumSound params vt store (vacuum params vt dead store) ↔
      EntryReplaceable params vt dead store := by
  obtain ⟨⟨levels, graph⟩, recycled⟩ := order
  obtain ⟨graphAfter, recycledAfter⟩ := vacuum_linked graph recycled dead
  obtain ⟨_, repairs, marked⟩ := vacuum_stages graph recycled dead
  have liveIff : ∀ id, Live vt (vacuum params vt dead store) id ↔ Survives vt dead store id :=
    live_iff_survives repairs.elems marked
  have liveOfRelated : ∀ level id idx, Related (vacuum params vt dead store) levels level id idx ->
        Live vt (vacuum params vt dead store) id := by
    intro level id idx related
    obtain ⟨before, kept⟩ := marked.related_iff.1 related
    have used : Related store levels level id idx := by
      have same : SameGraph store (removeHeaptids vt dead store).1 :=
        ⟨rfl, rfl, rfl, rfl, rfl, rfl⟩
      exact (same.sameSkeleton.trans repairs.skeleton).related_iff.1 before
    exact (liveIff id).2 ((survives_iff_notMem recycled used).2 kept)
  have deletedOfFree : ∀ id ∈ (vacuum params vt dead store).freeIds,
      ∃ elem, (vacuum params vt dead store).elems[id]? = some elem ∧
        vt.isDeleted elem = true := by
    intro id free
    have inBounds := graphAfter.freeIds_lt id free
    rw [<- recycledAfter.elems_length] at inBounds
    have found := getElem?_eq_getElem inBounds
    exact ⟨_, found, (recycledAfter.freed id _ found).1 free⟩
  have entryEq : (vacuum params vt dead store).entry = repairedEntry params
      (removeHeaptids vt dead store).1 (removeHeaptids vt dead store).2 :=
    marked.entry.trans repairs.entry
  constructor
  · intro sound old isEntry gone ⟨id, idx, reached, survives⟩
    have kept : (vacuum params vt dead store).entry ≠ none := fun lost =>
      sound.lost lost old isEntry id idx reached ((liveIff id).2 survives)
    rw [entryEq, <- Option.isSome_iff_ne_none,
      repairedEntry_isSome_iff graph recycled dead isEntry] at kept
    exact kept.resolve_left gone
  · intro replaceable
    constructor
    case neighbors =>
      intro layer idx point _ found _ _ id present
      obtain ⟨neighbor, isNeighbor, rfl⟩ := mem_map.1 present
      have related := (graphAfter.points layer idx point found).linked neighbor isNeighbor
      exact ⟨liveOfRelated _ _ _ related, related.lt.2⟩
    case entry => exact fun info isEntry => liveOfRelated _ _ _ (graphAfter.entered info isEntry)
    case lost =>
      intro lost old isEntry id idx reached live
      have survives := (liveIff id).1 live
      have kept : (repairedEntry params (removeHeaptids vt dead store).1
          (removeHeaptids vt dead store).2).isSome := by
        rw [repairedEntry_isSome_iff graph recycled dead isEntry]
        by_cases stays : Survives vt dead store old.id
        · exact .inl stays
        · exact .inr (replaceable old isEntry stays ⟨id, idx, reached, survives⟩)
      rw [<- entryEq, lost] at kept
      cases kept
    case freeIds => exact deletedOfFree
    case freeUppers =>
      intro idx free
      obtain ⟨point, found, unowned⟩ := graphAfter.freeUppers_unowned idx free
      refine ⟨point, found, unowned, ?_⟩
      rw [marked.freeUppers, mem_append, mem_reverse, mem_positions] at free
      rcases free with ⟨_, recordFound, isOwned⟩ | earlier
      · obtain ⟨id, owned, removed⟩ := ownedBy_iff.1 isOwned
        obtain ⟨before, beforeFound, sameOwner⟩ := repairs.skeleton.exists_before recordFound
        obtain ⟨elem, elemFound, gone⟩ := deletedOfFree id (by
          rw [marked.freeIds]
          exact mem_append_left _ (mem_reverse.2 removed))
        exact .inr ⟨before, id, elem, beforeFound, sameOwner.trans owned, elemFound, gone⟩
      · rw [repairs.skeleton.freeUppers] at earlier
        exact .inl earlier
    case distinct => exact ⟨graphAfter.freeIds_nodup, graphAfter.freeUppers_nodup⟩

/-- A vacuum after any rounds is sound exactly when the entry point can be
replaced. -/
theorem vacuum_sound_iff_entryReplaceable
    (order : InOrder params vt store) (rounds : List (Round V Tid)) (dead : Tid -> Bool) :
    VacuumSound params vt (runRounds params vt store rounds)
        (vacuum params vt dead (runRounds params vt store rounds)) ↔
      EntryReplaceable params vt dead (runRounds params vt store rounds) :=
  vacuumSound_iff (order.rounds rounds) dead

end Vacuum

/-- An element that keeps its rows in a list. -/
structure Rows where
  rows : List Nat
  deleted : Bool
  async : Bool
  deriving DecidableEq, Repr, Inhabited

def rowsType : VacuumType Rows Nat where
  init tid := ⟨[tid], false, false⟩
  insertTid elem tid := (true, { elem with rows := elem.rows ++ [tid] })
  empty elem := elem.rows.isEmpty
  isDeleted := Rows.deleted
  isAsync := Rows.async
  setDeleted elem := { elem with deleted := true }
  vacuumTids dead elem := { elem with rows := elem.rows.filter fun tid => !dead tid }
  empty_init _ := rfl
  isDeleted_init _ := rfl
  isAsync_init _ := rfl
  isDeleted_insertTid _ _ := rfl
  isAsync_insertTid _ _ := rfl
  isDeleted_setDeleted _ := rfl
  isAsync_setDeleted _ := rfl
  isDeleted_vacuumTids _ _ := rfl
  isAsync_vacuumTids _ _ := rfl

/-- The entry point goes, and its neighbour on the base layer can take its place. -/
theorem vacuum_sound_iff_entryReplaceable_twoRounds :
    let store := runRounds (lineParams 2) rowsType empty [.insert 0 7 0, .insert 5 8 1]
    store.entry = some ⟨1, 0, 1⟩ ∧
      VacuumSound (lineParams 2) rowsType store (vacuum (lineParams 2) rowsType (· == 8) store) := by
  intro store
  have isEntry : store.entry = some ⟨1, 0, 1⟩ := by decide +kernel
  refine ⟨isEntry, (vacuum_sound_iff_entryReplaceable inOrder_empty _ _).2 ?_⟩
  intro entry found _ _
  cases isEntry.symm.trans found
  have neighbor : (0, 0) ∈ validNeighbors (store.pointInfo (lineParams 2) .base 1).neighbors := by
    decide +kernel
  have kept : store.elems[0]? = some ⟨[7], false, false⟩ := by decide +kernel
  exact ⟨(0, 1), by decide +kernel, 0, 0, .first neighbor ⟨by decide, by decide +kernel⟩, _, kept,
    rfl, rfl⟩

/-- Point 1 is the entry point with two levels above the base layer and has
point 0 as its neighbour there; when its row goes, the graph loses its entry
point although point 0 stays. -/
theorem vacuum_loses_entry :
    ¬ ∀ (rounds : List (Round Int Nat)) (dead : Nat -> Bool), VacuumSound (lineParams 2) rowsType
        (runRounds (lineParams 2) rowsType empty rounds)
        (vacuum (lineParams 2) rowsType dead
          (runRounds (lineParams 2) rowsType empty rounds)) := by
  intro always
  let store := runRounds (lineParams 2) rowsType empty [.insert 0 7 0, .insert 5 8 2]
  have sound : VacuumSound (lineParams 2) rowsType store
      (vacuum (lineParams 2) rowsType (· == 8) store) := always _ _
  have lost : (vacuum (lineParams 2) rowsType (· == 8) store).entry = none := by decide +kernel
  have old : store.entry = some ⟨1, 1, 2⟩ := by decide +kernel
  have neighbor : (0, 0) ∈ validNeighbors (store.pointInfo (lineParams 2) .base 1).neighbors := by
    decide +kernel
  refine sound.lost lost _ old 0 0 (.first neighbor trivial) ⟨⟨[7], false, false⟩, ?_, rfl, rfl⟩
  decide +kernel

/-- What `add_first_basepoint` makes of the record it writes. -/
def firstRecord (params : Params V D) (point : Point D) : Point D :=
  { point with
    neighbors := List.replicate (params.nbrNum .base) none
    lowerLayerIdx := none
    id := none
    hasStat := false }

omit [Inhabited P] [Inhabited V] in
/-- An id is assigned with the record it had, or with one that was never written. -/
theorem getElem?_base_assign (params : Params V D) {store : GraphStore P V D}
    (freed : ∀ id ∈ store.freeIds, id < store.base.length) (id : Nat) :
    (store.assign params .base).base[id]? = if id = store.nextId .base
      then some ((store.base[id]?).getD (blank params .base)) else store.base[id]? := by
  rcases nextId_cases params store .base with ⟨assigned, next⟩ | ⟨assigned, rest, free⟩
  · rw [assigned, next]
    change (store.base ++ [blank params .base])[id]? = if id = store.base.length then _ else _
    split_ifs with same
    · rw [same, getElem?_append_right le_rfl, getElem?_eq_none le_rfl, Nat.sub_self]
      rfl
    · rcases Nat.lt_or_gt_of_ne same with inside | behind
      · exact getElem?_append_left inside
      · rw [getElem?_eq_none (by rw [length_append, length_singleton]; omega),
          getElem?_eq_none (by omega)]
  · rw [assigned]
    change store.base[id]? = _
    split_ifs with same
    · have inside := freed id (same ▸ show store.nextId .base ∈ store.freeList .base by simp [free])
      rw [getElem?_eq_getElem inside]
      rfl
    · rfl

/-- Inserting into a graph without an entry point clears the record of the new point, makes that
point the entry point and leaves every other record as it is, exactly when the next id is zero, or
its record and record zero already are what the insert should leave. -/
theorem insert_empty_clears_iff (params : Params V D) (pt : PointType P Tid)
    {store : GraphStore P V D} (isEntry : store.entry = none)
    (freed : ∀ id ∈ store.freeIds, id < store.base.length)
    (query : V) (tid : Tid) (insertLevel : Nat) :
    let result := insert params pt (impl params pt) query tid insertLevel store
    ((result.1.pointInfo params .base result.2).neighbors =
        List.replicate (params.nbrNum .base) none ∧
      result.1.entry = some ⟨result.2, result.2, 0⟩ ∧
      ∀ other, other ≠ result.2 -> result.1.base[other]? = store.base[other]?) ↔
    store.nextId .base = 0 ∨
      (((store.base[store.nextId .base]?).getD (blank params .base)).neighbors =
          List.replicate (params.nbrNum .base) none ∧
        (store.base[0]?).map (firstRecord params) = store.base[0]?) := by
  intro result
  have isFirst : result = insertFirst params (impl params pt) query tid store :=
    insert_of_entry_none query tid insertLevel isEntry
  have isId : result.2 = store.nextId .base := congrArg Prod.snd isFirst
  have entered : result.1.entry = some ⟨result.2, result.2, 0⟩ := by
    rw [isFirst]
    rfl
  have base : result.1.base = (store.assign params .base).base.modify 0 (firstRecord params) := by
    rw [isFirst]
    rfl
  have record : ∀ id ≠ 0, result.1.base[id]? = (store.assign params .base).base[id]? :=
    fun id other => by rw [base, getElem?_modify_ne _ _ other.symm]
  have zero : result.1.base[0]? =
      ((store.assign params .base).base[0]?).map (firstRecord params) := by
    rw [base, getElem?_modify_eq]
    rfl
  rw [isId, pointInfo, layer, getD_eq_getElem?_getD]
  by_cases first : store.nextId .base = 0
  · refine iff_of_true ⟨?_, isId ▸ entered, fun other isOther => ?_⟩ (.inl first)
    · rw [first, zero, getElem?_base_assign params freed, if_pos first.symm]
      rfl
    · rw [record other (first ▸ isOther), getElem?_base_assign params freed, if_neg isOther]
  · have written : result.1.base[store.nextId .base]? =
        some ((store.base[store.nextId .base]?).getD (blank params .base)) := by
      rw [record _ first, getElem?_base_assign params freed, if_pos rfl]
    rw [written, Option.getD_some, or_iff_right first]
    refine and_congr_right fun _ => ⟨fun kept => ?_, fun same => ⟨isId ▸ entered, ?_⟩⟩
    · have same := kept.2 0 (Ne.symm first)
      rwa [zero, getElem?_base_assign params freed, if_neg (Ne.symm first)] at same
    · intro other isOther
      by_cases isZero : other = 0
      · rw [isZero, zero, getElem?_base_assign params freed, if_neg (Ne.symm first), same]
      · rw [record other isZero, getElem?_base_assign params freed, if_neg isOther]

/-- Two points were inserted and removed; the next insert takes id 1, and both records are
clear. -/
theorem insert_empty_clears_iff_emptied :
    let store := runRounds (lineParams 2) rowsType empty
      [.insert 0 7 0, .insert 5 8 0, .vacuum fun _ => true]
    let result := insert (lineParams 2) rowsType.toPointType
      (impl (lineParams 2) rowsType.toPointType) 5 7 2 store
    result.2 = 1 ∧ (result.1.pointInfo (lineParams 2) .base result.2).neighbors =
        List.replicate 4 none ∧ result.1.base[0]? = store.base[0]? := by
  intro store result
  have isNext : result.2 = 1 := by decide +kernel
  obtain ⟨clear, -, kept⟩ := (insert_empty_clears_iff (lineParams 2) rowsType.toPointType
    (show store.entry = none by decide +kernel) (by decide +kernel) 5 7 2).2
      (.inr ⟨by decide +kernel, by decide +kernel⟩)
  exact ⟨isNext, clear, kept 0 (by decide +kernel)⟩

/-- The vacuums that delete points 1 and 3 leave no entry point although points 0 and 2 stay.  The
next insert takes id 3 and clears the record of point 0. -/
theorem insert_empty_overwrites :
    ¬ ∀ rounds : List (Round Int Nat),
      let store := runRounds (lineParams 2) rowsType empty rounds
      store.entry = none ->
      let result := insert (lineParams 2) rowsType.toPointType
        (impl (lineParams 2) rowsType.toPointType) 9 9 0 store
      ∀ other, other ≠ result.2 -> result.1.base[other]? = store.base[other]? := by
  intro always
  let store := runRounds (lineParams 2) rowsType empty
    [.insert 0 6 0, .insert 1 7 0, .insert 2 8 0, .insert 3 9 3, .vacuum (· == 7), .vacuum (· == 9)]
  have lost : store.entry = none := by decide +kernel
  have same := always _ lost 0 (by decide +kernel)
  exact absurd (congrArg (Option.map Point.neighbors) same) (by decide +kernel)

end VexDB.GraphIndex
