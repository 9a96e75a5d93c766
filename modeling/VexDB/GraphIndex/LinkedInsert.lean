import VexDB.GraphIndex.LinkedEdges

/-!
# Inserting keeps the graph in order

A new point gets a base record, then one record a level, each above the one
before.  While it climbs nothing of the graph so far moves, so the points found
by the searches stay points of their levels.
-/

namespace VexDB.GraphIndex

open List Option Nat GraphStore
open GraphStore (elems_assign impl nextId layer)

variable {P V D Tid : Type*} {params : Params V D} {id : Nat} {change : Point D ->
  Point D} {store after between : GraphStore P V D} {levels levelsAfter : Nat -> Nat} {bound idx
  level : Nat} {point : Point D}

theorem NewRecord.of_sameGraph {layer : Layer} (new : NewRecord store between layer idx point)
    (same : SameGraph between after) : NewRecord store after layer idx point := by
  have sameFree : ∀ other, after.freeList other = between.freeList other := by
    intro other
    cases other
    · exact same.freeIds
    · exact same.freeUppers
  exact {
    added := (same.layer layer).symm ▸ new.added
    kept := fun other position untouched => by
      rw [same.layer other]
      exact new.kept other position untouched
    taken := (sameFree layer).trans new.taken
    keptFree := fun other different => (sameFree other).trans (new.keptFree other different)
    entry := same.entry.trans new.entry
    underVacuum := same.underVacuum.trans new.underVacuum
    fresh := new.fresh }

/-- The highest record of a point. -/
structure Summit (store : GraphStore P V D) (levels : Nat -> Nat) (level id idx : Nat) : Prop where
  here : Related store levels level id idx
  above : ∀ height, level < height -> ∀ other, ¬ Related store levels height id other

theorem Summit.of_sameSkeleton (summit : Summit store levels level id idx)
    (same : SameSkeleton store after) : Summit after levels level id idx :=
  ⟨same.related_iff.2 summit.here,
    fun height higher other related => summit.above height higher other
      (same.related_iff.1 related)⟩

/-- Upper records added for one point, none above the given level. -/
structure Raised (id bound : Nat) (store : GraphStore P V D) (levels : Nat -> Nat)
    (after : GraphStore P V D) (levelsAfter : Nat -> Nat) : Prop where
  extends_ : Extends store levels after levelsAfter
  base : after.base = store.base
  freeIds : after.freeIds = store.freeIds
  entry : after.entry = store.entry
  elems : after.elems = store.elems
  vectors : after.vectors = store.vectors
  underVacuum : after.underVacuum = store.underVacuum
  records : ∀ (idx : Nat) (point : Point D), after.upper[idx]? = some point ->
    (∃ before, store.upper[idx]? = some before ∧ before.id = point.id ∧
      levelsAfter idx = levels idx) ∨
    (point.id = some id ∧ levelsAfter idx <= bound)

theorem Raised.refl (id bound : Nat) (store : GraphStore P V D) (levels : Nat -> Nat) :
    Raised id bound store levels store levels :=
  ⟨Extends.refl store levels, rfl, rfl, rfl, rfl, rfl, rfl,
    fun _ point found => .inl ⟨point, found, rfl, rfl⟩⟩

theorem Raised.trans (one : Raised id bound first levels₁ second levels₂)
    (two : Raised id bound second levels₂ third levels₃) :
    Raised id bound first levels₁ third levels₃ := by
  refine ⟨one.extends_.trans two.extends_, two.base.trans one.base,
    two.freeIds.trans one.freeIds, two.entry.trans one.entry, two.elems.trans one.elems,
    two.vectors.trans one.vectors, two.underVacuum.trans one.underVacuum, ?_⟩
  intro idx point found
  rcases two.records idx point found with ⟨between, betweenFound, sameId, sameLevel⟩ | new
  · rcases one.records idx between betweenFound with
      ⟨before, beforeFound, sameIdBefore, sameLevelBefore⟩ | ⟨owned, bounded⟩
    · exact .inl ⟨before, beforeFound, sameIdBefore.trans sameId,
        sameLevel.trans sameLevelBefore⟩
    · exact .inr ⟨sameId ▸ owned, sameLevel ▸ bounded⟩
  · exact .inr new

theorem Raised.of_relinked
    (step : Relinked .upper newPoint changed store after) (id bound : Nat) (levels : Nat -> Nat) :
    Raised id bound store levels after levels := by
  have sameBase : after.base = store.base := ext_getElem? fun position =>
    step.kept .base position (fun both => absurd both.1 (by decide))
  refine ⟨step.skeleton.extends levels, sameBase, step.skeleton.freeIds, step.entry,
    step.elems, step.vectors, step.underVacuum, ?_⟩
  intro _ _ found
  obtain ⟨before, beforeFound, sameId⟩ := step.skeleton.exists_before found
  exact .inl ⟨before, beforeFound, sameId, rfl⟩

section Upper

variable [Inhabited P] [Inhabited V] {pt : PointType P Tid}

section

section

variable (graph : Linked params strict store levels)
include graph

omit [Inhabited P] [Inhabited V]

theorem Linked.freeList_lt (layer : Layer) :
    ∀ idx ∈ store.freeList layer, idx < (store.layer layer).length := by
  intro idx free
  cases layer with
  | base => exact graph.freeIds_lt idx free
  | upper =>
    obtain ⟨_, found, -⟩ := graph.freeUppers_unowned idx free
    exact (List.getElem?_eq_some_iff.1 found).1

/-- One more record on top of a point, linked to points of its level. -/
theorem raise_point (summit : Summit store levels level id low)
    (written : after = (store.assign params .upper).modifyPoint .upper (store.nextId .upper) change)
    (owned : ∀ point, (change point).id = some id)
    (lower : ∀ point, (change point).lowerLayerIdx = some low)
    (slots : ∀ point, (change point).neighbors = neighborSlots params .upper neighbors)
    (points : PointsOf store levels (level + 1) neighbors)
    (few : neighbors.length <= params.nbrNum .upper) (bounded : level + 1 <= bound) :
    ∃ record levelsAfter, NewRecord store after .upper (store.nextId .upper) record ∧
      Linked params strict after levelsAfter ∧ Raised id bound store levels after levelsAfter ∧
      Summit after levelsAfter (level + 1) id (store.nextId .upper) := by
  subst written
  obtain ⟨point, new⟩ := newRecord_assign params store .upper (graph.freeList_lt .upper) change
  have live := summit.here.lt
  have first : ∀ other, ¬ Related store levels (level + 1) id other :=
    summit.above (level + 1) (lt_succ_self level)
  have shaped : Shaped params strict .upper (store.nextId .upper) (change point) := by
    refine shaped_neighborSlots params .upper neighbors (slots point) few points.distinct ?_
    intro own isOwn cand present same
    obtain rfl : id = own := mem_unique (owned point) isOwn
    exact first _ (same ▸ points.related cand present)
  have linked : ∀ neighbor ∈ validNeighbors (change point).neighbors,
      Related store levels (level + 1) neighbor.1 neighbor.2 := by
    intro _ present
    rw [slots, validNeighbors_neighborSlots] at present
    obtain ⟨cand, candPresent, rfl⟩ := mem_map.1 present
    exact points.related cand candPresent
  refine ⟨_, _, new,
    new.linked_upper graph (owned point) (lower point) summit.here first shaped linked, ?_, ?_⟩
  · refine ⟨new.extends_upper graph (level + 1), new.layer_eq .base (by decide),
      new.keptFree .base (by decide), new.entry,
      (elems_modifyPoint _ _ _ _).trans (elems_assign _ _ _),
      (vectors_modifyPoint _ _ _ _).trans (vectors_assign _ _ _),
      new.underVacuum, ?_⟩
    intro position record found
    by_cases same : position = store.nextId .upper
    · subst same
      obtain rfl : change point = record := mem_unique new.added found
      exact .inr ⟨owned point, by rwa [Function.update_self]⟩
    · have kept : store.upper[position]? = some record :=
        (new.kept .upper position (fun both => same both.2)).symm.trans found
      exact .inl ⟨record, kept, rfl, Function.update_of_ne same _ _⟩
  · constructor
    · exact (new.related_upper_iff graph (owned point) live).2 (.inr ⟨rfl, rfl, rfl⟩)
    · intro height higher other related
      rcases (new.related_upper_iff graph (owned point) live).1 related with
        before | ⟨same, -, -⟩
      · exact summit.above height (lt_of_succ_lt higher) other before
      · omega

/-- A point that is not on a level is in no list of that level. -/
theorem Linked.unlisted (related : Related store levels level other idx)
    (absent : ∀ position, ¬ Related store levels level id position)
    (found : (store.layer (layerOf level))[idx]? = some point) : id ∉ neighborIds point := by
  intro present
  obtain ⟨neighbor, inList, rfl⟩ := mem_map.1 present
  refine absent neighbor.2 ?_
  have closed := graph.closed level other idx related neighbor
  rw [pointInfo_of_getElem? found] at closed
  exact closed inList

end

omit [Inhabited P] [Inhabited V] in
/-- A new record is not the record of a point of the graph so far. -/
theorem NewRecord.ne_of_related (new : NewRecord store after (layerOf level) idx point)
    (related : Related store levels level other position) : position ≠ idx := by
  rintro rfl
  rcases new.fresh with free | behind
  · exact related.notMem_freeList free
  · obtain ⟨_, found, -⟩ := related.exists_point
    exact absurd (behind ▸ (List.getElem?_eq_some_iff.1 found).1) (lt_irrefl _)

end

variable (pt) in
/-- Linking the neighbours of a new record back keeps the graph in order. -/
theorem updateReverseEdges_new (level : Nat) (graph : Linked params strict store levels)
    (new : NewRecord store after (layerOf level) idx point)
    (extension : Extends store levels after levelsAfter)
    (newGraph : Linked params strict after levelsAfter)
    (newRelated : Related after levelsAfter level id idx)
    (absent : ∀ position, ¬ Related store levels level id position)
    (points : PointsOf store levels level neighbors) :
    Linked params strict (updateReverseEdges params (impl params pt) (layerOf level)
        (id, idx) after neighbors) levelsAfter ∧
      Relinked (layerOf level) (id, idx) (neighbors.map Candidate.curLayerIdx) after
        (updateReverseEdges params (impl params pt) (layerOf level) (id, idx) after
          neighbors) := by
  refine updateReverseEdges_linked newGraph newRelated (points.mono extension) ?_ ?_
  · intro nbr present same
    exact absent _ (same ▸ points.related nbr present)
  · intro _ nbr present _ found
    have related := points.related nbr present
    rw [new.kept _ _ (fun both => new.ne_of_related related both.2)] at found
    exact graph.unlisted related absent found

variable (pt) in
/-- The upper records of a new point. -/
theorem insertUppers_spec
    (graph : Linked params strict store levels) (summit : Summit store levels level id lower)
    (above : PointsAbove store levels level found) (bounded : level + found.length <= bound) :
    ∃ levelsAfter,
      let after := insertUppers params (impl params pt) id store lower found
      Linked params strict after.1 levelsAfter ∧ Raised id bound store levels after.1 levelsAfter ∧
        Summit after.1 levelsAfter (level + found.length) id after.2 := by
  induction found generalizing store levels level lower with
  | nil => exact ⟨levels, graph, Raised.refl id bound store levels, summit⟩
  | cons first rest ih =>
    obtain ⟨points, higher⟩ : PointsOf store levels (level + 1) first ∧
        PointsAbove store levels (level + 1) rest := by
      cases above with
      | cons points higher => exact ⟨points, higher⟩
    have length : level + (first :: rest).length = level + 1 + rest.length := by
      rw [length_cons]
      omega
    rw [length] at bounded ⊢
    -- The record is written with the neighbours selected among the candidates.
    let neighbors := selectNeighbors params .upper
      (getNeighborsData (store.assign params .upper) first)
    let written := addPoint params (impl params pt) .upper (store.nextId .upper)
      (some lower) (some id) neighbors (store.assign params .upper)
    have chosen : PointsOf store levels (level + 1) neighbors :=
      points.getNeighborsData.selectNeighbors .upper
    obtain ⟨_, _, new, newGraph, raised, newSummit⟩ := raise_point graph summit
      (Eq.refl written) (fun _ => rfl) (fun _ => rfl) (fun _ => rfl) chosen
      (length_selectNeighbors_le params .upper _) (le_trans (le_add_right _ _) bounded)
    obtain ⟨linkedGraph, relinked⟩ := updateReverseEdges_new pt (level + 1)
      graph new raised.extends_ newGraph newSummit.here
      (summit.above (level + 1) (lt_succ_self level)) chosen
    have step := raised.trans (Raised.of_relinked relinked id bound _)
    obtain ⟨levelsAfter, lastGraph, lastRaised, lastSummit⟩ := ih linkedGraph
      (newSummit.of_sameSkeleton relinked.skeleton) (higher.mono step.extends_) bounded
    exact ⟨levelsAfter, lastGraph, step.trans lastRaised, lastSummit⟩

omit [Inhabited V] [Inhabited P] in
theorem neighborSlots_nil (layer : Layer) :
    neighborSlots params layer ([] : List (Candidate V D)) =
      replicate (params.nbrNum layer) none := by
  simp [neighborSlots]

variable (pt) in
/-- The levels above the old entry point hold the new point alone. -/
theorem addFirstUpperpoints_spec (rounds : Nat)
    (graph : Linked params strict store levels) (summit : Summit store levels level id lower)
    (bounded : level + rounds <= bound) :
    ∃ levelsAfter,
      let after := addFirstUpperpoints params (impl params pt) id rounds store lower
      Linked params strict after.1 levelsAfter ∧ Raised id bound store levels after.1 levelsAfter ∧
        Summit after.1 levelsAfter (level + rounds) id after.2 := by
  induction rounds generalizing store levels level lower with
  | zero => exact ⟨levels, graph, Raised.refl id bound store levels, summit⟩
  | succ rounds ih =>
    rw [<- add_assoc, add_right_comm] at bounded ⊢
    let written := (store.assign params .upper).write params pt
      (.addPoint .upper (store.nextId .upper) (some lower) (some id)
        (replicate (params.nbrNum .upper) none) none)
    have nobody : PointsOf store levels (level + 1) ([] : List (Candidate V D)) :=
      ⟨nofun, nodup_nil⟩
    obtain ⟨_, _, -, newGraph, raised, newSummit⟩ := raise_point graph summit
      (Eq.refl written) (fun _ => rfl) (fun _ => rfl) (fun _ => (neighborSlots_nil .upper).symm)
      nobody (zero_le _) (le_trans (le_add_right _ _) bounded)
    obtain ⟨levelsAfter, lastGraph, lastRaised, lastSummit⟩ :=
      ih newGraph newSummit bounded
    exact ⟨levelsAfter, lastGraph, raised.trans lastRaised, lastSummit⟩

end Upper

/-- Free base records are empty. -/
def FreeCleared (store : GraphStore P V D) : Prop :=
  ∀ id ∈ store.freeIds, ∀ point, store.base[id]? = some point ->
    validNeighbors point.neighbors = []

/-- What a new point adds to a graph: its base record, and upper records up to a
level. -/
structure Inserted (id bound : Nat) (elem : P) [Inhabited P] (store : GraphStore P V D)
    (levels : Nat -> Nat) (after : GraphStore P V D) (levelsAfter : Nat -> Nat) : Prop where
  extends_ : Extends store levels after levelsAfter
  base : ∀ other, other < after.base.length ↔ other < store.base.length ∨ other = id
  freeIds : after.freeIds = store.freeIds.erase id
  cleared : FreeCleared store -> FreeCleared after
  elems : after.elems = setGrow store.elems id elem default
  underVacuum : after.underVacuum = store.underVacuum
  records : ∀ (idx : Nat) (point : Point D), after.upper[idx]? = some point ->
    (∃ before, store.upper[idx]? = some before ∧ before.id = point.id ∧
      levelsAfter idx = levels idx) ∨
    (point.id = some id ∧ levelsAfter idx <= bound)

theorem Inserted.raise [Inhabited P] {elem : P} {levelsBetween : Nat -> Nat}
    (new : Inserted id bound elem store levels between levelsBetween)
    (raised : Raised id bound between levelsBetween after levelsAfter) :
    Inserted id bound elem store levels after levelsAfter := by
  refine ⟨new.extends_.trans raised.extends_, ?_, raised.freeIds.trans new.freeIds, ?_,
    raised.elems.trans new.elems, raised.underVacuum.trans new.underVacuum, ?_⟩
  · intro other
    rw [raised.base]
    exact new.base other
  · intro cleared id free point found
    rw [raised.freeIds] at free
    rw [raised.base] at found
    exact new.cleared cleared id free point found
  · intro idx point found
    rcases raised.records idx point found with ⟨before, beforeFound, sameId, sameLevel⟩ | added
    · rcases new.records idx before beforeFound with
        ⟨first, firstFound, sameFirst, sameFirstLevel⟩ | ⟨owned, bounded⟩
      · exact .inl ⟨first, firstFound, sameFirst.trans sameId, sameLevel.trans sameFirstLevel⟩
      · exact .inr ⟨sameId ▸ owned, sameLevel ▸ bounded⟩
    · exact .inr added

theorem Inserted.relink [Inhabited P] {elem : P}
    (new : Inserted id bound elem store levels between levelsAfter)
    (relinked : Relinked .base newPoint changed between after)
    (used : ∀ position ∈ changed, position ∉ between.freeIds) :
    Inserted id bound elem store levels after levelsAfter := by
  refine ⟨new.extends_.trans (relinked.skeleton.extends levelsAfter), ?_,
    relinked.skeleton.freeIds.trans new.freeIds, ?_, relinked.elems.trans new.elems,
    relinked.underVacuum.trans new.underVacuum, ?_⟩
  · intro other
    rw [relinked.skeleton.base]
    exact new.base other
  · intro cleared id free point found
    rw [relinked.skeleton.freeIds] at free
    have kept : between.base[id]? = some point :=
      (relinked.kept .base id (fun both => used id both.2 free)).symm.trans found
    exact new.cleared cleared id free point kept
  · intro idx point found
    have kept : between.upper[idx]? = some point :=
      (relinked.kept .upper idx (fun both => absurd both.1 (by decide))).symm.trans found
    exact new.records idx point kept

section Insert

variable [Inhabited P] [Inhabited V] {pt : PointType P Tid} {store : GraphStore P V D}
  {levels : Nat -> Nat}

section

omit [Inhabited P] [Inhabited V]

variable (new : NewRecord store after .base id point)
include new

theorem NewRecord.cleared (graph : Linked params strict store levels) (cleared : FreeCleared store)
    : FreeCleared after := by
  intro other free record found
  obtain ⟨free, untouched⟩ := new.of_mem_freeList graph .base free
  exact cleared other free record ((new.kept .base other untouched).symm.trans found)

theorem NewRecord.summit (graph : Linked params strict store levels) :
    Summit after levels 0 id id := by
  refine ⟨(new.related_base_iff graph).2 (.inr ⟨rfl, rfl, rfl⟩), ?_⟩
  intro _ higher _ related
  rcases (new.related_base_iff graph).1 related with before | ⟨rfl, -⟩
  · exact new.unrelated before
  · exact absurd higher (lt_irrefl 0)

end

variable (pt) in
/-- A new point is linked on every level it belongs to. -/
theorem insertNewPoint_spec (query : V) (tid : Tid) {ep : List (Candidate V D)}
    {nbrRecord : List (List (Candidate V D))} (graph : Linked params strict store levels)
    (points : PointsOf store levels 0 ep) (above : PointsAbove store levels 0 nbrRecord)
    (bounded : nbrRecord.length <= bound) :
    ∃ levelsAfter,
      let result := insertNewPoint params (impl params pt) query tid store ep nbrRecord
      result.2.1 = store.nextId .base ∧ Linked params strict result.1 levelsAfter ∧
        Inserted result.2.1 bound (pt.init tid) store levels result.1 levelsAfter ∧
        result.1.entry = store.entry ∧
        Summit result.1 levelsAfter nbrRecord.length result.2.1 result.2.2 := by
  let id := store.nextId .base
  let neighbors := selectNeighbors params .base ep
  let elems := setGrow (store.assign params .base).elems id (pt.init tid) default
  let written := addPoint params (impl params pt) .base id none none neighbors
    (store.assign params .base)
  let start : GraphStore P V D := { written with
    elems := elems
    vectors := setGrow written.vectors id (params.encode query) default }
  have chosen : PointsOf store levels 0 neighbors := points.selectNeighbors .base
  obtain ⟨record, new, slots⟩ : ∃ record, NewRecord store written .base id record ∧
      record.neighbors = neighborSlots params .base neighbors := by
    obtain ⟨_, new⟩ := newRecord_assign params store .base (graph.freeList_lt .base) _
    exact ⟨_, new, rfl⟩
  have started := new.of_sameGraph (⟨rfl, rfl, rfl, rfl, rfl, rfl⟩ : SameGraph written start)
  have shaped : Shaped params strict .base id record :=
    shaped_neighborSlots params .base neighbors slots (length_selectNeighbors_le params .base ep)
      chosen.distinct (by
        intro _ isOwn cand present same
        have isNew : cand.id = id := same.trans (some.inj isOwn).symm
        exact started.unrelated (isNew ▸ chosen.related cand present))
  have linked : ∀ neighbor ∈ validNeighbors record.neighbors,
      Related store levels 0 neighbor.1 neighbor.2 := by
    intro _ present
    rw [slots, validNeighbors_neighborSlots] at present
    obtain ⟨cand, candPresent, rfl⟩ := mem_map.1 present
    exact chosen.related cand candPresent
  have startGraph := started.linked_base graph shaped linked
  have summit : Summit start levels 0 id id := started.summit graph
  have inserted : Inserted id bound (pt.init tid) store levels start levels := by
    refine ⟨started.extends_base graph, started.lt_length_iff, started.taken,
      started.cleared graph, ?_, started.underVacuum, ?_⟩
    · exact congrArg (fun list => setGrow list id (pt.init tid) default)
        (elems_assign params store .base)
    intro idx point found
    have kept : store.upper[idx]? = some point :=
      (started.kept .upper idx (fun both => absurd both.1 (by decide))).symm.trans found
    exact .inl ⟨point, kept, rfl, rfl⟩
  obtain ⟨linkedGraph, relinked⟩ := updateReverseEdges_new pt 0 graph started inserted.extends_
    startGraph summit.here (fun _ => started.unrelated) chosen
  have linkedBack := inserted.relink relinked (by
    intro _ present
    obtain ⟨nbr, nbrPresent, rfl⟩ := mem_map.1 present
    exact ((chosen.related nbr nbrPresent).mono inserted.extends_).notMem_freeList)
  obtain ⟨levelsAfter, lastGraph, raised, lastSummit⟩ := insertUppers_spec pt linkedGraph
    (summit.of_sameSkeleton relinked.skeleton) (above.mono linkedBack.extends_)
    (zero_add nbrRecord.length ▸ bounded)
  rw [zero_add] at lastSummit
  exact ⟨levelsAfter, rfl, lastGraph, linkedBack.raise raised,
    raised.entry.trans (relinked.entry.trans started.entry), lastSummit⟩

variable (params pt) in
/-- Raising the entry point to a new point that is higher. -/
theorem updateEntry_spec
    (graph : Linked params strict store levels) (summit : Summit store levels level id idx)
    (reached : level = min insertLevel entryLevel) :
    ∃ levelsAfter,
      let after := updateEntry params (impl params pt) store id idx entryLevel insertLevel
      Linked params strict after levelsAfter ∧
        (∃ raised, Raised id insertLevel store levels raised levelsAfter ∧
          SameSkeleton raised after ∧ after.base = raised.base ∧ after.elems = raised.elems ∧
          after.underVacuum = raised.underVacuum) ∧
        (if entryLevel < insertLevel then
          ∃ top, after.entry = some ⟨id, top, insertLevel⟩ else after.entry = store.entry) := by
  rw [updateEntry]
  by_cases higher : entryLevel < insertLevel
  · have start : level + (insertLevel - entryLevel) = insertLevel := by omega
    obtain ⟨levelsAfter, newGraph, raised, newSummit⟩ := addFirstUpperpoints_spec pt
      (insertLevel - entryLevel) graph summit (le_of_eq start)
    rw [start] at newSummit
    simp only [if_pos higher]
    refine ⟨levelsAfter, newGraph.setEntrypoint ?_, ⟨_, raised, ⟨rfl, fun _ => rfl, rfl, rfl⟩,
      rfl, rfl, rfl⟩, _, rfl⟩
    rintro _ isEntry
    cases isEntry
    exact newSummit.here
  · simp only [if_neg higher]
    exact ⟨levels, graph, ⟨store, Raised.refl id insertLevel store levels,
      SameSkeleton.refl store, rfl, rfl, rfl⟩, trivial⟩

section

omit [Inhabited P] [Inhabited V]

theorem shaped_empty {layer : Layer}
    (slots : point.neighbors = replicate (params.nbrNum layer) none) :
    Shaped params strict layer idx point := by
  refine shaped_neighborSlots params layer ([] : List (Candidate V D)) ?_ (zero_le _)
    nodup_nil nofun
  rw [slots, neighborSlots_nil]

/-- A base record without neighbours, written over whatever the record held. -/
theorem Linked.clearBase (graph : Linked params strict store levels) (idx : Nat)
    (slots : ∀ point, (change point).neighbors = replicate (params.nbrNum .base) none) :
    Linked params strict (store.modifyPoint .base idx change) levels := by
  refine graph.modifyPoint nofun nofun nofun ?_ ?_
  · exact fun point _ => shaped_empty (slots point)
  · intro _ _ _ present
    rw [slots, validNeighbors_replicate_none] at present
    cases present

theorem FreeCleared.clearBase (cleared : FreeCleared store) (idx : Nat)
    (slots : ∀ point, (change point).neighbors = replicate (params.nbrNum .base) none) :
    FreeCleared (store.modifyPoint .base idx change) := by
  intro id free point found
  have read := store.getElem?_layer_modifyPoint .base idx change .base id
  rw [show ((store.modifyPoint .base idx change).layer .base)[id]? = some point from found] at read
  split at read
  · obtain ⟨_, -, rfl⟩ := map_eq_some_iff.1 read.symm
    rw [slots, validNeighbors_replicate_none]
  · exact cleared id free point read.symm

end

variable (params) in
/-- The record of a point inserted without an entry point gets written. -/
def FirstReady (store : GraphStore P V D) : Prop :=
  store.base = [] ∨ params.zeroFilled = false ∨
    (store.freeIds ≠ [] ∧ store.underVacuum = false)

omit [Inhabited P] [Inhabited V] in
/-- The first point gets an empty list: its id comes from the free list, or the
record written at index zero is its own, or a fresh record is empty by itself. -/
theorem insertFirst_base (graph : Linked params strict store levels)
    (ready : FirstReady params store)
    (slots : ∀ point, (change point).neighbors = replicate (params.nbrNum .base) none) :
    ∃ between point, NewRecord store between .base (store.nextId .base) point ∧
      Linked params strict ((store.assign params .base).modifyPoint .base 0 change) levels ∧
      SameSkeleton between ((store.assign params .base).modifyPoint .base 0 change) ∧
      (FreeCleared store ->
        FreeCleared ((store.assign params .base).modifyPoint .base 0 change)) := by
  have inBounds := graph.freeList_lt .base
  rcases nextId_cases params store .base with ⟨assigned, next⟩ | ⟨assigned, _, _⟩
  · have unfree : ¬ (store.freeIds ≠ [] ∧ store.underVacuum = false) := by
      rintro ⟨nonempty, idle⟩
      obtain ⟨head, _, list⟩ := exists_cons_of_ne_nil nonempty
      have headBound := graph.freeIds_lt head (by simp [list])
      rw [nextId, if_neg (by simp [idle]), freeList, list] at next
      exact absurd (show head = store.base.length from next) (Nat.ne_of_lt headBound)
    by_cases empty : store.base = []
    · have zero : store.nextId .base = 0 := by
        rw [next, layer, empty]
        rfl
      obtain ⟨point, new⟩ := newRecord_assign params store .base inBounds change
      rw [zero] at new ⊢
      refine ⟨_, _, new, new.linked_base graph (shaped_empty (slots point)) ?_,
        SameSkeleton.refl _, new.cleared graph⟩
      intro neighbor present
      rw [slots, validNeighbors_replicate_none] at present
      cases present
    · have unfilled : params.zeroFilled = false :=
        (ready.resolve_left empty).resolve_right unfree
      obtain ⟨point, new⟩ := newRecord_assign params store .base inBounds id
      rw [modifyPoint_id] at new
      have blank : point = GraphStore.blank params .base := by
        have added := new.added
        rw [assigned, next, layer_withLayer_self, getElem?_concat_length] at added
        exact (some.inj added).symm
      have slotsBlank : point.neighbors = replicate (params.nbrNum .base) none := by
        rw [blank, GraphStore.blank, unfilled]
        rfl
      refine ⟨_, point, new, (new.linked_base graph (shaped_empty slotsBlank) ?_).clearBase 0 slots,
        sameSkeleton_modifyPoint _ _ _ Layer.noConfusion,
        fun cleared => (new.cleared graph cleared).clearBase 0 slots⟩
      intro _ present
      rw [id_eq, slotsBlank, validNeighbors_replicate_none] at present
      cases present
  · obtain ⟨point, new⟩ := newRecord_assign params store .base inBounds id
    rw [modifyPoint_id] at new
    have found : store.base[store.nextId .base]? = some point := by
      have added := new.added
      rwa [assigned, layer_withFreeList] at added
    have record := graph.points .base _ point found
    exact ⟨_, point, new, (new.linked_base graph record.shaped record.linked).clearBase 0 slots,
      sameSkeleton_modifyPoint _ _ _ Layer.noConfusion,
      fun cleared => (new.cleared graph cleared).clearBase 0 slots⟩

variable (pt) in
/-- The first point of a graph. -/
theorem insertFirst_spec (query : V) (tid : Tid) (graph : Linked params strict store levels)
    (ready : FirstReady params store) :
    let result := insertFirst params (impl params pt) query tid store
    result.2 = store.nextId .base ∧ Linked params strict result.1 levels ∧
      Inserted result.2 0 (pt.init tid) store levels result.1 levels ∧
      result.1.entry = some ⟨result.2, result.2, 0⟩ := by
  let first := (store.assign params .base).modifyPoint .base 0 fun point =>
    { point with
      neighbors := replicate (params.nbrNum .base) none
      lowerLayerIdx := none
      id := none
      dists := (none : Option (List D)).getD point.dists
      hasStat := false }
  obtain ⟨between, point, new, firstGraph, same, firstCleared⟩ : ∃ between point,
      NewRecord store between .base (store.nextId .base) point ∧
        Linked params strict first levels ∧ SameSkeleton between first ∧
        (FreeCleared store -> FreeCleared first) :=
    insertFirst_base graph ready (fun _ => rfl)
  let after := (insertFirst params (impl params pt) query tid store).1
  have sameAfter : SameSkeleton first after := ⟨rfl, fun _ => rfl, rfl, rfl⟩
  have whole := same.trans sameAfter
  have related : Related after levels 0 (store.nextId .base) (store.nextId .base) :=
    whole.related_iff.2 ((new.related_base_iff graph).2 (.inr ⟨rfl, rfl, rfl⟩))
  refine ⟨rfl, ?_, ?_, rfl⟩
  · let entered := { first with entry := some ⟨store.nextId .base, store.nextId .base, 0⟩ }
    have enteredGraph : Linked params strict entered levels := firstGraph.setEntrypoint (by
      rintro _ isEntry
      cases isEntry
      exact sameAfter.related_iff.1 related)
    have sameGraph : SameGraph entered after := ⟨rfl, rfl, rfl, rfl, rfl, rfl⟩
    exact sameGraph.linked enteredGraph
  · refine ⟨(new.extends_base graph).trans (whole.extends levels), ?_,
      whole.freeIds.trans new.taken, firstCleared, ?_, ?_, ?_⟩
    · intro other
      rw [whole.base]
      exact new.lt_length_iff other
    · exact congrArg (fun list => setGrow list (store.nextId .base) (pt.init tid) default)
        (elems_assign params store .base)
    · exact (underVacuum_modifyPoint _ _ _ _).trans
        (underVacuum_assign params store .base)
    · intro idx _ found
      obtain ⟨before, beforeFound, sameId⟩ := whole.exists_before found
      have kept : store.upper[idx]? = some before :=
        (new.kept .upper idx (fun both => absurd both.1 (by decide))).symm.trans beforeFound
      exact .inl ⟨before, kept, sameId, rfl⟩

/-- A row added to an element that still has rows. -/
def Refill (pt : PointType P Tid) (tid : Tid) (before after : List P) : Prop :=
  ∃ id, pt.empty (before.getD id default) = false ∧
    after = before.modify id fun point => (pt.insertTid point tid).2

/-- Adding a row to existing points leaves the graph as it is. -/
structure Arranged (pt : PointType P Tid) (tid : Tid) (store after : GraphStore P V D) : Prop where
  graph : SameGraph store after
  elems : Relation.ReflTransGen (Refill pt tid) store.elems after.elems

theorem applyArrangement_arranged (query : V) (tid : Tid) (candidates : List (Candidate V D)) :
    Arranged pt tid store
      (applyArrangement params pt (impl params pt) query tid store candidates).1 := by
  induction candidates generalizing store with
  | nil => exact ⟨⟨rfl, rfl, rfl, rfl, rfl, rfl⟩, .refl⟩
  | cons cand rest ih =>
    rw [applyArrangement]
    split
    · simp only
      split
      · exact ih
      next live =>
        let written := (impl params pt).write store (.insertTid cand.id tid)
        have sameGraph : SameGraph store written := ⟨rfl, rfl, rfl, rfl, rfl, rfl⟩
        have refill : Refill pt tid store.elems written.elems :=
          ⟨cand.id, Bool.not_eq_true _ ▸ live, rfl⟩
        split
        · exact ⟨sameGraph, .single refill⟩
        · obtain ⟨restGraph, restElems⟩ : Arranged pt _ _ _ := ih
          exact ⟨sameGraph.trans restGraph, .head refill restElems⟩
    · exact ⟨⟨rfl, rfl, rfl, rfl, rfl, rfl⟩, .refl⟩

/-- What one insert does to a graph in order: the row joins a point it has, or a
new point is added and the entry point is raised to it if it is higher. -/
inductive InsertEffect (pt : PointType P Tid) (tid : Tid) (id insertLevel : Nat)
    (entry : EntryInfo) (store : GraphStore P V D) (levels : Nat -> Nat)
    (after : GraphStore P V D) (levelsAfter : Nat -> Nat) : Prop
  | merged : Arranged pt tid store after -> levelsAfter = levels ->
      InsertEffect pt tid id insertLevel entry store levels after levelsAfter
  | added (between : GraphStore P V D) : Arranged pt tid store between ->
      id = between.nextId .base ->
      Inserted id insertLevel (pt.init tid) between levels after levelsAfter ->
      (if entry.level < insertLevel then ∃ top, after.entry = some ⟨id, top, insertLevel⟩
        else after.entry = between.entry) ->
      InsertEffect pt tid id insertLevel entry store levels after levelsAfter

omit [Inhabited V] in
theorem Inserted.of_sameSkeleton {elem : P}
    (new : Inserted id bound elem store levels between levelsAfter)
    (same : SameSkeleton between after) (sameBase : after.base = between.base)
    (sameElems : after.elems = between.elems)
    (sameVacuum : after.underVacuum = between.underVacuum) :
    Inserted id bound elem store levels after levelsAfter := by
  refine ⟨new.extends_.trans (same.extends levelsAfter), ?_, same.freeIds.trans new.freeIds, ?_,
    sameElems.trans new.elems, sameVacuum.trans new.underVacuum, ?_⟩
  · intro other
    rw [same.base]
    exact new.base other
  · intro cleared id free point found
    rw [same.freeIds] at free
    rw [sameBase] at found
    exact new.cleared cleared id free point found
  · intro idx _ found
    obtain ⟨before, beforeFound, sameId⟩ := same.exists_before found
    rcases new.records idx before beforeFound with ⟨first, firstFound, sameFirst, level⟩ | added
    · exact .inl ⟨first, firstFound, sameFirst.trans sameId, level⟩
    · exact .inr (sameId ▸ added)

theorem insert_of_entry_none
    (query : V) (tid : Tid) (insertLevel : Nat) (isEntry : store.entry = none) :
    insert params pt (impl params pt) query tid insertLevel store =
      insertFirst params (impl params pt) query tid store := by
  rw [insert]
  simp only [isEntry]

variable (pt) in
/-- `insert` keeps the graph in order. -/
theorem insert_linked (query : V) (tid : Tid) (insertLevel : Nat) {entry : EntryInfo}
    (graph : Linked params strict store levels) (isEntry : store.entry = some entry) :
    ∃ levelsAfter,
      let result := insert params pt (impl params pt) query tid insertLevel store
      Linked params strict result.1 levelsAfter ∧
        InsertEffect pt tid result.2 insertLevel entry store levels result.1 levelsAfter := by
  obtain ⟨reached, above, points⟩ := insertSearch_spec graph isEntry query insertLevel
  have arranged : Arranged pt tid store (applyArrangement params pt (impl params pt)
      query tid store (getNeighborsData store
        (insertSearch params store entry query insertLevel).2)).1 :=
    applyArrangement_arranged query tid _
  rw [insert]
  simp only [impl, isEntry] at arranged ⊢
  generalize applyArrangement params pt _ query tid store _ = applied at arranged ⊢
  obtain ⟨between, merged⟩ := applied
  cases merged with
  | some => exact ⟨levels, arranged.graph.linked graph, .merged arranged rfl⟩
  | none =>
    have extension := arranged.graph.sameSkeleton.extends levels
    have start := arranged.graph.linked graph
    obtain ⟨_, isNext, newGraph, inserted, sameEntry, summit⟩ :=
      insertNewPoint_spec pt query tid start (points.mono extension).getNeighborsData
        (above.mono extension) (le_trans (le_of_eq reached) (min_le_left _ _))
    obtain ⟨levelsAfter, lastGraph, ⟨_, raised, same, sameBase, sameElems, sameVacuum⟩, entered⟩ :=
      updateEntry_spec params pt newGraph summit reached
    rw [sameEntry] at entered
    exact ⟨levelsAfter, lastGraph, .added between arranged isNext
      ((inserted.raise raised).of_sameSkeleton same sameBase sameElems sameVacuum) entered⟩

end Insert

end VexDB.GraphIndex
