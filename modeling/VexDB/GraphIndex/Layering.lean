import VexDB.GraphIndex.Structure

/-!
# Layers over runs of inserts

After any sequence of inserts every upper record has one level: its lower
indices lead down to the base record of its point in as many steps, its slots
stay on the level, and the entry point is on the highest one.
-/

namespace VexDB.GraphIndex

open GraphStore

variable {P V D Tid : Type*} {params : Params V D} {store : GraphStore P V D} {levels : Nat -> Nat}

section Following

variable {strict : Bool} {store : GraphStore P V D} {levels : Nat -> Nat}

variable (params store) in
/-- Follow the lower index of upper records a number of times. -/
def followLower : Nat -> Nat -> Option Nat
  | 0, idx => some idx
  | steps + 1, idx => (store.pointInfo params .upper idx).lowerLayerIdx.bind (followLower steps)

/-- The lower indices of a point lead to its base record. -/
theorem Linked.followLower_eq (graph : Linked params strict store levels) {level id idx : Nat}
    (related : Related store levels level id idx) :
    followLower params store level idx = some id := by
  induction level generalizing idx with
  | zero =>
    obtain ⟨rfl, -⟩ := related
    rfl
  | succ level ih =>
    obtain ⟨_, lowEq, lowRelated⟩ := graph.lower_related related
    rw [followLower, lowEq, Option.bind_some]
    exact ih lowRelated

/-- In a packed list every valid slot is read. -/
theorem Packed.mem_validNeighbors (packed : Packed slots)
    (present : some neighbor ∈ slots) : neighbor ∈ validNeighbors slots := by
  induction slots with
  | nil => cases present
  | cons first slots ih =>
    cases first with
    | none =>
      have invalid := packed _ present
      cases invalid
    | some head =>
      rcases List.mem_cons.1 present with same | rest
      · exact List.mem_cons.2 (.inl (Option.some.inj same))
      · exact List.mem_cons_of_mem _ (ih (packed_cons_some.1 packed) rest)

end Following

/-- A point is the record at an index of a level; on level 0 the index is the id. -/
def OnLevel (store : GraphStore P V D) (levels : Nat -> Nat) (level id idx : Nat) : Prop :=
  match level with
  | 0 => idx = id ∧ id < store.base.length
  | level + 1 => levels idx = level + 1 ∧
      ∃ point, store.upper[idx]? = some point ∧ point.id = some id

/-- The layers of a graph agree with an assignment of levels to upper records. -/
structure LayersOk (params : Params V D) (store : GraphStore P V D) (levels : Nat -> Nat) :
    Prop where
  /-- Every upper record is above the base record of its point. -/
  leveled : ∀ (idx : Nat) (point : Point D), store.upper[idx]? = some point ->
    1 <= levels idx ∧ ∃ id, point.id = some id ∧ id < store.base.length ∧
      followLower params store (levels idx) idx = some id
  /-- Slots refer to records of the same level and of the id next to them. -/
  sameLevel : ∀ (idx : Nat) (point : Point D), store.upper[idx]? = some point ->
    ∀ nid nidx, some (nid, nidx) ∈ point.neighbors ->
      levels nidx = levels idx ∧ ∃ other, store.upper[nidx]? = some other ∧ other.id = some nid
  /-- The entry point is a point of the highest level. -/
  entered : ∀ entry, store.entry = some entry ->
    OnLevel store levels entry.level entry.id entry.curLayerIdx ∧
      ∀ idx, idx < store.upper.length -> levels idx <= entry.level
  /-- Only an empty graph has no entry point. -/
  nonempty : store.entry = none -> store.base = [] ∧ store.upper = []

/-- What a run of inserts keeps. -/
structure Layered (params : Params V D) (store : GraphStore P V D) (levels : Nat -> Nat) :
    Prop where
  linked : Linked params true store levels
  owned : ∀ (idx : Nat) (point : Point D), store.upper[idx]? = some point ->
    ∃ id, point.id = some id
  top : ∀ entry, store.entry = some entry ->
    ∀ (idx : Nat) (point : Point D), store.upper[idx]? = some point -> levels idx <= entry.level
  nonempty : store.entry = none -> store.base = [] ∧ store.upper = []

theorem Related.onLevel {level id idx : Nat} (related : Related store levels level id idx) :
    OnLevel store levels level id idx := by
  cases level with
  | zero => exact ⟨related.1, related.2.1⟩
  | succ => exact ⟨related.1.1, related.1.2.2⟩

theorem Layered.layersOk (layered : Layered params store levels) :
    LayersOk params store levels := by
  obtain ⟨graph, owned, top, nonempty⟩ := layered
  constructor
  case leveled =>
    intro idx point found
    obtain ⟨id, isOwner⟩ := owned idx point found
    obtain ⟨level, levelEq, related⟩ := graph.related_of_owned found isOwner
    refine ⟨by omega, id, isOwner, related.lt.1, ?_⟩
    rw [levelEq]
    exact graph.followLower_eq related
  case sameLevel =>
    intro idx point found nid nidx present
    obtain ⟨id, isOwner⟩ := owned idx point found
    obtain ⟨level, levelEq, -⟩ := graph.related_of_owned found isOwner
    have record := graph.points .upper idx point found
    have linked := record.linked (nid, nidx) (record.shaped.packed.mem_validNeighbors present)
    rw [levelOf, levelEq] at linked
    exact ⟨linked.1.1.trans levelEq.symm, linked.1.2.2⟩
  case entered =>
    intro entry isEntry
    refine ⟨(graph.entered entry isEntry).onLevel, ?_⟩
    intro idx inBounds
    exact top entry isEntry idx _ (List.getElem?_eq_getElem inBounds)
  case nonempty => exact nonempty

section Runs

variable [Inhabited P] [Inhabited V] (pt : PointType P Tid)

variable (params) in
/-- The store after inserting rows at the given levels. -/
def runInserts (rows : List (V × Tid × Nat)) : GraphStore P V D :=
  rows.foldl (fun store row =>
    (insert params pt (GraphStore.impl params pt) row.1 row.2.1 row.2.2 store).1) GraphStore.empty

/-- One insert. -/
theorem Layered.insert (layered : Layered params store levels) (query : V) (tid : Tid)
    (insertLevel : Nat) :
    ∃ levelsAfter, Layered params
      (insert params pt (impl params pt) query tid insertLevel store).1 levelsAfter := by
  obtain ⟨graph, owned, top, nonempty⟩ := layered
  cases isEntry : store.entry with
  | none =>
    obtain ⟨emptyBase, emptyUpper⟩ := nonempty isEntry
    obtain ⟨-, after, inserted, entered⟩ := insertFirst_spec pt query tid graph (.inl emptyBase)
    rw [insert_of_entry_none query tid insertLevel isEntry]
    refine ⟨levels, after, ?_, ?_, ?_⟩
    · intro idx point found
      rcases inserted.records idx point found with ⟨before, beforeFound, -, -⟩ | ⟨isOwner, -⟩
      · rw [emptyUpper] at beforeFound
        cases beforeFound
      · exact ⟨_, isOwner⟩
    · intro entry _ idx point found
      rcases inserted.records idx point found with ⟨before, beforeFound, -, -⟩ | ⟨-, bounded⟩
      · rw [emptyUpper] at beforeFound
        cases beforeFound
      · exact bounded.trans (Nat.zero_le _)
    · intro lost
      cases entered.symm.trans lost
  | some entry =>
    obtain ⟨levelsAfter, after, effect⟩ := insert_linked pt query tid insertLevel graph isEntry
    refine ⟨levelsAfter, ?_⟩
    cases effect with
    | merged arranged sameLevels =>
      obtain ⟨base, upper, sameEntry, -⟩ := arranged.graph
      subst sameLevels
      rw [<- upper] at owned top
      rw [<- sameEntry] at top nonempty
      exact ⟨after, owned, top, fun lost => base.symm ▸ upper.symm ▸ nonempty lost⟩
    | added between arranged _ inserted entered =>
      rw [<- arranged.graph.upper] at owned top
      obtain ⟨raised, isRaised, old, new⟩ : ∃ raised,
          (GraphIndex.insert params pt (impl params pt) query tid insertLevel
            store).1.entry = some raised ∧
          entry.level <= raised.level ∧ insertLevel <= raised.level := by
        by_cases higher : entry.level < insertLevel
        · rw [if_pos higher] at entered
          obtain ⟨idx, isTop⟩ := entered
          exact ⟨_, isTop, Nat.le_of_lt higher, Nat.le_refl _⟩
        · rw [if_neg higher, arranged.graph.entry, isEntry] at entered
          exact ⟨entry, entered, Nat.le_refl _, Nat.le_of_not_lt higher⟩
      refine ⟨after, ?_, ?_, fun lost => nomatch isRaised.symm.trans lost⟩
      · intro idx point found
        rcases inserted.records idx point found with ⟨before, beforeFound, same, -⟩ | new
        · exact same ▸ owned idx before beforeFound
        · exact ⟨_, new.1⟩
      · intro _ isCurrent idx point found
        cases isRaised.symm.trans isCurrent
        rcases inserted.records idx point found with ⟨before, beforeFound, -, same⟩ | added
        · exact same ▸ (top entry isEntry idx before beforeFound).trans old
        · exact added.2.trans new

/-- The layers are consistent after any sequence of inserts. -/
theorem layers_consistent (rows : List (V × Tid × Nat)) :
    ∃ levels, LayersOk params (runInserts params pt rows) levels := by
  have start : Layered params (empty : GraphStore P V D) (fun _ => 0) :=
    { linked := linked_empty true _
      owned := fun _ _ found => absurd found (by simp [empty])
      top := fun _ isEntry => absurd isEntry (by simp [empty])
      nonempty := fun _ => ⟨rfl, rfl⟩ }
  suffices run : ∀ (store : GraphStore P V D) (levels : Nat -> Nat), Layered params store levels ->
      ∃ levelsAfter, Layered params (rows.foldl (fun store row =>
        (insert params pt (impl params pt) row.1 row.2.1 row.2.2 store).1) store)
          levelsAfter by
    obtain ⟨levels, layered⟩ := run _ _ start
    exact ⟨levels, layered.layersOk⟩
  induction rows with
  | nil => exact fun store levels layered => ⟨levels, layered⟩
  | cons row rest ih =>
    intro _ _ layered
    obtain ⟨levelsAfter, next⟩ := layered.insert pt row.1 row.2.1 row.2.2
    exact ih _ levelsAfter next

end Runs

end VexDB.GraphIndex
