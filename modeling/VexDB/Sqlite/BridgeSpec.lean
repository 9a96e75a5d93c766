import VexDB.Sqlite.Bridge

/-!
# What the marks of a bridge cover

Every write of an insert marks the segment it touches, except a row added to an
existing node and, in memory, a code added to a compact graph.  As long as those
two find their segment marked already, the stored segments and the marked ones
together are the graph, so one `SerializeV2` stores it and `OpenV2` reads it back.
-/

namespace VexDB.Sqlite
namespace Bridge

open GraphIndex Storage List Option Function SegmentedArray

variable {V C D Q X : Type*} [Inhabited V] [Inhabited C] {setup : Setup V C D Q} {quantizer : Q}
  {vectors : List V}

section Evict

/-- What dropping cached segments leaves: the arrays, and what they cover. -/
structure Settles (setup : Setup V C D Q) (before after : Impl V C D Q) : Prop where
  elems : after.elems = before.elems
  upper : after.upper = before.upper
  baseArray : after.base.array = before.base.array
  vectorsArray : after.vectors.array = before.vectors.array
  codesArray : after.codes.array = before.codes.array
  base : ∀ pending, before.base.Tracked (baseLayout setup) pending ->
    after.base.Tracked (baseLayout setup) pending
  vectors : ∀ pending, before.vectors.Tracked vecLayout pending ->
    after.vectors.Tracked vecLayout pending
  codes : ∀ pending, before.codes.Tracked (codesLayout setup) pending ->
    after.codes.Tracked (codesLayout setup) pending
  codesDirty : setup.disk = false -> after.codes.dirty = before.codes.dirty
  entry : after.entry = before.entry
  quantizer : after.quantizer = before.quantizer
  released : after.released = before.released
  fixedDirty : after.fixedDirty = before.fixedDirty
  fixed : after.fixed = before.fixed

theorem Settles.refl (impl : Impl V C D Q) : Settles setup impl impl :=
  ⟨rfl, rfl, rfl, rfl, rfl, fun _ tracked => tracked, fun _ tracked => tracked,
    fun _ tracked => tracked, fun _ => rfl, rfl, rfl, rfl, rfl, rfl⟩

theorem Settles.trans {first second third : Impl V C D Q}
    (one : Settles setup first second) (two : Settles setup second third) :
    Settles setup first third where
  elems := two.elems.trans one.elems
  upper := two.upper.trans one.upper
  baseArray := two.baseArray.trans one.baseArray
  vectorsArray := two.vectorsArray.trans one.vectorsArray
  codesArray := two.codesArray.trans one.codesArray
  base pending tracked := two.base pending (one.base pending tracked)
  vectors pending tracked := two.vectors pending (one.vectors pending tracked)
  codes pending tracked := two.codes pending (one.codes pending tracked)
  codesDirty memory := (two.codesDirty memory).trans (one.codesDirty memory)
  entry := two.entry.trans one.entry
  quantizer := two.quantizer.trans one.quantizer
  released := two.released.trans one.released
  fixedDirty := two.fixedDirty.trans one.fixedDirty
  fixed := two.fixed.trans one.fixed

theorem dropSegment_settles (onDisk : setup.disk = true) (impl : Impl V C D Q)
    (segment : Cached × Nat) : Settles setup impl (dropSegment setup impl segment) := by
  obtain ⟨kind, seg⟩ := segment
  have notMemory : ∀ {P : Prop}, setup.disk = false -> P := fun memory => by
    rw [onDisk] at memory
    cases memory
  cases kind with
  | base =>
    exact { Settles.refl impl with
      baseArray := writeBack_array impl.base seg
      base := fun pending tracked => tracked.writeBack seg }
  | vec =>
    exact { Settles.refl impl with
      vectorsArray := writeBack_array impl.vectors seg
      vectors := fun pending tracked => tracked.writeBack seg }
  | codes =>
    exact { Settles.refl impl with
      codesArray := writeBack_array impl.codes seg
      codes := fun pending tracked => tracked.writeBack seg
      codesDirty := notMemory }

variable (setup) in
theorem evict_settles (impl : Impl V C D Q) : Settles setup impl (evict setup impl) := by
  rw [evict]
  split
  case isFalse => exact .refl impl
  case isTrue onDisk =>
    refine foldlRecOn (setup.dropped impl) _ (.refl impl) ?_
    exact fun between settled segment _ =>
      settled.trans (dropSegment_settles onDisk between segment)

end Evict

section Tracks

/-- Nothing waits for its mark. -/
def nonePending : Layer -> Finset Nat := fun _ => ∅

/-- Outside the marked and the pending segments the stored graph is the graph.
A compact graph stores no vectors, and only a quantized one stores codes. -/
structure Tracks (setup : Setup V C D Q) (pending : Layer -> Finset Nat) (impl : Impl V C D Q) :
    Prop where
  elems : impl.elems.Tracked elemsLayout ∅
  upper : impl.upper.Tracked upperLayout (pending .upper)
  base : impl.base.Tracked (baseLayout setup) (pending .base)
  vectors : setup.compactMode = false -> impl.vectors.Tracked vecLayout ∅
  codes : setup.quantized = true -> impl.codes.Tracked (codesLayout setup) ∅

variable {pending : Layer -> Finset Nat} {impl after : Impl V C D Q}

theorem Tracks.settle (tracks : Tracks setup pending impl) (settles : Settles setup impl after) :
    Tracks setup pending after where
  elems := settles.elems ▸ tracks.elems
  upper := settles.upper ▸ tracks.upper
  base := settles.base _ tracks.base
  vectors raw := settles.vectors _ (tracks.vectors raw)
  codes quantized := settles.codes _ (tracks.codes quantized)

/-- Change a record of a layer. -/
def modifyPoint (impl : Impl V C D Q) (layer : Layer) (idx : Nat) (change : Point D -> Point D) :
    Impl V C D Q :=
  match layer with
  | .base => { impl with base := impl.base.withArray (impl.base.array.modify idx change) }
  | .upper => { impl with upper := impl.upper.withArray (impl.upper.array.modify idx change) }

theorem modify_agrees {α β : Type*} (list : List α) (record : α -> β) {idx other : Nat}
    (change : α -> α) (different : other ≠ idx) :
    ((list.modify idx change)[other]?).map record = (list[other]?).map record := by
  simp [different.symm]

section

variable (tracks : Tracks setup pending impl)
include tracks

/-- A changed record whose segment is marked is not pending any more. -/
theorem Tracks.changePoint (layer : Layer) (idx : Nat) (change : Point D -> Point D) :
    Tracks setup (update pending layer ((pending layer).erase (idx / segRecords)))
      (markPoint setup (modifyPoint impl layer idx change) layer idx) := by
  cases layer with
  | base =>
    exact { tracks with
      base := tracks.base.change_mark fun other different =>
        modify_agrees impl.base.array _ change different
      upper := tracks.upper }
  | upper =>
    exact { tracks with
      upper := tracks.upper.change_mark fun other different =>
        modify_agrees impl.upper.array _ change different
      base := tracks.base }

theorem Tracks.markPoint (layer : Layer) (idx : Nat) :
    Tracks setup pending (markPoint setup impl layer idx) := by
  cases layer with
  | base => exact { tracks with base := tracks.base.mark idx }
  | upper => exact { tracks with upper := tracks.upper.mark idx }

/-- The occlusion bits are not stored. -/
theorem Tracks.changeStat (layer : Layer) (idx : Nat) (stat : List Bool) (hasStat : Bool) :
    Tracks setup pending (modifyPoint impl layer idx
      fun point => { point with stat := stat, hasStat := hasStat }) := by
  have kept : ∀ {β : Type _} (record : Point D -> β) (points : List (Point D)),
      (∀ point : Point D, record { point with stat := stat, hasStat := hasStat } = record point) ->
      (points.modify idx fun point => { point with stat := stat, hasStat := hasStat }).map record =
        points.map record := by
    intro β record points same
    refine ext_getElem? fun other => ?_
    rw [getElem?_map, getElem?_map, getElem?_modify]
    split
    · cases points[other]? with
      | none => rfl
      | some point => exact congrArg some (same point)
    · simp
  cases layer with
  | base =>
    exact { tracks with
      base := tracks.base.change_none (kept baseRecord impl.base.array fun _ => rfl) }
  | upper =>
    exact { tracks with
      upper := tracks.upper.change_none (kept upperRecord impl.upper.array fun _ => rfl) }

end

end Tracks

section NewNode

/-- A node was added: its rows, its base record, and the vectors and codes. -/
structure Grown (start : Impl V C D Q) (rowid : Rowid) (vectors : List V) (codes : List C)
    (impl : Impl V C D Q) : Prop where
  elems : impl.elems.array = start.elems.array ++ [[rowid]]
  base : impl.base.array.length = start.base.array.length + 1
  vectors : impl.vectors.array = vectors
  codes : impl.codes.array = codes
  quantizer : impl.quantizer = start.quantizer
  released : impl.released = start.released
  fixedDirty : impl.fixedDirty = start.fixedDirty
  fixed : impl.fixed = start.fixed

variable {start impl after : Impl V C D Q} {rowid : Rowid} {vectors : List V} {codes : List C}

section

variable (grown : Grown start rowid vectors codes impl)
include grown

theorem Grown.settle
    (settles : Settles setup impl after) : Grown start rowid vectors codes after where
  elems := settles.elems ▸ grown.elems
  base := settles.baseArray ▸ grown.base
  vectors := settles.vectorsArray.trans grown.vectors
  codes := settles.codesArray.trans grown.codes
  quantizer := settles.quantizer.trans grown.quantizer
  released := settles.released.trans grown.released
  fixedDirty := settles.fixedDirty.trans grown.fixedDirty
  fixed := settles.fixed.trans grown.fixed

omit [Inhabited V] [Inhabited C]

theorem Grown.markPoint (layer : Layer)
    (idx : Nat) : Grown start rowid vectors codes (markPoint setup impl layer idx) := by
  cases layer with
  | base => exact { grown with }
  | upper => exact { grown with }

theorem Grown.modifyPoint (layer : Layer) (idx : Nat) (change : Point D -> Point D) :
    Grown start rowid vectors codes (modifyPoint impl layer idx change) := by
  cases layer with
  | base => exact { grown with base := (length_modify ..).trans grown.base }
  | upper => exact { grown with }

end

theorem nonePending_erase (layer : Layer) (seg : Nat) :
    update nonePending layer ((nonePending layer).erase seg) = nonePending := by
  funext other
  rw [update_apply]
  split <;> simp [nonePending]

/-- A node was added, and the marks cover the graph. -/
structure Placed (setup : Setup V C D Q) (pending : Layer -> Finset Nat) (start : Impl V C D Q)
    (rowid : Rowid) (vectors : List V) (codes : List C) (impl : Impl V C D Q) : Prop where
  tracks : Tracks setup pending impl
  grown : Grown start rowid vectors codes impl

section Column

variable [Inhabited X] {column : Column V C D Q X} {pending : Layer -> Finset Nat}

theorem evict_grown (holds : Placed setup pending start rowid vectors codes impl) :
    Placed setup pending start rowid vectors codes (evict setup impl) :=
  ⟨holds.1.settle (evict_settles setup impl), holds.2.settle (evict_settles setup impl)⟩

/-- A record written with its mark. -/
theorem changePoint_grown (layer : Layer) (idx : Nat) (change : Point D -> Point D)
    (holds : Placed setup pending start rowid vectors codes impl) :
    Placed setup (update pending layer ((pending layer).erase (idx / segRecords)))
      start rowid vectors codes (markPoint setup (modifyPoint impl layer idx change) layer idx) :=
  ⟨holds.1.changePoint layer idx change, (holds.2.modifyPoint layer idx change).markPoint layer idx⟩

variable (column) in
/-- A new record is pending until it is written. -/
theorem assign_tracks (tracks : Tracks setup nonePending impl) (layer : Layer) :
    Tracks setup (update nonePending layer {((column.view impl).layer layer).length / segRecords})
      (column.write setup impl (.assign layer)) := by
  cases layer with
  | base => exact { tracks with base := tracks.base.append _, upper := tracks.upper }
  | upper => exact { tracks with upper := tracks.upper.append _, base := tracks.base }

theorem assigned_erase (layer : Layer) (seg : Nat) :
    update (update nonePending layer ({seg} : Finset Nat)) layer
      ((update nonePending layer ({seg} : Finset Nat) layer).erase seg) =
        nonePending := by
  rw [update_idem, update_self, Finset.erase_singleton]
  exact update_eq_self layer nonePending

/-- What follows the base record keeps the marks, the node and an entry point. -/
theorem grown_continues :
    Continues column.params (column.store setup) fun impl =>
      Placed setup nonePending start rowid vectors codes impl ∧ impl.entry ≠ none where
  stat state layer idx stat holds := by
    have written : column.write setup state (.setStat layer idx stat) =
        if layer = .upper ∨ setup.disk then
          markPoint setup (modifyPoint state layer idx fun point =>
            { point with stat := stat, hasStat := column.params.keepsStat }) layer idx
        else modifyPoint state layer idx fun point =>
          { point with stat := stat, hasStat := column.params.keepsStat } := by
      cases layer <;> rfl
    have kept : (column.write setup state (.setStat layer idx stat)).entry = state.entry := by
      rw [written]
      cases layer <;> split <;> rfl
    obtain ⟨⟨tracks, grown⟩, entered⟩ := holds
    have changed := tracks.changeStat layer idx stat column.params.keepsStat
    refine ⟨evict_grown ?_, by rwa [(evict_settles setup _).entry, kept]⟩
    rw [written]
    split
    · exact ⟨changed.markPoint layer idx, (grown.modifyPoint layer idx _).markPoint layer idx⟩
    · exact ⟨changed, grown.modifyPoint layer idx _⟩
  link state layer idx slot neighbor dist holds := by
    have written : ∃ change, column.write setup state (.setNeighbor layer idx slot neighbor dist) =
        markPoint setup (modifyPoint state layer idx change) layer idx := by
      cases layer <;> exact ⟨_, rfl⟩
    obtain ⟨change, written⟩ := written
    have kept : (markPoint setup (modifyPoint state layer idx change) layer idx).entry =
        state.entry := by
      cases layer <;> rfl
    refine ⟨evict_grown ?_, by rw [(evict_settles setup _).entry, written, kept]; exact holds.2⟩
    rw [written, <- nonePending_erase layer (idx / segRecords)]
    exact changePoint_grown layer idx change holds.1
  raise state lower id neighbors dists holds := by
    obtain ⟨⟨tracks, grown⟩, entered⟩ := holds
    have assigned := evict_grown ⟨assign_tracks column tracks .upper,
        (show Grown start rowid vectors codes (column.write setup state (.assign .upper)) from
          { grown with })⟩
    have written := changePoint_grown .upper state.upper.array.length
      (fun point => { point with
        neighbors := neighbors
        lowerLayerIdx := lower
        id := id
        dists := dists.getD point.dists
        hasStat := false }) assigned
    rw [show ((column.view state).layer .upper).length = state.upper.array.length from rfl,
      assigned_erase] at written
    refine ⟨evict_grown written, ?_⟩
    rw [(evict_settles setup _).entry]
    exact (evict_settles setup (column.write setup state (.assign .upper))).entry.symm ▸ entered
  enter state entry holds := by
    obtain ⟨⟨tracks, grown⟩, entered⟩ := holds
    refine ⟨evict_grown ⟨{ tracks with }, { grown with }⟩, ?_⟩
    rw [(evict_settles setup _).entry]
    exact some_ne_none entry

variable (column) in
/-- The rows and the base record of a new node. -/
theorem placeRecord_grown (tracks : Tracks setup nonePending impl)
    (balanced : impl.elems.array.length = impl.base.array.length) (tid : Rowid)
    (neighbors : List (Option (Nat × Nat))) (dists : Option (List D)) :
    let write := (column.store setup).write
    let placed := write (write (write impl (.assign .base)) (.addElem impl.base.array.length tid))
      (.addPoint .base impl.base.array.length none none neighbors dists)
    Placed setup nonePending impl tid impl.vectors.array impl.codes.array placed ∧
      placed.entry = impl.entry ∧
      (setup.disk = false -> placed.codes.dirty = impl.codes.dirty) := by
  intro write placed
  have first := evict_settles setup (column.write setup impl (.assign .base))
  have firstTracks := (assign_tracks column tracks .base).settle first
  generalize firstEq : evict setup (column.write setup impl (.assign .base)) = one
    at first firstTracks
  have second := evict_settles setup (column.write setup one (.addElem impl.base.array.length tid))
  have sameElems : one.elems = impl.elems := first.elems
  have grownElems : (column.write setup one (.addElem impl.base.array.length tid)).elems =
      (impl.elems.withArray (impl.elems.array ++ [[tid]])).mark elemsLayout
        impl.elems.array.length := by
    rw [<- setGrow_length impl.elems.array [tid] default, balanced, <- sameElems]
    rfl
  have secondTracks : Tracks setup (update nonePending .base
      {((column.view impl).layer .base).length / segRecords})
      (column.write setup one (.addElem impl.base.array.length tid)) :=
    { firstTracks with
      elems := grownElems ▸ tracks.elems.append_mark [tid] }
  have secondGrown : Grown impl tid impl.vectors.array impl.codes.array
      (column.write setup one (.addElem impl.base.array.length tid)) := {
    elems := by rw [grownElems]; rfl
    base := (congrArg length first.baseArray).trans (length_append ..)
    vectors := first.vectorsArray
    codes := first.codesArray
    quantizer := first.quantizer
    released := first.released
    fixedDirty := first.fixedDirty
    fixed := first.fixed }
  have both := evict_grown ⟨secondTracks, secondGrown⟩
  generalize secondEq :
    evict setup (column.write setup one (.addElem impl.base.array.length tid)) = two
    at second both
  have written := changePoint_grown .base impl.base.array.length
    (fun point => { point with
      neighbors := neighbors
      lowerLayerIdx := none
      id := none
      dists := dists.getD point.dists
      hasStat := false }) both
  rw [show ((column.view impl).layer .base).length = impl.base.array.length from rfl,
    assigned_erase] at written
  have third := evict_settles setup (column.write setup two
    (.addPoint .base impl.base.array.length none none neighbors dists))
  have placedEq : placed = evict setup (column.write setup two
      (.addPoint .base impl.base.array.length none none neighbors dists)) := by
    rw [<- secondEq, <- firstEq]
  rw [placedEq]
  exact ⟨evict_grown written, third.entry.trans (second.entry.trans first.entry),
    fun memory => (third.codesDirty memory).trans
      ((second.codesDirty memory).trans (first.codesDirty memory))⟩

end Column

end NewNode

section Insert

/-- The arrays of a bridge between two calls. -/
structure Shape (setup : Setup V C D Q) (impl : Impl V C D Q) : Prop where
  elems : impl.elems.array.length = impl.base.array.length
  entry : impl.entry = none -> impl.base.array = []
  vectors : setup.compactMode = false -> impl.vectors.array.length = impl.base.array.length
  codes : setup.quantized = true -> impl.codes.array.length = impl.base.array.length
  validCodes : ∀ code ∈ impl.codes.array, setup.validCode code = true
  trained : setup.quantized = true -> (impl.quantizer = none ↔ impl.base.array = [])
  plain : setup.quantized = false -> impl.quantizer = none
  fixed : ∀ quantizer, impl.quantizer = some quantizer -> impl.fixedDirty = false ->
    impl.fixed = some quantizer

/-- The arrays belong together and the marks cover them. -/
structure Kept (setup : Setup V C D Q) (impl : Impl V C D Q) : Prop where
  shape : Shape setup impl
  tracks : Tracks setup nonePending impl

variable {impl after : Impl V C D Q} {rowid : Rowid} {level : Nat}

/-- The node an insert adds its row to. -/
def insertTarget (setup : Setup V C D Q) (impl : Impl V C D Q) (vec : V) (level : Nat) :
    Option Nat :=
  match setup.compactMode, impl.quantizer with
  | true, some quantizer =>
    let vec := setup.params.encode vec
    (setup.computeCode quantizer vec).bind fun code =>
      mergeTarget (setup.codeParams quantizer vec) graphIndexPoint
        ((codeColumn setup quantizer vec).view impl) code level
  | _, _ => mergeTarget setup.params graphIndexPoint ((rawColumn setup).view impl) vec level

theorem graphIndexPoint_takes (tids : List Rowid) (tid : Rowid) :
    (graphIndexPoint.insertTid tids tid).1 = true :=
  rfl

/-- A row for an existing node leaves everything but the rows. -/
structure Joined (start : Impl V C D Q) (rowid : Rowid) (id : Nat) (impl : Impl V C D Q) :
    Prop where
  elems : impl.elems = start.elems.withArray (start.elems.array.modify id (· ++ [rowid]))
  base : impl.base.array = start.base.array
  vectors : impl.vectors.array = start.vectors.array
  codes : impl.codes.array = start.codes.array
  entry : impl.entry = start.entry
  quantizer : impl.quantizer = start.quantizer
  released : impl.released = start.released
  fixedDirty : impl.fixedDirty = start.fixedDirty
  fixed : impl.fixed = start.fixed

/-- What an insert leaves: one row more for a node, or a new node. -/
def Stored (setup : Setup V C D Q) (start : Impl V C D Q) (rowid : Rowid) (vectors : List V)
    (codes : List C) (after : Impl V C D Q) : Prop :=
  Tracks setup nonePending after ∧
    ((∃ id, Joined start rowid id after) ∨
      (Grown start rowid vectors codes after ∧ after.entry ≠ none))

variable [Inhabited X] {column : Column V C D Q X}

variable (column) in
theorem insertTid_joined (tracks : Tracks setup nonePending impl) {id : Nat}
    (isDirty : id / segRecords ∈ impl.elems.dirty) (tid : Rowid) :
    Tracks setup nonePending ((column.store setup).write impl (.insertTid id tid)) ∧
      Joined impl tid id ((column.store setup).write impl (.insertTid id tid)) := by
  have settles := evict_settles setup (column.write setup impl (.insertTid id tid))
  refine ⟨.settle ?_ settles, ?_⟩
  · exact { tracks with
      elems := tracks.elems.change_dirty
        (fun other different => modify_agrees impl.elems.array _ _ different) isDirty }
  · exact { settles with
      base := settles.baseArray
      vectors := settles.vectorsArray
      codes := settles.codesArray }

variable (column) in
/-- An insert over the vectors of a column, given what adding a vector does. -/
theorem columnInsert_spec (kept : Kept setup impl) {query : X} {codes : List C}
    (joined : ∀ id, mergeTarget column.params graphIndexPoint (column.view impl) query level =
      some id -> id / segRecords ∈ impl.elems.dirty)
    (added : mergeTarget column.params graphIndexPoint (column.view impl) query level = none ->
      ∀ placed, Placed setup nonePending impl rowid impl.vectors.array impl.codes.array placed ->
        (setup.disk = false -> placed.codes.dirty = impl.codes.dirty) ->
        let after := column.write setup placed (.addVector impl.base.array.length query)
        Placed setup nonePending impl rowid vectors codes after ∧ after.entry = placed.entry) :
    Stored setup impl rowid vectors codes
      (GraphIndex.insert column.params graphIndexPoint (column.store setup) query rowid level
        impl).1 := by
  have placedNode : mergeTarget column.params graphIndexPoint (column.view impl) query level =
      none -> ∀ neighbors dists,
      let placed := place (column.store setup) impl impl.base.array.length query rowid
        neighbors dists
      Placed setup nonePending impl rowid vectors codes placed ∧ placed.entry = impl.entry := by
    intro target neighbors dists
    obtain ⟨placed, placedEntry, placedDirty⟩ :=
      placeRecord_grown column kept.tracks kept.shape.elems rowid neighbors dists
    obtain ⟨both, entered⟩ := added target _ placed placedDirty
    exact ⟨evict_grown both, (evict_settles setup _).entry.trans (entered.trans placedEntry)⟩
  have continues : Continues column.params (column.store setup) fun state : Impl V C D Q =>
      Placed setup nonePending impl rowid vectors codes state ∧ state.entry ≠ none :=
    grown_continues
  refine insert_rule graphIndexPoint_takes continues ?_ ?_ ?_ ?_
  case refine_1 =>
    intro id target
    obtain ⟨joinedTracks, row⟩ := insertTid_joined column kept.tracks (joined id target) rowid
    exact ⟨joinedTracks, .inl ⟨id, row⟩⟩
  case refine_2 =>
    intro entered neighbors dists entry
    have isEmpty : impl.base.array = [] := kept.shape.entry entered
    have target : mergeTarget column.params graphIndexPoint (column.view impl) query level =
        none := by
      rw [mergeTarget, show (column.view impl).entry = none from entered, bind_none]
    have new := (placedNode target neighbors dists).1
    rw [isEmpty, length_nil] at new
    refine ⟨evict_grown ⟨{ new.1 with }, { new.2 with }⟩, ?_⟩
    rw [(evict_settles setup _).entry]
    exact some_ne_none entry
  case refine_3 =>
    intro entered target neighbors dists
    obtain ⟨new, newEntry⟩ := placedNode target neighbors dists
    exact ⟨new, newEntry.symm ▸ entered⟩
  case refine_4 =>
    rintro _ ⟨⟨newTracks, grown⟩, entered⟩
    exact ⟨newTracks, .inr ⟨grown, entered⟩⟩

variable (rowid) in
/-- An insert into a store that keeps its raw vectors. -/
theorem rawInsert_spec (kept : Kept setup impl) (vec : V)
    (joined : ∀ id, mergeTarget setup.params graphIndexPoint ((rawColumn setup).view impl) vec
      level = some id -> id / segRecords ∈ impl.elems.dirty) :
    Stored setup impl rowid
      (setGrow impl.vectors.array impl.base.array.length (setup.params.encode vec) default)
      impl.codes.array
      (GraphIndex.insert setup.params graphIndexPoint ((rawColumn setup).store setup) vec rowid
        level impl).1 := by
  refine columnInsert_spec (rawColumn setup) kept joined ?_
  rintro _ placed ⟨placedTracks, placedGrown⟩ _
  refine ⟨⟨{ placedTracks with vectors := fun raw => ?_ }, { placedGrown with vectors := ?_ }⟩, rfl⟩
  · have length : impl.base.array.length = placed.vectors.array.length := by
      rw [placedGrown.vectors, kept.shape.vectors raw]
    have grown := (placedTracks.vectors raw).append_mark (setup.params.encode vec)
    rw [<- setGrow_length placed.vectors.array _ default, <- length] at grown
    exact grown
  · rw [<- placedGrown.vectors]
    rfl

variable (rowid) in
/-- An insert into a compact graph works on the codes. -/
theorem codeInsert_spec (kept : Kept setup impl) (compact : setup.compactMode = true)
    (quantizer : Q) (vec : V) (code : C)
    (joined : ∀ id, mergeTarget (setup.codeParams quantizer vec) graphIndexPoint
        ((codeColumn setup quantizer vec).view impl) code level = some id ->
      id / segRecords ∈ impl.elems.dirty)
    (marked : setup.disk = false -> mergeTarget (setup.codeParams quantizer vec) graphIndexPoint
        ((codeColumn setup quantizer vec).view impl) code level = none ->
      impl.base.array.length / segRecords ∈ impl.codes.dirty) :
    Stored setup impl rowid impl.vectors.array (impl.codes.array ++ [code])
      (GraphIndex.insert (setup.codeParams quantizer vec) graphIndexPoint
        ((codeColumn setup quantizer vec).store setup) code rowid level impl).1 := by
  refine columnInsert_spec (codeColumn setup quantizer vec) kept joined ?_
  rintro target placed ⟨placedTracks, placedGrown⟩ placedDirty
  have length : impl.base.array.length = placed.codes.array.length := by
    rw [placedGrown.codes, kept.shape.codes (setup.compact_quantized compact)]
  have stored : setGrow placed.codes.array impl.base.array.length
      ((setup.codeParams quantizer vec).encode code) default = placed.codes.array ++ [code] := by
    rw [setup.codeParams_encode, length, setGrow_length]
  have written : (codeColumn setup quantizer vec).write setup placed
        (.addVector impl.base.array.length code) =
      if setup.disk then
        { placed with
          codes := (placed.codes.withArray (placed.codes.array ++ [code])).mark
            (codesLayout setup) placed.codes.array.length }
      else { placed with codes := placed.codes.withArray (placed.codes.array ++ [code]) } := by
    rw [<- stored, <- length]
    rfl
  rw [written, <- placedGrown.codes]
  cases onDisk : setup.disk with
  | true =>
    exact ⟨⟨{ placedTracks with
        codes := fun quantized => (placedTracks.codes quantized).append_mark _ },
      { placedGrown with codes := rfl }⟩, rfl⟩
  | false =>
    have isDirty : placed.codes.array.length / segRecords ∈ placed.codes.dirty := by
      rw [placedDirty onDisk, <- length]
      exact marked onDisk target
    refine ⟨⟨{ placedTracks with codes := fun quantized => ?_ },
      { placedGrown with codes := rfl }⟩, rfl⟩
    refine (placedTracks.codes quantized).change_dirty (fun other different => ?_) isDirty
    rw [getElem?_concat_of_ne _ _ different]

end Insert

section Sound

variable {impl after : Impl V C D Q} {rowid : Rowid} {level : Nat} {vec : V}

omit [Inhabited V] [Inhabited C] in
theorem Joined.shape {id : Nat} (joined : Joined impl rowid id after) (shape : Shape setup impl) :
    Shape setup after where
  elems := by
    rw [joined.elems, joined.base, <- shape.elems]
    exact length_modify ..
  entry entered := joined.base ▸ shape.entry (joined.entry ▸ entered)
  vectors raw := by rw [joined.vectors, joined.base, shape.vectors raw]
  codes quantized := by rw [joined.codes, joined.base, shape.codes quantized]
  validCodes := joined.codes ▸ shape.validCodes
  trained quantized := by rw [joined.quantizer, joined.base, shape.trained quantized]
  plain notQuantized := joined.quantizer.trans (shape.plain notQuantized)
  fixed quantizer := by
    rw [joined.quantizer, joined.fixedDirty, joined.fixed]
    exact shape.fixed quantizer

theorem releaseRawVectors_kept (kept : Kept setup impl) :
    Kept setup (releaseRawVectors setup impl) := by
  rw [releaseRawVectors]
  split
  case isFalse => exact kept
  case isTrue compact =>
    have notRaw : ∀ {P : Prop}, setup.compactMode = false -> P := fun raw => by
      rw [compact] at raw
      cases raw
    split
    · exact ⟨{ kept.shape with }, { kept.tracks with }⟩
    · exact ⟨{ kept.shape with vectors := notRaw }, { kept.tracks with vectors := notRaw }⟩

section

variable (tracks : Tracks setup nonePending impl)
  (balanced : impl.elems.array.length = impl.base.array.length)
  (entered : impl.entry = none -> impl.base.array = [])
  (raw : setup.compactMode = false -> impl.vectors.array.length = impl.base.array.length)
include tracks balanced entered raw

/-- Training gives every node a code. -/
theorem trainQuantizer_kept (quantized : setup.quantized = true)
    (hasNodes : impl.elems.array.isEmpty = false)
    (returned : trainQuantizer setup impl = some after) : Kept setup after := by
  rw [trainQuantizer, hasNodes, if_neg Bool.false_ne_true] at returned
  obtain ⟨quantizer, _, codesEq⟩ := bind_eq_some_iff.1 returned
  obtain ⟨codes, computed, rfl⟩ := map_eq_some_iff.1 codesEq
  rw [mapM_eq_some_iff] at computed
  have length : codes.length = impl.elems.array.length := by
    rw [<- computed.length_eq, length_range]
  have hasBase : impl.base.array ≠ [] := by
    rintro isEmpty
    rw [isEmpty, length_nil, length_eq_zero_iff] at balanced
    rw [balanced] at hasNodes
    cases hasNodes
  have settles := evict_settles setup (takeQuantizer setup impl quantizer codes)
  have marked : Tracks setup nonePending (takeQuantizer setup impl quantizer codes) :=
    { tracks with
      codes := fun _ => tracked_of_marked (by
        simp only [takeQuantizer, length]
        exact Finset.subset_union_right) }
  refine ⟨?_, marked.settle settles⟩
  exact {
    elems := by rw [settles.elems, settles.baseArray]; exact balanced
    entry := fun none => settles.baseArray.trans (entered (settles.entry ▸ none))
    vectors := fun notCompact => by
      rw [settles.vectorsArray, settles.baseArray]
      exact raw notCompact
    codes := fun _ => by
      rw [settles.codesArray, settles.baseArray]
      exact length.trans balanced
    validCodes := by
      have valid := computed.flip.imp fun code id computedCode =>
        And.intro (setup.computeCode_valid _ _ _ computedCode) computedCode
      rw [settles.codesArray]
      exact ((forall₂_and_left ..).1 valid).1
    trained := fun _ => by
      rw [settles.quantizer, settles.baseArray]
      exact ⟨nofun, fun isEmpty => absurd isEmpty hasBase⟩
    plain := fun notQuantized => by
      rw [quantized] at notQuantized
      cases notQuantized
    fixed := fun _ _ clean => by
      rw [settles.fixedDirty] at clean
      cases clean }

/-- What follows a raw insert when there is no quantizer yet. -/
theorem trainIfNew_kept
    (untrained : setup.quantized = false ∨ impl.elems.array = [] -> Shape setup impl)
    (returned : (if setup.quantized && !impl.elems.array.isEmpty then
        (trainQuantizer setup impl).map (releaseRawVectors setup)
      else some impl) = some after) : Kept setup after := by
  split at returned
  case isTrue needed =>
    rw [Bool.and_eq_true, Bool.not_eq_true'] at needed
    obtain ⟨_, trainedEq, rfl⟩ := map_eq_some_iff.1 returned
    exact releaseRawVectors_kept
      (trainQuantizer_kept tracks balanced entered raw needed.1 needed.2 trainedEq)
  case isFalse idle =>
    cases returned
    refine ⟨untrained ?_, tracks⟩
    by_cases quantized : setup.quantized = true
    · exact .inr (by simpa [quantized] using idle)
    · exact .inl (Bool.not_eq_true _ ▸ quantized)

end

section

omit [Inhabited V] [Inhabited C]

theorem Shape.quantized_of_some (shape : Shape setup impl)
    (trained : impl.quantizer = some quantizer) : setup.quantized = true := by
  by_contra notQuantized
  rw [shape.plain (Bool.not_eq_true _ ▸ notQuantized)] at trained
  cases trained

theorem Grown.shape {codes : List C} (grown : Grown impl rowid vectors codes after)
    (shape : Shape setup impl) (entered : after.entry ≠ none)
    (raw : setup.compactMode = false -> vectors.length = impl.base.array.length + 1)
    (coded : setup.quantized = true -> codes.length = impl.base.array.length + 1)
    (valid : ∀ code ∈ codes, setup.validCode code = true)
    (trained : setup.quantized = true -> impl.quantizer ≠ none) : Shape setup after where
  elems := by rw [grown.elems, grown.base, length_append, shape.elems, length_singleton]
  entry none := absurd none entered
  vectors notCompact := by rw [grown.vectors, grown.base, raw notCompact]
  codes quantized := by rw [grown.codes, grown.base, coded quantized]
  validCodes := grown.codes ▸ valid
  trained quantized := by
    rw [grown.quantizer]
    exact ⟨fun none => absurd none (trained quantized),
      fun isEmpty => nomatch grown.base.symm.trans (congrArg length isEmpty)⟩
  plain notQuantized := grown.quantizer.trans (shape.plain notQuantized)
  fixed quantizer := by
    rw [grown.quantizer, grown.fixedDirty, grown.fixed]
    exact shape.fixed quantizer

theorem Shape.validCodes_append (shape : Shape setup impl) {source : V} {code : C}
    (computed : setup.computeCode quantizer source = some code) :
    ∀ other ∈ impl.codes.array ++ [code], setup.validCode other = true := by
  intro other present
  rcases mem_append.1 present with old | new
  · exact shape.validCodes other old
  · rw [mem_singleton.1 new]
    exact setup.computeCode_valid _ _ _ computed

end

/-- The code of a new node goes behind the others. -/
theorem appendQuantizerCode_kept {grownImpl : Impl V C D Q} (shape : Shape setup impl)
    (trained : impl.quantizer = some quantizer) (tracks : Tracks setup nonePending grownImpl)
    (grown : Grown impl rowid vectors impl.codes.array grownImpl)
    (raw : setup.compactMode = false -> vectors.length = impl.base.array.length + 1)
    (entered : grownImpl.entry ≠ none)
    (returned : appendQuantizerCode setup grownImpl quantizer impl.elems.array.length =
      some after) : Kept setup after := by
  have quantized := shape.quantized_of_some trained
  have nodes : grownImpl.elems.array.length = impl.elems.array.length + 1 := by
    rw [grown.elems, length_append, length_singleton]
  have codesLength : impl.elems.array.length = grownImpl.codes.array.length := by
    rw [grown.codes, shape.codes quantized, shape.elems]
  rw [appendQuantizerCode, if_neg (by omega), if_neg (by omega)] at returned
  obtain ⟨code, computed, rfl⟩ := map_eq_some_iff.1 returned
  have appended : (if setup.disk then
        setGrow grownImpl.codes.array impl.elems.array.length code default
      else grownImpl.codes.array ++ [code]) = grownImpl.codes.array ++ [code] := by
    rw [codesLength, setGrow_length, ite_self]
  simp only [appended]
  have both := evict_grown
    ⟨(show Tracks setup nonePending { grownImpl with
        codes := (grownImpl.codes.withArray (grownImpl.codes.array ++ [code])).mark
          (codesLayout setup) impl.elems.array.length } from
      { tracks with
        codes := fun _ => by
          rw [codesLength]
          exact (tracks.codes quantized).append_mark code }),
      (show Grown impl rowid vectors (impl.codes.array ++ [code]) _ from
        { grown with codes := congrArg (· ++ [code]) grown.codes })⟩
  refine ⟨both.2.shape shape ?_ raw ?_ (shape.validCodes_append computed)
    fun _ => by simp [trained], both.1⟩
  · rwa [(evict_settles setup _).entry]
  · intro _
    rw [length_append, shape.codes quantized, length_singleton]

/-- The writes that leave no mark find their segment marked: a row for an existing
node, and the code of a new node of a compact graph in memory. -/
structure InsertMarked (setup : Setup V C D Q) (impl : Impl V C D Q) (vec : V) (level : Nat) :
    Prop where
  joined : ∀ id ∈ insertTarget setup impl vec level, id / segRecords ∈ impl.elems.dirty
  coded : setup.disk = false -> setup.compactMode = true -> impl.quantizer.isSome = true ->
    insertTarget setup impl vec level = none ->
    impl.base.array.length / segRecords ∈ impl.codes.dirty

instance : Decidable (InsertMarked setup impl vec level) :=
  decidable_of_iff
    ((∀ id ∈ insertTarget setup impl vec level, id / segRecords ∈ impl.elems.dirty) ∧
      (setup.disk = false -> setup.compactMode = true -> impl.quantizer.isSome = true ->
        insertTarget setup impl vec level = none ->
        impl.base.array.length / segRecords ∈ impl.codes.dirty))
    ⟨fun both => ⟨both.1, both.2⟩, fun marked => ⟨marked.joined, marked.coded⟩⟩

/-- An insert into a compact graph. -/
theorem insertCode_kept (kept : Kept setup impl)
    (compact : setup.compactMode = true) (trained : impl.quantizer = some quantizer)
    (marked : InsertMarked setup impl vec level)
    (returned : insertRow setup impl vec rowid level = some after) : Kept setup after := by
  simp only [insertRow, compact, trained] at returned
  obtain ⟨code, computed, rfl⟩ := map_eq_some_iff.1 returned
  have target : insertTarget setup impl vec level =
      mergeTarget (setup.codeParams quantizer (setup.params.encode vec)) graphIndexPoint
        ((codeColumn setup quantizer (setup.params.encode vec)).view impl) code level := by
    simp only [insertTarget, compact, trained, computed, bind_some]
  obtain ⟨newTracks, ⟨id, row⟩ | ⟨grown, entered⟩⟩ :=
    codeInsert_spec rowid kept compact quantizer (setup.params.encode vec) code
      (fun id joins => marked.joined id (target.trans joins))
      (fun memory new => marked.coded memory compact (by simp [trained]) (target.trans new))
  · exact ⟨row.shape kept.shape, newTracks⟩
  · refine ⟨grown.shape kept.shape entered ?_ ?_ (kept.shape.validCodes_append computed)
      fun _ => by simp [trained], newTracks⟩
    · intro notCompact
      rw [compact] at notCompact
      cases notCompact
    · intro quantized
      rw [length_append, kept.shape.codes quantized, length_singleton]

section

variable (raw : setup.compactMode = false ∨ impl.quantizer = none)
include raw

theorem insertRow_raw :
    insertRow setup impl vec rowid level =
      if impl.released && !setup.disk then none
      else
        let after := (GraphIndex.insert setup.params graphIndexPoint
          ((rawColumn setup).store setup) vec rowid level impl).1
        match impl.quantizer with
        | some quantizer => appendQuantizerCode setup after quantizer impl.elems.array.length
        | none =>
          if setup.quantized && !after.elems.array.isEmpty then
            (trainQuantizer setup after).map (releaseRawVectors setup)
          else some after := by
  rcases raw with full | untrained
  · unfold insertRow
    rewrite [full]
    rfl
  · cases mode : setup.compactMode <;> simp only [insertRow, untrained, mode]

theorem insertTarget_raw :
    insertTarget setup impl vec level =
      mergeTarget setup.params graphIndexPoint ((rawColumn setup).view impl) vec level := by
  rcases raw with full | untrained
  · simp only [insertTarget, full]
  · cases mode : setup.compactMode <;> simp only [insertTarget, untrained, mode]

end

/-- An insert into a graph with raw vectors, with its code if there is a quantizer. -/
theorem insertRaw_kept (kept : Kept setup impl)
    (raw : setup.compactMode = false ∨ impl.quantizer = none)
    (marked : InsertMarked setup impl vec level)
    (returned : insertRow setup impl vec rowid level = some after) : Kept setup after := by
  have shape := kept.shape
  have inserted := rawInsert_spec rowid kept vec fun id joins =>
    marked.joined id ((insertTarget_raw raw).trans joins)
  rw [insertRow_raw raw] at returned
  split at returned
  case isTrue => cases returned
  generalize (GraphIndex.insert setup.params graphIndexPoint
    ((rawColumn setup).store setup) vec rowid level impl).1 = between at returned inserted
  obtain ⟨newTracks, ⟨id, row⟩ | ⟨grown, entered⟩⟩ := inserted
  · have joinedShape := row.shape shape
    cases trained : impl.quantizer with
    | some quantizer =>
      have same : between.elems.array.length = impl.elems.array.length := by
        rw [row.elems]
        exact length_modify ..
      simp only [trained, appendQuantizerCode, same, if_true, some.injEq] at returned
      exact returned ▸ ⟨joinedShape, newTracks⟩
    | none =>
      simp only [trained] at returned
      exact trainIfNew_kept newTracks joinedShape.elems joinedShape.entry joinedShape.vectors
        (fun _ => joinedShape) returned
  · have vectorsLength : setup.compactMode = false ->
        (setGrow impl.vectors.array impl.base.array.length (setup.params.encode vec)
          default).length = impl.base.array.length + 1 := by
      intro full
      rw [<- shape.vectors full, setGrow_length, length_append, length_singleton]
    cases trained : impl.quantizer with
    | some quantizer =>
      simp only [trained] at returned
      exact appendQuantizerCode_kept shape trained newTracks grown vectorsLength entered returned
    | none =>
      simp only [trained] at returned
      have nodes : between.elems.array.length = between.base.array.length := by
        rw [grown.elems, grown.base, length_append, shape.elems, length_singleton]
      refine trainIfNew_kept newTracks nodes (fun none => absurd none entered)
        (fun full => by rw [grown.vectors, grown.base, vectorsLength full]) ?_ returned
      rintro (notQuantized | isEmpty)
      · have notQuantized' : ∀ {P : Prop}, setup.quantized = true -> P := fun quantized => by
          rw [notQuantized] at quantized
          cases quantized
        exact grown.shape shape entered vectorsLength notQuantized' shape.validCodes notQuantized'
      · rw [grown.elems] at isEmpty
        exact absurd isEmpty (by simp)

theorem insertRow_kept (kept : Kept setup impl) (marked : InsertMarked setup impl vec level)
    (returned : insertRow setup impl vec rowid level = some after) : Kept setup after := by
  cases compact : setup.compactMode with
  | false => exact insertRaw_kept kept (.inl compact) marked returned
  | true =>
    cases trained : impl.quantizer with
    | none => exact insertRaw_kept kept (.inr trained) marked returned
    | some quantizer => exact insertCode_kept kept compact trained marked returned

end Sound

end Bridge
end VexDB.Sqlite
