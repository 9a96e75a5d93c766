import VexDB.GraphIndex.WriteRules
import VexDB.Sqlite.Vtab
import VexDB.Storage.SegmentedArray

/-!
# The graph behind a table and its segments

`GraphBridge::Impl` of `graph_bridge.cpp` over its two stores.  The elements,
both layers, the vectors and the quantizer codes are arrays stored in segments of
`SEG_RECORDS` records; a write marks the segment it touches, and `SerializeV2`
writes the marked ones.  In disk mode base, vector and code segments live in a
cache that writes a dirty segment back when it drops it.
-/

namespace VexDB.Sqlite
namespace Bridge

open GraphIndex Storage

/-- `SEG_RECORDS` -/
def segRecords : Nat := 64

/-- What a base segment holds of a record. -/
structure BaseRecord (D : Type*) where
  neighbors : List (Option (Nat × Nat))
  dists : List D
  deriving DecidableEq, Repr

/-- What an upper segment holds of a record. -/
structure UpperRecord (D : Type*) where
  lowerLayerIdx : Option Nat
  id : Option Nat
  neighbors : List (Option (Nat × Nat))
  dists : List D
  deriving DecidableEq, Repr

/-- The meta segment. -/
structure BlobHeader where
  baseCount : Nat
  upperCount : Nat
  entry : Option EntryInfo
  deriving DecidableEq, Repr

/-- The state of `GraphBridge::Impl` together with the segments stored for it. -/
structure Impl (V C D Q : Type*) where
  elems : SegmentedArray (List Rowid) (List Rowid)
  upper : SegmentedArray (Point D) (UpperRecord D)
  base : SegmentedArray (Point D) (BaseRecord D)
  vectors : SegmentedArray V V
  codes : SegmentedArray C C
  entry : Option EntryInfo
  /-- The trained quantizer; `quantizer_use` says whether there is one. -/
  quantizer : Option Q
  /-- `compact_mode_` of the store: no raw vector is kept. -/
  released : Bool
  fullDirty : Bool
  fixedDirty : Bool
  /-- `rowid_to_node`, once it is built. -/
  rowidToNode : Option (Rowid -> Option Nat)
  /-- The stored meta segment. -/
  header : Option BlobHeader
  /-- The stored quantizer. -/
  fixed : Option Q

/-- The segments `DiskStore` caches. -/
inductive Cached where
  | base
  | vec
  | codes
  deriving DecidableEq, Repr

/-- What a bridge is opened with. -/
structure Setup (V C D Q : Type*) where
  /-- `DiskStore` instead of `MemStore` -/
  disk : Bool
  compactMode : Bool
  /-- `quantizer_type` is not `NONE`. -/
  quantized : Bool
  params : Params V D
  train : List V -> Option Q
  /-- The code of a vector; none if it is refused. -/
  computeCode : Q -> V -> Option C
  /-- The check of a stored code. -/
  validCode : C -> Bool
  /-- The distances of a quantizer go out from the vector that is inserted. -/
  codeParams : Q -> V -> Params C D
  /-- The segments the cache drops after a write. -/
  dropped : Impl V C D Q -> List (Cached × Nat)
  computeCode_valid : ∀ quantizer vec code,
    computeCode quantizer vec = some code -> validCode code = true
  codeParams_encode : ∀ quantizer vec code, (codeParams quantizer vec).encode code = code
  compact_quantized : compactMode = true -> quantized = true

variable {V C D Q X : Type*}

def baseRecord (point : Point D) : BaseRecord D := ⟨point.neighbors, point.dists⟩

def upperRecord (point : Point D) : UpperRecord D :=
  ⟨point.lowerLayerIdx, point.id, point.neighbors, point.dists⟩

/-- A base record read back; the occlusion bits start cleared. -/
def BaseRecord.point (record : BaseRecord D) : Point D :=
  ⟨record.neighbors, none, none, record.dists, record.dists.map fun _ => false, false⟩

/-- An upper record read back. -/
def UpperRecord.point (record : UpperRecord D) : Point D :=
  ⟨record.neighbors, record.lowerLayerIdx, record.id, record.dists,
    record.dists.map fun _ => false, false⟩

/-- `GraphIndexPoint`: the rows of a node; every row is taken. -/
def graphIndexPoint : PointType (List Rowid) Rowid where
  init tid := [tid]
  insertTid tids tid := (true, tids ++ [tid])
  empty := List.isEmpty

section Layouts

def elemsLayout : Layout (List Rowid) (List Rowid) := .exact segRecords (by decide) id

def upperLayout : Layout (Point D) (UpperRecord D) := .exact segRecords (by decide) upperRecord

variable [Inhabited V] [Inhabited C] (setup : Setup V C D Q)

/-- Base segments are filled up with invalid records. -/
def baseLayout : Layout (Point D) (BaseRecord D) :=
  .padded segRecords (by decide) baseRecord (baseRecord (GraphStore.cleared setup.params .base))

def vecLayout : Layout V V := .padded segRecords (by decide) id default

/-- Code segments of the cache are filled up, those of `MemStore` are not. -/
def codesLayout : Layout C C :=
  .either segRecords (by decide) id (if setup.disk then some default else none)

end Layouts

variable [Inhabited V] [Inhabited C] (setup : Setup V C D Q)

section Writes

variable (impl : Impl V C D Q)

/-- Drop a segment from the cache; a dirty one is written first. -/
def dropSegment : Cached × Nat -> Impl V C D Q
  | (.base, seg) => { impl with base := impl.base.writeBack (baseLayout setup) seg }
  | (.vec, seg) => { impl with vectors := impl.vectors.writeBack vecLayout seg }
  | (.codes, seg) => { impl with codes := impl.codes.writeBack (codesLayout setup) seg }

/-- `evict_if_needed` -/
def evict : Impl V C D Q :=
  if setup.disk then (setup.dropped impl).foldl (dropSegment setup) impl else impl

/-- `mark_base_dirty` and `mark_upper_dirty` -/
def markPoint (layer : Layer) (idx : Nat) : Impl V C D Q :=
  match layer with
  | .base => { impl with base := impl.base.mark (baseLayout setup) idx }
  | .upper => { impl with upper := impl.upper.mark upperLayout idx }

/-- The marks of a write.  `assign_vector_id` and `apply_elem` mark nothing. -/
def mark : Write X D Rowid -> Impl V C D Q
  | .addElem id _ => { impl with elems := impl.elems.mark elemsLayout id }
  | .addPoint layer idx _ _ _ _ => markPoint setup impl layer idx
  | .setNeighbor layer idx _ _ _ => markPoint setup impl layer idx
  | .setNeighbors layer idx _ => markPoint setup impl layer idx
  | .setStat layer idx _ =>
    if layer = .upper ∨ setup.disk then markPoint setup impl layer idx else impl
  | .assign _ => impl
  | .insertTid _ _ => impl
  | .addVector _ _ => impl
  | .setEntrypoint _ => impl

end Writes

/-- The vectors an algorithm works on: the raw ones, or the codes. -/
structure Column (V C D Q X : Type*) where
  params : Params X D
  vectors : Impl V C D Q -> List X
  /-- Take over the vectors after `add_vector`, with the mark it leaves. -/
  addVector : Impl V C D Q -> Nat -> List X -> Impl V C D Q

/-- The store itself. -/
def rawColumn : Column V C D Q V where
  params := setup.params
  vectors impl := impl.vectors.array
  addVector impl id vectors :=
    { impl with vectors := (impl.vectors.withArray vectors).mark vecLayout id }

/-- `SqliteQuantizedSearchStore`: in memory a new code leaves no mark. -/
def codeColumn (quantizer : Q) (vec : V) : Column V C D Q C where
  params := setup.codeParams quantizer vec
  vectors impl := impl.codes.array
  addVector impl id codes :=
    if setup.disk then
      { impl with codes := (impl.codes.withArray codes).mark (codesLayout setup) id }
    else { impl with codes := impl.codes.withArray codes }

namespace Column

variable [Inhabited X] (column : Column V C D Q X)

/-- The graph the algorithm reads. -/
def view (impl : Impl V C D Q) : GraphStore (List Rowid) X D :=
  ⟨impl.elems.array, impl.base.array, impl.upper.array, column.vectors impl, impl.entry,
    [], [], false⟩

/-- A write with its marks. -/
def write (impl : Impl V C D Q) (request : Write X D Rowid) : Impl V C D Q :=
  let after := (column.view impl).write column.params graphIndexPoint request
  let impl : Impl V C D Q :=
    { impl with
      elems := impl.elems.withArray after.elems
      base := impl.base.withArray after.base
      upper := impl.upper.withArray after.upper
      entry := after.entry }
  match request with
  | .addVector id _ => column.addVector impl id after.vectors
  | request => mark setup impl request

/-- The store `GraphIndexAlgorithm` runs on. -/
@[reducible]
def store : StoreImpl (Impl V C D Q) (List Rowid) X D Rowid where
  view := column.view
  write impl request := evict setup (column.write setup impl request)

end Column

section Quantizer

variable (impl : Impl V C D Q)

/-- Take over a trained quantizer; every code segment is marked. -/
def takeQuantizer (quantizer : Q) (codes : List C) : Impl V C D Q :=
  let segments := Finset.range ((codesLayout setup).segmentCount impl.elems.array.length)
  { impl with
    codes := { impl.codes with array := codes, dirty := impl.codes.dirty ∪ segments }
    quantizer := some quantizer
    fixedDirty := true }

/-- `train_quantizer`: every node gets a code. -/
def trainQuantizer : Option (Impl V C D Q) :=
  if impl.elems.array.isEmpty then some impl
  else
    (setup.train impl.vectors.array).bind fun quantizer =>
      ((List.range impl.elems.array.length).mapM fun id =>
        setup.computeCode quantizer (impl.vectors.array.getD id default)).map fun codes =>
          evict setup (takeQuantizer setup impl quantizer codes)

/-- `release_raw_vectors` -/
def releaseRawVectors : Impl V C D Q :=
  if setup.compactMode then
    if setup.disk then { impl with released := true }
    else { impl with released := true, vectors := { impl.vectors with array := [], dirty := ∅ } }
  else impl

/-- `append_quantizer_code` -/
def appendQuantizerCode (quantizer : Q) (oldNodeCount : Nat) : Option (Impl V C D Q) :=
  if impl.elems.array.length = oldNodeCount then some impl
  else if impl.elems.array.length ≠ oldNodeCount + 1 then none
  else
    (setup.computeCode quantizer (impl.vectors.array.getD oldNodeCount default)).map fun code =>
      let codes :=
        if setup.disk then setGrow impl.codes.array oldNodeCount code default
        else impl.codes.array ++ [code]
      evict setup { impl with
        codes := (impl.codes.withArray codes).mark (codesLayout setup) oldNodeCount }

end Quantizer

section Calls

variable (impl : Impl V C D Q)

/-- The graph part of `Insert`.  A store that released its raw vectors has no
place for one: without a quantizer the vector would be written out of bounds. -/
def insertRow (vec : V) (rowid : Rowid) (level : Nat) : Option (Impl V C D Q) :=
  match setup.compactMode, impl.quantizer with
  | true, some quantizer =>
    let vec := setup.params.encode vec
    (setup.computeCode quantizer vec).map fun code =>
      (GraphIndex.insert (setup.codeParams quantizer vec) graphIndexPoint
        ((codeColumn setup quantizer vec).store setup) code rowid level impl).1
  | _, quantizer =>
    if impl.released && !setup.disk then none
    else
      let after := (GraphIndex.insert setup.params graphIndexPoint
        ((rawColumn setup).store setup) vec rowid level impl).1
      match quantizer with
      | some quantizer => appendQuantizerCode setup after quantizer impl.elems.array.length
      | none =>
        if setup.quantized && !after.elems.array.isEmpty then
          (trainQuantizer setup after).map (releaseRawVectors setup)
        else some after

/-- `GraphBridge::Insert` -/
def insert (vec : V) (rowid : Rowid) (level : Nat) : Option (Impl V C D Q) :=
  (insertRow setup impl vec rowid level).map fun after =>
    { after with
      rowidToNode :=
        if after.elems.array.length = impl.elems.array.length + 1 then
          after.rowidToNode.map fun nodes => Function.update nodes rowid
            (some (after.elems.array.length - 1))
        else none }

/-- `build_rowid_map`: the last node that has the row. -/
def buildRowidMap (elems : List (List Rowid)) (rowid : Rowid) : Option Nat :=
  (elems.zipIdx.reverse.find? fun node => node.1.contains rowid).map Prod.snd

/-- `GraphBridge::RemoveTid`, with its result. -/
def removeTid (rowid : Rowid) : Impl V C D Q × Bool :=
  let nodes := impl.rowidToNode.getD (buildRowidMap impl.elems.array)
  match nodes rowid with
  | none => ({ impl with rowidToNode := some nodes }, false)
  | some node =>
    ({ impl with
        elems := (impl.elems.withArray
          (impl.elems.array.modify node (·.erase rowid))).mark elemsLayout node
        rowidToNode := some (Function.update nodes rowid none) }, true)

end Calls

/-- The stored segments. -/
structure Segments (V C D Q : Type*) where
  header : Option BlobHeader
  elems : Nat -> Option (List (List Rowid))
  upper : Nat -> Option (List (UpperRecord D))
  base : Nat -> Option (List (BaseRecord D))
  vectors : Nat -> Option (List V)
  codes : Nat -> Option (List C)
  fixed : Option Q

def Impl.segments (impl : Impl V C D Q) : Segments V C D Q :=
  ⟨impl.header, impl.elems.stored, impl.upper.stored, impl.base.stored, impl.vectors.stored,
    impl.codes.stored, impl.fixed⟩

/-- `write_quantizer`; a graph with nodes has to be trained. -/
def writeQuantizer (impl : Impl V C D Q) : Option (Impl V C D Q) :=
  if !setup.quantized || impl.elems.array.isEmpty then some impl
  else if impl.quantizer.isNone then none
  else
    let impl := { impl with
      fixed := if impl.fixedDirty then impl.quantizer else impl.fixed
      fixedDirty := false }
    if setup.disk then some impl
    else some { impl with codes := impl.codes.flush (codesLayout setup) false }

/-- The segments `SerializeV2` writes before the quantizer.  The cache writes its
dirty segments; in memory a full rewrite covers every array but the codes. -/
def writeSegments (impl : Impl V C D Q) : Impl V C D Q :=
  let impl := { impl with
    header := some ⟨if setup.disk then impl.elems.array.length else impl.base.array.length,
      impl.upper.array.length, impl.entry⟩
    elems := impl.elems.flush elemsLayout impl.fullDirty
    upper := impl.upper.flush upperLayout impl.fullDirty }
  if setup.disk then
    { impl with
      base := impl.base.flush (baseLayout setup) false
      vectors := impl.vectors.flush vecLayout false
      codes := impl.codes.flush (codesLayout setup) false
      fullDirty := false }
  else
    { impl with
      base := impl.base.flush (baseLayout setup) impl.fullDirty
      vectors :=
        if setup.compactMode then { impl.vectors with dirty := ∅ }
        else impl.vectors.flush vecLayout impl.fullDirty
      fullDirty := false }

/-- `SerializeV2`, when every segment write succeeds. -/
def serializeV2 (impl : Impl V C D Q) : Option (Impl V C D Q) :=
  writeQuantizer setup (writeSegments setup impl)

/-- `ReadQuantizer`: the quantizer and the codes. -/
def readQuantizer (segments : Segments V C D Q) (nodeCount : Nat) : Option (Option Q × List C) :=
  if !setup.quantized || nodeCount == 0 then some (none, [])
  else
    segments.fixed.bind fun quantizer =>
      ((codesLayout setup).read nodeCount segments.codes).bind fun codes =>
        if codes.all setup.validCode then some (some quantizer, codes) else none

/-- `OpenV2` -/
def openV2 (segments : Segments V C D Q) : Option (Impl V C D Q) :=
  segments.header.bind fun header =>
  (elemsLayout.read header.baseCount segments.elems).bind fun elems =>
  (upperLayout.read header.upperCount segments.upper).bind fun upper =>
  ((baseLayout setup).read header.baseCount segments.base).bind fun base =>
  (if setup.compactMode then some [] else
    vecLayout.read header.baseCount segments.vectors).bind fun vectors =>
  (readQuantizer setup segments header.baseCount).map fun quantizer =>
    { elems := ⟨elems, ∅, segments.elems⟩
      upper := ⟨upper.map UpperRecord.point, ∅, segments.upper⟩
      base := ⟨base.map BaseRecord.point, ∅, segments.base⟩
      vectors := ⟨vectors, ∅, segments.vectors⟩
      codes := ⟨quantizer.2, ∅, segments.codes⟩
      entry := header.entry
      quantizer := quantizer.1
      released := setup.compactMode
      fullDirty := false
      fixedDirty := false
      rowidToNode := none
      header := segments.header
      fixed := segments.fixed }

end Bridge
end VexDB.Sqlite
