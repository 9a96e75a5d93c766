import Mathlib.Data.List.Basic
import Mathlib.Data.Nat.Bitwise
import Mathlib.Order.MinMax

/-!
# The store of the memory phase of a build

During the memory phase of a build the graph lives in chunked pools
(`MemStore::MemPool`).  A pool stores records of a fixed size in chunks of a
power of two of records.  The records of the vector pool are padded to the
alignment of the distance kernels; the records of the two point pools are not.
-/

namespace VexDB.GraphIndex

open Nat List

/-- A pool of records of `elemSize` cells.  A cell of the vector pool is a byte,
one of the point pools a word of 32 bits. -/
structure MemPool (α : Type*) where
  elemSize : Nat
  powElemNumsPerChunk : Nat
  chunks : List (Nat -> α)

namespace MemPool

variable {α : Type*}

section Position

variable (pool : MemPool α) (idx : Nat)

def oneChunkElemNums : Nat := 1 <<< pool.powElemNumsPerChunk

/-- `get_chunk_no` -/
def chunkNo : Nat := idx >>> pool.powElemNumsPerChunk

/-- `get_chunk_offset` -/
def chunkOffset : Nat := (idx &&& (pool.oneChunkElemNums - 1)) * pool.elemSize

theorem oneChunkElemNums_eq : pool.oneChunkElemNums = 2 ^ pool.powElemNumsPerChunk :=
  one_shiftLeft _

theorem oneChunkElemNums_pos : 0 < pool.oneChunkElemNums := by
  rw [oneChunkElemNums_eq]
  exact Nat.two_pow_pos _

theorem chunkNo_eq : pool.chunkNo idx = idx / pool.oneChunkElemNums := by
  rw [oneChunkElemNums_eq]
  exact shiftRight_eq_div_pow _ _

end Position

/-- A pool with one chunk. -/
def new (elemSize powElemNumsPerChunk : Nat) (fill : α) : MemPool α :=
  ⟨elemSize, powElemNumsPerChunk, [fun _ => fill]⟩

/-- A cell of a record. -/
def get [Inhabited α] (pool : MemPool α) (idx cell : Nat) : α :=
  pool.chunks.getD (pool.chunkNo idx) (fun _ => default) (pool.chunkOffset idx + cell)

/-- `extend`: allocate chunks until there is one for a record. -/
def extend (pool : MemPool α) (fill : α) (idx : Nat) : MemPool α :=
  { pool with
    chunks := pool.chunks ++
      replicate (pool.chunkNo idx + 1 - pool.chunks.length) (fun _ => fill) }

/-- Overwrite cells of a record from one of them on. -/
def copy (pool : MemPool α) (idx start count : Nat) (value : Nat -> α) : MemPool α :=
  let first := pool.chunkOffset idx + start
  { pool with
    chunks := pool.chunks.modify (pool.chunkNo idx) fun buf cell =>
      if first <= cell ∧ cell < first + count then value (cell - first) else buf cell }

/-- `set`: the record is copied whole, padding included. -/
def set (pool : MemPool α) (fill : α) (idx : Nat) (value : Nat -> α) : MemPool α :=
  (pool.extend fill idx).copy idx 0 pool.elemSize value

theorem length_extend (pool : MemPool α) (fill : α) (idx : Nat) :
    (pool.extend fill idx).chunks.length = max pool.chunks.length (pool.chunkNo idx + 1) := by
  unfold extend
  rw [length_append, length_replicate]
  omega

theorem length_copy (pool : MemPool α) (idx start count : Nat) (value : Nat -> α) :
    (pool.copy idx start count value).chunks.length = pool.chunks.length :=
  length_modify ..

theorem length_set (pool : MemPool α) (fill : α) (idx : Nat) (value : Nat -> α) :
    (pool.set fill idx value).chunks.length = max pool.chunks.length (pool.chunkNo idx + 1) :=
  (length_copy ..).trans (length_extend ..)

end MemPool

/-- `get_align_elem_size` -/
def alignElemSize (alignment size : Nat) : Nat := (size + alignment - 1) / alignment * alignment

/-- `INVALID_VECTOR_ID` of an index with ids of 32 bits; also what fresh chunks are
filled with. -/
def invalidWord : UInt32 := 0xFFFFFFFF

/-- `GraphIndexEntryInfo` -/
structure MemEntryInfo where
  id : UInt32
  curLayerIdx : UInt32
  level : Int
  deriving DecidableEq

/-- The store of the memory phase.  `alignment` is `vector_aligned_size` of the
platform, and `m` is what `adjust_m` makes of the option, a number of 16 bits.  The vector
pool has a chunk for every vector and none without need. -/
structure MemStore (E : Type*) where
  alignment : Nat
  dim : Nat
  m : Nat
  vectorPool : MemPool UInt8
  basepointPool : MemPool UInt32
  upperpointPool : MemPool UInt32
  elems : List E
  numVectors : Nat
  numUppers : Nat
  entryInfo : MemEntryInfo
  bounded : 2 <= m ∧ m < 2 ^ 16
  padded : vectorPool.elemSize = alignElemSize alignment (dim * 4)
  covered : ∀ id < numVectors, vectorPool.chunkNo id < vectorPool.chunks.length
  needed : ∀ no < vectorPool.chunks.length, no * vectorPool.oneChunkElemNums <= numVectors
  elems_length : elems.length = numVectors
  uppers_below : numVectors = 0 -> numUppers = 0

namespace MemStore

variable {E : Type*}

/-- `get_base_point_size`, in words: the neighbours, their distances, and a bit for
each of them. -/
def basePointWords (m : Nat) : Nat := 4 * m + (2 * m + 1 + 31) / 32 * 32 / 4

/-- `get_upper_point_size`, in words. -/
def upperPointWords (m : Nat) : Nat := 2 * (m + 1) + m + (m + 1 + 31) / 32 * 32 / 4

/-- The constructor.  The sizes of the chunks follow from the memory settings. -/
def new (alignment dim m vectorPow basePow upperPow : Nat) (bounded : 2 <= m ∧ m < 2 ^ 16) :
    MemStore E where
  alignment := alignment
  dim := dim
  m := m
  vectorPool := .new (alignElemSize alignment (dim * 4)) vectorPow 0xFF
  basepointPool := .new (basePointWords m) basePow invalidWord
  upperpointPool := .new (upperPointWords m) upperPow invalidWord
  elems := []
  numVectors := 0
  numUppers := 0
  entryInfo := ⟨invalidWord, invalidWord, -1⟩
  bounded := bounded
  padded := rfl
  covered _ below := absurd below (not_lt_zero _)
  needed no below := by
    have first : no = 0 := lt_one_iff.1 below
    simp [first]
  elems_length := rfl
  uppers_below _ := rfl

/-- A new point: `assign_vector_id`, `add_vector`, `add_basepoint` and `add_elem` for
the id it gives. -/
def addPoint (store : MemStore E) (vector : Nat -> UInt8) (neighborsId : Nat -> UInt32) (elem : E) :
    MemStore E where
  alignment := store.alignment
  dim := store.dim
  m := store.m
  vectorPool := store.vectorPool.set 0xFF store.numVectors vector
  basepointPool := (store.basepointPool.extend invalidWord store.numVectors).copy store.numVectors 0
    (store.m * 2) neighborsId
  upperpointPool := store.upperpointPool
  elems := store.elems ++ [elem]
  numVectors := store.numVectors + 1
  numUppers := store.numUppers
  entryInfo := store.entryInfo
  bounded := store.bounded
  padded := store.padded
  covered id below := by
    rw [MemPool.length_set, lt_max_iff]
    rcases Nat.lt_succ_iff_lt_or_eq.1 below with old | rfl
    · exact .inl (store.covered id old)
    · exact .inr (lt_succ_self _)
  needed no below := by
    rw [MemPool.length_set, lt_max_iff] at below
    rcases below with old | new
    · exact (store.needed no old).trans (le_succ _)
    · have reached : no <= store.numVectors / store.vectorPool.oneChunkElemNums := by
        rw [<- MemPool.chunkNo_eq]
        exact Nat.lt_succ_iff.1 new
      exact ((le_div_iff_mul_le store.vectorPool.oneChunkElemNums_pos).1 reached).trans
        (le_succ _)
  elems_length := by rw [length_append, store.elems_length]; rfl
  uppers_below empty := nomatch empty

/-- `assign_vector_id` and `add_upperpoint` for a level above the base layer. -/
def addUpperpoint (store : MemStore E) (present : 0 < store.numVectors)
    (lowerLayerIdx id : UInt32) (neighborsInfo : Nat -> UInt32) : MemStore E :=
  let idx := store.numUppers
  let filled := (store.upperpointPool.extend invalidWord idx).copy idx 0 (store.m * 2) neighborsInfo
  { store with
    upperpointPool := (filled.copy idx (store.m * 2) 1 fun _ => lowerLayerIdx).copy idx
      (store.m * 2 + 1) 1 fun _ => id
    numUppers := store.numUppers + 1
    uppers_below := fun empty => absurd empty (Nat.pos_iff_ne_zero.1 present) }

/-- `set_neighbor` in the base layer. -/
def setBaseNeighbor (store : MemStore E) (idx slot : Nat) (newId : UInt32) : MemStore E :=
  { store with basepointPool := store.basepointPool.copy idx slot 1 fun _ => newId }

/-- `set_neighbor` above the base layer. -/
def setUpperNeighbor (store : MemStore E) (idx slot : Nat) (newId newCurLayerIdx : UInt32) :
    MemStore E :=
  { store with
    upperpointPool := (store.upperpointPool.copy idx slot 1 fun _ => newId).copy idx
      (store.m + slot) 1 fun _ => newCurLayerIdx }

/-- `apply_elem` -/
def applyElem (store : MemStore E) (id : Nat) (change : E -> E) : MemStore E :=
  { store with
    elems := store.elems.modify id change
    elems_length := (length_modify ..).trans store.elems_length }

def setEntrypoint (store : MemStore E) (entryInfo : MemEntryInfo) : MemStore E :=
  { store with entryInfo := entryInfo }

variable (store : MemStore E)

/-- Bytes of a stored vector. -/
def vecSize : Nat := store.dim * 4

/-- The bytes of a vector, from what `get_data` points to. -/
def getData (id : Nat) : List UInt8 :=
  (range store.vecSize).map (store.vectorPool.get id)

/-- The neighbours of a point in the base layer. -/
def baseNeighbors (id : Nat) : List UInt32 :=
  (range (store.m * 2)).map (store.basepointPool.get id)

/-- A record above the base layer: `lower_layer_idx`, `id` and the neighbours. -/
def upperRecord (idx : Nat) : UInt32 × UInt32 × List UInt32 :=
  (store.upperpointPool.get idx (store.m * 2), store.upperpointPool.get idx (store.m * 2 + 1),
    (range (store.m * 2)).map (store.upperpointPool.get idx))

end MemStore
end VexDB.GraphIndex
