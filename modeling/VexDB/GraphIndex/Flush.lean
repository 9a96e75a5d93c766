import VexDB.GraphIndex.MemStore

/-!
# Flushing the memory phase of a build

`flush_graph` copies the pools of the memory phase to the disk containers of the
index.  Base and upper records are repacked one by one.  The vectors are written
chunk by chunk, straight from the pool, to a file whose records have no padding.
-/

namespace VexDB.GraphIndex

open List Nat

/-- What a `DiskStore` opened on an index reads. -/
structure DiskIndex (E : Type*) where
  m : Nat
  vecSize : Nat
  elems : List E
  baseLayer : List (List UInt32)
  upperLayer : List (List UInt32)
  vecFile : Nat -> UInt8
  entryInfo : MemEntryInfo
  numVectors : Nat

namespace DiskIndex

variable {E : Type*} (disk : DiskIndex E)

/-- `read_data` -/
def readData (id : Nat) : List UInt8 :=
  (List.range disk.vecSize).map fun byte => disk.vecFile (id * disk.vecSize + byte)

/-- `GraphIndexDiskUpperPoint`: `lower_layer_idx` and `id` come first. -/
def upperRecord? (idx : Nat) : Option (UInt32 × UInt32 × List UInt32) :=
  match disk.upperLayer[idx]? with
  | some (lowerLayerIdx :: id :: neighborsInfo) => some (lowerLayerIdx, id, neighborsInfo)
  | _ => none

end DiskIndex

def copybufSize : Nat := 10 * 1024 * 1024

/-- Records that are collected in a buffer and appended batch by batch. -/
def batches {α : Type*} (copyNum num : Nat) (record : Nat -> α) : List α :=
  (List.range (num / copyNum + 1)).flatMap fun i =>
    (List.range (min copyNum (num - i * copyNum))).map fun j => record (i * copyNum + j)

/-- `vec_write` -/
def vecWrite (file : Nat -> UInt8) (offset nbytes : Nat) (buffer : Nat -> UInt8) : Nat -> UInt8 :=
  fun pos => if offset <= pos ∧ pos < offset + nbytes then buffer (pos - offset) else file pos

/-- The loop over the chunks of the vector pool. -/
def flushChunks (vecSize oneChunkElemNums numVectors : Nat) :
    Nat -> List (Nat -> UInt8) -> (Nat -> UInt8) -> (Nat -> UInt8)
  | _, [], file => file
  | i, buf :: rest, file =>
    let batchOffset := i * oneChunkElemNums
    let actualCopyNum := min oneChunkElemNums (numVectors - batchOffset)
    if actualCopyNum = 0 then file
    else flushChunks vecSize oneChunkElemNums numVectors (i + 1) rest
      (vecWrite file (batchOffset * vecSize) (actualCopyNum * vecSize) buf)

namespace MemStore

variable {E : Type*} (store : MemStore E)

/-- An upper record in the order of the disk container. -/
def diskUpperRecord (idx : Nat) : List UInt32 :=
  store.upperpointPool.get idx (store.m * 2) :: store.upperpointPool.get idx (store.m * 2 + 1) ::
    (List.range (store.m * 2)).map (store.upperpointPool.get idx)

/-- `flush_graph` without a quantizer. -/
def flushGraph : DiskIndex E where
  m := store.m
  vecSize := store.vecSize
  entryInfo := store.entryInfo
  numVectors := store.numVectors
  elems := if 0 < store.numVectors then store.elems else []
  baseLayer :=
    if 0 < store.numVectors then
      batches (copybufSize / (4 * store.m * 2)) store.numVectors store.baseNeighbors
    else []
  upperLayer :=
    if 0 < store.numVectors then
      batches (copybufSize / ((store.m + 1) * 2 * 4)) store.numUppers store.diskUpperRecord
    else []
  vecFile := flushChunks store.vecSize store.vectorPool.oneChunkElemNums store.numVectors 0
    store.vectorPool.chunks fun _ => 0

/-- The disk index reads as the store of the memory phase does. -/
structure FlushedTo (disk : DiskIndex E) : Prop where
  vectors : ∀ id < store.numVectors, disk.readData id = store.getData id
  elems : disk.elems = store.elems
  base : disk.baseLayer = (List.range store.numVectors).map store.baseNeighbors
  upperCount : disk.upperLayer.length = store.numUppers
  uppers : ∀ idx < store.numUppers, disk.upperRecord? idx = some (store.upperRecord idx)
  entry : disk.entryInfo = store.entryInfo
  count : disk.numVectors = store.numVectors

/-- Every vector is found where a pool without padding would have it. -/
def Unpadded : Prop :=
  ∀ id < store.numVectors, ∀ byte < store.vecSize,
    store.vectorPool.chunks.getD (store.vectorPool.chunkNo id) (fun _ => default)
        (id % store.vectorPool.oneChunkElemNums * store.vecSize + byte) =
      store.vectorPool.get id byte

end MemStore

/-- A number of batches carries as many records as fit into them. -/
theorem flatMap_batches {α : Type*} (copyNum num count : Nat) (record : Nat -> α) :
    ((range count).flatMap fun i =>
      (range (min copyNum (num - i * copyNum))).map fun j => record (i * copyNum + j)) =
      (range (min num (count * copyNum))).map record := by
  induction count with
  | zero => simp
  | succ count step =>
    rw [range_succ, flatMap_append, step, flatMap_singleton, succ_mul]
    rcases le_total num (count * copyNum) with short | long
    · rw [Nat.sub_eq_zero_of_le short, Nat.min_zero, range_zero, map_nil,
        append_nil, min_eq_left short,
        min_eq_left (short.trans (le_add_right _ _))]
    · have total : min num (count * copyNum + copyNum) =
          count * copyNum + min copyNum (num - count * copyNum) := by omega
      rw [min_eq_right long, total, range_add, map_append, map_map]
      rfl

theorem batches_eq {α : Type*} (positive : 0 < copyNum) (num : Nat)
    (record : Nat -> α) : batches copyNum num record = (range num).map record := by
  have enough : num <= (num / copyNum + 1) * copyNum :=
    (lt_mul_of_div_lt (lt_succ_self _) positive).le
  rw [batches, flatMap_batches, min_eq_left enough]

theorem flushChunks_before (vecSize perChunk num : Nat) (bufs : List (Nat -> UInt8))
    (file : Nat -> UInt8) (before : pos < i * perChunk * vecSize) :
    flushChunks vecSize perChunk num i bufs file pos = file pos := by
  induction bufs generalizing i file with
  | nil => rfl
  | cons buf rest step =>
    rw [flushChunks]
    split_ifs
    · rfl
    · rw [step _ (before.trans_le ?_), vecWrite, if_neg fun inside => before.not_ge inside.1]
      exact mul_le_mul_right _ (mul_le_mul_right _ (le_succ i))

/-- Where the file has a vector after the loop: at its place without padding. -/
theorem flushChunks_vector (positive : 0 < perChunk)
    {id byte : Nat} (stored : id < num) (inside : byte < vecSize) (bufs : List (Nat -> UInt8))
    (chunk : id / perChunk = i + no) (exists_buf : no < bufs.length) (file : Nat -> UInt8) :
    flushChunks vecSize perChunk num i bufs file (id * vecSize + byte) =
      bufs.getD no (fun _ => default) (id % perChunk * vecSize + byte) := by
  induction bufs generalizing i no file with
  | nil => exact absurd exists_buf (not_lt_zero no)
  | cons buf rest step =>
    have : i * perChunk <= id :=
      (le_div_iff_mul_le positive).1 (chunk ▸ le_add_right i no)
    rw [flushChunks, if_neg (by omega)]
    cases no with
    | zero =>
      have position : id = i * perChunk + id % perChunk := by
        have split := div_add_mod id perChunk
        rw [chunk, add_zero, mul_comm] at split
        exact split.symm
      have remainder := mod_lt id positive
      have place : id * vecSize + byte =
          i * perChunk * vecSize + (id % perChunk * vecSize + byte) := by
        rw [<- add_assoc, <- add_mul, <- position]
      have within : ∀ {count}, id % perChunk < count ->
          id % perChunk * vecSize + byte < count * vecSize := fun less =>
        (Nat.add_lt_add_left inside _).trans_le
          ((succ_mul _ _).symm.trans_le (mul_le_mul_right _ less))
      rw [place, flushChunks_before, vecWrite, if_pos, Nat.add_sub_cancel_left]
      · rfl
      · refine ⟨le_add_right _ _, Nat.add_lt_add_left (within ?_) _⟩
        exact Nat.lt_min.2 ⟨remainder, by omega⟩
      · rw [succ_mul, add_mul]
        exact Nat.add_lt_add_left (within remainder) _
    | succ =>
      rw [step (by omega) (lt_of_succ_lt_succ exists_buf)]
      rfl

namespace MemStore

variable {E : Type*} (store : MemStore E)

/-- What the disk index reads for a vector. -/
theorem readData_flushGraph {id : Nat} (stored : id < store.numVectors) :
    store.flushGraph.readData id = (range store.vecSize).map fun byte =>
      store.vectorPool.chunks.getD (store.vectorPool.chunkNo id) (fun _ => default)
        (id % store.vectorPool.oneChunkElemNums * store.vecSize + byte) := by
  refine map_congr_left fun byte inside => ?_
  refine flushChunks_vector store.vectorPool.oneChunkElemNums_pos stored (mem_range.1 inside)
    store.vectorPool.chunks ?_ (store.covered id stored) _
  rw [zero_add, MemPool.chunkNo_eq]

theorem copyNum_pos (positive : 0 < words) (small : words <= copybufSize) :
    0 < copybufSize / words :=
  div_pos small positive

theorem baseLayer_flushGraph :
    store.flushGraph.baseLayer = (range store.numVectors).map store.baseNeighbors := by
  have := store.bounded
  unfold flushGraph
  split_ifs with some_vector
  · exact batches_eq (copyNum_pos (by omega) (by unfold copybufSize; omega)) _ _
  · rw [Nat.eq_zero_of_not_pos some_vector]
    rfl

theorem upperLayer_flushGraph :
    store.flushGraph.upperLayer = (range store.numUppers).map store.diskUpperRecord := by
  have := store.bounded
  unfold flushGraph
  split_ifs with some_vector
  · exact batches_eq (copyNum_pos (by omega) (by unfold copybufSize; omega)) _ _
  · rw [store.uppers_below (Nat.eq_zero_of_not_pos some_vector)]
    rfl

theorem elems_flushGraph : store.flushGraph.elems = store.elems := by
  unfold flushGraph
  split_ifs with some_vector
  · rfl
  · have empty := store.elems_length
    rw [Nat.eq_zero_of_not_pos some_vector] at empty
    exact (eq_nil_of_length_eq_zero empty).symm

/-- Vectors that fill their alignment leave no padding. -/
theorem unpadded_of_dvd (aligned : store.alignment ∣ store.vecSize) : store.Unpadded := by
  intro id _ byte _
  have size : store.vectorPool.elemSize = store.vecSize := by
    rw [store.padded, alignElemSize]
    obtain ⟨count, vecSize⟩ := aligned
    rcases Nat.eq_zero_or_pos store.alignment with none | positive
    · rw [vecSize, none, mul_zero, zero_mul]
    · rw [show store.dim * 4 = store.alignment * count from vecSize, vecSize,
        Nat.add_sub_assoc positive, mul_add_div positive,
        Nat.div_eq_of_lt (Nat.sub_lt positive (succ_pos 0)), add_zero, mul_comm]
  rw [MemPool.get, MemPool.chunkOffset, size, MemPool.oneChunkElemNums_eq,
    and_two_pow_sub_one_eq_mod]

/-- The flush preserves the index exactly when every vector is found where a pool
without padding would have it, and so whenever the vectors fill their alignment. -/
theorem flushedTo_flushGraph_iff :
    (store.FlushedTo store.flushGraph ↔ store.Unpadded) ∧
      (store.alignment ∣ store.vecSize -> store.Unpadded) := by
  refine ⟨?_, store.unpadded_of_dvd⟩
  constructor
  · intro flushed id stored byte inside
    have same := flushed.vectors id stored
    rw [readData_flushGraph store stored] at same
    exact map_inj_left.1 same byte (mem_range.2 inside)
  · intro unpadded
    constructor
    case vectors =>
      intro id stored
      rw [readData_flushGraph store stored]
      exact map_congr_left fun byte inside =>
        unpadded id stored byte (mem_range.1 inside)
    case elems => exact store.elems_flushGraph
    case base => exact store.baseLayer_flushGraph
    case upperCount => rw [upperLayer_flushGraph, length_map, length_range]
    case uppers =>
      intro _ stored
      unfold DiskIndex.upperRecord?
      rw [upperLayer_flushGraph, getElem?_map, getElem?_range stored]
      rfl
    case entry => rfl
    case count => rfl

/-- Two points of dimension one, built with an alignment of 64 bytes; the bytes of
the vectors are 1 and 2. -/
private def twoPoints : MemStore Unit :=
  ((new 64 1 2 15 14 14 (by decide)).addPoint (fun _ => 1) (fun _ => invalidWord) ()).addPoint
    (fun _ => 2) (fun slot => if slot = 0 then 0 else invalidWord) ()

/-- The second vector is read back as the padding of the first. -/
theorem flushGraph_loses_vector : ¬ twoPoints.FlushedTo twoPoints.flushGraph := by
  intro flushed
  have second := flushed.vectors 1 (by decide)
  revert second
  decide +kernel

end MemStore

end VexDB.GraphIndex
