import Mathlib.Tactic.SplitIfs

/-!
# Encoding the vectors of an index in place

`compact_raw_vectors` replaces the raw vectors of a file by their codes, batch by batch:
forwards if a code is not larger than a vector, otherwise backwards.  The file is then cut to
whole blocks.
-/

namespace VexDB.VectorBuffer.Compaction

/-- The vectors encoded at a time. -/
def batchRows : Nat := 4096

/-- The bytes of a block. -/
def blcksz : Nat := 8192

/-- The blocks of a segment file. -/
def relsegSize : Nat := 131072

/-- `InvalidBlockNumber` -/
def invalidBlockNumber : Nat := 0xFFFFFFFF

/-- A vector file. -/
@[ext]
structure VecFile where
  bytes : Nat -> UInt8
  size : Nat

namespace VecFile

variable (file : VecFile)

/-- Write some bytes, given by their position in the file. -/
def write (start stop : Nat) (data : Nat -> UInt8) : VecFile where
  bytes position := if start <= position ∧ position < stop then data position
    else file.bytes position
  size := if start < stop then max file.size stop else file.size

variable {file} {start middle stop : Nat} {data data' : Nat -> UInt8}

theorem size_le_write : file.size <= (file.write start stop data).size := by
  simp only [write]
  split <;> omega

theorem write_empty : file.write start start data = file := by
  apply VecFile.ext
  · funext position
    exact if_neg (by omega)
  · exact if_neg (by omega)

theorem write_congr (same : ∀ position, start <= position -> position < stop ->
    data position = data' position) : file.write start stop data = file.write start stop data' := by
  apply VecFile.ext
  · funext position
    simp only [write]
    split_ifs with inside
    · rw [same position inside.1 inside.2]
    · rfl
  · rfl

variable (first : start <= middle) (second : middle <= stop)
include first second

theorem write_write_behind :
    (file.write start middle data).write middle stop data = file.write start stop data := by
  ext position : 2 <;> simp only [write] <;> split_ifs <;> first | rfl | omega

theorem write_write_before :
    (file.write middle stop data).write start middle data = file.write start stop data := by
  ext position : 2 <;> simp only [write] <;> split_ifs <;> first | rfl | omega

end VecFile

/-- What the loops read of the index build. -/
structure Job where
  vectorSize : Nat
  elemSize : Nat
  numVectors : Nat
  computeCode : (Fin vectorSize -> UInt8) -> Nat -> UInt8

namespace Job

variable (job : Job)

/-- A vector of a file of raw vectors. -/
def vector (file : VecFile) (i : Nat) (k : Fin job.vectorSize) : UInt8 :=
  file.bytes (i * job.vectorSize + k)

/-- The codes of the vectors, one behind the other. -/
def codes (file : VecFile) (position : Nat) : UInt8 :=
  job.computeCode (job.vector file (position / job.elemSize))
    (position % job.elemSize)

/-- Read a batch of vectors and write their codes. -/
def encodeBatch (first count : Nat) (file : VecFile) : Except String VecFile :=
  if file.size < (first + count) * job.vectorSize then
    .error "could not read raw vectors while compacting graph index"
  else .ok (file.write (first * job.elemSize) ((first + count) * job.elemSize)
    (job.codes file))

/-- The batches from the first vector on. -/
def encodeForwards (first : Nat) (file : VecFile) : Except String VecFile :=
  if first < job.numVectors then
    (job.encodeBatch first (min batchRows (job.numVectors - first)) file).bind
      (encodeForwards (first + batchRows))
  else .ok file
termination_by job.numVectors - first
decreasing_by simp only [batchRows]; omega

/-- The batches from the last vector on. -/
def encodeBackwards (stop : Nat) (file : VecFile) : Except String VecFile :=
  if stop = 0 then .ok file
  else
    (job.encodeBatch (stop - batchRows) (stop - (stop - batchRows)) file).bind
      (encodeBackwards (stop - batchRows))
termination_by stop
decreasing_by simp only [batchRows]; omega

/-- `compact_raw_vectors` -/
def compactRawVectors (file : VecFile) : Except String VecFile :=
  if job.elemSize <= job.vectorSize then job.encodeForwards 0 file
  else job.encodeBackwards job.numVectors file

/-- A file with the codes of some vectors in their places. -/
def coded (file : VecFile) (start stop : Nat) : VecFile :=
  file.write (start * job.elemSize) (stop * job.elemSize) (job.codes file)

variable {job} {file : VecFile}
  (long : job.numVectors * job.vectorSize <= file.size)

section

include long

/-- A batch encodes its vectors if no code has reached them. -/
theorem encodeBatch_coded (inside : first + count <= job.numVectors)
    (apart : ∀ i, first <= i -> i < first + count ->
      (i + 1) * job.vectorSize <= start * job.elemSize ∨
        stop * job.elemSize <= i * job.vectorSize) :
    job.encodeBatch first count (job.coded file start stop) =
      .ok ((job.coded file start stop).write (first * job.elemSize)
        ((first + count) * job.elemSize) (job.codes file)) := by
  have := Nat.mul_le_mul_right job.vectorSize inside
  have : file.size <= (job.coded file start stop).size := VecFile.size_le_write
  rw [encodeBatch, if_neg (by omega)]
  refine congrArg Except.ok (VecFile.write_congr fun position low high => ?_)
  have positive : 0 < job.elemSize := Nat.pos_of_ne_zero fun none => by
    rw [none] at high
    omega
  have read := apart _ ((Nat.le_div_iff_mul_le positive).2 low)
    ((Nat.div_lt_iff_lt_mul positive).2 high)
  rw [Nat.add_one_mul] at read
  refine congrArg (job.computeCode · _) (funext fun k => if_neg ?_)
  omega

/-- The codes of a forward batch end before the vectors behind it. -/
theorem encodeForwards_coded (small : job.elemSize <= job.vectorSize)
    (before : current = job.coded file 0 (min first job.numVectors)) :
    job.encodeForwards first current = .ok (job.coded file 0 job.numVectors) := by
  fun_induction encodeForwards with
  | case1 first current more ih =>
    rw [Nat.min_eq_left (by omega)] at before
    have next : first + min batchRows (job.numVectors - first) =
        min (first + batchRows) job.numVectors := by omega
    rw [before, encodeBatch_coded long (by omega) fun i low _ => .inr (Nat.mul_le_mul low small),
      next, Except.bind]
    apply ih
    exact VecFile.write_write_behind (by omega) (Nat.mul_le_mul_right _ (by omega))
  | case2 first current none =>
    rw [before, Nat.min_eq_right (by omega)]

/-- The codes of a backward batch begin behind the vectors before it. -/
theorem encodeBackwards_coded (large : job.vectorSize <= job.elemSize)
    (before : current = job.coded file stop job.numVectors) (inside : stop <= job.numVectors) :
    job.encodeBackwards stop current = .ok (job.coded file 0 job.numVectors) := by
  fun_induction encodeBackwards with
  | case1 current => rw [before]
  | case2 stop current more ih =>
    have next : stop - batchRows + (stop - (stop - batchRows)) = stop := by omega
    rw [before, encodeBatch_coded long (by omega) fun i _ high =>
        .inl (Nat.mul_le_mul (by omega) large), next, Except.bind]
    apply ih _ _ (by omega)
    exact VecFile.write_write_before (Nat.mul_le_mul_right _ (by omega))
      (Nat.mul_le_mul_right _ inside)

theorem compactRawVectors_eq :
    job.compactRawVectors file = .ok (job.coded file 0 job.numVectors) := by
  unfold compactRawVectors
  split
  next small =>
    apply encodeForwards_coded long small
    rw [coded, Nat.zero_min, VecFile.write_empty]
  next large =>
    apply encodeBackwards_coded long (by omega) _ (Nat.le_refl _)
    rw [coded, VecFile.write_empty]

end

end Job

/-- The length of a file, from the segment of the block behind the last full one.  There is no
such segment if that block would begin it. -/
def VecFile.writtenBytes (file : VecFile) : Nat :=
  let oldNblocks := file.size / blcksz
  let before := oldNblocks / relsegSize * relsegSize * blcksz
  if before < file.size then before + (file.size - before) else oldNblocks * blcksz

theorem VecFile.writtenBytes_eq (file : VecFile) : file.writtenBytes = file.size := by
  simp only [VecFile.writtenBytes]
  split <;> simp only [blcksz, relsegSize] at * <;> omega

/-- The blocks that hold some bytes. -/
def targetBlocks (nbytes : Nat) : Nat :=
  nbytes / blcksz + if nbytes % blcksz ≠ 0 then 1 else 0

theorem le_targetBlocks (nbytes : Nat) : nbytes <= targetBlocks nbytes * blcksz := by
  simp only [targetBlocks]
  split <;> simp only [blcksz] at * <;> omega

/-- The file after the call, also when it fails. -/
def truncateVectorFileTo (nbytes : Nat) (file : VecFile) : VecFile × Except String Unit :=
  let nblocks := targetBlocks nbytes
  if nblocks ≥ invalidBlockNumber then
    (file, .error "vector file exceeds the supported block count")
  else if nbytes > file.writtenBytes then
    (file, .error "vector file is shorter than its encoded payload")
  else if file.writtenBytes % blcksz = 0 then
    ({ file with size := min file.size (nblocks * blcksz) }, .ok ())
  else
    let roundedBlocks := file.writtenBytes / blcksz + 1
    if roundedBlocks ≥ invalidBlockNumber then
      (file, .error "vector file exceeds the supported block count")
    else
      let file := file.write (roundedBlocks * blcksz - 1) (roundedBlocks * blcksz) fun _ => 0
      ({ file with size := min file.size (nblocks * blcksz) }, .ok ())

/-- Truncating keeps the bytes it is told to keep. -/
theorem truncateVectorFileTo_keeps (long : nbytes <= file.size) :
    nbytes <= (truncateVectorFileTo nbytes file).1.size ∧
      ∀ position < nbytes, (truncateVectorFileTo nbytes file).1.bytes position =
        file.bytes position := by
  have cut := le_targetBlocks nbytes
  simp only [truncateVectorFileTo, VecFile.writtenBytes_eq]
  split_ifs
  · exact ⟨long, fun _ _ => rfl⟩
  · exact ⟨long, fun _ _ => rfl⟩
  · exact ⟨Nat.le_min.2 ⟨long, cut⟩, fun _ _ => rfl⟩
  · exact ⟨long, fun _ _ => rfl⟩
  · -- The byte written completes a block behind the end of the file.
    refine ⟨Nat.le_min.2 ⟨Nat.le_trans long VecFile.size_le_write, cut⟩, fun position kept => ?_⟩
    simp only [VecFile.write, blcksz]
    exact if_neg (by omega)

/-- Every vector is encoded in its place, and truncating keeps the codes. -/
theorem compactRawVectors_encodes (job : Job) (original : VecFile)
    (long : job.numVectors * job.vectorSize <= original.size) :
    ∃ after, job.compactRawVectors original = .ok after ∧
      let total := job.numVectors * job.elemSize
      let cut := (truncateVectorFileTo total after).1
      total <= after.size ∧
      (∀ i < job.numVectors, ∀ k < job.elemSize, after.bytes (i * job.elemSize + k) =
        job.computeCode (job.vector original i) k) ∧
      total <= cut.size ∧ ∀ position < total, cut.bytes position = after.bytes position := by
  have full : job.numVectors * job.elemSize <=
      (job.coded original 0 job.numVectors).size := by
    simp only [Job.coded, VecFile.write]
    split <;> omega
  refine ⟨_, Job.compactRawVectors_eq long, full, fun i bounded k small => ?_,
    truncateVectorFileTo_keeps full⟩
  have inside := Nat.mul_le_mul_right job.elemSize (show i + 1 <= _ from bounded)
  rw [Nat.add_one_mul] at inside
  have index : (i * job.elemSize + k) / job.elemSize = i := by
    rw [Nat.div_eq_iff (by omega)]
    omega
  refine (if_pos ⟨by omega, by omega⟩).trans ?_
  rw [Job.codes, index, Nat.mul_comm, Nat.mul_add_mod, Nat.mod_eq_of_lt small]

/-- Two batches of vectors of two bytes with codes of three. -/
theorem compactRawVectors_encodes_growing :
    let job : Job := ⟨2, 3, 5000, fun vector k => if k = 2 then vector 1 else vector 0⟩
    let file : VecFile := ⟨fun position => UInt8.ofNat position, 10000⟩
    ∃ after, job.compactRawVectors file = .ok after ∧ 15000 <= after.size ∧
      ∀ i < 5000, ∀ k < 3, after.bytes (i * 3 + k) =
        job.computeCode (job.vector file i) k := by
  obtain ⟨after, compacted, size, codes, _⟩ := compactRawVectors_encodes
    ⟨2, 3, 5000, fun vector k => if k = 2 then vector 1 else vector 0⟩
    ⟨fun position => UInt8.ofNat position, 10000⟩ (by decide)
  exact ⟨after, compacted, size, codes⟩

end VexDB.VectorBuffer.Compaction
