import Mathlib.Algebra.Order.Ring.Int
import Mathlib.Data.List.Perm.Subperm
import VexDB.Storage.Runs

/-!
# The shared allocation set

A memory context over shared memory (`shared_alloc_set.cpp`).  Chunks are carved
from blocks; a freed chunk keeps its size and goes to the free list of its size
class.  Emptying a pool of the vector cache deletes the context that all pools
and the manager share.
-/

namespace VexDB.VectorBuffer

open List

open Storage

/-- The range of `Size`. -/
def sizeLimit : Nat := 2 ^ 64

/-- `MAXALIGN` -/
def maxAlign (size : Nat) : Nat := (size + 7) % sizeLimit / 8 * 8

/-- `SHARED_BLOCKHDRSZ` -/
def blockHdrSz : Nat := 24

/-- `SHARED_CHUNKHDRSZ` -/
def chunkHdrSz : Nat := 16

structure AllocBlock where
  addr : Nat
  size : Nat
  used : Nat
  deriving DecidableEq, Repr

/-- A chunk, from its header on. -/
structure AllocChunk where
  addr : Nat
  size : Nat
  deriving DecidableEq, Repr

/-- What a caller holds: a chunk, and the size it asked for. -/
structure Allocation where
  chunk : AllocChunk
  request : Nat
  deriving DecidableEq, Repr

/-- The pointer the caller was given. -/
def Allocation.pointer (allocation : Allocation) : Nat := allocation.chunk.addr + chunkHdrSz

/-- The end of the region the caller asked for. -/
def Allocation.stop (allocation : Allocation) : Nat := allocation.pointer + allocation.request

/-- The loop of `SharedGetFreeListIdx`, with the number of classes left. -/
def freeListIdxLoop (size : Nat) : Nat -> Nat -> Nat -> Nat
  | 0, _, idx => idx
  | left + 1, chunkSize, idx =>
    if chunkSize < size then freeListIdxLoop size left (chunkSize * 2) (idx + 1) else idx

/-- `SharedGetFreeListIdx` -/
def getFreeListIdx (size : Nat) : Option Nat :=
  if size = 0 then none else some (freeListIdxLoop size 10 8 0)

/-- `SharedAllocSetData` -/
structure AllocSet where
  maxBlockSize : Nat
  nextBlockSize : Nat
  /-- The newest block comes first. -/
  blocks : List AllocBlock
  /-- The chunks of all free lists, the last freed first; a chunk is on the list
  of its size class. -/
  free : List AllocChunk
  deriving DecidableEq, Repr

/-- `shared_alloc_from_freelist`: the first chunk of the class. -/
def AllocSet.fromFreelist (set : AllocSet) (fidx : Option Nat) : Option AllocChunk :=
  fidx.bind fun idx => set.free.find? fun chunk => getFreeListIdx chunk.size == some idx

/-- `shared_alloc_from_block` -/
def AllocBlock.alloc (block : AllocBlock) (chunkSize : Nat) : Option (AllocChunk × AllocBlock) :=
  let used := (block.used + maxAlign chunkSize) % sizeLimit
  if block.size < used then none
  else some (⟨block.addr + block.used, maxAlign chunkSize⟩, { block with used := used })

/-- The first block with room. -/
def allocFromBlocks (chunkSize : Nat) : List AllocBlock -> Option (AllocChunk × List AllocBlock)
  | [] => none
  | block :: rest =>
    match block.alloc chunkSize with
    | some (chunk, block) => some (chunk, block :: rest)
    | none => (allocFromBlocks chunkSize rest).map fun found => (found.1, block :: found.2)

/-- The size of the block that a request needs when no block has room. -/
def AllocSet.newBlockSize (set : AllocSet) (totalSize : Nat) : Nat :=
  if (set.nextBlockSize + sizeLimit - blockHdrSz) % sizeLimit < totalSize then
    (totalSize + blockHdrSz) % sizeLimit
  else set.nextBlockSize

/-- The block that a request adds. -/
def AllocSet.newBlock (set : AllocSet) (totalSize addr : Nat) : AllocBlock :=
  ⟨addr, set.newBlockSize totalSize, blockHdrSz⟩

/-- The block size after a block was added. -/
def AllocSet.grownBlockSize (set : AllocSet) : Nat :=
  min (set.nextBlockSize * 2 % sizeLimit) set.maxBlockSize

/-- Add a new block, with the chunk that was carved from it; the block is also
kept when the chunk did not fit. -/
def AllocSet.addBlock (set : AllocSet) (fresh : AllocBlock) :
    Option (AllocChunk × AllocBlock) -> AllocSet × Option AllocChunk
  | some (chunk, block) =>
    ({ set with blocks := block :: set.blocks, nextBlockSize := set.grownBlockSize }, some chunk)
  | none =>
    ({ set with blocks := fresh :: set.blocks, nextBlockSize := set.grownBlockSize }, none)

/-- A chunk from a new block. -/
def AllocSet.allocFromNewBlock (set : AllocSet) (totalSize addr : Nat) :
    AllocSet × Option AllocChunk :=
  let fresh := set.newBlock totalSize addr
  set.addBlock fresh (fresh.alloc totalSize)

/-- The size of a chunk for a request. -/
def totalSize (size : Nat) : Nat := maxAlign ((chunkHdrSz + size) % sizeLimit)

/-- `SharedAllocSetAlloc`, with the address that `ShmemAlloc` would answer; no
chunk stands for a null pointer and for an error. -/
def AllocSet.alloc (set : AllocSet) (size : Nat) (shmem : Option Nat) :
    AllocSet × Option AllocChunk :=
  if size = 0 then (set, none)
  else
    match set.fromFreelist (getFreeListIdx (totalSize size)) with
    | some chunk => ({ set with free := set.free.erase chunk }, some chunk)
    | none =>
      match allocFromBlocks (totalSize size) set.blocks with
      | some (chunk, blocks) => ({ set with blocks := blocks }, some chunk)
      | none =>
        match shmem with
        | none => (set, none)
        | some addr => set.allocFromNewBlock (totalSize size) addr

/-- `shared_add_to_freelist` -/
def AllocSet.release (set : AllocSet) (chunk : AllocChunk) : AllocSet :=
  if (getFreeListIdx chunk.size).isSome then { set with free := chunk :: set.free } else set

/-- `SharedAllocSetReset`, which is also `SharedAllocSetDelete`. -/
def AllocSet.reset (set : AllocSet) : AllocSet :=
  { set with free := [], blocks := set.blocks.map fun block => { block with used := blockHdrSz } }

/-- A context with what its callers hold. -/
structure Context where
  set : AllocSet
  live : List Allocation
  deriving DecidableEq, Repr

/-- What callers do with a context. -/
inductive ContextOp where
  | alloc (size : Nat) (shmem : Option Nat)
  | free (pointer : Nat)
  deriving DecidableEq, Repr

/-- One call. -/
def Context.step (context : Context) : ContextOp -> Context
  | .alloc size shmem =>
    let (set, chunk) := context.set.alloc size shmem
    ⟨set, (chunk.map fun chunk => ⟨chunk, size⟩).toList ++ context.live⟩
  | .free pointer =>
    match context.live.find? fun allocation => allocation.pointer == pointer with
    | none => context
    | some allocation => ⟨context.set.release allocation.chunk, context.live.erase allocation⟩

theorem Context.step_alloc (context : Context) (size : Nat) (shmem : Option Nat) :
    context.step (.alloc size shmem) = ⟨(context.set.alloc size shmem).1,
        ((context.set.alloc size shmem).2.map fun chunk => ⟨chunk, size⟩).toList ++
          context.live⟩ := rfl

/-- Two regions of memory that do not overlap. -/
abbrev Apart (start stop start' stop' : Nat) : Prop := stop <= start' ∨ stop' <= start

abbrev AllocBlock.Apart (block other : AllocBlock) : Prop :=
  VectorBuffer.Apart block.addr (block.addr + block.size) other.addr (other.addr + other.size)

abbrev AllocChunk.Apart (chunk other : AllocChunk) : Prop :=
  VectorBuffer.Apart chunk.addr (chunk.addr + chunk.size) other.addr (other.addr + other.size)

/-- No header and region of an allocation overlaps that of another. -/
abbrev Allocation.Apart (allocation other : Allocation) : Prop :=
  VectorBuffer.Apart allocation.chunk.addr allocation.stop other.chunk.addr other.stop

/-- `ShmemAlloc` answers with a region of its own. -/
def ContextOp.Granted (context : Context) : ContextOp -> Prop
  | .alloc size shmem => ∀ addr ∈ shmem, ∀ block ∈ context.set.blocks,
      AllocBlock.Apart ⟨addr, context.set.newBlockSize (totalSize size), blockHdrSz⟩ block
  | .free _ => True

/-- A request whose sums do not wrap around, and for which the free list of its
class, if it is not empty, starts with a chunk that is large enough. -/
def ContextOp.Fits (context : Context) : ContextOp -> Prop
  | .alloc size _ =>
    (∀ block ∈ context.set.blocks, block.used + size + 64 < sizeLimit) ∧
      size + 64 < sizeLimit ∧
      ∀ chunk ∈ context.set.fromFreelist (getFreeListIdx (totalSize size)),
        totalSize size <= chunk.size
  | .free _ => True

instance (context : Context) : (op : ContextOp) -> Decidable (op.Granted context)
  | .alloc _ _ => inferInstanceAs (Decidable (∀ _ ∈ _, ∀ _ ∈ _, _))
  | .free _ => inferInstanceAs (Decidable True)

instance (context : Context) : (op : ContextOp) -> Decidable (op.Fits context)
  | .alloc _ _ => inferInstanceAs (Decidable ((∀ _ ∈ _, _) ∧ _ ∧ ∀ _ ∈ _, _))
  | .free _ => inferInstanceAs (Decidable True)

/-- Every allocation lies in a block, and no two overlap. -/
structure Context.Disjoint (context : Context) : Prop where
  inside : ∀ allocation ∈ context.live, ∃ block ∈ context.set.blocks,
    block.addr <= allocation.chunk.addr ∧ allocation.stop <= block.addr + block.size
  apart : context.live.Pairwise Allocation.Apart

/-! ## Chunks and blocks -/

/-- The chunk is part of the used bytes of the block. -/
structure AllocBlock.Holds (block : AllocBlock) (chunk : AllocChunk) : Prop where
  start : block.addr <= chunk.addr
  used : chunk.addr + chunk.size <= block.addr + block.used
  stop : chunk.addr + chunk.size <= block.addr + block.size

/-- All chunks of a context. -/
def Context.chunks (context : Context) : List AllocChunk :=
  context.live.map Allocation.chunk ++ context.set.free

/-- Blocks and chunks do not overlap, and a caller's chunk has room for what was
asked for. -/
structure Context.Sound (context : Context) : Prop where
  blocks : context.set.blocks.Pairwise AllocBlock.Apart
  apart : context.chunks.Pairwise AllocChunk.Apart
  held : ∀ chunk ∈ context.chunks, ∃ block ∈ context.set.blocks, block.Holds chunk
  roomy : ∀ allocation ∈ context.live, chunkHdrSz + allocation.request <= allocation.chunk.size

variable {chunk : AllocChunk} {size : Nat}

theorem AllocChunk.Apart.symm (apart : chunk.Apart other) :
    other.Apart chunk := Or.symm apart

section

variable (small : size + 64 < sizeLimit)
include small

theorem totalSize_eq : totalSize size = (chunkHdrSz + size + 7) / 8 * 8 := by
  simp only [totalSize, maxAlign, chunkHdrSz, sizeLimit] at *
  omega

theorem maxAlign_totalSize : maxAlign (totalSize size) = totalSize size := by
  rw [totalSize_eq small]
  simp only [maxAlign, chunkHdrSz, sizeLimit] at *
  omega

theorem le_totalSize : chunkHdrSz + size <= totalSize size ∧ totalSize size <= size + 32 := by
  rw [totalSize_eq small]
  simp only [chunkHdrSz]
  omega

/-- The chunk a block gives away starts where its used bytes ended. -/
theorem AllocBlock.alloc_eq_some {block after : AllocBlock}
    (room : block.used + totalSize size < sizeLimit)
    (allocated : block.alloc (totalSize size) = some (chunk, after)) :
    chunk = ⟨block.addr + block.used, totalSize size⟩ ∧
      after = { block with used := block.used + totalSize size } ∧
      block.used + totalSize size <= block.size := by
  have exact : (block.used + totalSize size) % sizeLimit = block.used + totalSize size :=
    Nat.mod_eq_of_lt room
  simp only [AllocBlock.alloc, maxAlign_totalSize small, exact] at allocated
  split_ifs at allocated with full
  cases allocated
  exact ⟨rfl, rfl, Nat.le_of_not_lt full⟩

end

/-- The first block with room is somewhere in the list. -/
theorem allocFromBlocks_eq_some {chunkSize : Nat} {blocks after : List AllocBlock}
    (allocated : allocFromBlocks chunkSize blocks = some (chunk, after)) :
    ∃ front block changed back, blocks = front ++ block :: back ∧
      after = front ++ changed :: back ∧ block.alloc chunkSize = some (chunk, changed) := by
  induction blocks generalizing after with
  | nil => cases allocated
  | cons block rest ih =>
    rw [allocFromBlocks] at allocated
    cases here : block.alloc chunkSize with
    | some found =>
      rw [here] at allocated
      cases allocated
      exact ⟨[], block, found.2, rest, rfl, rfl, here⟩
    | none =>
      rw [here] at allocated
      obtain ⟨⟨_, _⟩, found, same⟩ := Option.map_eq_some_iff.1 allocated
      cases same
      obtain ⟨front, other, changed, back, rfl, rfl, fits⟩ := ih found
      exact ⟨block :: front, other, changed, back, rfl, rfl, fits⟩

theorem allocFromBlocks_eq_none {chunkSize : Nat} {blocks : List AllocBlock}
    (full : allocFromBlocks chunkSize blocks = none) :
    ∀ block ∈ blocks, block.alloc chunkSize = none := by
  induction blocks with
  | nil => nofun
  | cons block rest ih =>
    rw [allocFromBlocks] at full
    cases here : block.alloc chunkSize with
    | some => simp [here] at full
    | none =>
      simp only [here, Option.map_eq_none_iff] at full
      exact forall_mem_cons.2 ⟨here, ih full⟩

namespace Context

variable {context : Context}

section

variable (sound : context.Sound) {block : AllocBlock} {size : Nat}
include sound

/-- A sound context keeps its allocations apart. -/
theorem Sound.disjoint : context.Disjoint where
  inside allocation present := by
    obtain ⟨block, among, holds⟩ := sound.held allocation.chunk
      (mem_append_left _ (mem_map_of_mem present))
    have := sound.roomy allocation present
    refine ⟨block, among, holds.start, ?_⟩
    have := holds.stop
    simp only [Allocation.stop, Allocation.pointer]
    omega
  apart := by
    have chunks := pairwise_map.1 (pairwise_append.1 sound.apart).1
    refine chunks.imp_of_mem fun {left right} leftLive rightLive apart => ?_
    have := sound.roomy left leftLive
    have := sound.roomy right rightLive
    simp only [Allocation.Apart, Allocation.stop, Allocation.pointer]
      at apart ⊢
    omega

/-- Chunks may change hands. -/
theorem Sound.rearrange {free : List AllocChunk} {live : List Allocation}
    (chunks : (live.map Allocation.chunk ++ free).Subperm context.chunks)
    (roomy : ∀ allocation ∈ live, chunkHdrSz + allocation.request <= allocation.chunk.size) :
    Sound ⟨{ context.set with free := free }, live⟩ where
  blocks := sound.blocks
  apart := by
    obtain ⟨_, perm, sublist⟩ := chunks
    exact (perm.pairwise_iff AllocChunk.Apart.symm).1 (sound.apart.sublist sublist)
  held chunk present := sound.held chunk (chunks.subset present)
  roomy := roomy

/-- A block of its own keeps everything apart. -/
theorem Sound.addBlock (next : Nat) (own : ∀ other ∈ context.set.blocks, block.Apart other) :
    Sound ⟨{ context.set with blocks := block :: context.set.blocks, nextBlockSize := next },
      context.live⟩ where
  blocks := pairwise_cons.2 ⟨own, sound.blocks⟩
  __ := sound
  held chunk present := by
    obtain ⟨other, among, holds⟩ := sound.held chunk present
    exact ⟨other, mem_cons_of_mem _ among, holds⟩

/-- A chunk carved from the unused bytes of a block. -/
theorem Sound.carve (blocks : context.set.blocks = front ++ block :: back)
    (room : block.used + total <= block.size) (fits : chunkHdrSz + size <= total) :
    Sound ⟨{ context.set with
        blocks := front ++ { block with used := block.used + total } :: back },
      ⟨⟨block.addr + block.used, total⟩, size⟩ :: context.live⟩ := by
  have pairwise := sound.blocks
  rw [blocks] at pairwise
  obtain ⟨frontApart, middle, across⟩ := pairwise_append.1 pairwise
  obtain ⟨backward, backApart⟩ := pairwise_cons.1 middle
  have others : ∀ other ∈ context.set.blocks, other = block ∨ block.Apart other := by
    intro other among
    rw [blocks] at among
    rcases mem_append.1 among with before | after
    · exact .inr (.symm (across other before block mem_cons_self))
    · rcases mem_cons.1 after with rfl | behind
      · exact .inl rfl
      · exact .inr (backward other behind)
  refine ⟨?_, ?_, ?_, ?_⟩
  · refine pairwise_append.2 ⟨frontApart, pairwise_cons.2 ⟨backward, backApart⟩, ?_⟩
    intro other before changed after
    rcases mem_cons.1 after with rfl | behind
    · exact across other before block mem_cons_self
    · exact across other before changed (mem_cons_of_mem _ behind)
  · refine pairwise_cons.2 ⟨fun chunk present => ?_, sound.apart⟩
    -- The chunk is below the used end of its own block, or in another block.
    obtain ⟨other, among, holds⟩ := sound.held chunk present
    have := holds.start
    have used := holds.used
    have := holds.stop
    rcases others other among with rfl | apart
    · exact .inr used
    · simp only [AllocChunk.Apart] at apart ⊢
      omega
  · intro chunk present
    rcases mem_cons.1 present with rfl | old
    · exact ⟨{ block with used := block.used + total }, by simp,
        ⟨Nat.le_add_right _ _, Nat.le_of_eq (Nat.add_assoc _ _ _),
          by simp only [Nat.add_assoc]; omega⟩⟩
    · obtain ⟨other, among, holds⟩ := sound.held chunk old
      rw [blocks] at among
      by_cases same : other = block
      · subst same
        have used := holds.used
        exact ⟨{ other with used := other.used + total }, by simp,
          ⟨holds.start, by simp only; omega, holds.stop⟩⟩
      · refine ⟨other, ?_, holds⟩
        simp only [mem_append, mem_cons] at among ⊢
        tauto
  · intro allocation present
    rcases mem_cons.1 present with rfl | old
    · exact fits
    · exact sound.roomy allocation old

/-- A chunk from a new block. -/
theorem Sound.newBlock (small : size + 64 < sizeLimit)
    (above : totalSize size <= size + 32) (fits : chunkHdrSz + size <= totalSize size)
    (own : ∀ other ∈ context.set.blocks, (context.set.newBlock (totalSize size) addr).Apart other) :
    Sound ⟨(context.set.allocFromNewBlock (totalSize size) addr).1,
      ((context.set.allocFromNewBlock (totalSize size) addr).2.map fun chunk =>
        ⟨chunk, size⟩).toList ++ context.live⟩ := by
  have grown := sound.addBlock context.set.grownBlockSize own
  have room : (context.set.newBlock (totalSize size) addr).used + totalSize size < sizeLimit := by
    simp only [AllocSet.newBlock, blockHdrSz]
    omega
  rw [AllocSet.allocFromNewBlock]
  cases carved : (context.set.newBlock (totalSize size) addr).alloc (totalSize size) with
  | none => exact grown
  | some found =>
    obtain ⟨_, _⟩ := found
    obtain ⟨rfl, rfl, below⟩ := AllocBlock.alloc_eq_some small room carved
    exact grown.carve (nil_append _).symm below fits

/-- One allocation. -/
theorem Sound.alloc {shmem : Option Nat} (granted : (ContextOp.alloc size shmem).Granted context)
    (fits : (ContextOp.alloc size shmem).Fits context) :
    (context.step (.alloc size shmem)).Sound := by
  obtain ⟨unwrapped, small, large⟩ := fits
  have bounds := le_totalSize small
  rw [step_alloc]
  unfold AllocSet.alloc
  split_ifs
  · exact sound
  cases listed : context.set.fromFreelist (getFreeListIdx (totalSize size)) with
  | some chunk =>
    obtain ⟨_, _, found⟩ := Option.bind_eq_some_iff.1 listed
    have perm := perm_cons_erase (mem_of_find?_eq_some found)
    refine sound.rearrange ?_ fun allocation present => ?_
    · refine List.Perm.subperm ?_
      exact perm_middle.symm.trans ((List.Perm.refl _).append perm.symm)
    · rcases mem_cons.1 present with rfl | old
      · exact bounds.1.trans (large chunk listed)
      · exact sound.roomy allocation old
  | none =>
    cases room : allocFromBlocks (totalSize size) context.set.blocks with
    | some found =>
      obtain ⟨_, _⟩ := found
      obtain ⟨_, block, _, _, split, rfl, allocated⟩ :=
        allocFromBlocks_eq_some room
      have exact := unwrapped block (by rw [split]; simp)
      obtain ⟨rfl, rfl, below⟩ := AllocBlock.alloc_eq_some small (by omega) allocated
      exact sound.carve split below bounds.1
    | none =>
      cases shmem with
      | none => exact sound
      | some addr =>
        exact sound.newBlock small bounds.2 bounds.1 (granted addr rfl)

/-- One call keeps a context sound. -/
theorem Sound.step {op : ContextOp} (granted : op.Granted context)
    (fits : op.Fits context) : (context.step op).Sound := by
  cases op with
  | alloc => exact sound.alloc granted fits
  | free pointer =>
    rw [Context.step]
    cases found : context.live.find? fun allocation => allocation.pointer == pointer with
    | none => exact sound
    | some allocation =>
      have perm := perm_cons_erase (mem_of_find?_eq_some found)
      have moved := (perm.map Allocation.chunk).append_right context.set.free
      have roomy : ∀ other ∈ context.live.erase allocation,
          chunkHdrSz + other.request <= other.chunk.size := fun other present =>
        sound.roomy other (mem_of_mem_erase present)
      dsimp only [AllocSet.release]
      split_ifs
      · exact sound.rearrange (perm_middle.trans moved.symm).subperm roomy
      · exact sound.rearrange ((sublist_cons_self _ _).subperm.trans moved.symm.subperm)
          roomy

end

/-- `SharedAllocSetCreate` -/
def create (initBlockSize maxBlockSize : Nat) : Context :=
  ⟨⟨maxBlockSize, initBlockSize, [], []⟩, []⟩

/-- The context after some calls. -/
def run (context : Context) (ops : List ContextOp) : Context := ops.foldl step context

theorem Sound.create (initBlockSize maxBlockSize : Nat) :
    (Context.create initBlockSize maxBlockSize).Sound :=
  ⟨.nil, .nil, nofun, nofun⟩

/-- The allocations of a run whose requests all fit do not overlap. -/
theorem allocations_disjoint (initBlockSize maxBlockSize : Nat) (ops : List ContextOp)
    (fits : Along step (fun context op => op.Granted context ∧ op.Fits context)
      (create initBlockSize maxBlockSize) ops) :
    ((create initBlockSize maxBlockSize).run ops).Disjoint :=
  (fits.foldl (fun _ _ sound allowed => sound.step allowed.1 allowed.2)
    (Sound.create initBlockSize maxBlockSize)).disjoint

theorem allocations_disjoint_reused :
    ((create 8192 8192).run
      [.alloc 24 (some 4096), .alloc 8 none, .free 4136, .alloc 20 none]).Disjoint :=
  allocations_disjoint 8192 8192 _ (by decide +kernel)

/-- A chunk of 40 bytes is freed and handed out for a request that needs 56: its
end is in the next chunk. -/
theorem allocations_overlap :
    ¬ ∀ (initBlockSize maxBlockSize : Nat) (ops : List ContextOp),
      Along step (fun context op => op.Granted context) (create initBlockSize maxBlockSize) ops ->
        ((create initBlockSize maxBlockSize).run ops).Disjoint := by
  intro always
  have disjoint := always 8192 8192
    [.alloc 24 (some 4096), .alloc 8 none, .free 4136, .alloc 40 none] (by decide +kernel)
  exact absurd disjoint.apart (by decide +kernel)

end Context

/-! ## Blocks that are given away again -/

/-- A request far below the range of `Size`. -/
def ContextOp.Small : ContextOp -> Prop
  | .alloc size _ => size < 2 ^ 62
  | .free _ => True

instance : (op : ContextOp) -> Decidable op.Small
  | .alloc _ _ => inferInstanceAs (Decidable (_ < _))
  | .free _ => inferInstanceAs (Decidable True)

/-- Where the blocks are. -/
def AllocSet.extents (set : AllocSet) : List (Nat × Nat) :=
  set.blocks.map fun block => (block.addr, block.size)

namespace Context

/-- Sums of sizes do not wrap around, and every chunk lies behind the header of a block; chunks may
overlap. -/
structure Bounded (context : Context) : Prop where
  next : context.set.nextBlockSize < 2 ^ 62
  largest : context.set.maxBlockSize < 2 ^ 62
  blocks : ∀ block ∈ context.set.blocks,
    block.used <= max blockHdrSz block.size ∧ blockHdrSz <= block.used ∧ block.size < 2 ^ 62 + 64
  chunks : ∀ chunk ∈ context.chunks, 24 <= chunk.size ∧ ∃ extent ∈ context.set.extents,
    extent.1 + blockHdrSz <= chunk.addr ∧ chunk.addr + chunk.size <= extent.1 + extent.2

section

variable {context : Context} (bounded : context.Bounded) {block : AllocBlock}
include bounded

theorem Bounded.rearrange {free : List AllocChunk} {live : List Allocation}
    (chunks : live.map Allocation.chunk ++ free ⊆ context.chunks) :
    Bounded ⟨{ context.set with free := free }, live⟩ :=
  ⟨bounded.next, bounded.largest, bounded.blocks, fun chunk present =>
    bounded.chunks chunk (chunks present)⟩

/-- A chunk from the unused bytes of a block. -/
theorem Bounded.carve (blocks : context.set.blocks = front ++ block :: back)
    (room : block.used + total <= block.size) (large : 24 <= total) :
    Bounded ⟨{ context.set with
        blocks := front ++ { block with used := block.used + total } :: back },
      ⟨⟨block.addr + block.used, total⟩, size⟩ :: context.live⟩ := by
  have among : block ∈ context.set.blocks := by simp [blocks]
  have extents : context.set.extents = AllocSet.extents { context.set with
      blocks := front ++ { block with used := block.used + total } :: back } := by
    simp [AllocSet.extents, blocks]
  obtain ⟨_, header, limit⟩ := bounded.blocks block among
  refine ⟨bounded.next, bounded.largest, fun other present => ?_, fun chunk present => ?_⟩
  · rcases mem_append.1 present with before | after
    · exact bounded.blocks other (by rw [blocks]; exact mem_append_left _ before)
    · rcases mem_cons.1 after with rfl | behind
      · exact ⟨room.trans (le_max_right _ _), header.trans (Nat.le_add_right _ _), limit⟩
      · exact bounded.blocks other (by simp [blocks, behind])
  · rw [<- extents]
    rcases mem_cons.1 present with rfl | old
    · refine ⟨large, (block.addr, block.size), mem_map_of_mem among, ?_, ?_⟩
      · exact Nat.add_le_add_left header _
      · simp only
        omega
    · exact bounded.chunks chunk old

theorem Bounded.addBlock {next : Nat} (below : next < 2 ^ 62)
    (fresh : block.used = blockHdrSz ∧ block.size < 2 ^ 62 + 64) :
    Bounded ⟨{ context.set with blocks := block :: context.set.blocks, nextBlockSize := next },
      context.live⟩ := by
  refine ⟨below, bounded.largest, forall_mem_cons.2 ⟨?_, bounded.blocks⟩, fun chunk present => ?_⟩
  · exact ⟨fresh.1.trans_le (le_max_left _ _), fresh.1.ge, fresh.2⟩
  · obtain ⟨large, extent, among, inside⟩ := bounded.chunks chunk present
    exact ⟨large, extent, mem_cons_of_mem _ among, inside⟩

/-- The size of a block and that of a small request add up. -/
theorem Bounded.unwrapped (small : size < 2 ^ 62) :
    ∀ block ∈ context.set.blocks, block.used + totalSize size < sizeLimit := by
  intro block among
  have := bounded.blocks block among
  have := (le_totalSize (show size + 64 < sizeLimit by rw [sizeLimit]; omega)).2
  simp only [blockHdrSz, sizeLimit] at *
  omega

theorem Bounded.alloc {shmem : Option Nat} (small : size < 2 ^ 62) :
    (context.step (.alloc size shmem)).Bounded := by
  have within : size + 64 < sizeLimit := by
    simp only [sizeLimit]
    omega
  have total := totalSize_eq within
  simp only [chunkHdrSz] at total
  have room := bounded.unwrapped small
  rw [step_alloc]
  unfold AllocSet.alloc
  split_ifs with nothing
  · exact bounded
  have large : 24 <= totalSize size := by omega
  cases listed : context.set.fromFreelist (getFreeListIdx (totalSize size)) with
  | some chunk =>
    obtain ⟨_, _, found⟩ := Option.bind_eq_some_iff.1 listed
    have perm := perm_cons_erase (mem_of_find?_eq_some found)
    exact bounded.rearrange (perm_middle.symm.trans ((Perm.refl _).append perm.symm)).subset
  | none =>
    cases carved : allocFromBlocks (totalSize size) context.set.blocks with
    | some found =>
      obtain ⟨_, _⟩ := found
      obtain ⟨_, block, _, _, split, rfl, allocated⟩ := allocFromBlocks_eq_some carved
      obtain ⟨rfl, rfl, below⟩ := AllocBlock.alloc_eq_some within
        (room block (by simp [split])) allocated
      exact bounded.carve split below large
    | none =>
      cases shmem with
      | none => exact bounded
      | some addr =>
        have next := bounded.next
        have grown : context.set.grownBlockSize < 2 ^ 62 := by
          have := bounded.largest
          rw [AllocSet.grownBlockSize]
          omega
        have fresh : (context.set.newBlock (totalSize size) addr).used = blockHdrSz ∧
            (context.set.newBlock (totalSize size) addr).size < 2 ^ 62 + 64 := by
          refine ⟨rfl, ?_⟩
          change AllocSet.newBlockSize _ _ < _
          rw [AllocSet.newBlockSize]
          split_ifs
          · exact (Nat.mod_le _ _).trans_lt (by rw [blockHdrSz]; omega)
          · omega
        have added := bounded.addBlock grown fresh
        simp only [AllocSet.allocFromNewBlock]
        cases here : (context.set.newBlock (totalSize size) addr).alloc (totalSize size) with
        | none => exact added
        | some found =>
          obtain ⟨_, _⟩ := found
          obtain ⟨rfl, rfl, below⟩ := AllocBlock.alloc_eq_some within (by
            rw [fresh.1]
            simp only [blockHdrSz, sizeLimit]
            omega) here
          exact added.carve (nil_append _).symm below large

theorem Bounded.step {op : ContextOp} (small : op.Small) : (context.step op).Bounded := by
  cases op with
  | alloc => exact bounded.alloc small
  | free pointer =>
    rw [Context.step]
    cases found : context.live.find? fun allocation => allocation.pointer == pointer with
    | none => exact bounded
    | some allocation =>
      have perm := perm_cons_erase (mem_of_find?_eq_some found)
      have moved := (perm.map Allocation.chunk).append_right context.set.free
      dsimp only [AllocSet.release]
      split_ifs
      · exact bounded.rearrange (perm_middle.trans moved.symm).subset
      · exact bounded.rearrange fun _ present => moved.symm.subset (mem_cons_of_mem _ present)

theorem Bounded.run {ops : List ContextOp} (small : ∀ op ∈ ops, op.Small) :
    (context.run ops).Bounded :=
  foldlRecOn ops Context.step bounded fun _ holds op among => holds.step (small op among)

theorem Bounded.reset : Bounded ⟨context.set.reset, context.live⟩ := by
  have extents : context.set.reset.extents = context.set.extents := by
    simp [AllocSet.extents, AllocSet.reset, Function.comp_def]
  refine ⟨bounded.next, bounded.largest, fun block present => ?_, fun chunk present => ?_⟩
  · obtain ⟨other, among, rfl⟩ := mem_map.1 present
    exact ⟨le_max_left _ _, le_rfl, (bounded.blocks other among).2.2⟩
  · rw [extents]
    refine bounded.chunks chunk (mem_append_left _ ?_)
    simpa [Context.chunks, AllocSet.reset] using present

end

/-- Some allocations after a reset: they cover the bytes that are used again. -/
structure Filling (start context : Context) (fresh : List Allocation) : Prop where
  free : context.set.free = []
  extents : context.set.extents = start.set.extents
  live : context.live = fresh ++ start.live
  covered : ∀ block ∈ context.set.blocks, ∀ addr, block.addr + blockHdrSz <= addr ->
    addr < block.addr + block.used ->
      ∃ allocation ∈ fresh, allocation.chunk.addr <= addr ∧ addr < allocation.stop

/-- The bytes that are not used. -/
def room (context : Context) : Nat :=
  (context.set.blocks.map fun block => block.size - block.used).sum

theorem totalSize_eight : totalSize 8 = 24 := by decide +kernel

/-- One more allocation of eight bytes, or no block has room for it. -/
theorem Filling.step {start context : Context} (filling : Filling start context fresh)
    (bounded : context.Bounded) :
    (∃ allocation, Filling start (context.step (.alloc 8 none)) (allocation :: fresh) ∧
      (context.step (.alloc 8 none)).room < context.room) ∨
    ∀ block ∈ context.set.blocks, block.size < block.used + 24 := by
  have unlisted : context.set.fromFreelist (getFreeListIdx (totalSize 8)) = none := by
    simp [AllocSet.fromFreelist, filling.free, getFreeListIdx, totalSize_eight]
  have roomy := bounded.unwrapped (show 8 < 2 ^ 62 by decide)
  cases carved : allocFromBlocks (totalSize 8) context.set.blocks with
  | none =>
    right
    intro block among
    have full := allocFromBlocks_eq_none carved block among
    have := roomy block among
    rw [AllocBlock.alloc, maxAlign_totalSize (by decide), Nat.mod_eq_of_lt this] at full
    by_contra fits
    rw [totalSize_eight] at full
    simp only [if_neg fits] at full
    cases full
  | some found =>
    left
    obtain ⟨_, _⟩ := found
    obtain ⟨front, block, _, back, split, rfl, allocated⟩ := allocFromBlocks_eq_some carved
    obtain ⟨rfl, rfl, below⟩ := AllocBlock.alloc_eq_some (by decide)
      (roomy block (by simp [split])) allocated
    have stepped : context.step (.alloc 8 none) = ⟨{ context.set with
        blocks := front ++ { block with used := block.used + totalSize 8 } :: back },
      ⟨⟨block.addr + block.used, totalSize 8⟩, 8⟩ :: context.live⟩ := by
      rw [step_alloc, AllocSet.alloc, if_neg (by decide), unlisted]
      simp only [carved]
      rfl
    rw [totalSize_eight] at stepped below
    rw [stepped]
    refine ⟨⟨⟨block.addr + block.used, 24⟩, 8⟩, ⟨filling.free, ?_, ?_, ?_⟩, ?_⟩
    · rw [<- filling.extents]
      simp [AllocSet.extents, split]
    · simp [filling.live]
    · intro other present addr above inside
      have kept : other ∈ context.set.blocks ->
          ∃ allocation ∈ (⟨⟨block.addr + block.used, 24⟩, 8⟩ : Allocation) :: fresh,
            allocation.chunk.addr <= addr ∧ addr < allocation.stop := by
        intro among
        obtain ⟨allocation, old, covers⟩ := filling.covered other among addr above inside
        exact ⟨allocation, mem_cons_of_mem _ old, covers⟩
      rcases mem_append.1 present with before | after
      · exact kept (by simp [split, before])
      · rcases mem_cons.1 after with rfl | behind
        · rcases Nat.lt_or_ge addr (block.addr + block.used) with old | new
          · obtain ⟨allocation, among, covers⟩ :=
              filling.covered block (by simp [split]) addr above old
            exact ⟨allocation, mem_cons_of_mem _ among, covers⟩
          · refine ⟨_, mem_cons_self, new, ?_⟩
            simp only [Allocation.stop, Allocation.pointer, chunkHdrSz] at inside ⊢
            omega
        · exact kept (by simp [split, behind])
    · simp only [room, split, map_append, map_cons, sum_append, sum_cons]
      omega

/-- After a reset, allocations that go on come to overlap what is still held. -/
theorem Bounded.overlapped {context : Context} (bounded : context.Bounded)
    (free : context.set.free = [])
    (unused : ∀ block ∈ context.set.blocks, block.used = blockHdrSz) {kept : Allocation}
    (held : kept ∈ context.live) :
    ∃ count fresh, (context.run (replicate count (.alloc 8 none))).live = fresh ++ context.live ∧
      ∃ allocation ∈ fresh, ¬ allocation.Apart kept := by
  -- The unused room shrinks until every block is full again.
  have full : ∀ left (later : Context) (fresh : List Allocation), later.room = left ->
      later.Bounded -> Filling context later fresh -> ∃ count fresh,
        Filling context (later.run (replicate count (.alloc 8 none))) fresh ∧
        ∀ block ∈ (later.run (replicate count (.alloc 8 none))).set.blocks,
          block.size < block.used + 24 := by
    intro left
    induction left using Nat.strongRecOn with
    | ind left ih =>
      intro later fresh isLeft within filling
      rcases filling.step within with ⟨_, grown, less⟩ | done
      · obtain ⟨count, result⟩ := ih _ (isLeft ▸ less) _ _ rfl
          (within.alloc (by decide)) grown
        exact ⟨count + 1, result⟩
      · exact ⟨0, fresh, filling, done⟩
  obtain ⟨count, fresh, filling, done⟩ := full _ context [] rfl bounded
    ⟨free, rfl, rfl, fun block among addr above inside => by
      rw [unused block among] at inside
      omega⟩
  refine ⟨count, fresh, filling.live, ?_⟩
  obtain ⟨large, extent, present, above, inside⟩ := bounded.chunks kept.chunk
    (mem_append_left _ (mem_map_of_mem held))
  rw [<- filling.extents] at present
  obtain ⟨block, among, rfl⟩ := mem_map.1 present
  have := done block among
  simp only at inside
  obtain ⟨allocation, isFresh, before, behind⟩ :=
    filling.covered block among kept.chunk.addr above (by omega)
  refine ⟨allocation, isFresh, ?_⟩
  simp only [Allocation.Apart, Apart, not_or, Nat.not_le]
  refine ⟨behind, before.trans_lt ?_⟩
  simp only [Allocation.stop, Allocation.pointer, chunkHdrSz]
  omega

end Context

/-! ## The pools of the vector cache -/

/-- The shared context and the blocks of each pool. -/
structure PoolMemory where
  context : Context
  blocks : Nat -> List Nat

/-- What the manager does with the shared context. -/
inductive PoolOp where
  /-- Memory of the manager itself, of the maps and of the queue of a pool. -/
  | use (op : ContextOp)
  /-- `append_block`, with what `try_init_pool` allocates for a new pool and the
  size of the tags. -/
  | appendBlock (pool block : Nat) (init : List (Nat × Option Nat)) (size : Nat)
      (shmem : Option Nat)
  /-- `redistribute_block` once the block is frozen, with the pointer of its tags,
  the size of its new tags, and what the destructors of an empty pool free. -/
  | redistribute (src dest block tags size : Nat) (shmem : Option Nat) (freed : List Nat)

/-- The calls to the context before a pool is destroyed. -/
def PoolOp.calls : PoolOp -> List ContextOp
  | .use op => [op]
  | .appendBlock _ _ init size shmem =>
    init.map (fun request => .alloc request.1 request.2) ++ [.alloc size shmem]
  | .redistribute _ _ _ tags size shmem _ => [.free tags, .alloc size shmem]

namespace PoolMemory

/-- `remove_block` and `append_block` on the block lists. -/
def move (blocks : Nat -> List Nat) (src dest block : Nat) : Nat -> List Nat := fun pool =>
  let left := if pool = src then (blocks pool).erase block else blocks pool
  if pool = dest then left ++ [block] else left

/-- One operation; a source pool without blocks is destroyed, and the shared
context is deleted with it. -/
def step (memory : PoolMemory) (op : PoolOp) : PoolMemory :=
  let context := memory.context.run op.calls
  match op with
  | .use _ => ⟨context, memory.blocks⟩
  | .appendBlock pool block _ _ _ =>
    ⟨context, Function.update memory.blocks pool (memory.blocks pool ++ [block])⟩
  | .redistribute src dest block _ _ _ freed =>
    let blocks := move memory.blocks src dest block
    if blocks src = [] then
      let destroyed := context.run (freed.map .free)
      ⟨⟨destroyed.set.reset, destroyed.live⟩, blocks⟩
    else ⟨context, blocks⟩

/-- `ShmemAlloc` answers each call of the operation with a region of its own. -/
def Granted (memory : PoolMemory) (op : PoolOp) : Prop :=
  Along Context.step (fun context op => op.Granted context) memory.context op.calls

instance (memory : PoolMemory) (op : PoolOp) : Decidable (memory.Granted op) :=
  inferInstanceAs (Decidable (Along _ _ _ _))

def create (initBlockSize maxBlockSize : Nat) : PoolMemory :=
  ⟨Context.create initBlockSize maxBlockSize, fun _ => []⟩

def run (memory : PoolMemory) (ops : List PoolOp) : PoolMemory := ops.foldl step memory

theorem bounded_step {memory : PoolMemory} {op : PoolOp} (bounded : memory.context.Bounded)
    (small : ∀ call ∈ op.calls, call.Small) : (memory.step op).context.Bounded := by
  have called := bounded.run small
  cases op with
  | use => exact called
  | appendBlock => exact called
  | redistribute src dest block _ _ _ freed =>
    rw [step]
    split_ifs
    · have frees : ∀ call ∈ freed.map ContextOp.free, call.Small := by
        intro call present
        obtain ⟨_, _, rfl⟩ := mem_map.1 present
        trivial
      exact (called.run frees).reset
    · exact called

theorem context_run_use (memory : PoolMemory) (ops : List ContextOp) :
    (memory.run (ops.map .use)).context = memory.context.run ops := by
  induction ops generalizing memory with
  | nil => rfl
  | cons op ops ih => exact ih (memory.step (.use op))

/-- After a pool has given away its last block, every allocation that is still held, as the
manager's own is, will be overlapped if allocations go on. -/
theorem destroyed_pool_overlapped {initBlockSize maxBlockSize : Nat}
    (initial : initBlockSize < 2 ^ 62) (maximal : maxBlockSize < 2 ^ 62) (ops : List PoolOp)
    (small : ∀ op ∈ ops, ∀ call ∈ op.calls, call.Small)
    (src dest block tags size : Nat) (shmem : Option Nat) (freed : List Nat)
    (smallTags : size < 2 ^ 62)
    (destroys : move ((create initBlockSize maxBlockSize).run ops).blocks src dest block src = [])
    (kept : Allocation) :
    let after := ((create initBlockSize maxBlockSize).run ops).step
      (.redistribute src dest block tags size shmem freed)
    kept ∈ after.context.live -> ∃ (later : List PoolOp) (fresh : List Allocation),
      (after.run later).context.live = fresh ++ after.context.live ∧
        ∃ allocation ∈ fresh, ¬ allocation.Apart kept := by
  intro after held
  have bounded : ((create initBlockSize maxBlockSize).run ops).context.Bounded := by
    have created : (create initBlockSize maxBlockSize).context.Bounded :=
      ⟨initial, maximal, nofun, nofun⟩
    exact foldlRecOn (motive := fun memory => memory.context.Bounded) ops step created
      fun _ holds op among => bounded_step holds (small op among)
  have left : after.context.Bounded := bounded_step bounded (by
    rintro call present
    rcases mem_cons.1 present with rfl | present
    · trivial
    · obtain rfl := mem_singleton.1 present
      exact smallTags)
  have blank : after.context.set.free = [] ∧
      ∀ block ∈ after.context.set.blocks, block.used = blockHdrSz := by
    have isReset : after = PoolMemory.mk _ _ := if_pos destroys
    rw [isReset]
    refine ⟨rfl, fun block present => ?_⟩
    obtain ⟨_, _, rfl⟩ := mem_map.1 present
    rfl
  obtain ⟨count, fresh, grown, overlaps⟩ := left.overlapped blank.1 blank.2 held
  refine ⟨(replicate count (.alloc 8 none)).map .use, fresh, ?_, overlaps⟩
  rw [context_run_use, grown]

/-- The manager is allocated first, and pool 1 gives its only block to pool 2. -/
theorem destroyed_pool_overlapped_manager :
    let after := ((create 8192 8192).run [.use (.alloc 8 (some 4096)),
      .appendBlock 2 9 [(8, none)] 8 none, .appendBlock 1 7 [(40, none)] 24 none]).step
        (.redistribute 1 2 7 4264 8 none [4208])
    ∃ (later : List PoolOp) (fresh : List Allocation),
      (after.run later).context.live = fresh ++ after.context.live ∧
        ∃ allocation ∈ fresh, ¬ allocation.Apart ⟨⟨4120, 24⟩, 8⟩ :=
  destroyed_pool_overlapped (by decide) (by decide) _ (by decide +kernel) 1 2 7 4264 8 none [4208]
    (by decide) (by decide +kernel) _ (by decide +kernel)

/-- Pool 1 gives its only block to pool 2 and is destroyed; the next allocation is
where the manager is. -/
theorem destroyed_pool_frees_others :
    ¬ ∀ (initBlockSize maxBlockSize : Nat) (ops : List PoolOp),
      Along step Granted (create initBlockSize maxBlockSize) ops ->
        ((create initBlockSize maxBlockSize).run ops).context.Disjoint := by
  intro always
  have disjoint := always 8192 8192 [.use (.alloc 8 (some 4096)),
    .appendBlock 2 9 [(8, none)] 8 none, .appendBlock 1 7 [(40, none)] 24 none,
    .redistribute 1 2 7 4264 8 none [4208], .use (.alloc 8 none)] (by decide +kernel)
  exact absurd disjoint.apart (by decide +kernel)

end PoolMemory

end VexDB.VectorBuffer
