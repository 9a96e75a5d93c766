import Mathlib.Algebra.Order.Ring.Int

/-!
# The shared vector cache

Backends read vectors through a cache in shared memory (`vector_smgr.cpp`).  The
cache is split into pools by vector size; a pool maps signatures to slots and
keeps a list of its free slots.  A read either pins a slot that holds the vector
or, when the cache has no room for it, copies the vector from the file.

Every callback of a map and every read or write of a vector file is one atomic
step, so a read is a sequence of such steps with steps of other backends in
between.  The state also records for every read what the file held for its
vector since the read began; no step of the code looks at that record.
-/

namespace VexDB.VectorBuffer

open Function

/-- `RelFileLocator`: the identity of a relation's files in the cluster. -/
structure RelFileLocator where
  spcOid : Nat
  dbOid : Nat
  relNumber : Nat
  deriving DecidableEq

/-- The key of a vector in a pool. -/
structure BufferSignature where
  relId : Nat
  offset : Nat
  deriving DecidableEq

/-- A slot of the buffer: a block and a position in it. -/
structure Slot where
  bufOffset : Nat
  offset : Nat
  deriving DecidableEq

/-- The value of a map entry.  The flags `empty_mask` and `invalid_mask` of the
source leave three kinds: no slot, a slot in use, a slot that was invalidated
while somebody had it pinned. -/
inductive VecBufferLoc
  | empty
  | valid (slot : Slot)
  | invalid (slot : Slot)
  deriving DecidableEq

namespace VecBufferLoc

/-- The slot an entry holds. -/
def slot? : VecBufferLoc -> Option Slot
  | .empty => none
  | .valid slot => some slot
  | .invalid slot => some slot

/-- Whether an entry may be used. -/
def isValid : VecBufferLoc -> Bool
  | .valid _ => true
  | _ => false

end VecBufferLoc

/-- Where a call of `vec_read_buffer` stands. -/
inductive Phase (B : Type*)
  /-- `get_buffer` has not looked at its pool yet -/
  | opening
  /-- about to look the signature up -/
  | looking (retryCount : Nat)
  /-- found or stored an entry without a usable slot, about to erase it -/
  | dropping (retryCount : Nat) (pendingInvalidation readFailed : Bool)
  /-- about to make room and look again -/
  | retrying (retryCount : Nat)
  /-- `get_buffer` had no success, about to read the file -/
  | reading
  /-- returned with a pinned slot -/
  | holding (slot : Slot)
  /-- returned with a copy of its own -/
  | copied (bytes : B)
  /-- released, or ended with an error -/
  | finished
  deriving DecidableEq

/-- Whether a call has returned. -/
def Phase.returned {B : Type*} : Phase B -> Bool
  | .holding _ | .copied _ | .finished => true
  | _ => false

/-- A call of `vec_read_buffer`, with what the file held for its vector from the
beginning of the call until its return. -/
structure Call (B : Type*) where
  rel : RelFileLocator
  loc : Nat
  phase : Phase B
  seen : List (Option B)
  deriving DecidableEq

/-- The record of a call after its vector was written. -/
def Call.observe {B : Type*} (rel : RelFileLocator) (loc : Nat) (bytes : B) (call : Call B) :
    Call B :=
  if call.rel = rel ∧ call.loc = loc ∧ call.phase.returned = false then
    { call with seen := call.seen ++ [some bytes] }
  else call

/-- What the cluster fixes: the size of a stored vector of each relation and the
number of blocks of the buffer. -/
structure Config where
  elemSize : RelFileLocator -> Nat
  nVecBuf : Nat

/-- The constants of an architecture. -/
structure Arch where
  vectorAlignedSize : Nat
  vectorStepSize : Nat
  deriving DecidableEq

/-- The constants of a build for x86. -/
def x86 : Arch := ⟨64, 16⟩

/-- The constants of a build for ARM. -/
def arm : Arch := ⟨32, 8⟩

/-- `min_cached_dim` -/
def minCachedDim : Nat := 8

/-- The bytes of a block. -/
def vecBlockSize : Nat := 2 ^ 20

/-- How often `get_buffer` looks again. -/
def maxRetry : Nat := 16

/-- `get_effective_dim` -/
def getEffectiveDim (elemSize : Nat) : Nat := (elemSize + 3) / 4

/-- `get_pool_offset` -/
def Arch.getPoolOffset (arch : Arch) (dim : Nat) : Nat :=
  (dim + arch.vectorStepSize - 1) / arch.vectorStepSize

/-- `get_pool_max_offset`: the number of slots a block gives in a pool. -/
def Arch.getPoolMaxOffset (arch : Arch) (poolOffset : Nat) : Nat :=
  vecBlockSize / (poolOffset * arch.vectorStepSize) / 4

/-- `cqueue_capacity + cqueue_edge` -/
def freelistCapacity : Nat := vecBlockSize / 4 / minCachedDim * 3 / 2 + 32

namespace Config

variable (config : Config)

/-- Vectors of few numbers are not cached. -/
def dimCached (rel : RelFileLocator) : Bool :=
  decide (minCachedDim <= getEffectiveDim (config.elemSize rel))

/-- The pool of a relation. -/
def poolOffset (rel : RelFileLocator) : Nat :=
  x86.getPoolOffset (getEffectiveDim (config.elemSize rel))

end Config

/-- The signature under which `get_buffer` looks a vector up: of the relation's
identity it keeps `relNumber` only. -/
def signature (rel : RelFileLocator) (loc : Nat) : BufferSignature := ⟨rel.relNumber, loc⟩

/-- The vector files, the cache and the calls in progress.  `blocks` lists the
pool of each block handed out so far; `live` says which ids hold a vector that
was added and not marked deleted since. -/
structure State (B : Type*) where
  file : RelFileLocator -> Nat -> Option B
  live : RelFileLocator -> Nat -> Bool
  blocks : List Nat
  freelist : Nat -> List Slot
  locmap : Nat -> BufferSignature -> Option VecBufferLoc
  refCount : Slot -> Nat
  sig : Slot -> Option BufferSignature
  content : Slot -> Option B
  calls : List (Call B)

namespace State

variable {B : Type*}

/-- No vector written, no block handed out. -/
def initial : State B where
  file _ _ := none
  live _ _ := false
  blocks := []
  freelist _ := []
  locmap _ _ := none
  refCount _ := 0
  sig _ := none
  content _ := none
  calls := []

variable (state : State B)

def setFreelist (pool : Nat) (slots : List Slot) : State B :=
  { state with freelist := update state.freelist pool slots }

def setEntry (pool : Nat) (sig : BufferSignature) (entry : Option VecBufferLoc) : State B :=
  { state with
    locmap := update state.locmap pool (update (state.locmap pool) sig entry) }

def setRefCount (slot : Slot) (count : Nat) : State B :=
  { state with refCount := update state.refCount slot count }

def setSig (slot : Slot) (sig : Option BufferSignature) : State B :=
  { state with sig := update state.sig slot sig }

def setContent (slot : Slot) (bytes : B) : State B :=
  { state with content := update state.content slot (some bytes) }

def setPhase (index : Nat) (call : Call B) (phase : Phase B) : State B :=
  { state with calls := state.calls.set index { call with phase := phase } }

/-- `try_push_freelist` and the erasure that depends on it: give the slot of an
entry back and erase the entry if the list has room. -/
def freeEntry (pool : Nat) (sig : BufferSignature) (slot : Slot) : Option (State B) :=
  if (state.freelist pool).length < freelistCapacity then
    some ((state.setFreelist pool (state.freelist pool ++ [slot])).setEntry pool sig none)
  else
    none

/-- The constructor `VecBufferLoc(BufferParams &)`, run while the map inserts the
signature: take a free slot, pin it and read the vector into it. -/
def construct (config : Config) (index : Nat) (call : Call B) (retryCount : Nat) : State B :=
  let pool := config.poolOffset call.rel
  let sig := signature call.rel call.loc
  match state.freelist pool with
  | [] => (state.setEntry pool sig (some .empty)).setPhase index call
      (.dropping retryCount false false)
  | slot :: rest =>
    let taken := (state.setFreelist pool rest).setSig slot (some sig)
    match state.file call.rel call.loc with
    | some bytes =>
      (((taken.setRefCount slot (state.refCount slot + 1)).setContent slot bytes).setEntry pool sig
        (some (.valid slot))).setPhase index call (.holding slot)
    | none =>
      -- the pin is taken and given back; the slot goes back to the end of the list
      let ended := taken.setPhase index call (.dropping retryCount false true)
      if rest.length < freelistCapacity then
        (ended.setFreelist pool (rest ++ [slot])).setEntry pool sig (some .empty)
      else
        ended.setEntry pool sig (some (.invalid slot))

/-- `try_emplace_or_cvisit` in `get_buffer`. -/
def lookup (config : Config) (index : Nat) (call : Call B) (retryCount : Nat) : State B :=
  match state.locmap (config.poolOffset call.rel) (signature call.rel call.loc) with
  | none => state.construct config index call retryCount
  | some (.valid slot) =>
    (state.setRefCount slot (state.refCount slot + 1)).setPhase index call (.holding slot)
  | some (.invalid _) => state.setPhase index call (.dropping retryCount true false)
  | some .empty => state.setPhase index call (.dropping retryCount false false)

/-- What follows the erasure in `get_buffer`: report a failed read, give up, or
try again. -/
def afterDrop (retryCount : Nat) (pendingInvalidation readFailed interrupted : Bool) : Phase B :=
  if readFailed then .finished
  else if interrupted || pendingInvalidation then .reading
  else if maxRetry < retryCount + 1 then .reading
  else .retrying (retryCount + 1)

/-- The erasure of an entry that is not valid. -/
def drop (config : Config) (index : Nat) (call : Call B) (phase : Phase B) : State B :=
  let pool := config.poolOffset call.rel
  let sig := signature call.rel call.loc
  let dropped :=
    if (state.locmap pool sig).all (fun entry => !entry.isValid) then state.setEntry pool sig none
    else state
  dropped.setPhase index call phase

/-- The next step of a call; `choice` stands for what the call does not control:
an interrupt after an erasure, a failed eviction before a retry. -/
def advance (config : Config) (index : Nat) (call : Call B) (choice : Bool) : Option (State B) :=
  match call.phase with
  | .opening =>
    some (state.setPhase index call
      (if config.poolOffset call.rel ∈ state.blocks then .looking 0 else .reading))
  | .looking retryCount => some (state.lookup config index call retryCount)
  | .dropping retryCount pendingInvalidation readFailed =>
    some (state.drop config index call
      (afterDrop retryCount pendingInvalidation readFailed choice))
  | .retrying retryCount =>
    if choice then
      if config.nVecBuf <= state.blocks.length then some (state.setPhase index call .reading)
      else none
    else some (state.setPhase index call (.looking retryCount))
  | .reading =>
    match state.file call.rel call.loc with
    | some bytes => some (state.setPhase index call (.copied bytes))
    | none => some (state.setPhase index call .finished)
  | .holding slot =>
    some ((state.setRefCount slot (state.refCount slot - 1)).setPhase index call .finished)
  | .copied _ => some (state.setPhase index call .finished)
  | .finished => none

/-- The callback of `do_evict` for one slot of a block: it acts on the entry of
the signature the slot was last used for. -/
def evict (slot : Slot) : Option (State B) :=
  match state.blocks[slot.bufOffset]?, state.sig slot with
  | some pool, some sig =>
    match state.locmap pool sig with
    | none => some state
    | some .empty => some (state.setEntry pool sig none)
    | some (.invalid held) =>
      some (((state.setSig slot none).freeEntry pool sig held).getD (state.setSig slot none))
    | some (.valid held) =>
      if state.refCount held = 0 then
        some (((state.setSig slot none).freeEntry pool sig held).getD (state.setSig slot none))
      else some state
  | _, _ => none

/-- `append_block`: the next block becomes slots of a pool. -/
def grow (config : Config) (pool : Nat) : Option (State B) :=
  if state.blocks.length < config.nVecBuf then
    let slots := (List.range (x86.getPoolMaxOffset pool)).map fun offset => ⟨state.blocks.length, offset⟩
    some ({ state with blocks := state.blocks ++ [pool] }.setFreelist pool
      (state.freelist pool ++ slots))
  else none

/-- `vec_invalidate_buffer_cache` for one vector. -/
def invalidate (config : Config) (rel : RelFileLocator) (loc : Nat) : State B :=
  let pool := config.poolOffset rel
  let sig := signature rel loc
  if config.dimCached rel then
    match state.locmap pool sig with
    | none => state
    | some .empty => state.setEntry pool sig none
    | some (.valid slot) | some (.invalid slot) =>
      let kept := state.setEntry pool sig (some (.invalid slot))
      if state.refCount slot = 0 then (state.freeEntry pool sig slot).getD kept else kept
  else state

/-- `DiskStore::add_vector`: the file is written, the cache is not touched. -/
def write (rel : RelFileLocator) (loc : Nat) (bytes : B) : State B :=
  { state with
    file := update state.file rel (update (state.file rel) loc (some bytes))
    calls := state.calls.map (Call.observe rel loc bytes) }

def setLive (rel : RelFileLocator) (loc : Nat) (live : Bool) : State B :=
  { state with live := update state.live rel (update (state.live rel) loc live) }

end State

/-- The atomic steps. -/
inductive Action (B : Type*)
  | begin (rel : RelFileLocator) (loc : Nat)
  | advance (index : Nat) (choice : Bool)
  | evict (slot : Slot)
  | grow (pool : Nat)
  | markDeleted (rel : RelFileLocator) (loc : Nat)
  | addVector (rel : RelFileLocator) (loc : Nat) (bytes : B)

/-- One step; a step that cannot be made gives nothing.  A vector is added under
a new id or under one that was marked deleted. -/
def step {B : Type*} (config : Config) (state : State B) : Action B -> Option (State B)
  | .begin rel loc =>
    some { state with
      calls := state.calls ++
        [⟨rel, loc, if config.dimCached rel then .opening else .reading, [state.file rel loc]⟩] }
  | .advance index choice =>
    state.calls[index]?.bind fun call => state.advance config index call choice
  | .evict slot => state.evict slot
  | .grow pool => state.grow config pool
  | .markDeleted rel loc =>
    if state.live rel loc then some ((state.invalidate config rel loc).setLive rel loc false)
    else none
  | .addVector rel loc bytes =>
    if state.live rel loc then none
    else some ((state.write rel loc bytes).setLive rel loc true)

/-- A sequence of steps. -/
def run {B : Type*} (config : Config) : List (Action B) -> State B -> Option (State B)
  | [], state => some state
  | action :: rest, state => (step config state action).bind (run config rest)

/-- What a call that has returned shows to its caller. -/
def State.shows {B : Type*} (state : State B) (call : Call B) : Option B :=
  match call.phase with
  | .holding slot => state.content slot
  | .copied bytes => some bytes
  | _ => none

/-- Every read that has returned and is not released shows bytes that the file
held for its vector at some moment of the read. -/
def State.ReadsCurrent {B : Type*} (state : State B) : Prop :=
  ∀ call ∈ state.calls, call.phase.returned = true -> call.phase ≠ .finished ->
    ∃ bytes, state.shows call = some bytes ∧ some bytes ∈ call.seen

instance {B : Type*} [DecidableEq B] (state : State B) : Decidable state.ReadsCurrent :=
  decidable_of_iff
    (∀ call ∈ state.calls, call.phase.returned = true -> call.phase ≠ .finished ->
      (state.shows call).any fun bytes => decide (some bytes ∈ call.seen))
    (by simp only [State.ReadsCurrent, Option.any_eq_true, decide_eq_true_eq])

end VexDB.VectorBuffer
