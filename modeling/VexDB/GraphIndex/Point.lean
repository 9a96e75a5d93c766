import Mathlib.Data.List.TakeWhile
import VexDB.Storage.KeyedStore

/-!
# Graph index points and their row identifiers

A `GraphIndexPoint` is the element of a graph index that holds the row
identifiers (TIDs) of all rows with one vector.  Its ten slots hold the TIDs
themselves or, once the point is extended, the keys of overflow pages kept in a
`PlainStore`.  The page store enters as a `KeyedStore` of TID pages.
-/

namespace VexDB.GraphIndex

open Storage

/-- A row identifier: block number and line pointer. -/
structure ItemPointerData where
  /-- Block number of the row. -/
  blkno : UInt32
  /-- Position of the row in its block. -/
  posid : UInt16
  deriving DecidableEq, Repr, Inhabited

/-- Size of a disk page. -/
def blcksz : Nat := 8192

/-- Size of the page header. -/
def pageHeaderSize : Nat := 24

/-- Size of the opaque area a `PlainStore` keeps at the end of a page. -/
def plainStoreOpaqueSize : Nat := 8

/-- Bytes of a page that `PlainStore` reserves for line pointers and alignment. -/
def plainStoreReserve : Nat := 16

/-- The largest item of a `PlainStore`. -/
def plainStoreMaxSize : Nat :=
  blcksz - pageHeaderSize - plainStoreOpaqueSize - plainStoreReserve

/-- Size of a row identifier on disk. -/
def itemPointerSize : Nat := 6

/-- The number of TIDs an overflow page can hold. -/
def tidPageCap : Nat := plainStoreMaxSize / itemPointerSize

/-- The number of slots of a point. -/
def maxHeaptids : Nat := 10

/-- An overflow page. -/
abbrev TidPage := List ItemPointerData

/-- A graph index element: a flag byte and ten slots. -/
structure GraphIndexPoint where
  /-- Deleted (bit 0), async (bit 1), number of slots in use (bits 2 to 5),
  extended (bit 6), double extended (bit 7). -/
  flag : BitVec 8
  /-- TIDs, or overflow page keys when the point is extended. -/
  heaptids : Vector ItemPointerData maxHeaptids
  deriving DecidableEq, Repr

namespace GraphIndexPoint

/-- Bit 0 of the flag. -/
def isDeleted (point : GraphIndexPoint) : Bool := point.flag &&& 0x01#8 != 0#8

/-- Bit 6 of the flag. -/
def isExtended (point : GraphIndexPoint) : Bool := point.flag &&& 0x40#8 != 0#8

/-- Bits 2 to 5 of the flag. -/
def ntids (point : GraphIndexPoint) : Nat := ((point.flag >>> 2) &&& 0x0f#8).toNat

/-- Replace bits 2 to 5 of the flag. -/
def setNtids (point : GraphIndexPoint) (count : Nat) : GraphIndexPoint :=
  { point with flag := (point.flag &&& 0xc3#8) ||| (BitVec.ofNat 8 count <<< 2) }

/-- No slot is in use. -/
def empty (point : GraphIndexPoint) : Bool := point.ntids == 0

/-- Overwrite one slot. -/
def setSlot (point : GraphIndexPoint) (index : Nat) (tid : ItemPointerData) :
    GraphIndexPoint :=
  { point with heaptids := point.heaptids.setIfInBounds index tid }

/-- The slots in use. -/
def slots (point : GraphIndexPoint) : List ItemPointerData :=
  point.heaptids.toList.take point.ntids

variable {σ : Type*} (ps : KeyedStore σ ItemPointerData TidPage)

/-- The page under a key; an unused line pointer has length zero. -/
def readPage (store : σ) (key : ItemPointerData) : TidPage :=
  (ps.get store key).getD []

/-- All TIDs of a point, in slot and page order. -/
def getTids (store : σ) (point : GraphIndexPoint) : List ItemPointerData :=
  if point.isExtended then point.slots.flatMap (readPage ps store)
  else point.slots

/-- What the loop of `vacuum_tids` over the overflow pages carries. -/
structure VacuumState (σ : Type*) where
  /-- The overflow page store. -/
  store : σ
  /-- The point under vacuum. -/
  point : GraphIndexPoint
  /-- Surviving TIDs not yet written: `buf[0 .. nremain)`. -/
  buf : TidPage
  /-- TIDs removed so far. -/
  nremoved : Nat
  /-- The next slot to fill. -/
  startIdx : Nat
  /-- The element has to be written back. -/
  dirty : Bool

variable (filter : ItemPointerData -> Bool)

/-- Drop or buffer one TID. -/
def VacuumState.collect (state : VacuumState σ) (tid : ItemPointerData) : VacuumState σ :=
  if filter tid then { state with nremoved := state.nremoved + 1 }
  else { state with buf := state.buf ++ [tid] }

/-- Rewrite the page of slot `startIdx`.  The slot takes the returned key, and
the element becomes dirty, exactly when that key equals the old one. -/
def VacuumState.writeSlot (state : VacuumState σ) (page : TidPage) : VacuumState σ :=
  let key := state.point.heaptids[state.startIdx]!
  let written := ps.set state.store key page
  if written.1 = key then
    { state with
      store := written.2
      point := state.point.setSlot state.startIdx written.1
      dirty := true }
  else
    { state with store := written.2 }

/-- Once a full page is buffered, write it if anything was removed so far and
go on to the next slot. -/
def VacuumState.flushFull (state : VacuumState σ) : VacuumState σ :=
  if tidPageCap <= state.buf.length then
    let flushed :=
      if 0 < state.nremoved then state.writeSlot ps (state.buf.take tidPageCap) else state
    { flushed with startIdx := flushed.startIdx + 1, buf := flushed.buf.drop tidPageCap }
  else state

/-- One round of the loop over the overflow pages. -/
def VacuumState.vacuumPage (state : VacuumState σ) (index : Nat) : VacuumState σ :=
  ((readPage ps state.store state.point.heaptids[index]!).foldl
    (VacuumState.collect filter) state).flushFull ps

/-- After the loop, write what is left if anything was removed. -/
def VacuumState.flushRest (state : VacuumState σ) : VacuumState σ :=
  if 0 < state.nremoved ∧ 0 < state.buf.length then
    let flushed := state.writeSlot ps state.buf
    { flushed with startIdx := flushed.startIdx + 1 }
  else state

/-- The slots from `startIdx` on are given up and their pages erased. -/
def VacuumState.eraseRest (state : VacuumState σ) (ntid : Nat) : VacuumState σ :=
  if state.startIdx < ntid then
    { state with
      store := (List.range' state.startIdx (ntid - state.startIdx)).foldl
        (fun store index => ps.erase store state.point.heaptids[index]!) state.store
      point := state.point.setNtids state.startIdx
      dirty := true }
  else state

/-- Move the surviving inline TIDs to the front, one slot at a time. -/
def compactSlot (state : Nat × GraphIndexPoint) (index : Nat) : Nat × GraphIndexPoint :=
  let tid := state.2.heaptids[index]!
  if filter tid then state else (state.1 + 1, state.2.setSlot state.1 tid)

/-- What `vacuum_tids` leaves behind. -/
structure VacuumResult (σ : Type*) where
  /-- The number of TIDs removed, which is the return value. -/
  nremoved : Nat
  /-- The overflow page store. -/
  store : σ
  /-- The point after the vacuum. -/
  point : GraphIndexPoint
  /-- The element has to be written back. -/
  dirty : Bool

/-- Remove the TIDs that satisfy the filter. -/
def vacuumTids (store : σ) (point : GraphIndexPoint) : VacuumResult σ :=
  let ntid := point.ntids
  if ntid = 0 then ⟨0, store, point, false⟩
  else if point.isExtended then
    let loop := (List.range ntid).foldl (VacuumState.vacuumPage ps filter)
      ⟨store, point, [], 0, 0, false⟩
    let final := (loop.flushRest ps).eraseRest ps ntid
    ⟨final.nremoved, final.store, final.point, final.dirty⟩
  else
    let (startIdx, compacted) := (List.range ntid).foldl (compactSlot filter) (0, point)
    ⟨ntid - startIdx, store, compacted.setNtids startIdx, startIdx != ntid⟩

end GraphIndexPoint
end VexDB.GraphIndex
