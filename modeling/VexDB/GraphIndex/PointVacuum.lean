import Mathlib.Algebra.Order.BigOperators.Group.List
import Mathlib.Algebra.Order.Ring.Nat
import VexDB.GraphIndex.Point

/-!
# Vacuuming the row identifiers of a point

The inline form of `vacuum_tids` keeps exactly the surviving TIDs.  The extended
form streams the overflow pages through one buffer; this module computes the
page rewrites it performs and says when the point still holds every survivor
afterwards.
-/

namespace VexDB.GraphIndex
namespace GraphIndexPoint

open Storage List Nat KeyedStore VacuumState
open VacuumState (collect vacuumPage)

private theorem setNtids_flag : ∀ (flag : BitVec 8) (count : Fin 16),
    (((flag &&& 0xc3#8) ||| (BitVec.ofNat 8 count <<< 2)) >>> 2 &&& 0x0f#8).toNat = count ∧
    ((flag &&& 0xc3#8) ||| (BitVec.ofNat 8 count <<< 2)) &&& 0x40#8 = flag &&& 0x40#8 := by
  decide +kernel

section

variable (point : GraphIndexPoint)

theorem isExtended_setNtids {count : Nat} (fits : count < 16) :
    (point.setNtids count).isExtended = point.isExtended := by
  have sameBit := (setNtids_flag point.flag ⟨count, fits⟩).2
  simp only [isExtended, setNtids]
  rw [sameBit]

theorem ntids_setNtids {count : Nat} (fits : count < 16) : (point.setNtids count).ntids = count :=
  (setNtids_flag point.flag ⟨count, fits⟩).1

@[simp] theorem toList_setSlot (index : Nat) (tid : ItemPointerData) :
    (point.setSlot index tid).heaptids.toList = point.heaptids.toList.set index tid := by
  simp [setSlot]

/-- A slot read in bounds is the head of the slots from there on. -/
theorem drop_heaptids (inBounds : index < maxHeaptids) :
    point.heaptids.toList.drop index =
      point.heaptids[index]! :: point.heaptids.toList.drop (index + 1) := by
  rw [getElem!_pos point.heaptids index inBounds, <- Vector.getElem_toList]
  exact drop_eq_getElem_cons (by rw [Vector.length_toList]; exact inBounds)

end

variable (filter : ItemPointerData -> Bool) {last first count : Nat} {point : GraphIndexPoint}

/-- The inline compaction loop, after a number of rounds. -/
theorem foldl_compactSlot (point : GraphIndexPoint) (bound : count <= maxHeaptids) :
    let result := (range count).foldl (compactSlot filter) (0, point)
    let survivors := (point.heaptids.toList.take count).filter (!filter ·)
    result.1 = survivors.length ∧ result.2.flag = point.flag ∧
      result.2.heaptids.toList.take result.1 = survivors ∧
      result.2.heaptids.toList.drop count = point.heaptids.toList.drop count := by
  induction count with
  | zero => simp
  | succ count ih =>
    obtain ⟨start, sameFlag, front, back⟩ := ih (by omega)
    rw [range_succ, foldl_append, foldl_cons, foldl_nil]
    generalize (range count).foldl (compactSlot filter) (0, point) = state at *
    have : state.2.heaptids.toList.length = maxHeaptids := Vector.length_toList
    have startLe : state.1 <= count := by
      rw [start]
      exact (length_filter_le _ _).trans (length_take_le _ _)
    rw [drop_heaptids _ bound, drop_heaptids _ bound] at back
    obtain ⟨read, rest⟩ := cons.inj back
    have extended : point.heaptids.toList.take (count + 1) =
        point.heaptids.toList.take count ++ [point.heaptids[count]!] := by
      rw [take_add, drop_heaptids _ bound, take_succ_cons, take_zero]
    rw [compactSlot, read, extended]
    generalize point.heaptids[count]! = tid
    by_cases removed : filter tid
    · simp only [removed]
      exact ⟨by simp [removed, start], sameFlag, by simp [removed, front], rest⟩
    · rw [if_neg removed]
      refine ⟨by simp [removed, start], sameFlag, ?_, ?_⟩
      · have frontLength : (state.2.heaptids.toList.take state.1).length = state.1 :=
          length_take_of_le (by omega)
        rw [toList_setSlot, set_eq_take_append_cons_drop, if_pos (by omega),
          take_append, take_of_length_le (by omega), frontLength,
          Nat.add_sub_cancel_left, take_succ_cons, take_zero, front]
        simp [removed]
      · rw [toList_setSlot, drop_set_of_lt (by simpa using lt_succ_of_le startLe), rest]

section Extended

variable {σ : Type*} (ps : KeyedStore σ ItemPointerData TidPage) {store : σ} {state : VacuumState σ}

/-- The TIDs of the pages that the filter keeps. -/
def survivors (pages : List TidPage) : List ItemPointerData :=
  pages.flatten.filter (!filter ·)

/-- The number of TIDs of the pages that the filter removes. -/
def removed (pages : List TidPage) : Nat :=
  pages.flatten.countP filter

/-- A page that loses no TID. -/
def untouched (page : TidPage) : Bool := page.all (!filter ·)

/-- The number of leading slots the loop passes before anything is removed. -/
def settled (pages : List TidPage) : Nat :=
  (pages.takeWhile (untouched filter)).flatten.length / tidPageCap

/-- The number of slots in use after the vacuum. -/
def kept (pages : List TidPage) : Nat :=
  if removed filter pages = 0 then (survivors filter pages).length / tidPageCap
  else ((survivors filter pages).length + tidPageCap - 1) / tidPageCap

/-- The page rewrites of slots `first` to `last - 1` with consecutive chunks. -/
def chunkWrites (point : GraphIndexPoint) (tids : List ItemPointerData) (first last : Nat) :
    List (ItemPointerData × TidPage) :=
  (List.range' first (last - first)).map fun index =>
    (point.heaptids[index]!, (tids.drop (index * tidPageCap)).take tidPageCap)

/-- The pages of a point, in slot order. -/
def pages (store : σ) (point : GraphIndexPoint) : List TidPage :=
  point.slots.map (readPage ps store)

/-- Every page rewrite of a vacuum, in order. -/
def vacuumWrites (store : σ) (point : GraphIndexPoint) : List (ItemPointerData × TidPage) :=
  chunkWrites point (survivors filter (pages ps store point))
    (settled filter (pages ps store point)) (kept filter (pages ps store point))

/-- A point has at most ten slots, and the keys of an extended one are distinct and
live. -/
structure Sound (store : σ) (point : GraphIndexPoint) : Prop where
  ntids_le : point.ntids <= maxHeaptids
  live : point.isExtended -> ps.Live store point.slots
  distinct : point.isExtended -> point.slots.Nodup

/-- A point as insertion builds it: it is sound, and the pages of an extended one are
within the page capacity. -/
structure WellFormed (store : σ) (point : GraphIndexPoint) : Prop extends Sound ps store point where
  fits : point.isExtended -> ∀ key ∈ point.slots, (readPage ps store key).length <= tidPageCap

theorem length_slots (bound : point.ntids <= maxHeaptids) : point.slots.length = point.ntids := by
  rw [slots, length_take_of_le]
  rw [Vector.length_toList]
  exact bound

theorem slots_eq_map (bound : point.ntids <= maxHeaptids) :
    point.slots = (range point.ntids).map (point.heaptids[·]!) := by
  refine ext_getElem (by simp [length_slots bound]) fun index left right => ?_
  have inBounds : index < maxHeaptids := by
    rw [length_slots bound] at left
    omega
  simp only [slots, getElem_take, getElem_map, getElem_range]
  rw [Vector.getElem_toList, getElem!_pos point.heaptids index inBounds]

/-- The slots `first` to `last - 1`. -/
theorem map_fst_chunkWrites (tids : List ItemPointerData) (first : Nat)
    (bound : point.ntids <= maxHeaptids) (inUse : last <= point.ntids) :
    (chunkWrites point tids first last).map Prod.fst = (point.slots.take last).drop first := by
  rw [slots_eq_map bound, <- map_take, <- map_drop, chunkWrites, map_map,
    take_range, min_eq_left inUse, range_eq_range', drop_range']
  simp

theorem tidPageCap_pos : 0 < tidPageCap := by decide

theorem survivors_append (left right : List TidPage) :
    survivors filter (left ++ right) = survivors filter left ++ survivors filter right := by
  simp [survivors]

theorem length_survivors_add_removed (pages : List TidPage) :
    (survivors filter pages).length + removed filter pages = pages.flatten.length := by
  have split := length_eq_countP_add_countP filter (l := pages.flatten)
  simp only [Bool.not_eq_true, Bool.decide_eq_false] at split
  rw [survivors, removed, <- countP_eq_length_filter, split, add_comm]

/-- Pages within capacity hold at most one capacity each. -/
theorem length_flatten_le {pages : List TidPage} (fits : ∀ page ∈ pages, page.length ≤ tidPageCap) :
    pages.flatten.length <= pages.length * tidPageCap := by
  have bounded := sum_le_card_nsmul (pages.map length) tidPageCap (by
    intro _ present
    obtain ⟨page, inPages, rfl⟩ := mem_map.1 present
    exact fits page inPages)
  simpa using bounded

theorem removed_eq_zero_iff (pages : List TidPage) :
    removed filter pages = 0 ↔ ∀ page ∈ pages, untouched filter page := by
  simp only [removed, countP_eq_zero, mem_flatten, untouched, all_eq_true]
  constructor
  · intro none page inPages tid inPage
    simpa using none tid ⟨page, inPages, inPage⟩
  · rintro clean tid ⟨page, inPages, inPage⟩
    simpa using clean page inPages tid inPage

/-- Untouched pages survive as a whole. -/
theorem survivors_of_untouched
    {pages : List TidPage} (clean : ∀ page ∈ pages, untouched filter page) :
    survivors filter pages = pages.flatten := by
  refine filter_eq_self.2 fun tid present => ?_
  obtain ⟨page, inPages, inPage⟩ := mem_flatten.1 present
  exact all_eq_true.1 (clean page inPages) tid inPage

theorem survivors_takeWhile (pages : List TidPage) :
    survivors filter (pages.takeWhile (untouched filter)) =
      (pages.takeWhile (untouched filter)).flatten :=
  survivors_of_untouched filter fun _ present => mem_takeWhile_imp present

/-- While nothing is removed, every full chunk is settled. -/
theorem settled_of_removed_eq_zero {pages : List TidPage} (nothing : removed filter pages = 0) :
    settled filter pages = (survivors filter pages).length / tidPageCap := by
  have clean := (removed_eq_zero_iff filter pages).1 nothing
  rw [settled, takeWhile_eq_self_iff.2 clean, survivors_of_untouched filter clean]

section

variable (pages : List TidPage)

/-- Pages after the first removal settle nothing more. -/
theorem settled_append (some : removed filter (pages ++ [page]) ≠ 0) :
    settled filter (pages ++ [page]) = settled filter pages := by
  rw [settled, settled, takeWhile_append]
  split
  next whole =>
    have all : pages.takeWhile (untouched filter) = pages :=
      (List.takeWhile_prefix _).eq_of_length whole
    have touched : untouched filter page = false := by
      by_contra clean
      apply some
      refine (removed_eq_zero_iff filter _).2 fun other present => ?_
      rcases mem_append.1 present with earlier | last
      · exact takeWhile_eq_self_iff.1 all other earlier
      · rw [mem_singleton.1 last]
        simpa using clean
    simp [touched, all]
  next => rfl

/-- Settled chunks consist of survivors. -/
theorem settled_le : settled filter pages <= (survivors filter pages).length / tidPageCap := by
  refine Nat.div_le_div_right ?_
  have split := congrArg (survivors filter)
    (takeWhile_append_dropWhile (p := untouched filter) (l := pages))
  rw [<- survivors_takeWhile, <- split, survivors_append, length_append]
  omega

theorem settled_mul_le : settled filter pages * tidPageCap <= (survivors filter pages).length :=
  (mul_le_mul_right _ (settled_le filter _)).trans (div_mul_le_self _ _)

end

theorem rewrite_append (store : σ) (left right : List (ItemPointerData × TidPage)) :
    ps.rewrite store (left ++ right) = ps.rewrite (ps.rewrite store left) right := by
  induction left generalizing store with
  | nil => rfl
  | cons write left ih => exact ih _

section

variable (point : GraphIndexPoint)

/-- Later survivors leave the complete chunks as they are. -/
theorem chunkWrites_append (complete : last * tidPageCap <= tids.length) :
    chunkWrites point (tids ++ more) first last = chunkWrites point tids first last := by
  refine map_congr_left fun index present => ?_
  have below : index + 1 <= last := by
    have := mem_range'_1.1 present
    omega
  have within : (index + 1) * tidPageCap <= tids.length :=
    (mul_le_mul_right _ below).trans complete
  rw [Nat.succ_mul] at within
  rw [drop_append_of_le_length (by omega), take_append_of_le_length (by rw [length_drop]; omega)]

/-- One more chunk is one more rewrite. -/
theorem chunkWrites_succ (tids : List ItemPointerData) (ordered : first <= last) :
    chunkWrites point tids first (last + 1) = chunkWrites point tids first last ++
      [(point.heaptids[last]!, (tids.drop (last * tidPageCap)).take tidPageCap)] := by
  have step : last + 1 - first = (last - first) + 1 := by omega
  have position : first + (last - first) = last := by omega
  rw [chunkWrites, step, range'_concat, map_append, one_mul, position]
  rfl

theorem chunkWrites_of_le (tids : List ItemPointerData) (passed : last <= first) :
    chunkWrites point tids first last = [] := by
  rw [chunkWrites, Nat.sub_eq_zero_of_le passed]
  rfl

end

/-- Buffering a page counts the removed TIDs and appends the others. -/
theorem foldl_collect (state : VacuumState σ) (page : TidPage) :
    page.foldl (collect filter) state =
      { state with
        buf := state.buf ++ page.filter (!filter ·)
        nremoved := state.nremoved + page.countP filter } := by
  induction page generalizing state with
  | nil => simp
  | cons tid page ih =>
    rw [foldl_cons, ih]
    by_cases drop : filter tid
    · simp [collect, drop, add_assoc, add_comm 1]
    · simp [collect, drop]

@[simp] theorem setSlot_self (point : GraphIndexPoint) (index : Nat) :
    point.setSlot index point.heaptids[index]! = point := by
  by_cases inBounds : index < maxHeaptids
  · have same : point.heaptids.setIfInBounds index point.heaptids[index]! = point.heaptids := by
      rw [getElem!_pos point.heaptids index inBounds, <- Vector.toList_inj,
        Vector.toList_setIfInBounds, <- Vector.getElem_toList, set_getElem_self]
      rw [Vector.length_toList]
      exact inBounds
    rw [setSlot, same]
  · rw [setSlot, Vector.setIfInBounds_eq_of_size_le (by omega)]

/-- A slot write changes the page store and at most the dirty mark. -/
theorem writeSlot_eq (state : VacuumState σ) (page : TidPage) :
    ∃ dirty, state.writeSlot ps page =
      { state with
        store := (ps.set state.store state.point.heaptids[state.startIdx]! page).2
        dirty := dirty } := by
  rw [writeSlot]
  split
  next same => exact ⟨true, by rw [same, setSlot_self]⟩
  next => exact ⟨state.dirty, rfl⟩

/-- Where the loop over the overflow pages stands after the given pages. -/
structure LoopInvariant
    (store : σ) (point : GraphIndexPoint) (pages : List TidPage) (state : VacuumState σ) :
    Prop where
  point_eq : state.point = point
  nremoved_eq : state.nremoved = removed filter pages
  startIdx_eq : state.startIdx = (survivors filter pages).length / tidPageCap
  buf_eq : state.buf = (survivors filter pages).drop (state.startIdx * tidPageCap)
  store_eq : state.store = ps.rewrite store
    (chunkWrites point (survivors filter pages) (settled filter pages) state.startIdx)

/-- The survivors of one more page. -/
theorem survivors_concat (pages : List TidPage) (page : TidPage) :
    survivors filter (pages ++ [page]) = survivors filter pages ++ page.filter (!filter ·) := by
  simp [survivors]

/-- The removed TIDs of one more page. -/
theorem removed_concat (pages : List TidPage) (page : TidPage) :
    removed filter (pages ++ [page]) = removed filter pages + page.countP filter := by
  simp [removed]

/-- A page keeps the rewrites done so far. -/
theorem rewrites_concat (point : GraphIndexPoint) (pages : List TidPage) (page : TidPage) :
    chunkWrites point (survivors filter (pages ++ [page])) (settled filter (pages ++ [page]))
        ((survivors filter pages).length / tidPageCap) =
      chunkWrites point (survivors filter pages) (settled filter pages)
        ((survivors filter pages).length / tidPageCap) := by
  rw [survivors_concat, chunkWrites_append point (div_mul_le_self _ _)]
  by_cases nothing : removed filter (pages ++ [page]) = 0
  · have before : removed filter pages = 0 := by
      rw [removed_concat] at nothing
      omega
    rw [chunkWrites_of_le, chunkWrites_of_le]
    · exact (settled_of_removed_eq_zero filter before).ge
    · rw [settled_of_removed_eq_zero filter nothing, survivors_concat, length_append]
      exact Nat.div_le_div_right (Nat.le_add_right _ _)
  · rw [settled_append filter pages nothing]

/-- One round keeps the loop invariant. -/
theorem LoopInvariant.step {pages : List TidPage} {page : TidPage} (fits : page.length ≤ tidPageCap)
    (invariant : LoopInvariant filter ps store point pages state) :
    LoopInvariant filter ps store point (pages ++ [page])
      ((page.foldl (collect filter) state).flushFull ps) := by
  obtain ⟨pointEq, nremovedEq, startEq, bufEq, storeEq⟩ := invariant
  have capPositive := tidPageCap_pos
  have removedEq : state.nremoved + page.countP filter = removed filter (pages ++ [page]) := by
    rw [nremovedEq, removed_concat]
  have sameRewrites := rewrites_concat filter point pages page
  rw [<- startEq] at sameRewrites
  rw [<- sameRewrites] at storeEq
  have complete : state.startIdx * tidPageCap <= (survivors filter pages).length := by
    rw [startEq]
    exact div_mul_le_self _ _
  have : (survivors filter pages).length <
      state.startIdx * tidPageCap + tidPageCap := by
    rw [startEq]
    exact lt_div_mul_add capPositive
  have : (survivors filter (pages ++ [page])).length =
      (survivors filter pages).length + (page.filter (!filter ·)).length := by
    rw [survivors_concat, length_append]
  have buffered : state.buf ++ page.filter (!filter ·) =
      (survivors filter (pages ++ [page])).drop (state.startIdx * tidPageCap) := by
    rw [bufEq, survivors_concat, drop_append_of_le_length complete]
  have : (page.filter (!filter ·)).length <= tidPageCap :=
    (length_filter_le _ _).trans fits
  rw [foldl_collect, flushFull]
  simp only [buffered, removedEq, length_drop]
  split
  next full =>
    have next : state.startIdx + 1 =
        (survivors filter (pages ++ [page])).length / tidPageCap := by
      refine (Nat.div_eq_of_lt_le ?_ ?_).symm
      · rw [Nat.succ_mul]
        omega
      · rw [Nat.succ_mul, Nat.succ_mul]
        omega
    have rest : ((survivors filter (pages ++ [page])).drop
        (state.startIdx * tidPageCap)).drop tidPageCap =
          (survivors filter (pages ++ [page])).drop ((state.startIdx + 1) * tidPageCap) := by
      rw [drop_drop, Nat.succ_mul]
    split
    next some =>
      have settledLe : settled filter (pages ++ [page]) <= state.startIdx := by
        rw [settled_append filter pages (by omega), startEq]
        exact settled_le filter pages
      obtain ⟨_, written⟩ := writeSlot_eq ps
        { state with
          buf := (survivors filter (pages ++ [page])).drop (state.startIdx * tidPageCap)
          nremoved := removed filter (pages ++ [page]) }
        (((survivors filter (pages ++ [page])).drop (state.startIdx * tidPageCap)).take tidPageCap)
      rw [written]
      refine ⟨pointEq, rfl, next, rest, ?_⟩
      rw [chunkWrites_succ _ _ settledLe, rewrite_append, <- storeEq, <- pointEq]
      rfl
    next none =>
      refine ⟨pointEq, rfl, next, rest, ?_⟩
      rw [storeEq, chunkWrites_of_le, chunkWrites_of_le]
      · rw [settled_of_removed_eq_zero filter (by omega)]
        exact next.le
      · rw [settled_of_removed_eq_zero filter (by omega), <- next]
        exact le_succ _
  next partly =>
    have same : state.startIdx =
        (survivors filter (pages ++ [page])).length / tidPageCap := by
      refine (Nat.div_eq_of_lt_le ?_ ?_).symm
      · omega
      · rw [Nat.succ_mul]
        omega
    exact ⟨pointEq, rfl, same, rfl, storeEq⟩

/-- The chunks of survivors fill no more slots than there were pages. -/
theorem length_survivors_le
    (pages : List TidPage) (fits : ∀ page ∈ pages, page.length <= tidPageCap) :
    (survivors filter pages).length + removed filter pages <= pages.length * tidPageCap := by
  rw [length_survivors_add_removed]
  exact length_flatten_le fits

theorem mem_slots (bound : point.ntids <= maxHeaptids) (inUse : index < point.ntids) :
    point.heaptids[index]! ∈ point.slots := by
  rw [slots_eq_map bound]
  exact mem_map_of_mem (mem_range.2 inUse)

/-- An extended point and its pages: the slots hold distinct keys of live pages
within the page capacity. -/
structure Overflow (store : σ) (point : GraphIndexPoint) (before : List TidPage) : Prop where
  ntids_le : point.ntids <= maxHeaptids
  live : ps.Live store point.slots
  distinct : point.slots.Nodup
  pages_eq : pages ps store point = before
  fits : ∀ page ∈ before, page.length <= tidPageCap

section Pages

variable {ps} {before : List TidPage} (overflow : Overflow ps store point before)
include overflow

/-- The first pages, by slot. -/
theorem Overflow.take_eq (inUse : count <= point.ntids) :
    before.take count =
      (range count).map fun index => readPage ps store point.heaptids[index]! := by
  rw [<- overflow.pages_eq, pages, slots_eq_map overflow.ntids_le, map_map, <- map_take,
    take_range, min_eq_left inUse]
  rfl

theorem Overflow.length_eq : before.length = point.ntids := by
  rw [<- overflow.pages_eq, pages, length_map, length_slots overflow.ntids_le]

theorem Overflow.slot_injective (leftInUse : left < point.ntids)
    (rightInUse : right < point.ntids) (same : point.heaptids[left]! = point.heaptids[right]!) :
    left = right := by
  have distinct := overflow.distinct
  rw [slots_eq_map overflow.ntids_le] at distinct
  exact inj_on_of_nodup_map distinct (mem_range.2 leftInUse) (mem_range.2 rightInUse) same

/-- The keys of consecutive rewrites are live and distinct. -/
theorem Overflow.keys_chunkWrites (tids : List ItemPointerData) (first : Nat)
    (lastInUse : last <= point.ntids) :
    ps.Live store ((chunkWrites point tids first last).map Prod.fst) ∧
      ((chunkWrites point tids first last).map Prod.fst).Nodup := by
  have within := (drop_sublist first (point.slots.take last)).trans (take_sublist _ _)
  rw [map_fst_chunkWrites tids first overflow.ntids_le lastInUse]
  exact ⟨fun key present => overflow.live key (within.subset present),
    within.nodup overflow.distinct⟩

/-- Rewriting distinct live slots leaves the page of any other slot as it was. -/
theorem Overflow.readPage_chunkWrites (tids : List ItemPointerData) (index : Nat)
    (lastInUse : last <= point.ntids) (inUse : index < point.ntids)
    (outside : index < first ∨ last <= index) :
    ps.get (ps.rewrite store (chunkWrites point tids first last)) point.heaptids[index]! =
      ps.get store point.heaptids[index]! := by
  obtain ⟨live, distinct⟩ := overflow.keys_chunkWrites tids first lastInUse
  refine ps.get_rewrite_of_notMem live distinct
    (overflow.live _ (mem_slots overflow.ntids_le inUse)) ?_
  intro present
  simp only [chunkWrites, map_map, mem_map, mem_range'_1] at present
  obtain ⟨_, ⟨_, _⟩, same⟩ := present
  have := overflow.slot_injective (by omega) inUse same
  omega

/-- The loop over all overflow pages. -/
theorem LoopInvariant.foldl (bound : count <= point.ntids) :
    LoopInvariant filter ps store point (before.take count)
      ((range count).foldl (vacuumPage ps filter)
        ⟨store, point, [], 0, 0, false⟩) := by
  induction count with
  | zero =>
    refine ⟨rfl, rfl, ?_, ?_, ?_⟩ <;>
      simp [survivors, chunkWrites, rewrite]
  | succ count ih =>
    have invariant := ih (by omega)
    have pages := overflow.take_eq bound
    rw [range_succ, map_append, <- overflow.take_eq (by omega), map_singleton] at pages
    rw [range_succ, foldl_append, foldl_cons, foldl_nil]
    generalize (range count).foldl (vacuumPage ps filter)
      ⟨store, point, [], 0, 0, false⟩ = state at *
    have fits : ∀ page ∈ before.take (count + 1), page.length <= tidPageCap :=
      fun page present => overflow.fits page (take_subset _ _ present)
    rw [pages] at fits ⊢
    have startLe : state.startIdx <= count := by
      rw [invariant.startIdx_eq]
      refine Nat.div_le_of_le_mul ?_
      have := length_survivors_le filter (before.take count) fun page present =>
        fits page (mem_append_left _ present)
      have := mul_le_mul_right tidPageCap (length_take_le count before)
      rw [mul_comm]
      omega
    have read : readPage ps state.store state.point.heaptids[count]! =
        readPage ps store point.heaptids[count]! := by
      rw [readPage, invariant.point_eq, invariant.store_eq,
        overflow.readPage_chunkWrites _ count (by omega) (by omega) (.inr startLe), readPage]
    rw [vacuumPage, read]
    exact invariant.step filter ps (fits _ (by simp))

end Pages

/-- A removal makes the last partial chunk a slot of its own. -/
theorem kept_eq (pages : List TidPage) :
    kept filter pages =
      if 0 < removed filter pages ∧ 0 < (survivors filter pages).length % tidPageCap then
        (survivors filter pages).length / tidPageCap + 1
      else (survivors filter pages).length / tidPageCap := by
  have capPositive := tidPageCap_pos
  have division := div_add_mod (survivors filter pages).length tidPageCap
  have := mod_lt (survivors filter pages).length capPositive
  rw [mul_comm] at division
  rw [kept]
  by_cases nothing : removed filter pages = 0
  · simp [nothing]
  · rw [if_neg nothing]
    split
    next both =>
      refine Nat.div_eq_of_lt_le ?_ ?_
      · rw [Nat.succ_mul]
        omega
      · rw [Nat.succ_mul, Nat.succ_mul]
        omega
    next notBoth =>
      refine Nat.div_eq_of_lt_le ?_ ?_
      · omega
      · rw [Nat.succ_mul]
        omega

/-- The state of an extended vacuum once the last page is written. -/
theorem flushRest_eq (overflow : Overflow ps store point before) :
    let final := ((range point.ntids).foldl (vacuumPage ps filter)
      ⟨store, point, [], 0, 0, false⟩).flushRest ps
    final.point = point ∧ final.nremoved = removed filter before ∧
      final.startIdx = kept filter before ∧
      final.store = ps.rewrite store (chunkWrites point (survivors filter before)
        (settled filter before) (kept filter before)) := by
  have invariant := LoopInvariant.foldl filter overflow le_rfl
  rw [take_of_length_le overflow.length_eq.le] at invariant
  generalize (range point.ntids).foldl (vacuumPage ps filter)
    ⟨store, point, [], 0, 0, false⟩ = state at *
  obtain ⟨pointEq, nremovedEq, startEq, bufEq, storeEq⟩ := invariant
  have settledLe := settled_le filter before
  have division := div_add_mod (survivors filter before).length tidPageCap
  have bufLength : state.buf.length = (survivors filter before).length % tidPageCap := by
    rw [bufEq, length_drop, startEq]
    rw [mul_comm] at division
    omega
  rw [<- startEq] at settledLe
  simp only [flushRest]
  rw [kept_eq, nremovedEq, bufLength]
  split
  next both =>
    obtain ⟨_, written⟩ := writeSlot_eq ps state state.buf
    have chunk : state.buf = ((survivors filter before).drop
        (state.startIdx * tidPageCap)).take tidPageCap := by
      rw [<- bufEq, take_of_length_le]
      rw [bufLength]
      exact (mod_lt _ tidPageCap_pos).le
    rw [written]
    refine ⟨pointEq, nremovedEq, by rw [startEq], ?_⟩
    rw [<- startEq, chunkWrites_succ _ _ settledLe, rewrite_append, <- storeEq, <- chunk, ← pointEq]
    rfl
  next notBoth =>
    refine ⟨pointEq, nremovedEq, startEq, ?_⟩
    rw [storeEq, startEq]

/-- The slots in use after the vacuum were in use before. -/
theorem kept_le (pages : List TidPage) (fits : ∀ page ∈ pages, page.length <= tidPageCap) :
    kept filter pages <= pages.length := by
  have := length_survivors_le filter pages fits
  have division := div_add_mod (survivors filter pages).length tidPageCap
  rw [mul_comm] at division
  rw [kept_eq]
  split
  next both =>
    refine Nat.lt_of_mul_lt_mul_right (a := tidPageCap) ?_
    omega
  next =>
    refine le_of_mul_le_mul_right ?_ tidPageCap_pos
    omega

theorem settled_le_kept (pages : List TidPage) : settled filter pages <= kept filter pages := by
  have := settled_le filter pages
  rw [kept_eq]
  split <;> omega

theorem WellFormed.overflow {ps : KeyedStore σ ItemPointerData TidPage}
    (wellFormed : point.WellFormed ps store) (extended : point.isExtended) :
    Overflow ps store point (pages ps store point) := by
  refine ⟨wellFormed.ntids_le, wellFormed.live extended, wellFormed.distinct extended, rfl, ?_⟩
  intro _ present
  obtain ⟨key, inSlots, rfl⟩ := mem_map.1 present
  exact wellFormed.fits extended key inSlots

theorem Overflow.kept_le_ntids
    (overflow : Overflow ps store point before) : kept filter before <= point.ntids :=
  overflow.length_eq ▸ kept_le filter before overflow.fits

/-- Giving up the slots from `startIdx` on erases their keys and no others. -/
theorem eraseRest_slots (ntid : Nat)
    (ntidEq : ntid = state.point.ntids) (bound : ntid <= maxHeaptids)
    (startLe : state.startIdx <= ntid)
    (live : ps.Live state.store (state.point.slots.drop state.startIdx))
    (distinct : state.point.slots.Nodup) :
    let final := state.eraseRest ps ntid
    final.point.isExtended = state.point.isExtended ∧
      final.point.slots = state.point.slots.take state.startIdx ∧
      final.nremoved = state.nremoved ∧
      ∀ key ∈ state.point.slots.take state.startIdx,
        ps.get final.store key = ps.get state.store key := by
  subst ntidEq
  have small : state.startIdx < 16 := by
    have : maxHeaptids < 16 := by decide
    omega
  simp only [eraseRest]
  split
  next fewer =>
    have erased : (range' state.startIdx (state.point.ntids - state.startIdx)).foldl
        (fun store index => ps.erase store state.point.heaptids[index]!) state.store =
          ps.eraseAll state.store (state.point.slots.drop state.startIdx) := by
      rw [slots_eq_map bound, <- map_drop, range_eq_range', drop_range',
        eraseAll, foldl_map]
      simp
    refine ⟨isExtended_setNtids _ small, ?_, rfl, ?_⟩
    · rw [slots, ntids_setNtids _ small, slots, take_take, min_eq_left startLe]
      rfl
    · intro key present
      rw [erased]
      refine ps.get_eraseAll_of_notMem live (distinct.sublist (drop_sublist _ _)) ?_
      exact fun inDrop => disjoint_take_drop distinct le_rfl present inDrop
  next =>
    have all : state.point.slots.take state.startIdx = state.point.slots := by
      rw [take_of_length_le]
      rw [length_slots bound]
      omega
    rw [all]
    exact ⟨rfl, rfl, rfl, fun key present => rfl⟩

/-- What an extended vacuum returns, and the TIDs it leaves, in terms of its
page rewrites. -/
theorem vacuumTids_extended (overflow : Overflow ps store point before)
    (extended : point.isExtended) :
    (vacuumTids ps filter store point).nremoved = removed filter before ∧
      getTids ps (vacuumTids ps filter store point).store (vacuumTids ps filter store point).point =
        (point.slots.take (kept filter before)).flatMap
          (readPage ps (ps.rewrite store (vacuumWrites filter ps store point))) := by
  have bound := overflow.ntids_le
  rw [vacuumTids, vacuumWrites, overflow.pages_eq]
  by_cases none : point.ntids = 0
  · have noPages : before = [] :=
      length_eq_zero_iff.1 (overflow.length_eq.trans none)
    have noSlots : point.slots = [] := by
      rw [slots, none, take_zero]
    simp [none, getTids, noSlots, noPages, removed]
  · rw [if_neg none, if_pos extended]
    dsimp only
    obtain ⟨pointEq, nremovedEq, startEq, storeEq⟩ := flushRest_eq filter ps overflow
    generalize ((range point.ntids).foldl (vacuumPage ps filter)
      ⟨store, point, [], 0, 0, false⟩).flushRest ps = state at *
    have keptLe := overflow.kept_le_ntids filter
    have dropLive : ps.Live state.store (state.point.slots.drop state.startIdx) := by
      intro key present
      rw [pointEq, startEq, slots_eq_map bound, ← map_drop, range_eq_range', drop_range'] at present
      obtain ⟨index, inRange, rfl⟩ := mem_map.1 present
      have := mem_range'_1.1 inRange
      rw [storeEq, overflow.readPage_chunkWrites _ index keptLe (by omega) (.inr (by omega))]
      exact overflow.live _ (mem_slots bound (by omega))
    obtain ⟨sameExtended, slotsEq, sameRemoved, sameGet⟩ := eraseRest_slots ps
      point.ntids (by rw [pointEq]) bound (by rw [startEq]; exact keptLe) dropLive
      (by rw [pointEq]; exact overflow.distinct)
    refine ⟨sameRemoved.trans nremovedEq, ?_⟩
    rw [getTids, if_pos (by rw [sameExtended, pointEq]; exact extended), slotsEq, pointEq, startEq]
    refine flatMap_congr fun key present => ?_
    rw [readPage, sameGet key (by rw [pointEq, startEq]; exact present), storeEq, readPage]

/-- Consecutive chunks make up the list again. -/
theorem flatten_chunks (tids : List ItemPointerData) (first count : Nat) :
    ((range' first count).map fun index =>
        (tids.drop (index * tidPageCap)).take tidPageCap).flatten =
      (tids.drop (first * tidPageCap)).take (count * tidPageCap) := by
  induction count with
  | zero => simp
  | succ count ih =>
    rw [range'_concat, map_append, flatten_append, ih,
      add_mul count 1, one_mul, take_add, drop_drop, <- add_mul]
    simp

section Rewrites

variable {before : List TidPage} (overflow : Overflow ps store point before)
include overflow

theorem Overflow.vacuumWrites_eq : vacuumWrites filter ps store point =
    chunkWrites point (survivors filter before) (settled filter before) (kept filter before) := by
  rw [vacuumWrites, overflow.pages_eq]

section

variable (keeps : ps.KeepsKeys store (vacuumWrites filter ps store point))
include keeps

/-- The page of a slot that is not rewritten, and of one that is. -/
theorem Overflow.readPage_rewrite (index : Nat) (inUse : index < kept filter before) :
    readPage ps (ps.rewrite store (vacuumWrites filter ps store point)) point.heaptids[index]! =
      if index < settled filter before then readPage ps store point.heaptids[index]!
      else ((survivors filter before).drop (index * tidPageCap)).take tidPageCap := by
  have keptLe := overflow.kept_le_ntids filter
  rw [overflow.vacuumWrites_eq filter] at keeps ⊢
  split
  next early =>
    rw [readPage, overflow.readPage_chunkWrites _ index keptLe (by omega) (.inl early), readPage]
  next late =>
    obtain ⟨live, distinct⟩ := overflow.keys_chunkWrites (survivors filter before)
      (settled filter before) keptLe
    rw [readPage, ps.get_rewrite_of_mem live distinct keeps
      (mem_map.2 ⟨index, mem_range'_1.2 (by omega), rfl⟩)]
    rfl

/-- With no key moved, the settled pages stay and the rewritten slots hold the
remaining survivors in chunks. -/
theorem Overflow.flatMap_readPage_of_keeps :
    (point.slots.take (kept filter before)).flatMap
        (readPage ps (ps.rewrite store (vacuumWrites filter ps store point))) =
      (before.take (settled filter before)).flatten ++
        ((survivors filter before).drop (settled filter before * tidPageCap)).take
          ((kept filter before - settled filter before) * tidPageCap) := by
  have keptLe := overflow.kept_le_ntids filter
  have settledLe := settled_le_kept filter before
  have read := overflow.readPage_rewrite filter ps keeps
  rw [overflow.take_eq (settledLe.trans keptLe), slots_eq_map overflow.ntids_le, <- map_take,
    take_range, min_eq_left keptLe]
  have ranges := range'_append_1 (s := 0) (m := settled filter before)
    (n := kept filter before - settled filter before)
  rw [Nat.zero_add, Nat.add_sub_cancel' settledLe, <- range_eq_range', <- range_eq_range'] at ranges
  rw [<- flatten_chunks, <- ranges, flatMap_map, flatMap_append, flatMap_def, flatMap_def]
  refine congrArg₂ (· ++ ·) (congrArg flatten ?_) (congrArg flatten ?_)
  · refine map_congr_left fun index present => ?_
    have below := mem_range.1 present
    rw [read index (by omega), if_pos below]
  · refine map_congr_left fun index present => ?_
    have := mem_range'_1.1 present
    rw [read index (by omega), if_neg (by omega)]

end

end Rewrites

theorem length_flatMap_readPage (store : σ) (keys : List ItemPointerData) :
    (keys.flatMap (readPage ps store)).length = ps.totalWeight length store keys := by
  rw [length_flatMap]
  refine congrArg sum (map_congr_left fun key _ => ?_)
  rw [readPage, weightAt]
  cases ps.get store key <;> rfl

section

variable {pages : List TidPage} (some : removed filter pages ≠ 0)
include some

/-- A slot is kept only for survivors. -/
theorem lt_length_of_lt_kept (inUse : index < kept filter pages) :
    index * tidPageCap < (survivors filter pages).length := by
  rw [kept, if_neg some, lt_div_iff_mul_lt tidPageCap_pos] at inUse
  omega

/-- After a removal the kept slots have room for every survivor. -/
theorem length_le_kept_mul : (survivors filter pages).length <= kept filter pages * tidPageCap := by
  have := lt_div_mul_add (a := (survivors filter pages).length + tidPageCap - 1) tidPageCap_pos
  rw [kept, if_neg some]
  omega

end

/-- The rewrites store the survivors behind the settled chunks. -/
theorem sum_length_chunkWrites (point : GraphIndexPoint) (some : removed filter before ≠ 0) :
    ((chunkWrites point (survivors filter before) (settled filter before)
        (kept filter before)).map fun write => write.2.length).sum =
      (survivors filter before).length - settled filter before * tidPageCap := by
  have := length_le_kept_mul filter some
  have chunks := congrArg length (flatten_chunks (survivors filter before)
    (settled filter before) (kept filter before - settled filter before))
  rw [length_flatten, length_take, length_drop, map_map, Nat.sub_mul] at chunks
  rw [chunkWrites, map_map, min_eq_right (by omega)] at *
  exact chunks

/-- Every rewrite of a vacuum stores at least one TID. -/
theorem length_pos_of_mem_chunkWrites (some : removed filter before ≠ 0)
    (present : write ∈ chunkWrites point (survivors filter before) first (kept filter before)) :
    0 < write.2.length := by
  obtain ⟨index, inRange, rfl⟩ := mem_map.1 present
  have := mem_range'_1.1 inRange
  have : index * tidPageCap < _ := lt_length_of_lt_kept filter some (by omega)
  have := tidPageCap_pos
  simp only [length_take, length_drop]
  omega

section Moved

variable {before : List TidPage} (overflow : Overflow ps store point before)
include overflow

/-- The pages of the first slots hold at most one capacity each. -/
theorem Overflow.totalWeight_take_le (count : Nat) :
    ps.totalWeight length store (point.slots.take count) <= count * tidPageCap := by
  rw [<- length_flatMap_readPage, flatMap_def, map_take, <- pages, overflow.pages_eq]
  refine (length_flatten_le fun page present =>
    overflow.fits page (take_subset _ _ present)).trans ?_
  exact mul_le_mul_right _ (length_take_le _ _)

/-- A moved key loses its page, so survivors go missing. -/
theorem Overflow.length_lt_of_moved (some : removed filter before ≠ 0)
    (moves : ¬ ps.KeepsKeys store (vacuumWrites filter ps store point)) :
    ((point.slots.take (kept filter before)).flatMap
        (readPage ps (ps.rewrite store (vacuumWrites filter ps store point)))).length <
      (survivors filter before).length := by
  rw [overflow.vacuumWrites_eq filter] at moves ⊢
  have keys := map_fst_chunkWrites (survivors filter before) (settled filter before)
    overflow.ntids_le (overflow.kept_le_ntids filter)
  have distinct : (point.slots.take (kept filter before)).Nodup :=
    overflow.distinct.sublist (take_sublist _ _)
  have within := keys ▸ drop_subset (settled filter before) (point.slots.take (kept filter before))
  have live : ps.Live store (point.slots.take (kept filter before)) :=
    fun key present => overflow.live key (take_subset _ _ present)
  have lost := (ps.totalWeight_rewrite length distinct
    (fun key present => live key (within present))
    (by rw [keys]; exact distinct.sublist (drop_sublist _ _))
    (fun write present => within (mem_map_of_mem present))
    fun write present => length_pos_of_mem_chunkWrites filter some present).2 live moves
  have split := ps.totalWeight_append length store
    ((point.slots.take (kept filter before)).take (settled filter before))
    ((point.slots.take (kept filter before)).drop (settled filter before))
  rw [take_append_drop, take_take, min_eq_left (settled_le_kept filter before)] at split
  have := overflow.totalWeight_take_le ps (settled filter before)
  have := settled_mul_le filter before
  rw [keys, sum_length_chunkWrites filter point some] at lost
  rw [length_flatMap_readPage]
  omega

end Moved

/-- The settled pages come before the first removal. -/
theorem survivors_take_settled
    {pages : List TidPage} (fits : ∀ page ∈ pages, page.length <= tidPageCap) :
    survivors filter (pages.take (settled filter pages)) =
      (pages.take (settled filter pages)).flatten := by
  have leading : settled filter pages <= (pages.takeWhile (untouched filter)).length := by
    refine Nat.div_le_of_le_mul ?_
    rw [mul_comm]
    exact length_flatten_le fun page present =>
      fits page ((takeWhile_sublist _).subset present)
  have taken : pages.take (settled filter pages) =
      (pages.takeWhile (untouched filter)).take (settled filter pages) := by
    rw [prefix_iff_eq_take.1 (List.takeWhile_prefix (untouched filter) (l := pages)),
      take_take, min_eq_left leading]
  rw [taken]
  exact survivors_of_untouched filter fun page present =>
    mem_takeWhile_imp (take_subset _ _ present)

/-- The vacuum leaves exactly the surviving TIDs and counts the removed ones. -/
def VacuumExact (store : σ) (point : GraphIndexPoint) : Prop :=
  (getTids ps (vacuumTids ps filter store point).store
      (vacuumTids ps filter store point).point).Perm
    ((getTids ps store point).filter (!filter ·)) ∧
  (vacuumTids ps filter store point).nremoved = (getTids ps store point).countP filter

/-- What the extended vacuum needs of the pages: with nothing to remove, no TID
lies beyond the last full chunk's slot; otherwise the slots passed before the
first removal hold full pages, and no page rewrite moves to another key. -/
def KeepsSurvivors (store : σ) (point : GraphIndexPoint) : Prop :=
  point.isExtended ->
    if removed filter (pages ps store point) = 0 then
      ∀ page ∈ (pages ps store point).drop ((pages ps store point).flatten.length / tidPageCap),
        page = []
    else
      (∀ page ∈ (pages ps store point).take (settled filter (pages ps store point)),
        page.length = tidPageCap) ∧
      ps.KeepsKeys store (vacuumWrites filter ps store point)

/-- The inline vacuum is exact. -/
theorem vacuumTids_inline (store : σ) (bound : point.ntids <= maxHeaptids)
    (inline : ¬ point.isExtended) : VacuumExact filter ps store point := by
  rw [VacuumExact, vacuumTids]
  by_cases none : point.ntids = 0
  · have noSlots : point.slots = [] := by
      rw [slots, none, take_zero]
    simp [none, getTids, noSlots]
  · rw [if_neg none, if_neg inline]
    obtain ⟨start, sameFlag, front, -⟩ := foldl_compactSlot filter point bound
    generalize (range point.ntids).foldl (compactSlot filter) (0, point) = state at *
    have small : state.1 < 16 := by
      have : maxHeaptids < 16 := by decide
      have := (length_filter_le (!filter ·)
        (point.heaptids.toList.take point.ntids)).trans (length_take_le _ _)
      omega
    have stillInline : ¬ (state.2.setNtids state.1).isExtended := by
      rw [isExtended_setNtids _ small, isExtended, sameFlag]
      exact inline
    have after : (state.2.setNtids state.1).slots = point.slots.filter (!filter ·) := by
      rw [slots, ntids_setNtids _ small]
      exact front
    have counts := length_eq_countP_add_countP filter (l := point.slots)
    simp only [Bool.not_eq_true, Bool.decide_eq_false, length_slots bound] at counts
    dsimp only
    rw [getTids, if_neg stillInline, getTids, if_neg inline, after]
    refine ⟨List.Perm.refl _, ?_⟩
    rw [start, <- slots, <- countP_eq_length_filter]
    omega

theorem getTids_extended (store : σ) (extended : point.isExtended) :
    getTids ps store point = (pages ps store point).flatten := by
  rw [getTids, if_pos extended, pages, flatMap_def]

/-- The first pages hold everything when the others are empty. -/
theorem flatten_take_perm_iff (pages : List TidPage) (count : Nat) :
    (pages.take count).flatten.Perm pages.flatten ↔ ∀ page ∈ pages.drop count, page = [] := by
  have split := congrArg flatten (take_append_drop count pages)
  rw [flatten_append] at split
  rw [<- flatten_eq_nil_iff]
  constructor
  · intro same
    have lengths := same.length_eq
    rw [<- split, length_append] at lengths
    exact length_eq_zero_iff.1 (by omega)
  · intro empty
    rw [<- split, empty, append_nil]

section

variable {pages : List TidPage} (fits : ∀ page ∈ pages, page.length <= tidPageCap)
include fits

/-- Pages within capacity are all full exactly when their total is. -/
theorem length_flatten_eq_iff :
    pages.flatten.length = pages.length * tidPageCap ↔
      ∀ page ∈ pages, page.length = tidPageCap := by
  induction pages with
  | nil => simp
  | cons page pages ih =>
    have tailFits : ∀ other ∈ pages, other.length <= tidPageCap :=
      fun other present => fits other (by simp [present])
    have := fits page (by simp)
    have := length_flatten_le tailFits
    rw [forall_mem_cons, <- ih tailFits, flatten_cons, length_append, length_cons, Nat.succ_mul]
    omega

/-- Settled pages followed by the remaining chunks are the survivors exactly
when the settled pages are full. -/
theorem settled_append_perm_iff :
    ((pages.take (settled filter pages)).flatten ++
        (survivors filter pages).drop (settled filter pages * tidPageCap)).Perm
          (survivors filter pages) ↔
      ∀ page ∈ pages.take (settled filter pages), page.length = tidPageCap := by
  have takeFits : ∀ page ∈ pages.take (settled filter pages), page.length <= tidPageCap :=
    fun page present => fits page (take_subset _ _ present)
  have := settled_mul_le filter pages
  have takeLength : (pages.take (settled filter pages)).length = settled filter pages :=
    length_take_of_le ((settled_le_kept filter pages).trans (kept_le filter pages fits))
  have leading := survivors_take_settled filter fits
  have split := survivors_append filter (pages.take (settled filter pages))
    (pages.drop (settled filter pages))
  rw [take_append_drop, leading] at split
  rw [<- length_flatten_eq_iff takeFits, takeLength]
  constructor
  · intro same
    have lengths := same.length_eq
    rw [length_append, length_drop] at lengths
    omega
  · intro full
    have rest : (survivors filter pages).drop (settled filter pages * tidPageCap) =
        survivors filter (pages.drop (settled filter pages)) := by
      rw [split, drop_append, <- full, drop_length, Nat.sub_self]
      rfl
    rw [rest, <- split]

end

section Exact

variable {before : List TidPage} (overflow : Overflow ps store point before)
  (extended : point.isExtended)
include overflow extended

/-- With nothing to remove, the vacuum keeps the pages of the full chunks only. -/
theorem Overflow.exact_iff_of_nothing (nothing : removed filter before = 0) :
    VacuumExact filter ps store point ↔
      ∀ page ∈ before.drop (before.flatten.length / tidPageCap), page = [] := by
  obtain ⟨count, tids⟩ := vacuumTids_extended filter ps overflow extended
  have clean := survivors_of_untouched filter ((removed_eq_zero_iff filter _).1 nothing)
  have settledEq := settled_of_removed_eq_zero filter nothing
  have keptEq : kept filter before = settled filter before := by
    rw [settledEq, kept, if_pos nothing]
  have keeps : ps.KeepsKeys store (vacuumWrites filter ps store point) := by
    rw [overflow.vacuumWrites_eq filter, chunkWrites_of_le _ _ keptEq.le]
    trivial
  rw [overflow.flatMap_readPage_of_keeps filter ps keeps, keptEq, Nat.sub_self, Nat.zero_mul,
    take_zero, append_nil, settledEq, clean] at tids
  rw [VacuumExact, tids, count, getTids_extended ps store extended, overflow.pages_eq,
    <- survivors, clean, <- removed, and_iff_left rfl]
  exact flatten_take_perm_iff _ _

/-- Once something is removed, the vacuum is exact when the settled pages are
full and every rewrite stays in place. -/
theorem Overflow.exact_iff_of_removed (some : removed filter before ≠ 0) :
    VacuumExact filter ps store point ↔
      (∀ page ∈ before.take (settled filter before), page.length = tidPageCap) ∧
      ps.KeepsKeys store (vacuumWrites filter ps store point) := by
  obtain ⟨count, tids⟩ := vacuumTids_extended filter ps overflow extended
  rw [VacuumExact, tids, count, getTids_extended ps store extended, overflow.pages_eq,
    <- survivors, <- removed, and_iff_left rfl]
  by_cases keeps : ps.KeepsKeys store (vacuumWrites filter ps store point)
  · have := length_le_kept_mul filter some
    rw [overflow.flatMap_readPage_of_keeps filter ps keeps, and_iff_left keeps,
      take_of_length_le (l := (survivors filter before).drop _)
        (by rw [length_drop, Nat.sub_mul]; omega)]
    exact settled_append_perm_iff filter overflow.fits
  · have := overflow.length_lt_of_moved filter ps some keeps
    refine iff_of_false ?_ fun both => keeps both.2
    intro survive
    exact absurd survive.length_eq (by omega)

end Exact

/-- The vacuum of a point leaves exactly the survivors if and only if the
extended form's rewrites reach every slot that needs them. -/
theorem vacuumTids_exact_iff
    {store : σ} {point : GraphIndexPoint} (wellFormed : point.WellFormed ps store) :
    VacuumExact filter ps store point ↔ KeepsSurvivors filter ps store point := by
  rw [KeepsSurvivors]
  by_cases extended : point.isExtended
  · by_cases nothing : removed filter (pages ps store point) = 0
    · rw [(wellFormed.overflow extended).exact_iff_of_nothing filter ps extended nothing,
        if_pos nothing]
      simp [extended]
    · rw [(wellFormed.overflow extended).exact_iff_of_removed filter ps extended nothing,
        if_neg nothing]
      simp [extended]
  · have exact := vacuumTids_inline filter ps store wellFormed.ntids_le extended
    simp [exact, extended]

end Extended

/-- An extended point with one overflow page. -/
def onePage : GraphIndexPoint :=
  { flag := 0x44#8, heaptids := Vector.replicate maxHeaptids ⟨1, 1⟩ }

/-- A page store that holds two TIDs under the key of `onePage`. -/
def onePageStore : ItemPointerData -> Option TidPage :=
  Function.update (fun _ => none) ⟨1, 1⟩ (some [⟨7, 1⟩, ⟨7, 2⟩])

theorem wellFormed_onePage : onePage.WellFormed (table [⟨1, 2⟩]) onePageStore where
  ntids_le := by decide
  live := fun _ => by
    intro _ present
    rw [mem_singleton.1 present]
    decide
  distinct := fun _ => by decide
  fits := fun _ => by decide

/-- A well-formed point loses its TIDs to a vacuum that removes nothing. -/
theorem vacuumTids_loses_survivors :
    onePage.WellFormed (table [⟨1, 2⟩]) onePageStore ∧
      getTids (table [⟨1, 2⟩]) onePageStore onePage = [⟨7, 1⟩, ⟨7, 2⟩] ∧
      (let result := vacuumTids (table [⟨1, 2⟩]) (fun _ => false) onePageStore onePage
       result.nremoved = 0 ∧ getTids (table [⟨1, 2⟩]) result.store result.point = []) ∧
      ¬ VacuumExact (fun _ => false) (table [⟨1, 2⟩]) onePageStore onePage := by
  refine ⟨wellFormed_onePage, by decide, by decide, ?_⟩
  intro exact
  cases exact.1.length_eq

/-- Removing one of the two TIDs leaves the other. -/
theorem vacuumTids_exact_onePage :
    onePage.WellFormed (table [⟨1, 2⟩]) onePageStore ∧
      VacuumExact (· == ⟨7, 1⟩) (table [⟨1, 2⟩]) onePageStore onePage := by
  refine ⟨wellFormed_onePage, ?_⟩
  rw [vacuumTids_exact_iff _ _ wellFormed_onePage]
  intro _
  exact ⟨by decide, by decide⟩

end GraphIndexPoint
end VexDB.GraphIndex
