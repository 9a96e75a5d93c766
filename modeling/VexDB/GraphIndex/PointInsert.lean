import VexDB.GraphIndex.PointVacuum

/-!
# Adding row identifiers to a point

`insert_tid` puts a batch of TIDs into the free slots, or turns the point into one
with overflow pages, or adds the batch to the last page and a new one.
-/

namespace VexDB.GraphIndex
namespace GraphIndexPoint

open Storage List Nat

/-- Set bit 6 of the flag. -/
def setExtended (point : GraphIndexPoint) : GraphIndexPoint :=
  { point with flag := point.flag ||| 0x40#8 }

/-- Fill the slots from `start` on. -/
def fillSlots (point : GraphIndexPoint) (start : Nat) : List ItemPointerData -> GraphIndexPoint
  | [] => point
  | tid :: data => fillSlots (point.setSlot start tid) (start + 1) data

/-- Put a key into the next slot. -/
def pushSlot (point : GraphIndexPoint) (key : ItemPointerData) : GraphIndexPoint :=
  (point.setSlot point.ntids key).setNtids (point.ntids + 1)

variable {σ : Type*} (ps : KeyedStore σ ItemPointerData TidPage)

/-- `insert_tid`: whether the batch was added, the page store and the point.  There
is no result when `put` raises an error; `hasPs` says whether the context has a page
store. -/
def insertTid (hasPs : Bool) (store : σ) (point : GraphIndexPoint) (data : List ItemPointerData) :
    Option (Bool × σ × GraphIndexPoint) :=
  let nentry := point.ntids
  if point.empty then some (false, store, point)
  else if !point.isExtended ∧ nentry + data.length <= maxHeaptids then
    some (true, store, (point.fillSlots nentry data).setNtids (nentry + data.length))
  else if !hasPs then some (false, store, point)
  else if !point.isExtended then
    (ps.put store (point.slots ++ data)).map fun (key, after) =>
      (true, after, (point.setExtended.setNtids 1).setSlot 0 key)
  else
    let key := point.heaptids[nentry - 1]!
    let oldSize := (readPage ps store key).length * itemPointerSize
    if plainStoreMaxSize < oldSize + itemPointerSize then
      if nentry < maxHeaptids then
        (ps.put store data).map fun (new, after) => (true, after, point.pushSlot new)
      else some (false, store, point)
    else
      let nnew := min ((plainStoreMaxSize - oldSize) / itemPointerSize) data.length
      if nnew < data.length ∧ maxHeaptids <= nentry then some (false, store, point)
      else
        let written := ps.set store key (readPage ps store key ++ data.take nnew)
        let changed := point.setSlot (nentry - 1) written.1
        if nnew < data.length then
          (ps.put written.2 (data.drop nnew)).map fun (new, after) =>
            (true, after, changed.pushSlot new)
        else some (true, written.2, changed)

/-- The pages of an extended point are within the page capacity. -/
def Fits (store : σ) (point : GraphIndexPoint) : Prop :=
  point.isExtended -> ∀ key ∈ point.slots, (readPage ps store key).length <= tidPageCap

/-- A page stored under a key that is none of the others, which keep their pages. -/
structure Appends (store after : σ) (keys : List ItemPointerData) (new : ItemPointerData)
    (page : TidPage) : Prop where
  live : ps.Live store keys
  distinct : keys.Nodup
  absent : new ∉ keys
  added : ps.get after new = some page
  same : ∀ other ∈ keys, ps.get after other = ps.get store other

variable {store after : σ} {point changed : GraphIndexPoint} {data keys : List ItemPointerData}
  {key new : ItemPointerData} {page : TidPage}

private theorem setExtended_flag :
    ∀ flag : BitVec 8, ((flag ||| 0x40#8) &&& 0x40#8 != 0#8) = true := by
  decide +kernel

theorem toList_fillSlots (fits : start + data.length <= maxHeaptids) :
    (point.fillSlots start data).flag = point.flag ∧
      (point.fillSlots start data).heaptids.toList.take (start + data.length) =
        point.heaptids.toList.take start ++ data := by
  induction data generalizing point start with
  | nil => simp [fillSlots]
  | cons tid data ih =>
    rw [length_cons] at fits
    obtain ⟨sameFlag, filled⟩ := @ih (point.setSlot start tid) (start + 1) (by omega)
    refine ⟨sameFlag, ?_⟩
    have : point.heaptids.toList.length = maxHeaptids := Vector.length_toList
    rw [length_cons, add_comm data.length, <- add_assoc, fillSlots, filled,
      toList_setSlot, take_add_one, take_set_of_le le_rfl,
      getElem?_set_self (by omega)]
    simp

/-- A point whose last slot was written. -/
theorem slots_of_setSlot (inBounds : last < maxHeaptids) (count : changed.ntids = last + 1)
    (written : changed.heaptids = (point.setSlot last key).heaptids) :
    changed.slots = point.heaptids.toList.take last ++ [key] := by
  rw [slots, count, written]
  exact (@toList_fillSlots point [key] last inBounds).2

variable {ps}

/-- A new page takes a key that was not live. -/
theorem put_appends (live : ps.Live store keys) (distinct : keys.Nodup)
    (stored : ps.put store page = some (new, after)) : Appends ps store after keys new page := by
  have absent : new ∉ keys := by
    intro present
    have found := live new present
    rw [ps.get_put_key store page new after stored] at found
    cases found
  exact ⟨live, distinct, absent, ps.get_put_self store page new after stored, fun other present =>
    ps.get_put_other store page new after other stored (ne_of_mem_of_not_mem present absent)⟩

/-- A page that is rewritten stays where it is or takes a key that was not live. -/
theorem set_appends (live : ps.Live store (keys ++ [key])) (distinct : (keys ++ [key]).Nodup)
    (page : TidPage) :
    Appends ps store (ps.set store key page).2 keys (ps.set store key page).1 page := by
  have keyLive := live key (by simp)
  have othersLive : ps.Live store keys := fun other present => live other (by simp [present])
  obtain ⟨othersDistinct, -, apart⟩ := nodup_append.1 distinct
  have absent : key ∉ keys := fun present => apart key present key (by simp) rfl
  refine ⟨othersLive, othersDistinct, ?_, ps.get_set_self store key page keyLive,
    fun other present => ps.get_set_live page keyLive (othersLive other present)
      (ne_of_mem_of_not_mem present absent)⟩
  intro present
  by_cases kept : (ps.set store key page).1 = key
  · exact absent (kept ▸ present)
  · have found := othersLive _ present
    rw [ps.get_set_key store key page keyLive kept] at found
    cases found

/-- A point with one more page, in its last slot. -/
theorem Appends.sound (appends : Appends ps store after keys new page)
    (extended : changed.isExtended) (bound : changed.ntids <= maxHeaptids)
    (slotsEq : changed.slots = keys ++ [new]) :
    changed.Sound ps after ∧
      getTids ps after changed = keys.flatMap (readPage ps store) ++ page := by
  refine ⟨⟨bound, fun _ => ?_, fun _ => ?_⟩, ?_⟩
  · rw [slotsEq]
    intro other present
    rcases mem_append.1 present with old | isNew
    · rw [appends.same other old]
      exact appends.live other old
    · rw [mem_singleton.1 isNew, appends.added]
      rfl
  · rw [slotsEq]
    exact concat_eq_append ▸ appends.distinct.concat appends.absent
  · rw [getTids, if_pos extended, slotsEq, flatMap_append, flatMap_singleton, readPage,
      appends.added, Option.getD_some]
    refine congrArg (· ++ page) (flatMap_congr fun other present => ?_)
    rw [readPage, appends.same other present, readPage]

theorem Appends.fits (appends : Appends ps store after keys new page)
    (slotsEq : changed.slots = keys ++ [new]) (small : page.length <= tidPageCap)
    (fits : ∀ key ∈ keys, (readPage ps store key).length <= tidPageCap) : changed.Fits ps after := by
  intro _ key present
  rw [slotsEq] at present
  rcases mem_append.1 present with old | isNew
  · rw [readPage, appends.same key old]
    exact fits key old
  · rw [mem_singleton.1 isNew, readPage, appends.added]
    exact small

/-- A page behind those of an extended point. -/
theorem Sound.pushSlot (sound : point.Sound ps store) (extended : point.isExtended)
    (room : point.ntids < maxHeaptids) (stored : ps.put store page = some (new, after)) :
    (point.pushSlot new).Sound ps after ∧
      getTids ps after (point.pushSlot new) = getTids ps store point ++ page ∧
      (page.length <= tidPageCap -> point.Fits ps store -> (point.pushSlot new).Fits ps after) := by
  have small : point.ntids + 1 < 16 := (succ_lt_succ room).trans (by decide)
  have count : (point.pushSlot new).ntids = point.ntids + 1 := ntids_setNtids _ small
  have appends := put_appends (sound.live extended) (sound.distinct extended) stored
  rw [show getTids ps store point = _ from if_pos extended]
  have slotsEq : (point.pushSlot new).slots = point.slots ++ [new] :=
    slots_of_setSlot room count rfl
  have stays : (point.pushSlot new).isExtended := (isExtended_setNtids _ small).trans extended
  obtain ⟨sound, tids⟩ := appends.sound stays (count.trans_le room) slotsEq
  exact ⟨sound, tids, fun capped fits => appends.fits slotsEq capped (fits extended)⟩

/-- The last page of an extended point, rewritten. -/
theorem Sound.setLast (sound : point.Sound ps store) (extended : point.isExtended)
    (used : ¬ point.empty) (more : List ItemPointerData) :
    let key := point.heaptids[point.ntids - 1]!
    let written := ps.set store key (readPage ps store key ++ more)
    (point.setSlot (point.ntids - 1) written.1).Sound ps written.2 ∧
      getTids ps written.2 (point.setSlot (point.ntids - 1) written.1) =
        getTids ps store point ++ more ∧
      ((readPage ps store key ++ more).length <= tidPageCap -> point.Fits ps store ->
        (point.setSlot (point.ntids - 1) written.1).Fits ps written.2) := by
  intro key written
  obtain ⟨last, isLast⟩ : ∃ last, point.ntids = last + 1 :=
    exists_eq_succ_of_ne_zero fun none => used (by simp [GraphIndexPoint.empty, none])
  have inBounds : last < maxHeaptids := succ_le_iff.1 (isLast.symm.trans_le sound.ntids_le)
  have lastEq : point.ntids - 1 = last := by rw [isLast, Nat.add_sub_cancel]
  have slotsEq : point.slots = point.heaptids.toList.take last ++ [key] := by
    rw [slots, isLast, take_add, drop_heaptids point inBounds, <- lastEq]
    rfl
  have live := sound.live extended
  have distinct := sound.distinct extended
  rw [slotsEq] at live distinct
  have changedSlots : (point.setSlot (point.ntids - 1) written.1).slots =
      point.heaptids.toList.take last ++ [written.1] :=
    slots_of_setSlot inBounds isLast (by rw [lastEq])
  have appends := set_appends live distinct (readPage ps store key ++ more)
  have stays : (point.setSlot (point.ntids - 1) written.1).isExtended := extended
  obtain ⟨soundAfter, tids⟩ := appends.sound stays sound.ntids_le changedSlots
  refine ⟨soundAfter, tids.trans ?_, fun capped fits => appends.fits changedSlots capped ?_⟩
  · rw [show getTids ps store point = _ from if_pos extended, slotsEq, flatMap_append,
      flatMap_singleton, append_assoc]
  · exact fun other present => fits extended other (slotsEq ▸ mem_append_left _ present)

/-- The first page of a point that becomes extended. -/
theorem sound_firstPage (point : GraphIndexPoint) (stored : ps.put store page = some (key, after)) :
    let changed := (point.setExtended.setNtids 1).setSlot 0 key
    changed.Sound ps after ∧ getTids ps after changed = page ∧
      (page.length <= tidPageCap -> changed.Fits ps after) := by
  intro changed
  have appends := put_appends (fun _ present => absurd present not_mem_nil) nodup_nil stored
  have count : changed.ntids = 1 := ntids_setNtids _ (by decide)
  have slotsEq : changed.slots = [] ++ [key] := slots_of_setSlot (by decide) count rfl
  have extended : changed.isExtended :=
    (isExtended_setNtids point.setExtended (by decide)).trans (setExtended_flag point.flag)
  obtain ⟨sound, tids⟩ := appends.sound extended (count.trans_le (by decide)) slotsEq
  exact ⟨sound, tids, fun capped => appends.fits slotsEq capped (by simp)⟩

/-- TIDs put into free slots. -/
theorem sound_fillSlots (inline : ¬ point.isExtended)
    (fits : point.ntids + data.length <= maxHeaptids) :
    let changed := (point.fillSlots point.ntids data).setNtids (point.ntids + data.length)
    changed.Sound ps store ∧ getTids ps store changed = getTids ps store point ++ data ∧
      changed.Fits ps store := by
  intro changed
  obtain ⟨sameFlag, filled⟩ := toList_fillSlots fits
  have small : point.ntids + data.length < 16 := lt_of_le_of_lt fits (by decide)
  have count : changed.ntids = point.ntids + data.length := ntids_setNtids _ small
  have stillInline : ¬ changed.isExtended := by
    rw [isExtended_setNtids _ small, isExtended, sameFlag]
    exact inline
  refine ⟨⟨count.trans_le fits, fun extended => absurd extended stillInline,
    fun extended => absurd extended stillInline⟩, ?_, fun extended => absurd extended stillInline⟩
  rw [getTids, if_neg stillInline, getTids, if_neg inline, slots, count]
  exact filled

variable (ps) in
/-- What an insertion does: the batch is behind the TIDs of the point, or nothing
changes. -/
def AllOrNothing (store : σ) (point : GraphIndexPoint) (data : List ItemPointerData)
    (inserted : Bool) (after : σ) (changed : GraphIndexPoint) : Prop :=
  changed.Sound ps after ∧
    if inserted then getTids ps after changed = getTids ps store point ++ data
    else after = store ∧ changed = point

variable (ps) in
/-- `put` stores no page beyond the page capacity. -/
def Capped : Prop :=
  ∀ store page key after, ps.put store page = some (key, after) -> page.length <= tidPageCap

/-- What is left of a page takes the TIDs that fit. -/
theorem filled_le (old : TidPage) (data : List ItemPointerData)
    (room : ¬ plainStoreMaxSize < old.length * itemPointerSize + itemPointerSize) :
    (old ++ data.take (min ((plainStoreMaxSize - old.length * itemPointerSize) / itemPointerSize)
      data.length)).length <= tidPageCap := by
  rw [length_append, length_take, tidPageCap, Nat.le_div_iff_mul_le (by decide)]
  have := Nat.div_mul_le_self (plainStoreMaxSize - old.length * itemPointerSize) itemPointerSize
  rw [itemPointerSize] at *
  omega

/-- An insertion by cases: what it does, and that it keeps pages within their capacity. -/
theorem insertTid_spec (hasPs : Bool) (data : List ItemPointerData)
    {inserted : Bool} (sound : point.Sound ps store)
    (returned : insertTid ps hasPs store point data = some (inserted, after, changed)) :
    AllOrNothing ps store point data inserted after changed ∧
      (Capped ps -> point.Fits ps store -> changed.Fits ps after) := by
  have refused : some (false, store, point) = some (inserted, after, changed) ->
      AllOrNothing ps store point data inserted after changed ∧
        (Capped ps -> point.Fits ps store -> changed.Fits ps after) := by
    rintro ⟨⟩
    exact ⟨⟨sound, rfl, rfl⟩, fun _ fits => fits⟩
  rw [insertTid] at returned
  simp only at returned
  split_ifs at returned with empty fits absent inline full room short partly
  · exact refused returned
  · cases returned
    obtain ⟨soundAfter, tids, fitsAfter⟩ := sound_fillSlots (by simpa using fits.1) fits.2
    exact ⟨⟨soundAfter, tids⟩, fun _ _ => fitsAfter⟩
  · exact refused returned
  · obtain ⟨⟨key, _⟩, stored, isResult⟩ := Option.map_eq_some_iff.1 returned
    cases isResult
    obtain ⟨soundAfter, tids, fitsAfter⟩ := sound_firstPage point stored
    refine ⟨⟨soundAfter, tids.trans ?_⟩, fun capped _ => fitsAfter (capped _ _ _ _ stored)⟩
    rw [getTids, if_neg (by simpa using inline)]
  · obtain ⟨⟨new, _⟩, stored, isResult⟩ := Option.map_eq_some_iff.1 returned
    cases isResult
    obtain ⟨soundAfter, tids, fitsAfter⟩ := sound.pushSlot (by simpa using inline) room stored
    exact ⟨⟨soundAfter, tids⟩, fun capped => fitsAfter (capped _ _ _ _ stored)⟩
  · exact refused returned
  · exact refused returned
  · obtain ⟨⟨new, _⟩, stored, isResult⟩ := Option.map_eq_some_iff.1 returned
    cases isResult
    have extended : point.isExtended := by simpa using inline
    have room : point.ntids < maxHeaptids := Nat.lt_of_not_le fun most => short ⟨partly, most⟩
    obtain ⟨soundLast, last, fitsLast⟩ := sound.setLast extended empty (data.take _)
    obtain ⟨soundAfter, tids, fitsAfter⟩ := soundLast.pushSlot extended room stored
    refine ⟨⟨soundAfter, tids.trans ?_⟩, fun capped before =>
      fitsAfter (capped _ _ _ _ stored) (fitsLast (filled_le _ data full) before)⟩
    rw [last, append_assoc, take_append_drop]
  · cases returned
    have small := filled_le _ data full
    rw [take_of_length_le (Nat.le_of_not_lt partly)] at small ⊢
    obtain ⟨soundAfter, tids, fitsAfter⟩ := sound.setLast (by simpa using inline) empty data
    exact ⟨⟨soundAfter, tids⟩, fun _ => fitsAfter small⟩

/-- `insert_tid` adds the whole batch behind the TIDs of the point or changes
nothing, and the point stays one of at most ten slots. -/
theorem insertTid_all_or_nothing (hasPs : Bool) (data : List ItemPointerData)
    {inserted : Bool} (sound : point.Sound ps store)
    (returned : insertTid ps hasPs store point data = some (inserted, after, changed)) :
    AllOrNothing ps store point data inserted after changed :=
  (insertTid_spec hasPs data sound returned).1

/-- `insert_tid` leaves a point that `vacuum_tids` can be called with. -/
theorem WellFormed.insertTid (capped : Capped ps) {hasPs inserted : Bool}
    (wellFormed : point.WellFormed ps store)
    (returned : insertTid ps hasPs store point data = some (inserted, after, changed)) :
    changed.WellFormed ps after := by
  obtain ⟨done, fits⟩ := insertTid_spec hasPs data wellFormed.toSound returned
  exact ⟨done.1, fits capped wellFormed.fits⟩

/-- One more TID goes to the page of the point. -/
theorem insertTid_all_or_nothing_onePage :
    onePage.Sound (KeyedStore.table [⟨1, 2⟩]) onePageStore ∧
      AllOrNothing (KeyedStore.table [⟨1, 2⟩]) onePageStore onePage [⟨7, 3⟩] true
        (Function.update onePageStore ⟨1, 1⟩ (some [⟨7, 1⟩, ⟨7, 2⟩, ⟨7, 3⟩]))
        (onePage.setSlot 0 ⟨1, 1⟩) := by
  have sound := wellFormed_onePage.toSound
  exact ⟨sound, insertTid_all_or_nothing true _ sound rfl⟩

end GraphIndexPoint
end VexDB.GraphIndex
