import Mathlib.Data.List.Sort

/-!
# Directory pages of the NFS gateway

`readdir` sorts a directory by inode and resumes behind the first entry with the
inode of the cursor.  A client asks for page after page with the file id of the
last entry it received.
-/

namespace VexDB.Gateway

open List

variable {S : Type*}

/-- An entry as it is listed and delivered; `stat` is what `stat_attr` reads besides. -/
structure DirEntry (S : Type*) where
  name : String
  inode : Int64
  size : Int64
  stat : S

namespace DirEntry

def fileid (entry : DirEntry S) : UInt64 := entry.inode.toUInt64

/-- What tells entries of a directory apart. -/
def key (entry : DirEntry S) : UInt64 × String := (entry.fileid, entry.name)

/-- A pending write decides the size. -/
def withPending (pendingSizes : UInt64 -> Option UInt64) (entry : DirEntry S) : DirEntry S :=
  { entry with
    size := ((pendingSizes entry.fileid).map fun size =>
      (min size Int64.maxValue.toUInt64).toInt64).getD entry.size }

end DirEntry

def sortByInode (entries : List (DirEntry S)) : List (DirEntry S) :=
  entries.insertionSort fun left right => left.inode <= right.inode

/-- A page starts behind the first entry with the cursor's file id. -/
def startOf (entries : List (DirEntry S)) (startAfter : UInt64) : Nat :=
  if startAfter = 0 then 0
  else ((entries.findIdx? fun entry => entry.fileid = startAfter).map (· + 1)).getD 0

/-- The entries of a page, and whether it is the last one. -/
def readdir (listed : List (DirEntry S)) (pendingSizes : UInt64 -> Option UInt64)
    (startAfter : UInt64) (maxEntries : Nat) : List (DirEntry S) × Bool :=
  let entries := sortByInode listed
  let start := startOf entries startAfter
  let stop := min (start + maxEntries) entries.length
  (((entries.drop start).take (stop - start)).map (DirEntry.withPending pendingSizes),
    stop == entries.length)

/-- Ask for pages until the last one, at most so many times; the pending writes may
differ from call to call. -/
def readAll (listed : List (DirEntry S)) (pendingSizes : Nat -> UInt64 -> Option UInt64)
    (maxEntries : Nat) : Nat -> UInt64 -> Option (List (DirEntry S))
  | 0, _ => none
  | calls + 1, startAfter =>
    let (page, complete) := readdir listed (pendingSizes calls) startAfter maxEntries
    if complete then some page
    else page.getLast?.bind fun last =>
      (readAll listed pendingSizes maxEntries calls last.fileid).map (page ++ ·)

theorem length_sortByInode (listed : List (DirEntry S)) :
    (sortByInode listed).length = listed.length := length_insertionSort _ _

/-- Every page but the last ends at the first entry of its inode. -/
def Resumable (listed : List (DirEntry S)) (maxEntries : Nat) : Prop :=
  ∀ stop < listed.length, maxEntries ∣ stop ->
    ∀ entry ∈ ((sortByInode listed).take stop).getLast?,
      startOf (sortByInode listed) entry.fileid = stop

section

variable {listed : List (DirEntry S)} {maxEntries : Nat} (positive : 0 < maxEntries)
  (resumable : Resumable listed maxEntries)
include positive resumable

/-- From the end of a page on, every entry is delivered once. -/
theorem readAll_from (pendingSizes : Nat -> UInt64 -> Option UInt64)
    (boundary : maxEntries ∣ start) (inside : start <= listed.length)
    (resumes : startOf (sortByInode listed) cursor = start)
    (enough : listed.length < start + calls) :
    ∃ delivered, readAll listed pendingSizes maxEntries calls cursor = some delivered ∧
      delivered.map DirEntry.key = ((sortByInode listed).drop start).map DirEntry.key := by
  have sorted := length_sortByInode listed
  induction calls generalizing start cursor with
  | zero => omega
  | succ calls ih =>
    have keys (page : List (DirEntry S)) :
        (page.map (DirEntry.withPending (pendingSizes calls))).map DirEntry.key =
          page.map DirEntry.key := map_map
    simp only [readAll, readdir, resumes, sorted, beq_iff_eq]
    split
    next final =>
      refine ⟨_, rfl, ?_⟩
      rw [keys, final, <- sorted, <- length_drop, take_length]
    next notFinal =>
      have more : start + maxEntries < listed.length := by omega
      have size : min (start + maxEntries) listed.length - start = maxEntries := by omega
      have boundary' : maxEntries ∣ start + maxEntries := Nat.dvd_add boundary ⟨1, by simp⟩
      -- The page ends at the entry behind which the next call resumes.
      obtain ⟨entry, last⟩ : ∃ entry,
          (((sortByInode listed).drop start).take maxEntries).getLast? = some entry := by
        rw [<- Option.isSome_iff_exists, getLast?_isSome]
        apply ne_nil_of_length_pos
        rw [length_take, length_drop]
        omega
      have next := resumable (start + maxEntries) more boundary' entry (by
        rw [take_add, getLast?_append, last]
        rfl)
      obtain ⟨rest, received, delivered⟩ := ih boundary' more.le next (by omega)
      rw [size, getLast?_map, last]
      refine ⟨_, congrArg (Option.map _) received, ?_⟩
      rw [map_append, keys, delivered, <- drop_drop, <- map_append,
        take_append_drop]

end

section

variable {listed : List (DirEntry S)} {maxEntries : Nat}

/-- A cursor is found no later than at an entry with its file id. -/
theorem startOf_le {entries : List (DirEntry S)} {entry : DirEntry S} {index : Nat}
    (found : entries[index]? = some entry) : startOf entries entry.fileid <= index + 1 := by
  unfold startOf
  split
  · exact Nat.zero_le _
  · cases first : entries.findIdx? fun other => other.fileid = entry.fileid with
    | none => exact Nat.zero_le _
    | some first =>
      obtain ⟨inside, _, before⟩ := findIdx?_eq_some_iff_getElem.1 first
      obtain ⟨bounded, rfl⟩ := List.getElem?_eq_some_iff.1 found
      refine Nat.succ_le_succ (Nat.le_of_not_lt fun later => ?_)
      simpa using before index later

/-- What a page that is not the last holds, and how the next one begins. -/
theorem readAll_page {pendingSizes : Nat -> UInt64 -> Option UInt64}
    (positive : 0 < maxEntries)
    (received : readAll listed pendingSizes maxEntries (calls + 1) cursor = some delivered)
    (more : startOf (sortByInode listed) cursor + maxEntries < listed.length) :
    ∃ entry rest, (sortByInode listed)[startOf (sortByInode listed) cursor + maxEntries - 1]? =
        some entry ∧
      readAll listed pendingSizes maxEntries calls entry.fileid = some rest ∧
      delivered.length = maxEntries + rest.length := by
  have sorted := length_sortByInode listed
  have size : min (startOf (sortByInode listed) cursor + maxEntries) listed.length -
      startOf (sortByInode listed) cursor = maxEntries := by omega
  have notFinal : min (startOf (sortByInode listed) cursor + maxEntries) listed.length ≠
      listed.length := by omega
  simp only [readAll, readdir, sorted, beq_iff_eq, if_neg notFinal, size] at received
  obtain ⟨last, isLast, received⟩ := Option.bind_eq_some_iff.1 received
  obtain ⟨rest, resumed, rfl⟩ := Option.map_eq_some_iff.1 received
  rw [getLast?_map, getLast?_eq_getElem?, length_take, length_drop, sorted,
    Nat.min_eq_left (by omega), getElem?_take_of_lt (by omega), getElem?_drop,
    <- Nat.add_sub_assoc positive] at isLast
  obtain ⟨entry, found, rfl⟩ := Option.map_eq_some_iff.1 isLast
  refine ⟨entry, rest, found, resumed, ?_⟩
  rw [length_append, length_map, length_take, length_drop, sorted, Nat.min_eq_left (by omega)]

/-- Paging that ends has delivered as many entries as follow its first one. -/
theorem length_readAll (positive : 0 < maxEntries)
    (received : readAll listed pendingSizes maxEntries calls cursor = some delivered) :
    listed.length <= startOf (sortByInode listed) cursor + delivered.length := by
  have sorted := length_sortByInode listed
  induction calls generalizing cursor delivered with
  | zero => cases received
  | succ calls ih =>
    by_cases more : startOf (sortByInode listed) cursor + maxEntries < listed.length
    · obtain ⟨entry, rest, found, received, length⟩ := readAll_page positive received more
      have := ih received
      have := startOf_le found
      omega
    · have final : min (startOf (sortByInode listed) cursor + maxEntries) listed.length =
          listed.length := by omega
      simp only [readAll, readdir, sorted, final, beq_self_eq_true, if_true,
        Option.some.injEq] at received
      rw [<- received, length_map, length_take, length_drop, sorted]
      omega

/-- If paging delivers no more entries than there are from the end of a page on, all later
pages but the last end where they can be resumed. -/
theorem resumes_of_readAll (positive : 0 < maxEntries)
    (received : readAll listed pendingSizes maxEntries calls cursor = some delivered)
    (boundary : maxEntries ∣ startOf (sortByInode listed) cursor)
    (once : startOf (sortByInode listed) cursor + delivered.length <= listed.length)
    (later : startOf (sortByInode listed) cursor < stop) (inside : stop < listed.length)
    (atEnd : maxEntries ∣ stop) {entry : DirEntry S}
    (last : entry ∈ ((sortByInode listed).take stop).getLast?) :
    startOf (sortByInode listed) entry.fileid = stop := by
  have sorted := length_sortByInode listed
  induction calls generalizing cursor delivered with
  | zero => cases received
  | succ calls ih =>
    have page : startOf (sortByInode listed) cursor + maxEntries <= stop := by
      obtain ⟨first, same⟩ := boundary
      obtain ⟨second, same'⟩ := atEnd
      rw [same, same'] at later ⊢
      have := Nat.lt_of_mul_lt_mul_left later
      rw [<- Nat.mul_succ]
      exact Nat.mul_le_mul_left _ this
    obtain ⟨end_, rest, found, received, length⟩ :=
      readAll_page positive received (by omega)
    have enough := length_readAll positive received
    have resumed := startOf_le found
    -- A page that resumed before its predecessor's end would deliver too much.
    have here : startOf (sortByInode listed) end_.fileid =
        startOf (sortByInode listed) cursor + maxEntries := by omega
    rcases Nat.eq_or_lt_of_le page with same | further
    · rw [getLast?_eq_getElem?, length_take, sorted, Nat.min_eq_left (by omega),
        getElem?_take_of_lt (by omega), <- same, found] at last
      obtain rfl := Option.some.inj last
      rw [here, same]
    · refine ih received ?_ (by omega) (by omega)
      rw [here]
      exact Nat.dvd_add boundary ⟨1, by simp⟩

/-- Paging ends and delivers every entry of the directory once exactly when every page
but the last ends at the first entry of its inode. -/
theorem readAll_complete_iff (positive : 0 < maxEntries) :
    (∃ calls, ∀ pendingSizes, ∃ delivered,
      readAll listed pendingSizes maxEntries calls 0 = some delivered ∧
        (delivered.map DirEntry.key).Perm (listed.map DirEntry.key)) ↔
      Resumable listed maxEntries := by
  have begins : startOf (sortByInode listed) 0 = 0 := if_pos rfl
  constructor
  · rintro ⟨calls, complete⟩ stop inside atEnd entry last
    obtain ⟨delivered, received, perm⟩ := complete fun _ _ => none
    have length := perm.length_eq
    rw [length_map, length_map] at length
    refine resumes_of_readAll positive received ?_ ?_ ?_ inside atEnd last
    · rw [begins]
      exact Nat.dvd_zero _
    · omega
    · rw [begins]
      refine Nat.pos_of_ne_zero fun none => ?_
      rw [none] at last
      cases last
  · intro resumable
    refine ⟨listed.length + 1, fun pendingSizes => ?_⟩
    obtain ⟨delivered, received, keys⟩ := readAll_from positive resumable pendingSizes
      (Nat.dvd_zero _) (Nat.zero_le _) begins (show _ < 0 + (listed.length + 1) by omega)
    exact ⟨delivered, received, keys ▸ (perm_insertionSort _ _).map _⟩

end

/-- A file and two hard links to another one, two entries to a page. -/
theorem readAll_complete_iff_hardLinks : ∃ calls, ∀ pendingSizes, ∃ delivered,
    readAll [⟨"b", 6, 0, ()⟩, ⟨"a", 5, 0, ()⟩, ⟨"c", 6, 0, ()⟩] pendingSizes 2 calls 0 =
        some delivered ∧
      (delivered.map DirEntry.key).Perm [(6, "b"), (5, "a"), (6, "c")] :=
  (readAll_complete_iff (by decide)).2 (by unfold Resumable; decide)

/-- Two hard links and a file behind them. -/
def linkedTwice : List (DirEntry Unit) := [⟨"a", 5, 0, ()⟩, ⟨"b", 5, 0, ()⟩, ⟨"c", 7, 0, ()⟩]

/-- With one entry to a page the second link is delivered again and again. -/
theorem readAll_stuck :
    ¬ ∃ calls, (readAll linkedTwice (fun _ _ => none) 1 calls 0).isSome := by
  have again (calls : Nat) : readAll linkedTwice (fun _ _ => none) 1 calls 5 = none := by
    induction calls with
    | zero => rfl
    | succ calls ih => exact congrArg (Option.map _) ih
  rintro ⟨_ | calls, received⟩
  · cases received
  · have none := congrArg (Option.map ([⟨"a", 5, 0, ()⟩] ++ ·)) (again calls)
    cases (congrArg Option.isSome none).symm.trans received

end VexDB.Gateway
