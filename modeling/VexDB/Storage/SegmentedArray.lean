import Mathlib.Data.Finset.Basic

/-!
# Arrays stored in segments

An array is stored in segments of a fixed number of records, and only the
segments marked dirty are written again.  If every segment outside the dirty set
reads back as the array has it, writing the dirty ones stores the whole array.
-/

namespace VexDB.Storage

open List Option

/-- How an array is laid out in segments: what is stored of an element, what is
written behind the records of a segment, and which stored segments are accepted. -/
structure Layout (α β : Type*) where
  size : Nat
  record : α -> β
  /-- What is written behind a segment of so many records. -/
  fill : Nat -> List β
  /-- A stored segment of the first length is accepted for so many records. -/
  fits : Nat -> Nat -> Bool
  positive : 0 < size
  fits_fill : ∀ count, count <= size -> fits (count + (fill count).length) count = true

namespace Layout

variable {α β : Type*}

/-- Segments hold their records and nothing else. -/
def exact (size : Nat) (positive : 0 < size) (record : α -> β) : Layout α β where
  size := size
  record := record
  fill _ := []
  fits length count := length == count
  positive := positive
  fits_fill := by simp

/-- Segments are filled up to their size. -/
def padded (size : Nat) (positive : 0 < size) (record : α -> β) (pad : β) : Layout α β where
  size := size
  record := record
  fill count := replicate (size - count) pad
  fits length _ := length == size
  positive := positive
  fits_fill := by
    intro count _
    simp only [length_replicate, beq_iff_eq]
    omega

/-- Segments are accepted with and without the filling. -/
def either (size : Nat) (positive : 0 < size) (record : α -> β) (pad : Option β) :
    Layout α β where
  size := size
  record := record
  fill count := match pad with
    | none => []
    | some pad => replicate (size - count) pad
  fits length count := length == count || length == size
  positive := positive
  fits_fill := by
    intro count _
    cases pad with
    | none => simp
    | some =>
      simp only [length_replicate, Bool.or_eq_true, beq_iff_eq]
      omega

variable (layout : Layout α β)

/-- The segment of an element. -/
def segmentOf (index : Nat) : Nat := index / layout.size

/-- The number of segments of an array. -/
def segmentCount (length : Nat) : Nat := (length + layout.size - 1) / layout.size

/-- The records of a segment. -/
def segment (array : List α) (seg : Nat) : List β :=
  ((array.drop (layout.size * seg)).take layout.size).map layout.record

/-- What is written for a segment. -/
def image (array : List α) (seg : Nat) : List β :=
  layout.segment array seg ++ layout.fill (layout.segment array seg).length

/-- Read so many records of a stored segment. -/
def load (count : Nat) (stored : Option (List β)) : Option (List β) :=
  stored.bind fun records =>
    if layout.fits records.length count then some (records.take count) else none

/-- Read an array of a known length. -/
def read (length : Nat) (stored : Nat -> Option (List β)) : Option (List β) :=
  ((range (layout.segmentCount length)).mapM fun seg =>
    layout.load (min layout.size (length - layout.size * seg)) (stored seg)).map flatten

/-- Every segment that is not dirty reads back as the array has it. -/
def Covered (array : List α) (dirty : Finset Nat) (stored : Nat -> Option (List β)) : Prop :=
  ∀ seg, seg ∉ dirty -> layout.size * seg < array.length ->
    layout.load (layout.segment array seg).length (stored seg) = some (layout.segment array seg)

variable {layout} {array changed : List α} {dirty more : Finset Nat}
  {stored : Nat -> Option (List β)}

theorem getElem?_segment (array : List α) (seg offset : Nat) :
    (layout.segment array seg)[offset]? =
      if offset < layout.size then (array[layout.size * seg + offset]?).map layout.record
      else none := by
  rw [segment, getElem?_map, getElem?_take]
  split
  · rw [getElem?_drop]
  · rfl

theorem length_segment (array : List α) (seg : Nat) :
    (layout.segment array seg).length =
      min layout.size (array.length - layout.size * seg) := by
  simp [segment]

/-- Arrays with the same records in a segment have the same segment. -/
theorem segment_congr (agree : ∀ index, layout.segmentOf index = seg ->
      (changed[index]?).map layout.record = (array[index]?).map layout.record) :
    layout.segment changed seg = layout.segment array seg := by
  refine ext_getElem? fun offset => ?_
  rw [getElem?_segment, getElem?_segment]
  split
  next inside =>
    refine agree _ ?_
    rw [segmentOf, Nat.mul_add_div layout.positive, Nat.div_eq_of_lt inside, Nat.add_zero]
  next => rfl

/-- What is written for a segment reads back. -/
theorem load_image (array : List α) (seg : Nat) :
    layout.load (layout.segment array seg).length (some (layout.image array seg)) =
      some (layout.segment array seg) := by
  have bounded : (layout.segment array seg).length <= layout.size := by
    rw [length_segment]
    exact Nat.min_le_left _ _
  simp only [load, image, bind_some, length_append, layout.fits_fill _ bounded, if_true, take_left]

theorem Covered.mono (covered : layout.Covered array dirty stored) (subset : dirty ⊆ more) :
    layout.Covered array more stored :=
  fun seg clean => covered seg fun old => clean (subset old)

/-- A change that touches records of dirty segments only. -/
theorem Covered.change (covered : layout.Covered array dirty stored) (subset : dirty ⊆ more)
    (agree : ∀ index, layout.segmentOf index ∉ more ->
      (changed[index]?).map layout.record = (array[index]?).map layout.record) :
    layout.Covered changed more stored := by
  intro seg clean inBounds
  have same : layout.segment changed seg = layout.segment array seg :=
    segment_congr fun index here => agree index (here ▸ clean)
  have before : layout.size * seg < array.length := by
    have first := agree (layout.size * seg) (by
      rwa [segmentOf, Nat.mul_div_cancel_left seg layout.positive])
    by_contra beyond
    rw [getElem?_eq_getElem inBounds, getElem?_eq_none (Nat.not_lt.1 beyond)] at first
    cases first
  rw [same]
  exact covered seg (fun old => clean (subset old)) before

end Layout

/-- An array, the segments of it that have to be written, and the stored segments. -/
structure SegmentedArray (α β : Type*) where
  array : List α
  dirty : Finset Nat
  stored : Nat -> Option (List β)

namespace SegmentedArray

variable {α β : Type*}

/-- Replace the array. -/
def withArray (segmented : SegmentedArray α β) (array : List α) : SegmentedArray α β :=
  { segmented with array := array }

variable (layout : Layout α β)

/-- Mark the segment of an element. -/
def mark (segmented : SegmentedArray α β) (index : Nat) : SegmentedArray α β :=
  { segmented with dirty := insert (layout.segmentOf index) segmented.dirty }

/-- Write a dirty segment back. -/
def writeBack (segmented : SegmentedArray α β) (seg : Nat) : SegmentedArray α β :=
  if seg ∈ segmented.dirty then
    { segmented with
      dirty := segmented.dirty.erase seg
      stored := Function.update segmented.stored seg
        (some (layout.image segmented.array seg)) }
  else segmented

/-- Write the dirty segments, or all of them; there is nothing beyond the end. -/
def flush (full : Bool) (segmented : SegmentedArray α β) : SegmentedArray α β where
  array := segmented.array
  dirty := ∅
  stored seg :=
    if (full ∨ seg ∈ segmented.dirty) ∧ layout.size * seg < segmented.array.length then
      some (layout.image segmented.array seg)
    else segmented.stored seg

/-- Outside the dirty and the pending segments the stored array is the array. -/
def Tracked (pending : Finset Nat) (segmented : SegmentedArray α β) : Prop :=
  layout.Covered segmented.array (segmented.dirty ∪ pending) segmented.stored

variable {layout} {segmented : SegmentedArray α β} {pending : Finset Nat} {array : List α}

section

variable (tracked : segmented.Tracked layout pending)
include tracked

section

variable {index : Nat} (agree : ∀ other, other ≠ index ->
  (array[other]?).map layout.record = (segmented.array[other]?).map layout.record)
include agree

/-- Records outside one element are kept and that element is marked. -/
theorem Tracked.change_mark :
    ((segmented.withArray array).mark layout index).Tracked layout
      (pending.erase (layout.segmentOf index)) := by
  refine tracked.change ?_ fun other clean => agree other ?_
  · intro _ old
    simp only [mark, Finset.mem_union, Finset.mem_insert, Finset.mem_erase] at old ⊢
    tauto
  · rintro rfl
    simp [mark] at clean

/-- The same for an element whose segment is dirty already. -/
theorem Tracked.change_dirty (isDirty : layout.segmentOf index ∈ segmented.dirty) :
    (segmented.withArray array).Tracked layout pending := by
  refine tracked.change (Finset.Subset.refl _) fun other clean => agree other ?_
  rintro rfl
  exact clean (Finset.mem_union_left _ isDirty)

end

/-- Nothing that is stored changes. -/
theorem Tracked.change_none (agree : array.map layout.record = segmented.array.map layout.record) :
    (segmented.withArray array).Tracked layout pending := by
  refine tracked.change (Finset.Subset.refl _) fun other _ => ?_
  rw [<- getElem?_map, <- getElem?_map]
  exact congrArg (·[other]?) agree

end

theorem getElem?_concat_of_ne (list : List α) (element : α)
    (different : other ≠ list.length) : (list ++ [element])[other]? = list[other]? := by
  rw [getElem?_append]
  split
  next => rfl
  next beyond =>
    rw [getElem?_eq_none (Nat.not_lt.1 beyond), getElem?_eq_none]
    simp only [length_singleton]
    omega

section

variable (tracked : segmented.Tracked layout pending)
include tracked

/-- A new element is pending until it is marked. -/
theorem Tracked.append (element : α) :
    (segmented.withArray (segmented.array ++ [element])).Tracked layout
      (insert (layout.segmentOf segmented.array.length) pending) := by
  refine tracked.change ?_ fun other clean => ?_
  · exact Finset.union_subset_union_right (Finset.subset_insert _ _)
  · have different : other ≠ segmented.array.length := by
      rintro rfl
      simp at clean
    rw [withArray, getElem?_concat_of_ne segmented.array element different]

/-- A new element that is marked at once. -/
theorem Tracked.append_mark (element : α) :
    ((segmented.withArray (segmented.array ++ [element])).mark layout
      segmented.array.length).Tracked layout
        (pending.erase (layout.segmentOf segmented.array.length)) :=
  tracked.change_mark fun _ different => by
    rw [getElem?_concat_of_ne segmented.array element different]

theorem Tracked.mark (index : Nat) : (segmented.mark layout index).Tracked layout pending :=
  Layout.Covered.mono tracked (Finset.union_subset_union_left (Finset.subset_insert _ _))

theorem Tracked.writeBack (seg : Nat) :
    (segmented.writeBack layout seg).Tracked layout pending := by
  rw [SegmentedArray.writeBack]
  split
  case isFalse => exact tracked
  intro other clean inBounds
  by_cases same : other = seg
  · subst same
    simp only [Function.update_self]
    exact Layout.load_image segmented.array other
  · simp only [Function.update_of_ne same]
    refine tracked other (fun old => clean ?_) inBounds
    simp only [Finset.mem_union, Finset.mem_erase] at old ⊢
    tauto

end

@[simp]
theorem writeBack_array (segmented : SegmentedArray α β) (seg : Nat) :
    (segmented.writeBack layout seg).array = segmented.array := by
  rw [SegmentedArray.writeBack]
  split <;> rfl

theorem flatten_segments (array : List α) (count : Nat) :
    ((range count).map (layout.segment array)).flatten =
      (array.map layout.record).take (layout.size * count) := by
  induction count with
  | zero => simp
  | succ count ih =>
    rw [range_succ, map_append, flatten_append, ih]
    rw [Nat.mul_succ, take_add]
    simp [Layout.segment]

theorem length_le_segments (layout : Layout α β) (length : Nat) :
    length <= layout.size * layout.segmentCount length := by
  rw [Layout.segmentCount]
  have := Nat.div_add_mod (length + layout.size - 1) layout.size
  have := Nat.mod_lt (length + layout.size - 1) layout.positive
  omega

theorem lt_of_lt_segmentCount {length seg : Nat}
    (inBounds : seg < layout.segmentCount length) : layout.size * seg < length := by
  have below : seg + 1 <= (length + layout.size - 1) / layout.size := inBounds
  rw [Nat.le_div_iff_mul_le layout.positive, Nat.mul_comm, Nat.mul_succ] at below
  have := layout.positive
  omega

theorem lt_segmentCount {length seg : Nat} (inBounds : layout.size * seg < length) :
    seg < layout.segmentCount length := by
  rw [Layout.segmentCount, Nat.lt_iff_add_one_le, Nat.le_div_iff_mul_le layout.positive,
    Nat.mul_comm, Nat.mul_succ]
  omega

/-- An array whose segments are all marked. -/
theorem tracked_of_marked
    (marked : Finset.range (layout.segmentCount segmented.array.length) ⊆ segmented.dirty) :
    segmented.Tracked layout pending := by
  intro _ clean inBounds
  refine absurd (Finset.mem_union_left _ (marked ?_)) clean
  exact Finset.mem_range.2 (lt_segmentCount inBounds)

/-- One result after another. -/
theorem mapM_eq_some_iff {γ δ : Type*} {f : γ -> Option δ} {list : List γ} {results : List δ} :
    list.mapM f = some results ↔
      List.Forall₂ (fun item result => f item = some result) list results := by
  induction list generalizing results with
  | nil => simp [eq_comm]
  | cons head tail ih =>
    rw [mapM_cons, forall₂_cons_left_iff]
    cases computed : f head with
    | none => simp
    | some result =>
      simp only [Option.pure_def, bind_eq_bind, bind_some, bind_eq_some_iff, ih, Option.some.injEq]
      constructor
      · rintro ⟨rest, computedRest, rfl⟩
        exact ⟨result, rest, rfl, computedRest, rfl⟩
      · rintro ⟨_, rest, rfl, computedRest, rfl⟩
        exact ⟨rest, computedRest, rfl⟩

/-- Writing the dirty segments leaves none to write. -/
theorem Tracked.covered_flush (tracked : segmented.Tracked layout ∅) (full : Bool) :
    layout.Covered segmented.array ∅ (segmented.flush layout full).stored := by
  intro seg _ inBounds
  simp only [flush]
  split
  next => exact Layout.load_image segmented.array seg
  next clean =>
    refine tracked seg (fun old => clean ⟨Or.inr ?_, inBounds⟩) inBounds
    simpa using old

/-- An array whose segments are all stored reads back. -/
theorem read_of_covered {stored : Nat → Option (List β)} (covered : layout.Covered array ∅ stored) :
    layout.read array.length stored = some (array.map layout.record) := by
  have segments : ((range (layout.segmentCount array.length)).mapM fun seg =>
      layout.load (min layout.size (array.length - layout.size * seg)) (stored seg)) =
      some ((range (layout.segmentCount array.length)).map (layout.segment array)) := by
    rw [mapM_eq_some_iff, forall₂_map_right_iff, forall₂_same]
    intro seg present
    rw [<- Layout.length_segment]
    exact covered seg (Finset.notMem_empty seg) (lt_of_lt_segmentCount (mem_range.1 present))
  rw [Layout.read, segments, map_some, flatten_segments, take_of_length_le]
  rw [length_map]
  exact length_le_segments layout array.length

end SegmentedArray

end VexDB.Storage
