import VexDB.Storage.Chunking
import Mathlib.Algebra.Order.BigOperators.Group.Finset

/-!
# Lists under an overlay of chunks

A list is read past its end as blank cells.  It can be overwritten anywhere, the
gap being filled with blanks, and it can be cut or extended to a size.  An
overlay keeps the chunks written since some base and shows the base, or blanks,
elsewhere; it covers a list when it shows the cells of that list.
-/

namespace VexDB.Storage
namespace Overlay

open List Nat
open Chunking (chunkAt)

variable {α : Type*} (blank : α) {list : List α} {start : Nat}

/-- A cell of a list; past the end there are blanks. -/
def cellAt (list : List α) (position : Nat) : α := list.getD position blank

/-- A list cut or extended to a size. -/
def fit (list : List α) (size : Nat) : List α :=
  list.take size ++ List.replicate (size - list.length) blank

/-- Overwrite a part of a list; a gap before the part is filled with blanks. -/
def overwrite (list : List α) (offset : Nat) (patch : List α) : List α :=
  if patch = [] then list
  else fit blank list offset ++ patch ++ list.drop (offset + patch.length)

variable {blank} {stop : Nat}

theorem cellAt_of_ge (beyond : list.length <= position) : cellAt blank list position = blank := by
  unfold cellAt
  rw [getD_eq_getElem?_getD, getElem?_eq_none beyond]
  rfl

@[simp] theorem cellAt_nil (position : Nat) : cellAt blank [] position = blank := rfl

theorem cellAt_append (left right : List α) (position : Nat) :
    cellAt blank (left ++ right) position =
      if position < left.length then cellAt blank left position
      else cellAt blank right (position - left.length) := by
  unfold cellAt
  simp only [getD_eq_getElem?_getD, getElem?_append]
  split_ifs <;> rfl

theorem cellAt_take (list : List α) (count position : Nat) :
    cellAt blank (list.take count) position =
      if position < count then cellAt blank list position else blank := by
  unfold cellAt
  simp only [getD_eq_getElem?_getD, getElem?_take]
  split_ifs <;> rfl

theorem cellAt_drop (list : List α) (count position : Nat) :
    cellAt blank (list.drop count) position = cellAt blank list (count + position) := by
  unfold cellAt
  simp only [getD_eq_getElem?_getD, getElem?_drop]

theorem cellAt_replicate (count position : Nat) :
    cellAt blank (replicate count blank) position = blank := by
  unfold cellAt
  simp only [getD_eq_getElem?_getD, getElem?_replicate]
  split_ifs <;> rfl

theorem cellAt_chunkAt (width : Nat) (list : List α) (no index : Nat) :
    cellAt blank (chunkAt width list no) index =
      if index < width then cellAt blank list (no * width + index) else blank := by
  unfold chunkAt
  rw [cellAt_take, cellAt_drop]

/-- Lists of one length with the same cells are equal. -/
theorem ext_cellAt (length : left.length = right.length)
    (cells : ∀ position, position < left.length ->
      cellAt blank left position = cellAt blank right position) : left = right := by
  apply ext_getElem length
  intro position inLeft inRight
  have same := cells position inLeft
  unfold cellAt at same
  simpa only [getD_eq_getElem?_getD, getElem?_eq_getElem inLeft,
    getElem?_eq_getElem inRight, Option.getD_some] using same

@[simp] theorem length_fit (list : List α) (size : Nat) : (fit blank list size).length = size := by
  unfold fit
  rw [length_append, length_take, length_replicate]
  omega

@[simp] theorem cellAt_fit (list : List α) (size position : Nat) :
    cellAt blank (fit blank list size) position =
      if position < size then cellAt blank list position else blank := by
  unfold fit
  rw [cellAt_append, length_take, cellAt_take, cellAt_replicate]
  split_ifs with first second third
  · rfl
  · omega
  · rw [cellAt_of_ge (by omega)]
  · rfl

theorem fit_of_le {size : Nat} (large : list.length <= size) (position : Nat) :
    cellAt blank (fit blank list size) position = cellAt blank list position := by
  rw [cellAt_fit]
  split_ifs with inside
  · rfl
  · rw [cellAt_of_ge (by omega)]

theorem fit_length (list : List α) : fit blank list list.length = list := by
  unfold fit
  rw [take_length, Nat.sub_self, replicate_zero, append_nil]

@[simp] theorem overwrite_nil (list : List α) (offset : Nat) :
    overwrite blank list offset [] = list := if_pos rfl

theorem length_overwrite (some_patch : patch ≠ []) (list : List α) (offset : Nat) :
    (overwrite blank list offset patch).length = max list.length (offset + patch.length) := by
  unfold overwrite
  rw [if_neg some_patch, length_append, length_append, length_fit, length_drop]
  omega

theorem cellAt_overwrite (list : List α) (offset : Nat) (patch : List α) (position : Nat) :
    cellAt blank (overwrite blank list offset patch) position =
      if offset <= position ∧ position < offset + patch.length
      then cellAt blank patch (position - offset) else cellAt blank list position := by
  unfold overwrite
  split_ifs with empty inside inside
  · subst empty
    rw [length_nil] at inside
    omega
  · rfl
  · rw [cellAt_append, cellAt_append, length_append, length_fit, if_pos (by omega),
      if_neg (by omega)]
  · rw [cellAt_append, cellAt_append, length_append, length_fit, cellAt_drop, cellAt_fit]
    split_ifs with first second
    · rfl
    · omega
    · congr 1
      omega

/-! ## Parts of a list -/

/-- The part of a list from one position to another. -/
def slice (list : List α) (start stop : Nat) : List α := (list.drop start).take (stop - start)

theorem length_slice (inside : stop <= list.length) :
    (slice list start stop).length = stop - start := by
  unfold slice
  rw [length_take, length_drop]
  omega

theorem cellAt_slice (list : List α) (start stop position : Nat) :
    cellAt blank (slice list start stop) position =
      if position < stop - start then cellAt blank list (start + position) else blank := by
  unfold slice
  rw [cellAt_take, cellAt_drop]

theorem slice_self (list : List α) (start : Nat) : slice list start start = [] := by
  unfold slice
  rw [Nat.sub_self, take_zero]

theorem slice_append (first : start <= middle) (second : middle <= stop) :
    slice list start middle ++ slice list middle stop = slice list start stop := by
  unfold slice
  have total : stop - start = (middle - start) + (stop - middle) := by omega
  have later : middle = start + (middle - start) := by omega
  rw [total, take_add, drop_drop, <- later]

/-- Parts next to each other, one for each chunk that a part touches. -/
theorem flatten_slices (positive : 0 < width) (list : List α)
    (ordered : start <= stop) (count : Nat) :
    ((range' (start / width) count).map fun no =>
        slice list (max start (no * width)) (min stop ((no + 1) * width))).flatten =
      slice list start (max start (min stop ((start / width + count) * width))) := by
  induction count with
  | zero =>
    have : start / width * width <= start := div_mul_le_self start width
    rw [range'_zero, map_nil, flatten_nil, add_zero]
    rw [max_eq_left (by omega), slice_self]
  | succ count step =>
    have : start < (start / width + 1) * width := by
      rw [mul_comm]
      exact lt_mul_div_succ start positive
    rw [range'_1_concat, map_append, flatten_append, step, map_singleton, flatten_singleton]
    have : (start / width + count + 1) * width = (start / width + count) * width + width := by
      rw [add_mul (start / width + count), one_mul]
    have : (start / width + 1) * width <= (start / width + count + 1) * width :=
      mul_le_mul_right width (by omega)
    generalize (start / width + count) * width = lower at *
    generalize (start / width + count + 1) * width = upper at *
    rcases lt_or_ge lower stop with _ | _
    · have middle : max start (min stop lower) = max start lower := by omega
      rw [middle, slice_append (by omega) (by omega)]
      congr 1
      omega
    · have middle : max start (min stop lower) = stop := by omega
      have last : min stop upper = stop := by omega
      rw [middle, last]
      have empty : slice list (max start lower) stop = [] := by
        unfold slice
        rw [Nat.sub_eq_zero_of_le (by omega), take_zero]
      rw [empty, append_nil]
      congr 1
      omega

/-! ## Overlays -/

variable (blank)

/-- The cells that chunks over a base show. -/
def shown (width : Nat) (chunks : Nat -> Option (List α)) (base : List α) (position : Nat) : α :=
  match chunks (position / width) with
  | some chunk => cellAt blank chunk (position % width)
  | none => cellAt blank base position

/-- The widths of any number of chunks of a size. -/
theorem sum_widths_le (width size count : Nat) :
    ∑ no ∈ Finset.range count, min width (size - no * width) <= size := by
  have : ∑ no ∈ Finset.range count, min width (size - no * width) =
      min size (count * width) := by
    induction count with
    | zero => rw [Finset.sum_range_zero, zero_mul, min_zero]
    | succ count step =>
      rw [Finset.sum_range_succ, step, add_mul, one_mul]
      omega
  omega

/-- Chunks over a base show a list, and nothing of them lies past its end. -/
structure Covers (width : Nat) (chunks : Nat -> Option (List α)) (base content : List α) :
    Prop where
  cells : ∀ position, shown blank width chunks base position = cellAt blank content position
  within : ∀ no chunk, chunks no = some chunk ->
    chunk ≠ [] ∧ chunk.length <= width ∧ no * width + chunk.length <= content.length
  base : base.length <= content.length

variable {blank}

section

variable {chunks : Nat -> Option (List α)} {base content : List α}

/-- A base alone covers itself. -/
theorem covers_base (base : List α) : Covers blank width (fun _ => none) base base :=
  ⟨fun _ => rfl, nofun, le_refl _⟩

namespace Covers

variable (covers : Covers blank width chunks base content)
include covers

/-- The cells of a dirty chunk. -/
theorem chunk (positive : 0 < width) {chunk : List α} (dirty : chunks no = some chunk)
    {index : Nat} (inside : index < width) :
    cellAt blank chunk index = cellAt blank content (no * width + index) := by
  rw [<- covers.cells]
  unfold shown
  have quotient : (no * width + index) / width = no := by
    rw [mul_comm, mul_add_div positive, div_eq_of_lt inside, add_zero]
  have remainder : (no * width + index) % width = index := by
    rw [mul_comm, mul_add_mod, mod_eq_of_lt inside]
  rw [quotient, dirty, remainder]

/-- The cells of a chunk that is not dirty. -/
theorem clean (positive : 0 < width) (unwritten : chunks no = none) (inside : index < width) :
    cellAt blank base (no * width + index) = cellAt blank content (no * width + index) := by
  rw [<- covers.cells]
  unfold shown
  have quotient : (no * width + index) / width = no := by
    rw [mul_comm, mul_add_div positive, div_eq_of_lt inside, add_zero]
  rw [quotient, unwritten]

/-- Extending the list. -/
theorem grow {size : Nat} (large : content.length <= size) :
    Covers blank width chunks base (fit blank content size) where
  cells position := (covers.cells position).trans (fit_of_le large position).symm
  within no chunk dirty := by
    obtain ⟨some_cells, narrow, _⟩ := covers.within no chunk dirty
    exact ⟨some_cells, narrow, by rw [length_fit]; omega⟩
  base := by
    rw [length_fit]
    exact covers.base.trans large

section

variable (positive : 0 < width)
include positive

/-- Writing one chunk: the list changes inside the chunk only. -/
theorem write {other : List α} (length : other.length = content.length) {chunk : List α}
    (some_cells : chunk ≠ []) (narrow : chunk.length <= width)
    (inside : no * width + chunk.length <= content.length) (after : Nat -> Option (List α))
    (written : ∀ number, after number = if number = no then some chunk else chunks number)
    (here : ∀ index, index < width ->
      cellAt blank chunk index = cellAt blank other (no * width + index))
    (elsewhere : ∀ position, position / width ≠ no ->
      cellAt blank other position = cellAt blank content position)
    : Covers blank width after base other where
  cells position := by
    unfold shown
    rw [written]
    split_ifs with same
    · dsimp only
      rw [here _ (mod_lt _ positive), <- same, mul_comm, div_add_mod]
    · rw [elsewhere position same]
      exact covers.cells position
  within number found dirty := by
    rw [written] at dirty
    rw [length]
    split_ifs at dirty with same
    · subst same
      cases dirty
      exact ⟨some_cells, narrow, inside⟩
    · exact covers.within number found dirty
  base := length ▸ covers.base

/-- Cutting the list: chunks past the end go, and the chunk at the end is cut. -/
theorem cut {size : Nat} {after : Nat -> Option (List α)}
    (kept : ∀ no, (no + 1) * width <= size -> after no = chunks no)
    (boundary : ∀ no, no * width < size → size < (no + 1) * width → ∃ chunk, after no = some chunk ∧
      chunk.length = size - no * width ∧ ∀ index, index < size - no * width ->
      cellAt blank chunk index = cellAt blank content (no * width + index))
    (gone : ∀ no, size <= no * width -> after no = none) :
    Covers blank width after (base.take size) (fit blank content size) where
  cells position := by
    have : position < (position / width + 1) * width := by
      rw [mul_comm]
      exact lt_mul_div_succ position positive
    have split : position / width * width + position % width = position := by
      rw [mul_comm]
      exact div_add_mod position width
    rw [cellAt_fit]
    unfold shown
    rcases lt_or_ge (position / width * width) size with begins | past
    · rcases lt_or_ge size ((position / width + 1) * width) with ends | whole
      · obtain ⟨chunk, found, length, cells⟩ := boundary _ begins ends
        rw [found]
        dsimp only
        split_ifs with inside
        · rw [cells _ (by omega), split]
        · rw [cellAt_of_ge (by omega)]
      · rw [kept _ whole, if_pos (by omega), <- covers.cells]
        unfold shown
        cases chunks (position / width) with
        | none =>
          rw [cellAt_take, if_pos (by omega)]
        | some => rfl
    · rw [gone _ past, if_neg (by omega)]
      rw [cellAt_take, if_neg (by omega)]
  within no chunk dirty := by
    rw [length_fit]
    have : (no + 1) * width = no * width + width := by rw [add_mul, one_mul]
    rcases lt_or_ge (no * width) size with begins | past
    · rcases lt_or_ge size ((no + 1) * width) with ends | whole
      · obtain ⟨_, found, length, _⟩ := boundary no begins ends
        cases found.symm.trans dirty
        refine ⟨fun empty => ?_, by omega, by omega⟩
        rw [empty, length_nil] at length
        omega
      · rw [kept no whole] at dirty
        obtain ⟨some_cells, narrow, _⟩ := covers.within no chunk dirty
        exact ⟨some_cells, narrow, by omega⟩
    · rw [gone no past] at dirty
      cases dirty
  base := by
    rw [length_fit, length_take]
    omega

end

/-- The chunks hold no more cells than the list. -/
theorem total_le {rows : List (Nat × List α)} (distinct : (rows.map Prod.fst).Nodup)
    (stored : ∀ row ∈ rows, chunks row.1 = some row.2) :
    (rows.map fun row => row.2.length).sum <= content.length := by
  have lengths : (rows.map fun row => row.2.length) =
      (rows.map Prod.fst).map fun no => ((chunks no).map length).getD 0 := by
    rw [map_map]
    apply map_congr_left
    intro row member
    simp only [Function.comp, stored row member, Option.map_some, Option.getD_some]
  rw [lengths, <- sum_toFinset _ distinct]
  calc ∑ no ∈ (rows.map Prod.fst).toFinset, ((chunks no).map length).getD 0
      <= ∑ no ∈ (rows.map Prod.fst).toFinset, min width (content.length - no * width) := by
        apply Finset.sum_le_sum
        intro no member
        obtain ⟨row, inRows, rfl⟩ := mem_map.1 (mem_toFinset.1 member)
        obtain ⟨_, narrow, inside⟩ := covers.within _ _ (stored row inRows)
        rw [stored row inRows, Option.map_some, Option.getD_some]
        omega
    _ <= ∑ no ∈ Finset.range (content.length + 1), min width (content.length - no * width) := by
        apply Finset.sum_le_sum_of_subset
        intro no member
        obtain ⟨row, inRows, rfl⟩ := mem_map.1 (mem_toFinset.1 member)
        obtain ⟨some_cells, _, _⟩ := covers.within _ _ (stored row inRows)
        have := length_pos_iff.2 some_cells
        have : row.1 <= row.1 * width := Nat.le_mul_of_pos_right _ (by omega)
        rw [Finset.mem_range]
        omega
    _ <= content.length := sum_widths_le width content.length _

end Covers

end

end Overlay
end VexDB.Storage
