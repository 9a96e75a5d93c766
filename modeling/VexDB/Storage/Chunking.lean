import Mathlib.Data.List.Basic
import Mathlib.Tactic.Ring

/-!
# Lists in chunks

A list is cut into chunks of a fixed width, the last of which may be shorter.
A list is determined by its chunks, and chunks of the right lengths are the
chunks of their concatenation.
-/

namespace VexDB.Storage
namespace Chunking

open List Nat

variable {α : Type*}

/-- One chunk of a list. -/
def chunkAt (width : Nat) (list : List α) (no : Nat) : List α :=
  (list.drop (no * width)).take width

/-- The number of chunks of a list of some length. -/
def chunkTotal (width size : Nat) : Nat := (size + width - 1) / width

theorem length_chunkAt (width : Nat) (list : List α) (no : Nat) :
    (chunkAt width list no).length = min width (list.length - no * width) := by
  unfold chunkAt
  rw [length_take, length_drop]

theorem getElem?_chunkAt (width : Nat) (list : List α) (no index : Nat) :
    (chunkAt width list no)[index]? =
      if index < width then list[no * width + index]? else none := by
  unfold chunkAt
  rw [getElem?_take]
  split_ifs
  · rw [getElem?_drop]
  · rfl

section

variable {width size : Nat} (positive : 0 < width)
include positive

/-- A number is below the number of chunks when its chunk is not empty. -/
theorem lt_chunkTotal (size no : Nat) : no < chunkTotal width size ↔ no * width < size := by
  unfold chunkTotal
  rw [lt_iff_add_one_le, le_div_iff_mul_le positive, add_mul]
  omega

theorem chunkTotal_pos (some_size : 0 < size) : 0 < chunkTotal width size := by
  rw [lt_chunkTotal positive, zero_mul]
  exact some_size

theorem chunkTotal_sub (some_size : 0 < size) :
    chunkTotal width size = chunkTotal width (size - width) + 1 := by
  apply le_antisymm
  · by_contra more
    have last := (lt_chunkTotal positive size (chunkTotal width (size - width) + 1)).1 (by omega)
    have none_left := mt (lt_chunkTotal positive (size - width)
      (chunkTotal width (size - width))).2 (lt_irrefl _)
    rw [add_mul] at last
    omega
  · rcases Nat.eq_zero_or_pos (chunkTotal width (size - width)) with none_left | _
    · rw [none_left]
      exact chunkTotal_pos positive some_size
    · have last := (lt_chunkTotal positive (size - width)
        (chunkTotal width (size - width) - 1)).1 (by omega)
      have next : chunkTotal width (size - width) < chunkTotal width size := by
        rw [lt_chunkTotal positive]
        rw [Nat.sub_mul, Nat.one_mul] at last
        omega
      exact next

/-- Lists with the same chunks are equal. -/
theorem ext_chunkAt {left right : List α}
    (same : ∀ no, chunkAt width left no = chunkAt width right no) : left = right := by
  apply ext_getElem?
  intro index
  have within := mod_lt index positive
  have read := congrArg (fun chunk => chunk[index % width]?) (same (index / width))
  simp only [getElem?_chunkAt, within, mul_comm _ width, div_add_mod] at read
  exact read

/-- Chunks of the right lengths are the chunks of their concatenation. -/
theorem chunkAt_flatten {pieces : List (List α)} (count : pieces.length = chunkTotal width size)
    (lengths : ∀ no piece, pieces[no]? = some piece ->
      piece.length = min width (size - no * width)) :
    pieces.flatten.length = size ∧
      ∀ no, chunkAt width pieces.flatten no = (pieces[no]?).getD [] := by
  induction pieces generalizing size with
  | nil =>
    have empty : size = 0 := by
      by_contra some_size
      have := chunkTotal_pos positive (pos_of_ne_zero some_size)
      rw [length_nil] at count
      omega
    subst empty
    exact ⟨rfl, fun no => by simp [chunkAt]⟩
  | cons piece pieces step =>
    have some_size : 0 < size := by
      by_contra empty
      obtain rfl : size = 0 := by omega
      have zero : chunkTotal width 0 = 0 := by
        exact Nat.div_eq_of_lt (by omega)
      rw [zero] at count
      cases count
    have first : piece.length = min width size := by simpa using lengths 0 piece rfl
    have restCount : pieces.length = chunkTotal width (size - width) := by
      rw [chunkTotal_sub positive some_size, length_cons] at count
      omega
    obtain ⟨restLength, restChunks⟩ := step restCount fun no other found => by
      rw [lengths (no + 1) other (by simpa using found), add_mul]
      omega
    refine ⟨?_, ?_⟩
    · rw [flatten_cons, length_append, first, restLength]
      omega
    · intro no
      cases no with
      | zero =>
        rw [flatten_cons]
        unfold chunkAt
        rw [zero_mul, drop_zero]
        -- A first chunk shorter than the width is the only one.
        rcases lt_or_ge size width with short | long
        · have none_left : pieces = [] := by
            apply eq_nil_of_length_eq_zero
            rw [restCount, Nat.sub_eq_zero_of_le (Nat.le_of_lt short)]
            exact Nat.div_eq_of_lt (by omega)
          subst none_left
          rw [flatten_nil, append_nil, take_of_length_le (by omega)]
          rfl
        · have whole : piece.length = width := by omega
          rw [<- whole, take_left]
          rfl
      | succ no =>
        rw [getElem?_cons_succ, <- restChunks no, flatten_cons]
        unfold chunkAt
        rcases lt_or_ge size width with short | long
        · have none_left : pieces.flatten = [] := by
            apply eq_nil_of_length_eq_zero
            omega
          rw [none_left, append_nil, drop_eq_nil_of_le, drop_nil]
          rw [first, add_mul]
          omega
        · have whole : piece.length = width := by omega
          have position : (no + 1) * width = piece.length + no * width := by
            rw [whole, add_mul]
            omega
          rw [position, drop_append, Nat.add_sub_cancel_left,
            drop_eq_nil_of_le (Nat.le_add_right _ _), nil_append]

/-- The concatenation of the chunks of a list is the list. -/
theorem flatten_chunkAt (list : List α) :
    ((range (chunkTotal width list.length)).map (chunkAt width list)).flatten = list := by
  have lengths : ∀ no piece,
      ((range (chunkTotal width list.length)).map (chunkAt width list))[no]? = some piece ->
        piece.length = min width (list.length - no * width) := by
    intro no _ found
    simp only [getElem?_map, Option.map_eq_some_iff] at found
    obtain ⟨_, at_no, rfl⟩ := found
    obtain ⟨inside, rfl⟩ := List.getElem?_eq_some_iff.1 at_no
    rw [List.getElem_range, length_chunkAt]
  obtain ⟨_, chunks⟩ := chunkAt_flatten positive (by simp) lengths
  apply ext_chunkAt positive
  intro no
  rw [chunks no, getElem?_map]
  rcases lt_or_ge no (chunkTotal width list.length) with inside | outside
  · rw [getElem?_range inside]
    rfl
  · rw [getElem?_eq_none (by simpa using outside)]
    have : ¬ no * width < list.length :=
      mt (lt_chunkTotal positive list.length no).2 (by omega)
    unfold chunkAt
    rw [drop_eq_nil_of_le (by omega), take_nil]
    rfl

end

end Chunking
end VexDB.Storage
