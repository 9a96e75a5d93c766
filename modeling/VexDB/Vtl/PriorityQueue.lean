import Mathlib.Data.List.Perm.Basic

/-!
# The 4-ary heap of the container library

`PriorityQueue` keeps its elements in one array and restores the heap order by
swapping.  Which element leaves first depends on the order of the swaps, so the
sift loops are modelled as they run; what the users of the queue rely on is that
no operation loses or invents an element.
-/

namespace VexDB.Vtl
namespace PriorityQueue

open Array

variable {α : Type*} (comp : α -> α -> Bool) {data : Array α} {root : α}

/-- The number of children of a heap node. -/
def arity : Nat := 4

/-- Position of the parent. -/
def parent (idx : Nat) : Nat := (idx - 1) / arity

/-- Position of the first child. -/
def firstChild (idx : Nat) : Nat := arity * idx + 1

/-- Compare two positions of the array. -/
def before (data : Array α) (left right : Nat) : Bool :=
  match data[left]?, data[right]? with
  | some x, some y => comp x y
  | _, _ => false

/-- Move an element up while it precedes its parent.  The position shrinks in
every round, so `idx` rounds are enough. -/
def siftUp : Nat -> Array α -> Nat -> Array α
  | 0, data, _ => data
  | fuel + 1, data, idx =>
    if 0 < idx ∧ before comp data idx (parent idx) then
      siftUp fuel (data.swapIfInBounds idx (parent idx)) (parent idx)
    else data

/-- The child below `limit` that should take the place of `idx`, or `idx` itself. -/
def bestChild (data : Array α) (idx limit : Nat) : Nat :=
  (List.range arity).foldl
    (fun best offset =>
      if firstChild idx + offset < limit ∧ before comp data (firstChild idx + offset) best then
        firstChild idx + offset
      else best)
    idx

/-- Move an element down within the first `limit` positions.  The position grows
in every round, so `limit` rounds are enough. -/
def siftDownInRange : Nat -> Array α -> Nat -> Nat -> Array α
  | 0, data, _, _ => data
  | fuel + 1, data, idx, limit =>
    if bestChild comp data idx limit = idx then data
    else siftDownInRange fuel (data.swapIfInBounds idx (bestChild comp data idx limit))
      (bestChild comp data idx limit) limit

/-- Move an element down within the whole array. -/
def siftDown (data : Array α) (idx : Nat) : Array α :=
  siftDownInRange comp data.size data idx data.size

/-- The element at the root. -/
def top (data : Array α) : Option α := data[0]?

/-- Add an element. -/
def push (data : Array α) (value : α) : Array α :=
  siftUp comp data.size (data.push value) data.size

/-- Remove the root: the last element takes its place and sifts down. -/
def pop (data : Array α) : Array α :=
  if data.size <= 1 then data.pop
  else siftDown comp (data.swapIfInBounds 0 (data.size - 1)).pop 0

/-- Heap sort: swap the root behind the unsorted part, round by round. -/
def sort (data : Array α) : Array α :=
  (List.range (data.size - 1)).foldl
    (fun data round =>
      let lastUnsorted := data.size - 1 - round
      siftDownInRange comp lastUnsorted (data.swapIfInBounds 0 lastUnsorted) 0 lastUnsorted)
    data

theorem swapIfInBounds_perm (data : Array α) (left right : Nat) :
    (data.swapIfInBounds left right).Perm data := by
  rw [swapIfInBounds]
  split
  · split
    · exact swap_perm _ _
    · exact Array.Perm.refl _
  · exact Array.Perm.refl _

theorem siftUp_perm (fuel : Nat) (data : Array α) (idx : Nat) :
    (siftUp comp fuel data idx).Perm data := by
  induction fuel generalizing data idx with
  | zero => exact Array.Perm.refl _
  | succ fuel ih =>
    rw [siftUp]
    split
    · exact (ih _ _).trans (swapIfInBounds_perm _ _ _)
    · exact Array.Perm.refl _

theorem siftDownInRange_perm (fuel : Nat) (data : Array α) (idx limit : Nat) :
    (siftDownInRange comp fuel data idx limit).Perm data := by
  induction fuel generalizing data idx with
  | zero => exact Array.Perm.refl _
  | succ fuel ih =>
    rw [siftDownInRange]
    split
    · exact Array.Perm.refl _
    · exact (ih _ _).trans (swapIfInBounds_perm _ _ _)

/-- Pushing adds the element and nothing else. -/
theorem push_perm (data : Array α) (value : α) :
    (push comp data value).toList.Perm (value :: data.toList) := by
  have sifted := perm_iff_toList_perm.1 (siftUp_perm comp data.size (data.push value) data.size)
  rw [toList_push] at sifted
  exact sifted.trans (List.perm_append_singleton _ _)

/-- Dropping the last element of a nonempty array. -/
private theorem cons_pop_perm (found : data.back? = some last) :
    (last :: data.pop.toList).Perm data.toList := by
  obtain ⟨_, rfl⟩ := back?_eq_some_iff.1 found
  rw [pop_push, toList_push]
  exact (List.perm_append_singleton _ _).symm

/-- Popping removes the root and nothing else. -/
theorem pop_perm (found : top data = some root) :
    (root :: (pop comp data).toList).Perm data.toList := by
  obtain ⟨inBounds, isRoot⟩ := Array.getElem?_eq_some_iff.1 found
  rw [pop]
  split
  next single =>
    refine cons_pop_perm ?_
    rw [back?_eq_getElem?, Nat.sub_eq_zero_of_le single]
    exact found
  next several =>
    have swapped := perm_iff_toList_perm.1 (swapIfInBounds_perm data 0 (data.size - 1))
    have sifted := perm_iff_toList_perm.1 (siftDownInRange_perm comp
      (data.swapIfInBounds 0 (data.size - 1)).pop.size
      (data.swapIfInBounds 0 (data.size - 1)).pop 0
      (data.swapIfInBounds 0 (data.size - 1)).pop.size)
    refine ((sifted.cons root).trans (cons_pop_perm ?_)).trans swapped
    have lastInBounds : data.size - 1 < data.size := by omega
    rw [back?_eq_getElem?, size_swapIfInBounds, swapIfInBounds_def,
      dif_pos inBounds, dif_pos lastInBounds, getElem?_swap]
    simp [isRoot]

/-- Sorting keeps the elements. -/
theorem sort_perm (data : Array α) : (sort comp data).toList.Perm data.toList := by
  rw [sort]
  generalize List.range (data.size - 1) = rounds
  induction rounds generalizing data with
  | nil => exact List.Perm.refl _
  | cons round rounds ih =>
    refine (ih _).trans ?_
    exact perm_iff_toList_perm.1
      ((siftDownInRange_perm comp _ _ _ _).trans (swapIfInBounds_perm _ _ _))

theorem top_eq_none_iff : top data = none ↔ data.size = 0 := by
  rw [top, getElem?_eq_none_iff]
  omega

@[simp] theorem size_push (data : Array α) (value : α) :
    (push comp data value).size = data.size + 1 := by
  have lengths := (push_perm comp data value).length_eq
  simpa using lengths

theorem size_pop (found : top data = some root) : (pop comp data).size + 1 = data.size := by
  have lengths := (pop_perm comp found).length_eq
  simpa using lengths

@[simp] theorem size_sort (data : Array α) : (sort comp data).size = data.size := by
  have lengths := (sort_perm comp data).length_eq
  simpa using lengths

@[simp] theorem mem_push : x ∈ push comp data value ↔ x = value ∨ x ∈ data := by
  rw [<- mem_toList_iff, (push_perm comp data value).mem_iff, List.mem_cons, mem_toList_iff]

theorem mem_of_mem_pop (present : x ∈ pop comp data) : x ∈ data := by
  cases found : top data with
  | none =>
    have empty := size_eq_zero_iff.1 (top_eq_none_iff.1 found)
    rw [empty] at present
    simp [pop] at present
  | some =>
    rw [<- mem_toList_iff, <- (pop_perm comp found).mem_iff, List.mem_cons, mem_toList_iff]
    exact Or.inr present

theorem mem_of_top (found : top data = some root) : root ∈ data :=
  mem_of_getElem? found

end PriorityQueue
end VexDB.Vtl
