import Mathlib.Data.List.Infix
import Mathlib.Data.List.TakeWhile
import VexDB.Storage.TopK
import VexDB.Vtl.HeapOrder

/-!
# Exact search among the rows a filter allows

`VexFilteredExact` fetches the allowed rows batch by batch, each batch from the
transaction's local storage or from the table, scores them and keeps the `k`
closest in a heap.  The heap is modelled by what `std::sort_heap` makes of it:
its front, the worst entry, is the last of the sorted list.
-/

namespace VexDB.DuckDb

open List

variable {α : Type*}

/-- A distance as the expression executor returns it. -/
inductive Score (α : Type*)
  | null
  | nan
  | number (value : α)
  deriving DecidableEq

structure Entry (α : Type*) where
  score : Score α
  row : Int
  deriving DecidableEq

section Closer

variable [LinearOrder α] (ascending : Bool)

/-- The order of the results: only plans with NULLS LAST come here. -/
def closer (a b : Entry α) : Bool :=
  match a.score, b.score with
  | .null, .null | .nan, .nan => a.row < b.row
  | .null, _ => false
  | _, .null => true
  | .nan, .number _ => !ascending
  | .number _, .nan => ascending
  | .number x, .number y =>
    if x ≠ y then if ascending then x < y else y < x else a.row < b.row

theorem closer_asymm {a b : Entry α} (first : closer ascending a b = true) :
    closer ascending b a = false := by
  obtain ⟨_ | _ | _, _⟩ := a <;> obtain ⟨_ | _ | _, _⟩ := b <;> grind [closer]

theorem closer_negTrans {a b c : Entry α} (first : closer ascending a b = false)
    (second : closer ascending b c = false) : closer ascending a c = false := by
  obtain ⟨_ | _ | _, _⟩ := a <;> obtain ⟨_ | _ | _, _⟩ := b <;> obtain ⟨_ | _ | _, _⟩ := c <;>
    grind [closer]

/-- Neither of two entries is closer only if they are the same. -/
theorem eq_of_closer_eq_false {a b : Entry α} (first : closer ascending a b = false)
    (second : closer ascending b a = false) : a = b := by
  obtain ⟨_ | _ | _, _⟩ := a <;> obtain ⟨_ | _ | _, _⟩ := b <;> grind [closer]

/-- The first entry may stand before the second. -/
def Precedes (a b : Entry α) : Prop := closer ascending b a = false

instance : DecidableRel (@Precedes α _ ascending) :=
  fun a b => inferInstanceAs (Decidable (closer ascending b a = false))

instance : Std.Total (@Precedes α _ ascending) where
  total a b := by
    cases first : closer ascending b a with
    | false => exact Or.inl first
    | true => exact Or.inr (closer_asymm ascending first)

instance : IsTrans (Entry α) (Precedes ascending) where
  trans _ _ _ first second := closer_negTrans ascending second first

instance : Std.Antisymm (@Precedes α _ ascending) where
  antisymm _ _ first second := eq_of_closer_eq_false ascending second first

end Closer

/-- Rows of one batch stand on the same side of `MAX_ROW_ID`; above it they are local to the
transaction. -/
def isLocal (maxRowId row : Int) : Bool := maxRowId <= row

/-- The batches of the fetch loop: at most a vector long, cut where the storage changes. -/
def batches (vectorSize : Nat) (maxRowId : Int) : List Int -> List (List Int)
  | [] => []
  | first :: rest =>
    let more := (rest.take (vectorSize - 1)).takeWhile fun row =>
      isLocal maxRowId row == isLocal maxRowId first
    (first :: more) :: batches vectorSize maxRowId (rest.drop more.length)
  termination_by allowed => allowed.length
  decreasing_by rw [List.length_drop, List.length_cons]; omega

/-- Fetch one batch from the storage of its first row and score it. -/
def scoreBatch (maxRowId : Int) (localScore tableScore : Int -> Score α) :
    List Int -> List (Entry α)
  | [] => []
  | first :: rest => (first :: rest).map fun row =>
    ⟨if isLocal maxRowId first then localScore row else tableScore row, row⟩

/-- The score of a row in the storage it lives in. -/
def entryOf (maxRowId : Int) (localScore tableScore : Int -> Score α) (row : Int) : Entry α :=
  ⟨if isLocal maxRowId row then localScore row else tableScore row, row⟩

section Search

variable (vectorSize : Nat) (maxRowId : Int) (localScore tableScore : Int -> Score α)

/-- The entries `VexFilteredExact` scores, in the order in which it does. -/
def scored (allowed : List Int) : List (Entry α) :=
  (batches vectorSize maxRowId allowed).flatMap (scoreBatch maxRowId localScore tableScore)

/-- `VexFilteredExact`: the entries behind the ids and distances it returns. -/
def filteredExact [LinearOrder α] (ascending : Bool) (allowed : List Int) (k : Nat) :
    List (Entry α) :=
  if min k allowed.length = 0 then []
  else (scored vectorSize maxRowId localScore tableScore allowed).foldl
    (Storage.offer (Precedes ascending) (min k allowed.length)) []

/-- No boundary between batches loses or repeats a row, and every row is scored in its own
storage. -/
theorem scored_eq (allowed : List Int) :
    scored vectorSize maxRowId localScore tableScore allowed =
      allowed.map (entryOf maxRowId localScore tableScore) := by
  induction allowed using batches.induct vectorSize maxRowId with
  | case1 => simp [scored, batches]
  | case2 first rest more ih =>
    have start : more <+: rest :=
      (List.takeWhile_prefix _).trans (List.take_prefix _ _)
    have sameStorage : ∀ row ∈ more, isLocal maxRowId row = isLocal maxRowId first := by
      intro row member
      simpa using mem_takeWhile_imp member
    have batch : scoreBatch maxRowId localScore tableScore (first :: more) =
        (first :: more).map (entryOf maxRowId localScore tableScore) := by
      refine map_congr_left fun row member => ?_
      rcases mem_cons.1 member with rfl | inside
      · rfl
      · simp only [entryOf, sameStorage row inside]
    rw [scored] at ih
    rw [scored, batches, flatMap_cons, batch, ih, <- map_append,
      cons_append, <- prefix_append_drop start]

/-- `closer` is a strict weak order, every allowed row is scored once, and the entries
returned are the first of the allowed ones in that order. -/
theorem filteredExact_eq [LinearOrder α] (ascending : Bool) (allowed : List Int) (k : Nat) :
    Vtl.StrictWeak (@closer α _ ascending) ∧
      (scored vectorSize maxRowId localScore tableScore allowed).map Entry.row = allowed ∧
      filteredExact vectorSize maxRowId localScore tableScore ascending allowed k =
        ((allowed.map (entryOf maxRowId localScore tableScore)).insertionSort
          (Precedes ascending)).take (min k allowed.length) := by
  refine ⟨⟨closer_asymm ascending, closer_negTrans ascending⟩, ?_, ?_⟩
  · rw [scored_eq, map_map]
    exact map_id' allowed
  · unfold filteredExact
    split_ifs with none
    · rw [none]
      rfl
    · rw [Storage.foldl_offer, scored_eq]

end Search

end VexDB.DuckDb
