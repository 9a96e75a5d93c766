import Mathlib.Data.List.Sort

/-!
# The first elements of a stream

A bounded collection that takes every element while there is room and then
trades its last one for a better newcomer ends with the first elements of the
sorted stream.
-/

namespace VexDB.Storage

open List

variable {α : Type*} (r : α -> α -> Prop) [DecidableRel r]

/-- Offer an element to a sorted collection of at most `limit` elements. -/
def offer (limit : Nat) (kept : List α) (element : α) : List α :=
  if kept.length < limit then kept.orderedInsert r element
  else match kept.getLast? with
    | some worst => if r worst element then kept else kept.dropLast.orderedInsert r element
    | none => kept

/-- An element only pushes others out at the end. -/
theorem take_orderedInsert_take (limit : Nat) (element : α) (elements : List α) :
    ((elements.take limit).orderedInsert r element).take limit =
      (elements.orderedInsert r element).take limit := by
  induction elements generalizing limit with
  | nil => simp
  | cons head rest ih =>
    cases limit with
    | zero => rfl
    | succ limit =>
      by_cases first : r element head
      · cases limit <;> simp [first, take_take]
      · simp [first, ih]

variable [Std.Total r] [IsTrans α r] [Std.Antisymm r]

/-- Two sorted lists of the same elements are one. -/
theorem orderedInsert_eq (ordered : elements.Pairwise r)
    (sortedOrdered : sorted.Pairwise r) (perm : (element :: elements).Perm sorted) :
    elements.orderedInsert r element = sorted :=
  ((perm_orderedInsert r element elements).trans perm).eq_of_pairwise'
    (ordered.orderedInsert element elements) sortedOrdered

theorem offer_eq (element : α) (ordered : kept.Pairwise r) (bounded : kept.length <= limit) :
    offer r limit kept element = (kept.orderedInsert r element).take limit := by
  unfold offer
  split_ifs with room
  · rw [take_of_length_le (by rw [orderedInsert_length]; exact room)]
  · have full : kept.length = limit := Nat.le_antisymm bounded (Nat.le_of_not_lt room)
    rcases eq_nil_or_concat' kept with rfl | ⟨init, worst, rfl⟩
    · simp [<- full]
    · have initOrdered := (pairwise_append.1 ordered).1
      have beforeWorst : ∀ other ∈ init, r other worst := fun other member =>
        (pairwise_append.1 ordered).2.2 other member worst (by simp)
      simp only [getLast?_append, getLast?_singleton, Option.some_or, dropLast_concat]
      split_ifs with stays
      · have last : (init ++ [worst]).orderedInsert r element = init ++ [worst] ++ [element] := by
          refine orderedInsert_eq r ordered ?_ (perm_append_singleton _ _).symm
          refine pairwise_append.2 ⟨ordered, by simp, fun other member _ new => ?_⟩
          rw [mem_singleton.1 new]
          rcases mem_append.1 member with inside | isWorst
          · exact trans_of r (beforeWorst other inside) stays
          · rwa [mem_singleton.1 isWorst]
        rw [last, <- full, take_left]
      · have replaced : (init ++ [worst]).orderedInsert r element =
            init.orderedInsert r element ++ [worst] := by
          refine orderedInsert_eq r ordered ?_ ?_
          · refine pairwise_append.2
              ⟨initOrdered.orderedInsert element init, by simp, fun other member _ isWorst => ?_⟩
            rw [mem_singleton.1 isWorst]
            rcases (mem_orderedInsert r).1 member with rfl | inside
            · exact (total_of r other worst).resolve_right stays
            · exact beforeWorst other inside
          · exact ((perm_orderedInsert r element init).append_right [worst]).symm
        rw [replaced, <- full, take_left' (by simp [orderedInsert_length])]

/-- Offering a whole stream keeps its first elements, in order. -/
theorem foldl_offer (limit : Nat) (elements : List α) :
    elements.foldl (offer r limit) [] = (elements.insertionSort r).take limit := by
  have run : ∀ sorted : List α, sorted.Pairwise r ->
      ∃ all : List α, all.Pairwise r ∧ all.Perm (sorted ++ elements) ∧
        elements.foldl (offer r limit) (sorted.take limit) = all.take limit := by
    induction elements with
    | nil => exact fun sorted ordered => ⟨sorted, ordered, by simp, rfl⟩
    | cons element rest ih =>
      intro sorted ordered
      obtain ⟨all, allOrdered, perm, kept⟩ := ih
        (sorted.orderedInsert r element) (ordered.orderedInsert element sorted)
      refine ⟨all, allOrdered, perm.trans ?_, ?_⟩
      · exact ((perm_orderedInsert r element sorted).append_right rest).trans
          perm_middle.symm
      · rw [foldl_cons, offer_eq r element (ordered.sublist (take_sublist _ _))
          (length_take_le _ _), take_orderedInsert_take, kept]
  obtain ⟨all, allOrdered, perm, kept⟩ := run [] List.Pairwise.nil
  rw [take_nil] at kept
  rw [kept, (perm.trans (perm_insertionSort r elements).symm).eq_of_pairwise' allOrdered
    (pairwise_insertionSort r elements)]

end VexDB.Storage
