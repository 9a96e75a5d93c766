import Mathlib.Data.Finset.Max

/-!
# Ranks from the top

The rank of an element in a finite set counts the elements that are not below it.
Whoever deletes only elements below the first few leaves those first few first.
-/

namespace VexDB.Storage

open Finset

variable {α : Type*} [LinearOrder α]

/-- The number of elements of a set that are not below an element. -/
def rankIn (set : Finset α) (element : α) : ℕ := (set.filter (element <= ·)).card

/-- A subset with all elements up to some rank ranks its elements within that rank as the
set does. -/
theorem rankIn_le_iff {kept set : Finset α} (subset : kept ⊆ set)
    (top : ∀ other ∈ set, rankIn set other <= limit -> other ∈ kept) (member : element ∈ kept) :
    rankIn kept element <= limit ↔ rankIn set element <= limit := by
  constructor
  · intro within
    by_cases deleted : (set.filter fun other => element <= other ∧ other ∉ kept).Nonempty
    · -- The largest deleted element has fewer elements above it than the rank allows.
      exfalso
      obtain ⟨largest, isLargest, above⟩ := exists_max_image _ id deleted
      simp only [mem_filter] at isLargest above
      obtain ⟨inSet, notBelow, gone⟩ := isLargest
      refine gone (top largest inSet (le_trans ?_ within))
      have covered : set.filter (largest <= ·) ⊆
          insert largest ((kept.filter (element <= ·)).erase element) := by
        intro other found
        obtain ⟨otherIn, otherAbove⟩ := mem_filter.1 found
        by_cases same : other = largest
        · exact same ▸ mem_insert_self _ _
        · have stays : other ∈ kept := by
            by_contra otherGone
            exact same (le_antisymm
              (above other ⟨otherIn, notBelow.trans otherAbove, otherGone⟩) otherAbove)
          refine mem_insert_of_mem (mem_erase.2 ⟨?_, ?_⟩)
          · rintro rfl
            exact same (le_antisymm notBelow otherAbove)
          · exact mem_filter.2 ⟨stays, notBelow.trans otherAbove⟩
      have own : element ∈ kept.filter (element <= ·) := mem_filter.2 ⟨member, le_rfl⟩
      calc rankIn set largest ≤ (insert largest ((kept.filter (element ≤ ·)).erase element)).card :=
            card_le_card covered
        _ <= ((kept.filter (element <= ·)).erase element).card + 1 := card_insert_le _ _
        _ = rankIn kept element := card_erase_add_one own
    · have same : set.filter (element <= ·) ⊆ kept.filter (element <= ·) := by
        intro other found
        obtain ⟨otherIn, otherAbove⟩ := mem_filter.1 found
        refine mem_filter.2 ⟨?_, otherAbove⟩
        by_contra gone
        exact deleted ⟨other, mem_filter.2 ⟨otherIn, otherAbove, gone⟩⟩
      exact (card_le_card same).trans within
  · exact (card_le_card (filter_subset_filter _ subset)).trans

end VexDB.Storage
