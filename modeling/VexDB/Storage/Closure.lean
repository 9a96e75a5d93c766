import Mathlib.Data.List.Infix
import Mathlib.Data.List.Lattice
import Mathlib.Data.List.Nodup
import Mathlib.Data.List.Perm.Subperm

/-!
# Reachability by rounds

A recursive query over a finite relation collects what it has found so far and
adds, round by round, what one more edge leads to.  A round that adds nothing is
the last one, and every other round adds a target, so one more round than there
are edges is enough.
-/

namespace VexDB.Storage

open List Function

variable {α : Type*} [DecidableEq α] {found : List α} {edges : List (α × α)} {property : α -> Prop}

/-- One round: follow every edge that leaves what was found. -/
def absorb (edges : List (α × α)) (found : List α) : List α :=
  edges.foldl (fun found edge => if edge.1 ∈ found then found.insert edge.2 else found) found

/-- What is reached from some elements. -/
def closure (edges : List (α × α)) (start : List α) : List α :=
  (absorb edges)^[edges.length + 1] start

theorem suffix_absorb (edges : List (α × α)) (found : List α) : found <:+ absorb edges found := by
  unfold absorb
  induction edges generalizing found with
  | nil => exact suffix_refl _
  | cons edge edges step =>
    rw [foldl_cons]
    refine List.IsSuffix.trans ?_ (step _)
    split_ifs
    · exact suffix_insert _ _
    · exact suffix_refl _

theorem mem_absorb_of_edge (member : edge ∈ edges) (left : edge.1 ∈ found) :
    edge.2 ∈ absorb edges found := by
  induction edges generalizing found with
  | nil => cases member
  | cons other edges step =>
    unfold absorb
    rw [foldl_cons]
    rcases mem_cons.1 member with rfl | later
    · rw [if_pos left]
      exact (suffix_absorb edges _).subset mem_insert_self
    · apply step later
      split_ifs
      · exact mem_insert_of_mem left
      · exact left

/-- What a round finds was found before or is the end of an edge from something found. -/
theorem mem_absorb (member : value ∈ absorb edges found) :
    value ∈ found ∨ ∃ source ∈ absorb edges found, (source, value) ∈ edges := by
  induction edges generalizing found with
  | nil => exact .inl member
  | cons edge edges step =>
    unfold absorb at member ⊢
    rw [foldl_cons] at member ⊢
    rcases step member with early | ⟨source, reached, edgeMember⟩
    · split_ifs at early ⊢ with leaves
      · rcases mem_insert_iff.1 early with rfl | before
        · exact .inr ⟨edge.1, (suffix_absorb edges _).subset (mem_insert_of_mem leaves),
            mem_cons_self⟩
        · exact .inl before
      · exact .inl early
    · exact .inr ⟨source, reached, mem_cons_of_mem _ edgeMember⟩

theorem nodup_absorb (distinct : found.Nodup) : (absorb edges found).Nodup := by
  unfold absorb
  induction edges generalizing found with
  | nil => exact distinct
  | cons edge edges step =>
    rw [foldl_cons]
    apply step
    split_ifs
    · exact distinct.insert
    · exact distinct

section

variable (keeps : ∀ source target, (source, target) ∈ edges -> property source -> property target)
include keeps

/-- A property of the start that edges keep holds of everything a round finds. -/
theorem absorb_induction (holds : ∀ value ∈ found, property value) :
    ∀ value ∈ absorb edges found, property value := by
  unfold absorb
  induction edges generalizing found with
  | nil => exact holds
  | cons edge edges step =>
    rw [foldl_cons]
    apply step fun source target member => keeps source target (mem_cons_of_mem _ member)
    intro _ member
    split_ifs at member with leaves
    · rcases mem_insert_iff.1 member with rfl | before
      · exact keeps edge.1 edge.2 mem_cons_self (holds _ leaves)
      · exact holds _ before
    · exact holds _ member

theorem iterate_absorb_induction (holds : ∀ value ∈ start, property value)
    (rounds : Nat) : ∀ value ∈ (absorb edges)^[rounds] start, property value := by
  induction rounds with
  | zero => exact holds
  | succ rounds step =>
    rw [iterate_succ_apply']
    exact absorb_induction keeps step

end

section

variable {edges : List (α × α)} {start : List α}

theorem nodup_iterate_absorb (distinct : start.Nodup) (rounds : Nat) :
    ((absorb edges)^[rounds] start).Nodup := by
  induction rounds with
  | zero => exact distinct
  | succ rounds step =>
    rw [iterate_succ_apply']
    exact nodup_absorb step

variable (edges start) in
/-- A round is the last one or makes the list longer. -/
theorem iterate_absorb_grows (rounds : Nat) :
    absorb edges ((absorb edges)^[rounds] start) = (absorb edges)^[rounds] start ∨
      start.length + rounds + 1 <= (absorb edges ((absorb edges)^[rounds] start)).length := by
  induction rounds with
  | zero =>
    have suffix := suffix_absorb edges start
    rcases Nat.lt_or_ge start.length (absorb edges start).length with longer | equal
    · exact .inr longer
    · exact .inl (suffix.eq_of_length_le equal).symm
  | succ rounds step =>
    rw [iterate_succ_apply']
    rcases step with stable | longer
    · exact .inl (congrArg _ stable)
    · have suffix := suffix_absorb edges (absorb edges ((absorb edges)^[rounds] start))
      rcases Nat.lt_or_ge (absorb edges ((absorb edges)^[rounds] start)).length
          (absorb edges (absorb edges ((absorb edges)^[rounds] start))).length with _ | equal
      · exact .inr (by omega)
      · exact .inl (suffix.eq_of_length_le equal).symm

variable (edges) in
theorem length_iterate_absorb_le (distinct : start.Nodup) (rounds : Nat) :
    ((absorb edges)^[rounds] start).length <= start.length + edges.length := by
  have within : ∀ value ∈ (absorb edges)^[rounds] start, value ∈ start ++ edges.map Prod.snd := by
    apply iterate_absorb_induction
    · intro _ _ member _
      exact mem_append_right _ (mem_map_of_mem member)
    · intro _ member
      exact mem_append_left _ member
  have bound :=
    (subperm_of_subset (nodup_iterate_absorb distinct rounds) within).length_le
  simpa using bound

/-- The rounds of a closure are enough. -/
theorem absorb_closure (distinct : start.Nodup) :
    absorb edges (closure edges start) = closure edges start := by
  rcases iterate_absorb_grows edges start (edges.length + 1) with stable | _
  · exact stable
  · have bound := length_iterate_absorb_le edges distinct (edges.length + 1 + 1)
    rw [iterate_succ_apply'] at bound
    omega

/-- Edges do not lead out of a closure. -/
theorem mem_closure_of_edge (distinct : start.Nodup)
    (edge : (source, target) ∈ edges) (member : source ∈ closure edges start) :
    target ∈ closure edges start := by
  rw [<- absorb_closure distinct]
  exact mem_absorb_of_edge edge member

/-- Everything in a closure beyond its start is the end of an edge inside it. -/
theorem mem_closure_cases (member : value ∈ closure edges start) :
    value ∈ start ∨ ∃ source ∈ closure edges start, (source, value) ∈ edges := by
  unfold closure at member ⊢
  generalize edges.length + 1 = rounds at member ⊢
  induction rounds generalizing value with
  | zero => exact .inl member
  | succ rounds step =>
    rw [iterate_succ_apply'] at member ⊢
    rcases mem_absorb member with before | found
    · rcases step before with first | ⟨source, reached, edge⟩
      · exact .inl first
      · exact .inr ⟨source, (suffix_absorb edges _).subset reached, edge⟩
    · exact .inr found

end

end VexDB.Storage
