import VexDB.VectorBuffer.Cache

/-!
# The slots of the vector buffer

The pool of an element size, the slots of a block and the address of a slot come from three
formulas.  The pool array is sized for a step of 16, also where the step is 8.
-/

namespace VexDB.VectorBuffer

open Nat

/-- The length of the pool array. -/
def nVecPool : Nat := (16384 + 16 - 1) / 16 + 1

namespace Arch

variable (arch : Arch) (dim elemSize block offset : Nat)

/-- The mask of `get_aligned_dim` clears the remainder. -/
def getAlignedDim : Nat :=
  (dim + arch.vectorAlignedSize / 4 - 1) / (arch.vectorAlignedSize / 4) *
    (arch.vectorAlignedSize / 4)

/-- The first byte of a slot. -/
def getVector : Nat := (block * (vecBlockSize / 4) + offset * arch.getAlignedDim dim) * 4

/-- The pool of an element size. -/
def pool : Nat := arch.getPoolOffset (getEffectiveDim elemSize)

/-- The slots of a block of the pool. -/
def slots : Nat := arch.getPoolMaxOffset (arch.pool elemSize)

/-- The first byte of an element in a slot. -/
def slot : Nat := arch.getVector (getEffectiveDim elemSize) block offset

variable {arch block offset} (known : arch = x86 ∨ arch = arm)
include known

theorem slot_eq : arch.slot elemSize block offset =
    block * vecBlockSize + offset * (arch.pool elemSize * arch.vectorStepSize) * 4 := by
  have aligned : arch.getAlignedDim (getEffectiveDim elemSize) =
      arch.pool elemSize * arch.vectorStepSize := by
    rcases known with rfl | rfl <;> rfl
  rw [slot, getVector, aligned, vecBlockSize]
  omega

/-- The pool array covers all elements on x86, and those of half the size on ARM. -/
theorem pool_lt_iff (high : elemSize <= 4 * 16384) :
    arch.pool elemSize < nVecPool ↔ arch = x86 ∨ elemSize <= 4 * 8192 := by
  have other : arm ≠ x86 := by decide
  rcases known with rfl | rfl <;> simp only [other, true_or, false_or, iff_true] <;>
    simp only [pool, getPoolOffset, getEffectiveDim, x86, arm, nVecPool] <;> omega

theorem width_le : elemSize <= arch.pool elemSize * arch.vectorStepSize * 4 := by
  rcases known with rfl | rfl <;> simp only [pool, getPoolOffset, getEffectiveDim, x86, arm] <;>
    omega

variable {elemSize}

/-- A slot of a pool fits in its block. -/
theorem slot_fits (inside : offset < arch.slots elemSize) :
    arch.slot elemSize block offset + elemSize <= (block + 1) * vecBlockSize := by
  have := width_le elemSize known
  have fits := Nat.mul_le_of_le_div _ _ _ (Nat.mul_le_of_le_div _ _ _ inside)
  rw [slot_eq _ known, add_one_mul]
  rw [mul_right_comm, add_one_mul, add_mul] at fits
  omega

/-- A slot ends before any later slot of its pool. -/
theorem slot_ends (same : arch.pool other = arch.pool elemSize)
    (inside : offset < arch.slots elemSize)
    (later : block < block' ∨ block = block' ∧ offset < offset') :
    arch.slot elemSize block offset + elemSize <= arch.slot other block' offset' := by
  rw [slot_eq other known, same]
  rcases later with later | ⟨rfl, later⟩
  · calc
      _ <= (block + 1) * vecBlockSize := slot_fits known inside
      _ <= block' * vecBlockSize := mul_le_mul_right _ later
      _ <= _ := Nat.le_add_right ..
  · have := width_le elemSize known
    have step := mul_le_mul_right (arch.pool elemSize * arch.vectorStepSize) later
    rw [succ_mul] at step
    rw [slot_eq _ known]
    omega

end Arch

/-- Where the pool of an element size exists; its slots fit in their blocks and do not
overlap, whatever sizes of the pool they hold. -/
theorem slots_apart {arch : Arch} (known : arch = x86 ∨ arch = arm) {elemSize other : Nat}
    (high : elemSize <= 4 * 16384) (same : arch.pool other = arch.pool elemSize) :
    (arch.pool elemSize < nVecPool ↔ arch = x86 ∨ elemSize <= 4 * 8192) ∧
      ∀ block offset, offset < arch.slots elemSize ->
        block * vecBlockSize <= arch.slot elemSize block offset ∧
        arch.slot elemSize block offset + elemSize <= (block + 1) * vecBlockSize ∧
        ∀ block' offset', offset' < arch.slots elemSize -> (block, offset) ≠ (block', offset') ->
          arch.slot elemSize block offset + elemSize <= arch.slot other block' offset' ∨
            arch.slot other block' offset' + other <= arch.slot elemSize block offset := by
  refine ⟨Arch.pool_lt_iff _ known high, fun block offset inside =>
    ⟨?_, Arch.slot_fits known inside, fun block' offset' inside' apart => ?_⟩⟩
  · rw [Arch.slot_eq _ known]
    exact Nat.le_add_right ..
  · rw [Ne, Prod.mk.injEq] at apart
    by_cases later : block < block' ∨ block = block' ∧ offset < offset'
    · exact .inl (Arch.slot_ends known same inside later)
    · have inside : offset' < arch.slots other := by rwa [Arch.slots, same]
      exact .inr (Arch.slot_ends known same.symm inside (by omega))

theorem slots_apart_arm : arm.pool 4096 < nVecPool ∧
    arm.slot 4096 0 1 + 4096 <= (0 + 1) * vecBlockSize :=
  have whole := slots_apart (.inr rfl) (by decide) (rfl : arm.pool 4096 = arm.pool 4096)
  ⟨whole.1.2 (.inr (by decide)), (whole.2 0 1 (by decide)).2.1⟩

/-- On ARM the widest vector has no pool. -/
theorem pool_arm_widest : ¬ arm.pool (4 * 16384) < nVecPool := by
  decide

end VexDB.VectorBuffer
