import Mathlib.Algebra.Order.Ring.Int
import Mathlib.Data.List.Lex

/-!
# Comparing and hashing float vectors

The order of `floatvector_cmp_internal` is the lexicographic order of the values.
`hashfloatvector` reads the bytes, so vectors that compare as equal hash alike unless
they hold zeros of different signs.
-/

namespace VexDB.FloatVector

open List

/-- A finite `float4`. -/
structure Float4 where
  bits : BitVec 32
  finite : bits.toNat / 2 ^ 23 % 2 ^ 8 ≠ 255
  deriving DecidableEq

/-- The place of a number among the finite numbers: its exponent and fraction order the
positive ones, the negative ones mirror them, and both zeros are in the middle. -/
def Float4.rank (x : Float4) : Int :=
  if x.bits.toNat < 2 ^ 31 then x.bits.toNat else 2 ^ 31 - x.bits.toNat

/-- The bytes of a number in memory, the lowest first. -/
def Float4.bytes (x : Float4) : List (BitVec 8) :=
  [0, 8, 16, 24].map fun start => x.bits.extractLsb' start 8

/-- The loop over the common dimensions. -/
def cmpElements : List (Float4 × Float4) -> Int
  | [] => 0
  | (x, y) :: rest =>
    if x.rank < y.rank then -1 else if x.rank > y.rank then 1 else cmpElements rest

/-- `floatvector_cmp_internal` -/
def floatvectorCmpInternal (a b : List Float4) : Int :=
  let order := cmpElements (a.zip b)
  if order ≠ 0 then order
  else if a.length < b.length then -1
  else if a.length > b.length then 1
  else 0

section Operators

variable (a b : List Float4)

def floatvectorLt : Bool := floatvectorCmpInternal a b < 0

def floatvectorLe : Bool := floatvectorCmpInternal a b <= 0

def floatvectorEq : Bool := floatvectorCmpInternal a b = 0

def floatvectorNe : Bool := floatvectorCmpInternal a b ≠ 0

def floatvectorGe : Bool := floatvectorCmpInternal a b ≥ 0

def floatvectorGt : Bool := floatvectorCmpInternal a b > 0

end Operators

/-- `hashfloatvector`, over the hash of its bytes. -/
def hashfloatvector (hashAny : List (BitVec 8) -> BitVec 32) (a : List Float4) : BitVec 32 :=
  hashAny (a.flatMap Float4.bytes)

/-- The values of a vector, for comparing. -/
def ranks (a : List Float4) : List Int := a.map Float4.rank

/-- The comparison is the lexicographic order of the elements, the shorter vector first. -/
theorem cmp_spec (a b : List Float4) :
    (floatvectorCmpInternal a b < 0 ↔ ranks a < ranks b) ∧
      (floatvectorCmpInternal a b = 0 ↔ ranks a = ranks b) := by
  induction a generalizing b with
  | nil => cases b <;> simp [floatvectorCmpInternal, cmpElements, ranks]
  | cons x a ih =>
    cases b with
    | nil => simp [floatvectorCmpInternal, cmpElements, ranks]
    | cons y b =>
      obtain ⟨less, same⟩ := ih b
      have step : floatvectorCmpInternal (x :: a) (y :: b) =
          if x.rank < y.rank then -1 else if x.rank > y.rank then 1
          else floatvectorCmpInternal a b := by
        simp only [floatvectorCmpInternal, zip_cons_cons, cmpElements, length_cons,
          Nat.add_lt_add_iff_right, gt_iff_lt]
        grind
      rw [step]
      simp only [ranks, map_cons, cons_lt_cons_iff, cons.injEq] at less same ⊢
      split_ifs <;> grind

/-- Numbers at the same place are the same, zeros apart. -/
theorem eq_of_rank_eq {x y : Float4} (same : x.rank = y.rank) (nonzero : x.rank ≠ 0) : x = y := by
  have bits : x.bits.toNat = y.bits.toNat := by
    unfold Float4.rank at same nonzero
    split_ifs at same nonzero <;> omega
  cases x
  cases y
  congr
  exact BitVec.eq_of_toNat_eq bits

/-- Vectors that compare as equal are the same if their zeros agree. -/
theorem eq_of_ranks_eq {a b : List Float4} (same : ranks a = ranks b)
    (zeros : ∀ pair ∈ a.zip b, pair.1.rank = 0 -> pair.1 = pair.2) : a = b := by
  induction a generalizing b with
  | nil => exact (map_eq_nil_iff.1 same.symm).symm
  | cons x a ih =>
    cases b with
    | nil => cases same
    | cons y b =>
      obtain ⟨head, tail⟩ := cons.inj same
      simp only [zip_cons_cons, forall_mem_cons] at zeros
      rw [ih tail zeros.2]
      by_cases zero : x.rank = 0
      · rw [zeros.1 zero]
      · rw [eq_of_rank_eq head zero]

/-- The bytes of a number determine it. -/
theorem bytes_injective : Function.Injective Float4.bytes := by
  intro x y same
  have bytes : ∀ start ∈ [0, 8, 16, 24],
      x.bits.extractLsb' start 8 = y.bits.extractLsb' start 8 := map_inj_left.1 same
  simp only [forall_mem_cons, BitVec.extractLsb', <- BitVec.toNat_inj, BitVec.toNat_ofNat,
    Nat.shiftRight_eq_div_pow] at bytes
  obtain ⟨first, second, third, fourth, _⟩ := bytes
  have bits : x.bits.toNat = y.bits.toNat := by omega
  cases x
  cases y
  congr
  exact BitVec.eq_of_toNat_eq bits

/-- The bytes of a vector determine it. -/
theorem flatMap_bytes_injective :
    Function.Injective fun a : List Float4 => a.flatMap Float4.bytes := by
  intro a b same
  induction a generalizing b with
  | nil =>
    cases b with
    | nil => rfl
    | cons => cases same
  | cons x a ih =>
    cases b with
    | nil => cases same
    | cons y b =>
      obtain ⟨head, tail⟩ := append_inj same (show x.bytes.length = y.bytes.length from rfl)
      rw [bytes_injective head, ih tail]

/-- Vectors hash alike whatever the hash of their bytes is only if they are the same. -/
theorem eq_of_hash_eq (alike : ∀ hashAny, hashfloatvector hashAny a = hashfloatvector hashAny b) :
    a = b := by
  have same := alike fun bytes => if bytes = a.flatMap Float4.bytes then 0 else 1
  rw [hashfloatvector, if_pos rfl, hashfloatvector] at same
  split at same
  next bytes => exact (flatMap_bytes_injective bytes).symm
  next => cases same

/-- The comparison is a total preorder, the operators are those of the lexicographic order
of the elements, and equal vectors hash alike exactly when their zeros agree in sign. -/
theorem floatvector_order_hash (a b c : List Float4) :
    (floatvectorCmpInternal a b <= 0 ∨ floatvectorCmpInternal b a <= 0) ∧
    (floatvectorCmpInternal a b <= 0 -> floatvectorCmpInternal b c <= 0 ->
      floatvectorCmpInternal a c <= 0) ∧
    floatvectorLt a b = decide (ranks a < ranks b) ∧
    floatvectorLe a b = decide (ranks a <= ranks b) ∧
    floatvectorEq a b = decide (ranks a = ranks b) ∧
    floatvectorNe a b = decide (ranks a ≠ ranks b) ∧
    floatvectorGe a b = decide (ranks a ≥ ranks b) ∧
    floatvectorGt a b = decide (ranks a > ranks b) ∧
    ((floatvectorEq a b = true ->
        ∀ hashAny, hashfloatvector hashAny a = hashfloatvector hashAny b) ↔
      (floatvectorEq a b = true -> ∀ pair ∈ a.zip b, pair.1.rank = 0 -> pair.1 = pair.2)) := by
  have atMost (a b) : floatvectorCmpInternal a b <= 0 ↔ ranks a <= ranks b := by
    rw [le_iff_lt_or_eq, le_iff_lt_or_eq, (cmp_spec a b).1, (cmp_spec a b).2]
  obtain ⟨less, same⟩ := cmp_spec a b
  refine ⟨?_, ?_, ?_, ?_, ?_, ?_, ?_, ?_, ?_⟩
  · rw [atMost, atMost]
    exact le_total _ _
  · rw [atMost, atMost, atMost]
    exact le_trans
  · exact decide_eq_decide.2 less
  · exact decide_eq_decide.2 (atMost a b)
  · exact decide_eq_decide.2 same
  · exact decide_eq_decide.2 (not_congr same)
  · exact decide_eq_decide.2 (by rw [ge_iff_le, ge_iff_le, <- not_lt, less, not_lt])
  · exact decide_eq_decide.2 (by rw [gt_iff_lt, gt_iff_lt, <- not_le, atMost, not_le])
  · refine forall_congr' fun equal => ⟨fun alike pair member _ => ?_, fun zeros hashAny => ?_⟩
    · obtain rfl := eq_of_hash_eq alike
      rw [zip, zipWith_self] at member
      obtain ⟨_, -, rfl⟩ := mem_map.1 member
      rfl
    · rw [eq_of_ranks_eq (same.1 (of_decide_eq_true equal)) zeros]

/-- Zeros of different signs are equal, and their bytes differ. -/
theorem zeros_hash_apart :
    floatvectorEq [⟨0#32, by decide⟩] [⟨0x80000000#32, by decide⟩] = true ∧
      hashfloatvector (fun bytes => (bytes.getLastD 0#8).setWidth 32) [⟨0#32, by decide⟩] ≠
        hashfloatvector (fun bytes => (bytes.getLastD 0#8).setWidth 32)
          [⟨0x80000000#32, by decide⟩] := by
  decide

end VexDB.FloatVector
