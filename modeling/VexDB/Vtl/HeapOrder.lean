import Mathlib.Logic.Equiv.Basic
import VexDB.Vtl.PriorityQueue

/-!
# The order of the 4-ary heap

Under a strict weak order every operation of the queue keeps the heap order, in
which no element precedes its parent, and `sort` leaves the array in order.  The
sift loops work on an array whose order is broken at one position.
-/

namespace VexDB.Vtl

open List Equiv

/-- A comparison whose failure is transitive. -/
structure StrictWeak {α : Type*} (comp : α -> α -> Bool) : Prop where
  asymm : ∀ {x y}, comp x y = true -> comp y x = false
  negTrans : ∀ {x y z}, comp x y = false -> comp y z = false -> comp x z = false

section

variable {α : Type*} {comp : α -> α -> Bool} (weak : StrictWeak comp)
include weak

/-- A comparison of values gives one of what carries them, in the other direction. -/
theorem StrictWeak.flip {β : Type*} (key : β -> α) :
    StrictWeak fun left right => comp (key right) (key left) where
  asymm := weak.asymm
  negTrans first second := weak.negTrans second first

end

namespace PriorityQueue

variable {α : Type*} {comp : α -> α -> Bool} {i left right : Nat} {data : Array α} {limit idx : Nat}

section Positions

variable {data : Array α} {limit : Nat}

section

variable (leftIn : left < data.size) (rightIn : right < data.size)
include leftIn rightIn

theorem getElem?_swapIfInBounds (idx : Nat) :
    (data.swapIfInBounds left right)[idx]? = data[Equiv.swap left right idx]? := by
  rw [Array.swapIfInBounds_def, dif_pos leftIn, dif_pos rightIn, Array.getElem?_swap]
  by_cases atRight : idx = right
  · subst atRight
    rw [if_pos rfl, swap_apply_right, Array.getElem?_eq_getElem leftIn]
  · rw [if_neg (Ne.symm atRight)]
    by_cases atLeft : idx = left
    · subst atLeft
      rw [if_pos rfl, swap_apply_left, Array.getElem?_eq_getElem rightIn]
    · rw [if_neg (Ne.symm atLeft), swap_apply_of_ne_of_ne atLeft atRight]

theorem before_swapIfInBounds (i j : Nat) :
    before comp (data.swapIfInBounds left right) i j =
      before comp data (Equiv.swap left right i) (Equiv.swap left right j) := by
  simp only [before, getElem?_swapIfInBounds leftIn rightIn]

/-- Comparisons away from the swapped positions stay. -/
theorem before_swapIfInBounds_of_ne (i_left : i ≠ left) (i_right : i ≠ right) (j_left : j ≠ left)
    (j_right : j ≠ right) :
    before comp (data.swapIfInBounds left right) i j = before comp data i j := by
  rw [before_swapIfInBounds leftIn rightIn, swap_apply_of_ne_of_ne i_left i_right,
    swap_apply_of_ne_of_ne j_left j_right]

end

theorem before_eq_false_of_size_le (beyond : data.size <= i) (j : Nat) :
    before comp data i j = false := by
  rw [before, Array.getElem?_eq_none beyond]

section

variable (weak : StrictWeak comp)
include weak

theorem before_asymm (first : before comp data i j = true) : before comp data j i = false := by
  unfold before at first ⊢
  split at first
  next x y foundX foundY => rw [foundX, foundY]; exact weak.asymm first
  next => exact nomatch first

theorem before_irrefl (i : Nat) : before comp data i i = false := by
  cases self : before comp data i i with
  | false => rfl
  | true => rw [before_asymm weak self] at self; exact nomatch self

theorem before_negTrans (middle : j < data.size) (first : before comp data i j = false)
    (second : before comp data j k = false) : before comp data i k = false := by
  simp only [before, Array.getElem?_eq_getElem middle] at first second ⊢
  cases foundI : data[i]? with
  | none => rfl
  | some =>
    cases foundK : data[k]? with
    | none => rfl
    | some =>
      rw [foundI] at first
      rw [foundK] at second
      exact weak.negTrans first second

end

end Positions

theorem parent_lt (positive : 0 < i) : parent i < i := by
  unfold parent arity
  omega

/-- The children of a position are the four from its first child on. -/
theorem parent_eq_iff (positive : 0 < i) :
    parent i = idx ↔ ∃ offset < arity, i = firstChild idx + offset := by
  unfold parent firstChild arity
  constructor
  · intro _
    exact ⟨i - (4 * idx + 1), by omega, by omega⟩
  · rintro ⟨offset, _, rfl⟩
    omega

variable (comp) in
/-- No element of the first positions precedes its parent. -/
def HeapOn (data : Array α) (limit : Nat) : Prop :=
  ∀ i, 0 < i -> i < limit -> before comp data i (parent i) = false

/-- Nothing precedes the root. -/
theorem HeapOn.root (weak : StrictWeak comp) (within : limit <= data.size)
    (heap : HeapOn comp data limit) (inRange : i < limit) : before comp data i 0 = false := by
  induction i using Nat.strongRecOn with
  | ind i ih =>
    rcases Nat.eq_zero_or_pos i with rfl | positive
    · exact before_irrefl weak 0
    · have above := parent_lt positive
      exact before_negTrans weak (by omega) (heap i positive inRange)
        (ih (parent i) above (by omega))

section SiftUp

variable (comp) in
/-- The order may be broken between a position and its parent only. -/
structure Raised (data : Array α) (idx : Nat) : Prop where
  order : ∀ i, 0 < i -> i ≠ idx -> before comp data i (parent i) = false
  children : ∀ i, 0 < i -> parent i = idx -> 0 < idx -> before comp data i (parent idx) = false

section

variable (weak : StrictWeak comp)
include weak

/-- Swapping a position with its parent moves the break up. -/
theorem Raised.swap (raised : Raised comp data idx) (inRange : idx < data.size) (positive : 0 < idx)
    (precedes : before comp data idx (parent idx) = true) :
    Raised comp (data.swapIfInBounds idx (parent idx)) (parent idx) := by
  have above := parent_lt positive
  have parentIn : parent idx < data.size := Nat.lt_trans above inRange
  have behind := before_asymm weak precedes
  have atIdx : ∀ i, before comp (data.swapIfInBounds idx (parent idx)) i idx =
      before comp data (Equiv.swap idx (parent idx) i) (parent idx) := fun i => by
    rw [before_swapIfInBounds inRange parentIn, swap_apply_left]
  constructor
  case order =>
    intro i i_positive i_ne
    by_cases here : i = idx
    · subst here
      rw [before_swapIfInBounds inRange parentIn, swap_apply_left, swap_apply_right]
      exact behind
    · by_cases sibling : parent i = parent idx
      · rw [sibling, before_swapIfInBounds inRange parentIn, swap_apply_right,
          swap_apply_of_ne_of_ne here i_ne]
        exact before_negTrans weak parentIn (sibling ▸ raised.order i i_positive here) behind
      · by_cases child : parent i = idx
        · rw [child, atIdx, swap_apply_of_ne_of_ne here i_ne]
          exact raised.children i i_positive child positive
        · rw [before_swapIfInBounds_of_ne inRange parentIn here i_ne child sibling]
          exact raised.order i i_positive here
  case children =>
    intro i i_positive child parent_positive
    have := parent_lt i_positive
    have := parent_lt parent_positive
    have upper := raised.order (parent idx) parent_positive (by omega)
    rw [before_swapIfInBounds inRange parentIn,
      swap_apply_of_ne_of_ne (x := parent (parent idx)) (by omega) (by omega)]
    by_cases here : i = idx
    · rw [here, swap_apply_left]
      exact upper
    · rw [swap_apply_of_ne_of_ne here (by omega)]
      exact before_negTrans weak parentIn (child ▸ raised.order i i_positive here) upper

/-- `sift_up` mends the order. -/
theorem heapOn_siftUp (raised : Raised comp data idx) (inRange : idx < data.size)
    (enough : idx <= fuel) : HeapOn comp (siftUp comp fuel data idx) data.size := by
  induction fuel generalizing data idx with
  | zero =>
    intro i positive _
    exact raised.order i positive (by omega)
  | succ fuel ih =>
    rw [siftUp]
    split
    next moves =>
      have := parent_lt moves.1
      have mended := ih (raised.swap weak inRange moves.1 moves.2)
        (by rw [Array.size_swapIfInBounds]; omega) (by omega)
      rwa [Array.size_swapIfInBounds] at mended
    next stays =>
      intro i positive _
      by_cases here : i = idx
      · subst here
        exact Bool.not_eq_true _ ▸ fun precedes => stays ⟨positive, precedes⟩
      · exact raised.order i positive here

/-- `push` keeps the heap order. -/
theorem heapOn_push (heap : HeapOn comp data data.size) (value : α) :
    HeapOn comp (push comp data value) (push comp data value).size := by
  have raised : Raised comp (data.push value) data.size := by
    constructor
    · intro i positive i_ne
      have above := parent_lt positive
      rcases Nat.lt_or_ge i data.size with inside | _
      · have order := heap i positive inside
        simp only [before, Array.getElem?_push] at order ⊢
        rwa [if_neg i_ne, if_neg (by omega)]
      · refine before_eq_false_of_size_le ?_ _
        rw [Array.size_push]
        omega
    · intro i positive _ _
      have := parent_lt positive
      refine before_eq_false_of_size_le ?_ _
      rw [Array.size_push]
      omega
  have := heapOn_siftUp weak raised (by rw [Array.size_push]; omega) (Nat.le_refl _)
  rwa [size_push, push, <- Array.size_push value]

end

end SiftUp

section SiftDown

variable (comp) in
/-- The order may be broken between a position and its children only. -/
structure Holed (data : Array α) (idx limit : Nat) : Prop where
  order : ∀ i, 0 < i -> i < limit -> parent i ≠ idx -> before comp data i (parent i) = false
  children : ∀ i, 0 < i -> i < limit -> parent i = idx -> 0 < idx ->
    before comp data i (parent idx) = false

/-- The best of a position and some of its children. -/
theorem foldl_bestChild (weak : StrictWeak comp) (idx : Nat) (within : limit <= data.size)
    (offsets : List Nat) (bestIn : best < data.size) :
    let result := offsets.foldl
      (fun best offset =>
        if firstChild idx + offset < limit ∧ before comp data (firstChild idx + offset) best then
          firstChild idx + offset
        else best) best
    (result = best ∨ result < limit ∧ ∃ offset ∈ offsets, result = firstChild idx + offset) ∧
      before comp data best result = false ∧
      ∀ offset ∈ offsets, firstChild idx + offset < limit ->
        before comp data (firstChild idx + offset) result = false := by
  induction offsets generalizing best with
  | nil => exact ⟨.inl rfl, before_irrefl weak best, nofun⟩
  | cons offset offsets ih =>
    simp only [foldl_cons, forall_mem_cons]
    split
    next better =>
      have childIn : firstChild idx + offset < data.size := by omega
      obtain ⟨which, notBefore, all⟩ := ih childIn
      refine ⟨.inr ?_, before_negTrans weak (by omega) (before_asymm weak better.2) notBefore,
        fun _ => notBefore, all⟩
      rcases which with same | ⟨inside, other, member, isOther⟩
      · exact ⟨by omega, offset, mem_cons_self, same⟩
      · exact ⟨inside, other, mem_cons_of_mem _ member, isOther⟩
    next worse =>
      obtain ⟨which, notBefore, all⟩ := ih bestIn
      refine ⟨which.imp_right ?_, notBefore, ?_, all⟩
      · rintro ⟨inside, other, member, isOther⟩
        exact ⟨inside, other, mem_cons_of_mem _ member, isOther⟩
      · intro inside
        exact before_negTrans weak bestIn
          (Bool.not_eq_true _ ▸ fun precedes => worse ⟨inside, precedes⟩) notBefore

/-- `bestChild` is the position or one of its children, and none of them precedes it. -/
theorem bestChild_spec (weak : StrictWeak comp) (within : limit <= data.size)
    (inRange : idx < data.size) :
    (bestChild comp data idx limit = idx ∨
      bestChild comp data idx limit < limit ∧ 0 < bestChild comp data idx limit ∧
        parent (bestChild comp data idx limit) = idx) ∧
      before comp data idx (bestChild comp data idx limit) = false ∧
      ∀ i, 0 < i -> i < limit -> parent i = idx ->
        before comp data i (bestChild comp data idx limit) = false := by
  obtain ⟨which, notBefore, all⟩ :=
    foldl_bestChild weak idx within (range arity) inRange
  refine ⟨which.imp_right ?_, notBefore, ?_⟩
  · rintro ⟨inside, offset, member, isChild⟩
    have positive : 0 < firstChild idx + offset := by unfold firstChild; omega
    have child := (parent_eq_iff positive).2 ⟨offset, mem_range.1 member, rfl⟩
    rw [<- isChild] at positive child
    exact ⟨inside, positive, child⟩
  · intro i positive inside isParent
    obtain ⟨offset, small, rfl⟩ := (parent_eq_iff positive).1 isParent
    exact all offset (mem_range.2 small) inside

/-- Swapping a position with its best child moves the break down. -/
theorem Holed.swap (within : limit <= data.size) (holed : Holed comp data idx limit)
    (inside : child < limit) (positive : 0 < child) (isParent : parent child = idx)
    (behind : before comp data idx child = false)
    (best : ∀ i, 0 < i -> i < limit -> parent i = idx -> before comp data i child = false) :
    Holed comp (data.swapIfInBounds idx child) child limit := by
  have := parent_lt positive
  have idxIn : idx < data.size := by omega
  have childIn : child < data.size := by omega
  constructor
  case order =>
    intro i i_positive i_inside i_parent
    have i_above := parent_lt i_positive
    by_cases here : i = child
    · subst here
      rw [isParent, before_swapIfInBounds idxIn childIn, swap_apply_left,
        swap_apply_right]
      exact behind
    · by_cases sibling : parent i = idx
      · rw [sibling, before_swapIfInBounds idxIn childIn, swap_apply_left,
          swap_apply_of_ne_of_ne (by omega) here]
        exact best i i_positive i_inside sibling
      · by_cases top : i = idx
        · subst top
          rw [before_swapIfInBounds idxIn childIn, swap_apply_left,
            swap_apply_of_ne_of_ne sibling i_parent]
          exact holed.children child positive inside isParent i_positive
        · rw [before_swapIfInBounds_of_ne idxIn childIn top here sibling i_parent]
          exact holed.order i i_positive i_inside sibling
  case children =>
    intro i i_positive i_inside i_parent _
    have := parent_lt i_positive
    rw [isParent, before_swapIfInBounds idxIn childIn, swap_apply_left,
      swap_apply_of_ne_of_ne (by omega) (by omega), <- i_parent]
    exact holed.order i i_positive i_inside (by omega)

/-- `sift_down_in_range` mends the order. -/
theorem heapOn_siftDownInRange (weak : StrictWeak comp) (within : limit <= data.size)
    (inRange : idx < data.size) (holed : Holed comp data idx limit) (enough : limit <= idx + fuel) :
    HeapOn comp (siftDownInRange comp fuel data idx limit) limit := by
  induction fuel generalizing data idx with
  | zero =>
    intro i positive inside
    have := parent_lt positive
    exact holed.order i positive inside (by omega)
  | succ fuel ih =>
    rw [siftDownInRange]
    obtain ⟨which, behind, best⟩ := bestChild_spec weak within inRange
    split
    next stays =>
      intro i positive inside
      by_cases child : parent i = idx
      · rw [child]
        exact stays ▸ best i positive inside child
      · exact holed.order i positive inside child
    next moves =>
      obtain ⟨inside, positive, isParent⟩ := which.resolve_left moves
      have := parent_lt positive
      refine ih ?_ ?_ (holed.swap within inside positive isParent behind best)
        (by omega)
      · rw [Array.size_swapIfInBounds]
        exact within
      · rw [Array.size_swapIfInBounds]
        omega

/-- A heap whose root was replaced. -/
theorem HeapOn.holed (heap : HeapOn comp data limit)
    (same : ∀ i, 0 < i -> i < limit -> replaced[i]? = data[i]?) : Holed comp replaced 0 limit := by
  refine ⟨?_, fun _ _ _ _ absurd_positive => nomatch absurd_positive⟩
  intro i positive inside _
  have := parent_lt positive
  have order := heap i positive inside
  unfold before at order ⊢
  rwa [same i positive inside, same (parent i) (by omega) (by omega)]

/-- `pop` keeps the heap order. -/
theorem heapOn_pop (weak : StrictWeak comp) (heap : HeapOn comp data data.size) :
    HeapOn comp (pop comp data) (pop comp data).size := by
  rw [pop]
  split
  next single =>
    intro i positive inside
    rw [Array.size_pop] at inside
    omega
  next several =>
    have sizes : (data.swapIfInBounds 0 (data.size - 1)).pop.size = data.size - 1 := by
      rw [Array.size_pop, Array.size_swapIfInBounds]
    have holed : Holed comp (data.swapIfInBounds 0 (data.size - 1)).pop 0 (data.size - 1) := by
      have smaller : HeapOn comp data (data.size - 1) :=
        fun i positive inside => heap i positive (by omega)
      refine smaller.holed ?_
      intro i _ inside
      rw [Array.getElem?_pop, if_pos (by rw [Array.size_swapIfInBounds]; exact inside),
        getElem?_swapIfInBounds (by omega) (by omega),
        swap_apply_of_ne_of_ne (by omega) (by omega)]
    have mended := heapOn_siftDownInRange weak (Nat.le_of_eq sizes.symm) (by omega) holed
      (Nat.le_of_eq (Nat.zero_add _).symm)
    rw [siftDown, (siftDownInRange_perm comp _ _ _ _).size_eq, sizes]
    exact mended

end SiftDown

section Sorting

/-- The positions from a limit on keep their elements, those below it exchange
theirs. -/
structure Rearranged (limit : Nat) (data after : Array α) : Prop where
  size : after.size = data.size
  kept : ∀ i, limit <= i -> after[i]? = data[i]?
  moved : ∀ i, i < limit -> ∃ k, k < limit ∧ after[i]? = data[k]?

theorem Rearranged.refl (limit : Nat) (data : Array α) : Rearranged limit data data :=
  ⟨rfl, fun _ _ => rfl, fun i inside => ⟨i, inside, rfl⟩⟩

theorem Rearranged.trans {between after : Array α} (first : Rearranged limit data between)
    (second : Rearranged limit between after) : Rearranged limit data after := by
  refine ⟨second.size.trans first.size, ?_, ?_⟩
  · exact fun i beyond => (second.kept i beyond).trans (first.kept i beyond)
  · intro i inside
    obtain ⟨k, k_inside, isK⟩ := second.moved i inside
    obtain ⟨l, l_inside, isL⟩ := first.moved k k_inside
    exact ⟨l, l_inside, isK.trans isL⟩

theorem Rearranged.mono {wider : Nat} {after : Array α} (wide : limit <= wider)
    (rearranged : Rearranged limit data after) : Rearranged wider data after := by
  refine ⟨rearranged.size, fun i beyond => rearranged.kept i (by omega), fun i inside => ?_⟩
  rcases Nat.lt_or_ge i limit with narrow | beyond
  · obtain ⟨k, _, isK⟩ := rearranged.moved i narrow
    exact ⟨k, by omega, isK⟩
  · exact ⟨i, inside, rearranged.kept i beyond⟩

theorem rearranged_swapIfInBounds (within : limit <= data.size) (leftIn : left < limit)
    (rightIn : right < limit) : Rearranged limit data (data.swapIfInBounds left right) := by
  have read : ∀ i, (data.swapIfInBounds left right)[i]? = data[Equiv.swap left right i]? :=
    getElem?_swapIfInBounds (by omega) (by omega)
  refine ⟨Array.size_swapIfInBounds, fun i beyond => ?_, fun i inside => ⟨_, ?_, read i⟩⟩
  · rw [read, swap_apply_of_ne_of_ne (by omega) (by omega)]
  · rw [swap_apply_def]
    split
    · exact rightIn
    · split
      · exact leftIn
      · exact inside

theorem rearranged_siftDownInRange (weak : StrictWeak comp) (fuel : Nat)
    (within : limit <= data.size) (inRange : idx < limit) :
    Rearranged limit data (siftDownInRange comp fuel data idx limit) := by
  induction fuel generalizing data idx with
  | zero => exact Rearranged.refl _ _
  | succ fuel ih =>
    rw [siftDownInRange]
    split
    next => exact Rearranged.refl _ _
    next moves =>
      obtain ⟨which, -, -⟩ :=
        bestChild_spec weak within (by omega : idx < data.size)
      obtain ⟨inside, -, -⟩ := which.resolve_left moves
      refine (rearranged_swapIfInBounds within inRange inside).trans (ih ?_ inside)
      rw [Array.size_swapIfInBounds]
      exact within

variable (comp) in
/-- A heap in front of the elements that are in their place. -/
structure HeapThenSorted (data : Array α) (limit : Nat) : Prop where
  heap : HeapOn comp data limit
  sorted : ∀ i j, i < j -> limit <= j -> before comp data i j = false

section

variable (weak : StrictWeak comp)
include weak

/-- One round of `sort`. -/
theorem HeapThenSorted.round {last : Nat} (state : HeapThenSorted comp data (last + 1))
    (within : last < data.size) (several : 0 < last) :
    HeapThenSorted comp
      (siftDownInRange comp last (data.swapIfInBounds 0 last) 0 last) last := by
  have read : ∀ i, (data.swapIfInBounds 0 last)[i]? = data[Equiv.swap 0 last i]? :=
    getElem?_swapIfInBounds (by omega) within
  have : (data.swapIfInBounds 0 last).size = data.size := Array.size_swapIfInBounds
  have holed : Holed comp (data.swapIfInBounds 0 last) 0 last := by
    have smaller : HeapOn comp data last :=
      fun i positive inside => state.heap i positive (by omega)
    refine smaller.holed ?_
    intro i _ inside
    rw [read, swap_apply_of_ne_of_ne (by omega) (by omega)]
  have sifted : Rearranged last (data.swapIfInBounds 0 last)
      (siftDownInRange comp last (data.swapIfInBounds 0 last) 0 last) :=
    rearranged_siftDownInRange weak last (by omega) several
  have whole : Rearranged (last + 1) data
      (siftDownInRange comp last (data.swapIfInBounds 0 last) 0 last) :=
    (rearranged_swapIfInBounds within (by omega) (by omega)).trans (sifted.mono (by omega))
  refine ⟨heapOn_siftDownInRange weak (by omega) (by omega) holed (by omega), ?_⟩
  intro i j smaller beyond
  rcases Nat.eq_or_lt_of_le beyond with rfl | _
  · -- The old root is behind everything that was below it.
    obtain ⟨k, inside, isK⟩ := whole.moved i (by omega)
    have root : (siftDownInRange comp last (data.swapIfInBounds 0 last) 0 last)[last]? =
        data[0]? := by
      rw [sifted.kept last (Nat.le_refl _), read, swap_apply_right]
    have behind := state.heap.root weak (by omega) inside
    unfold before at behind ⊢
    rwa [isK, root]
  · obtain ⟨k, below, isK⟩ := (whole.mono (show last + 1 <= j by omega)).moved i smaller
    have behind := state.sorted k j below (by omega)
    unfold before at behind ⊢
    rwa [isK, whole.kept j (by omega)]

/-- The rounds of `sort` from one on. -/
theorem foldl_sort (rounds start : Nat) (state : HeapThenSorted comp data (data.size - start))
    (enough : rounds + start + 1 = data.size) :
    HeapThenSorted comp ((range' start rounds).foldl
        (fun data round =>
          siftDownInRange comp (data.size - 1 - round)
            (data.swapIfInBounds 0 (data.size - 1 - round)) 0 (data.size - 1 - round)) data) 1 := by
  induction rounds generalizing start data with
  | zero =>
    have one : data.size - start = 1 := by omega
    rw [one] at state
    exact state
  | succ rounds ih =>
    rw [range'_succ, foldl_cons]
    have next : data.size - start = data.size - 1 - start + 1 := by omega
    have sizes : (siftDownInRange comp (data.size - 1 - start)
        (data.swapIfInBounds 0 (data.size - 1 - start)) 0 (data.size - 1 - start)).size =
          data.size := by
      rw [(siftDownInRange_perm comp _ _ _ _).size_eq, Array.size_swapIfInBounds]
    rw [next] at state
    refine ih (start + 1) ?_ (by omega)
    rw [sizes, show data.size - (start + 1) = data.size - 1 - start by omega]
    exact state.round weak (by omega) (by omega)

/-- `sort` leaves a heap in order: what leaves first comes last. -/
theorem pairwise_sort (heap : HeapOn comp data data.size) :
    (sort comp data).toList.Pairwise fun left right => comp left right = false := by
  rcases Nat.eq_zero_or_pos data.size with empty | _
  · have none : (sort comp data).toList = [] := by
      rw [<- length_eq_zero_iff, Array.length_toList, size_sort, empty]
    rw [none]
    exact List.Pairwise.nil
  · have start : HeapThenSorted comp data (data.size - 0) := by
      refine ⟨heap, fun i j _ beyond => ?_⟩
      unfold before
      rw [Array.getElem?_eq_none (i := j) beyond]
      split
      next foundNone => exact nomatch foundNone
      next => rfl
    have final := foldl_sort weak (data.size - 1) 0 start (by omega)
    rw [<- range_eq_range'] at final
    rw [pairwise_iff_getElem]
    intro i j i_lt j_lt smaller
    have behind : before comp (sort comp data) i j = false := final.sorted i j smaller (by omega)
    rwa [before, Array.getElem?_eq_getElem i_lt, Array.getElem?_eq_getElem j_lt] at behind

end

end Sorting

end PriorityQueue
end VexDB.Vtl
