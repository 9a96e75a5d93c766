import Mathlib.Algebra.BigOperators.Group.List.Basic
import Mathlib.Algebra.Order.Ring.Int
import Mathlib.Data.List.Nodup

/-!
# Keyed stores whose values may move

A keyed store holds values under keys.  Rewriting the value of a live key may
leave it under its key or move it to a key that held nothing, in which case the
old key is dead afterwards.  This module states that interface and the
bookkeeping of a sequence of rewrites: which keys they can disturb, and how the
total size of the values under a fixed list of keys changes.
-/

namespace VexDB.Storage

open List Prod Function

/-- A store of values of type `β` under keys of type `κ`. -/
structure KeyedStore (σ κ β : Type*) where
  /-- The value under a key, if the key is live. -/
  get : σ -> κ -> Option β
  /-- Store a value under a key the store chooses, unless it is full. -/
  put : σ -> β -> Option (κ × σ)
  /-- Rewrite the value of a live key; the returned key holds it afterwards. -/
  set : σ -> κ -> β -> κ × σ
  /-- Drop a live key. -/
  erase : σ -> κ -> σ
  /-- A stored value is found under the key it was given. -/
  get_put_self : ∀ store value key after, put store value = some (key, after) ->
    get after key = some value
  /-- A new value takes a key that was not live. -/
  get_put_key : ∀ store value key after, put store value = some (key, after) ->
    get store key = none
  /-- Storing a value disturbs no other key. -/
  get_put_other : ∀ store value key after other, put store value = some (key, after) ->
    other ≠ key -> get after other = get store other
  /-- A rewritten value is found under the returned key. -/
  get_set_self : ∀ store key value, (get store key).isSome ->
    get (set store key value).2 (set store key value).1 = some value
  /-- A value that moves takes a key that was not live. -/
  get_set_key : ∀ store key value, (get store key).isSome ->
    (set store key value).1 ≠ key -> get store (set store key value).1 = none
  /-- A value that moves leaves its old key dead. -/
  get_set_old : ∀ store key value, (get store key).isSome ->
    (set store key value).1 ≠ key -> get (set store key value).2 key = none
  /-- Rewriting a value disturbs no third key. -/
  get_set_other : ∀ store key value other, (get store key).isSome ->
    other ≠ key -> other ≠ (set store key value).1 ->
    get (set store key value).2 other = get store other
  /-- An erased key is dead. -/
  get_erase_self : ∀ store key, (get store key).isSome ->
    get (erase store key) key = none
  /-- Erasing a key disturbs no other key. -/
  get_erase_other : ∀ store key other, (get store key).isSome ->
    other ≠ key -> get (erase store key) other = get store other

namespace KeyedStore

/-- A table of values that never move; new values take the first free key of a
fixed list. -/
def table {κ β : Type*} [DecidableEq κ] (available : List κ) :
    KeyedStore (κ -> Option β) κ β where
  get store key := store key
  put store value :=
    match available.find? fun key => (store key).isNone with
    | some key => some (key, update store key (some value))
    | none => none
  set store key value := (key, update store key (some value))
  erase store key := update store key none
  get_put_self store value key after stored := by
    split at stored
    · obtain ⟨rfl, rfl⟩ := Prod.mk.inj (Option.some.inj stored)
      simp
    · cases stored
  get_put_key store value key after stored := by
    split at stored
    · next found =>
      obtain ⟨rfl, rfl⟩ := Prod.mk.inj (Option.some.inj stored)
      have free := List.find?_some found
      simpa using free
    · cases stored
  get_put_other store value key after other stored different := by
    split at stored
    · obtain ⟨rfl, rfl⟩ := Prod.mk.inj (Option.some.inj stored)
      simp [update, different]
    · cases stored
  get_set_self store key value _ := by simp
  get_set_key store key value _ moved := absurd rfl moved
  get_set_old store key value _ moved := absurd rfl moved
  get_set_other store key value other _ different _ := by
    simp [update, different]
  get_erase_self store key _ := by simp
  get_erase_other store key other _ different := by
    simp [update, different]

variable {σ κ β : Type*} (ks : KeyedStore σ κ β) {store : σ} {key : κ} {keys : List κ} {writes :
  List (κ × β)}

/-- Carry out a list of rewrites in order. -/
def rewrite : σ -> List (κ × β) -> σ
  | store, [] => store
  | store, (key, value) :: writes => rewrite (ks.set store key value).2 writes

/-- Every rewrite of the list leaves its value under its own key. -/
def KeepsKeys : σ -> List (κ × β) -> Prop
  | _, [] => True
  | store, (key, value) :: writes =>
    (ks.set store key value).1 = key ∧
      KeepsKeys (ks.set store key value).2 writes

instance decidableKeepsKeys [DecidableEq κ] :
    (store : σ) -> (writes : List (κ × β)) -> Decidable (ks.KeepsKeys store writes)
  | _, [] => isTrue trivial
  | store, (key, value) :: writes =>
    @instDecidableAnd _ _ _ (decidableKeepsKeys (ks.set store key value).2 writes)

/-- Drop a list of keys in order. -/
def eraseAll (store : σ) (keys : List κ) : σ :=
  keys.foldl ks.erase store

/-- The weight of the value under a key; a dead key weighs nothing. -/
def weightAt (weight : β -> Nat) (store : σ) (key : κ) : Nat :=
  match ks.get store key with
  | some value => weight value
  | none => 0

/-- The total weight of the values under a list of keys. -/
def totalWeight (weight : β -> Nat) (store : σ) (keys : List κ) : Nat :=
  (keys.map (ks.weightAt weight store)).sum

/-- All keys of a list are live. -/
def Live (store : σ) (keys : List κ) : Prop :=
  ∀ key ∈ keys, (ks.get store key).isSome

/-- A live key other than the rewritten one keeps its value. -/
theorem get_set_live (value : β) (live : (ks.get store key).isSome)
    (otherLive : (ks.get store other).isSome) (different : other ≠ key) :
    ks.get (ks.set store key value).2 other = ks.get store other := by
  by_cases kept : (ks.set store key value).1 = key
  · exact ks.get_set_other store key value other live different
      (by rw [kept]; exact different)
  · refine ks.get_set_other store key value other live different ?_
    rintro rfl
    rw [ks.get_set_key store key value live kept] at otherLive
    cases otherLive

/-- Rewriting one key keeps the other keys of a list live. -/
theorem Live.set (value : β) (live : (ks.get store key).isSome) (others : ks.Live store keys)
    (absent : key ∉ keys) : ks.Live (ks.set store key value).2 keys := by
  intro other present
  have different : other ≠ key := by
    rintro rfl
    exact absent present
  rw [ks.get_set_live value live (others other present) different]
  exact others other present

/-- A live key that no rewrite names keeps its value. -/
theorem get_rewrite_of_notMem (live : ks.Live store (writes.map fst))
    (distinct : (writes.map fst).Nodup) (keyLive : (ks.get store key).isSome)
    (absent : key ∉ writes.map fst) : ks.get (ks.rewrite store writes) key = ks.get store key := by
  induction writes generalizing store with
  | nil => rfl
  | cons write writes ih =>
    obtain ⟨target, value⟩ := write
    simp only [map_cons, nodup_cons, mem_cons, not_or] at distinct absent
    have targetLive := live target (by simp)
    have unchanged := ks.get_set_live value targetLive keyLive absent.1
    rw [rewrite, ih _ distinct.2 (by rw [unchanged]; exact keyLive) absent.2, unchanged]
    exact Live.set ks value targetLive (fun other present => live other (by simp [present]))
      distinct.1

/-- Rewrites that keep their keys leave every value under its key. -/
theorem get_rewrite_of_mem (live : ks.Live store (writes.map fst))
    (distinct : (writes.map fst).Nodup) (keeps : ks.KeepsKeys store writes)
    (present : (key, value) ∈ writes) : ks.get (ks.rewrite store writes) key = some value := by
  induction writes generalizing store with
  | nil => cases present
  | cons write writes ih =>
    obtain ⟨target, written⟩ := write
    simp only [map_cons, nodup_cons] at distinct
    have targetLive := live target (by simp)
    have restLive : ks.Live (ks.set store target written).2 (writes.map fst) :=
      Live.set ks written targetLive (fun other present => live other (by simp [present]))
        distinct.1
    rcases mem_cons.1 present with equal | later
    · cases equal
      have stored := ks.get_set_self store key value targetLive
      rw [keeps.1] at stored
      rw [rewrite, ks.get_rewrite_of_notMem restLive distinct.2 (by rw [stored]; rfl)
        distinct.1, stored]
    · exact ih restLive distinct.2 keeps.2 later

/-- A key that is not erased keeps its value. -/
theorem get_eraseAll_of_notMem (live : ks.Live store keys) (distinct : keys.Nodup)
    (absent : key ∉ keys) : ks.get (ks.eraseAll store keys) key = ks.get store key := by
  induction keys generalizing store with
  | nil => rfl
  | cons erased keys ih =>
    simp only [nodup_cons, mem_cons, not_or] at distinct absent
    have erasedLive := live erased (by simp)
    have restLive : ks.Live (ks.erase store erased) keys := by
      intro other present
      have different : other ≠ erased := by
        rintro rfl
        exact distinct.1 present
      rw [ks.get_erase_other store erased other erasedLive different]
      exact live other (by simp [present])
    calc ks.get (ks.eraseAll (ks.erase store erased) keys) key
        = ks.get (ks.erase store erased) key :=
          ih restLive distinct.2 absent.2
      _ = ks.get store key :=
          ks.get_erase_other store erased key erasedLive absent.1

section Weight

variable (weight : β -> Nat)

@[simp] theorem totalWeight_nil (store : σ) :
    ks.totalWeight weight store [] = 0 := rfl

@[simp] theorem totalWeight_cons (store : σ) (key : κ) (keys : List κ) :
    ks.totalWeight weight store (key :: keys) =
      ks.weightAt weight store key + ks.totalWeight weight store keys := rfl

@[simp] theorem totalWeight_append (store : σ) (left right : List κ) :
    ks.totalWeight weight store (left ++ right) =
      ks.totalWeight weight store left + ks.totalWeight weight store right := by
  simp [totalWeight]

theorem weightAt_of_get (found : ks.get store key = some value) :
    ks.weightAt weight store key = weight value := by
  simp [weightAt, found]

theorem weightAt_of_dead (dead : ks.get store key = none) : ks.weightAt weight store key = 0 := by
  simp [weightAt, dead]

/-- Stores that agree on a list of keys give it the same weight. -/
theorem totalWeight_congr (before : σ) {after : σ}
    (agree : ∀ key ∈ keys, ks.get after key = ks.get before key) :
    ks.totalWeight weight after keys = ks.totalWeight weight before keys := by
  refine congrArg sum (map_congr_left fun key present => ?_)
  rw [weightAt, agree key present, weightAt]

/-- A rewrite leaves the weight of other live keys. -/
theorem totalWeight_set_live (value : β) (keyLive : (ks.get store key).isSome)
    (live : ks.Live store keys) (absent : key ∉ keys) :
    ks.totalWeight weight (ks.set store key value).2 keys = ks.totalWeight weight store keys :=
  ks.totalWeight_congr weight store fun other present =>
    ks.get_set_live value keyLive (live other present) fun equal => absent (equal ▸ present)

variable [DecidableEq κ]

/-- The weight of one key of a list can be split off. -/
theorem totalWeight_erase (store : σ) (present : key ∈ keys) :
    ks.weightAt weight store key + ks.totalWeight weight store (keys.erase key) =
      ks.totalWeight weight store keys :=
  sum_map_erase (ks.weightAt weight store) present

/-- A key that is not written gains at most the written value. -/
private theorem totalWeight_set_others_le {others : List κ} (value : β)
    (live : (ks.get store key).isSome) (distinct : others.Nodup) (absent : key ∉ others)
    (moved : (ks.set store key value).1 ≠ key) :
    ks.totalWeight weight (ks.set store key value).2 others <=
      ks.totalWeight weight store others + weight value := by
  have agree : ∀ other ∈ others, other ≠ (ks.set store key value).1 ->
      ks.get (ks.set store key value).2 other = ks.get store other := by
    intro other present different
    refine ks.get_set_other store key value other live ?_ different
    rintro rfl
    exact absent present
  by_cases present : (ks.set store key value).1 ∈ others
  · rw [<- ks.totalWeight_erase weight _ present, <- ks.totalWeight_erase weight store present,
      ks.weightAt_of_get weight (ks.get_set_self store key value live),
      ks.weightAt_of_dead weight (ks.get_set_key store key value live moved),
      ks.totalWeight_congr weight store (fun other inErase =>
        agree other (mem_of_mem_erase inErase) (fun equal =>
          distinct.not_mem_erase (equal ▸ inErase)))]
    omega
  · rw [ks.totalWeight_congr weight store (fun other inOthers =>
      agree other inOthers (fun equal => present (equal ▸ inOthers)))]
    omega

/-- One rewrite exchanges the weight of the old value for at most the new one. -/
theorem totalWeight_set_le (value : β) (live : (ks.get store key).isSome) (distinct : keys.Nodup)
    (present : key ∈ keys) :
    ks.totalWeight weight (ks.set store key value).2 keys + ks.weightAt weight store key <=
      ks.totalWeight weight store keys + weight value := by
  have absent : key ∉ keys.erase key := distinct.not_mem_erase
  rw [<- ks.totalWeight_erase weight _ present, <- ks.totalWeight_erase weight store present]
  by_cases kept : (ks.set store key value).1 = key
  · have stored := ks.get_set_self store key value live
    rw [kept] at stored
    rw [ks.weightAt_of_get weight stored, ks.totalWeight_congr weight store]
    · omega
    · intro other inErase
      have different : other ≠ key := by
        rintro rfl
        exact absent inErase
      exact ks.get_set_other store key value other live different (by rw [kept]; exact different)
  · rw [ks.weightAt_of_dead weight (ks.get_set_old store key value live kept)]
    have := ks.totalWeight_set_others_le weight value live (distinct.erase key) absent kept
    omega

/-- A rewrite that moves its value out of a list of live keys loses its weight there. -/
theorem totalWeight_set_of_moved (value : β) (live : ks.Live store keys) (distinct : keys.Nodup)
    (present : key ∈ keys) (moved : (ks.set store key value).1 ≠ key) :
    ks.totalWeight weight (ks.set store key value).2 keys + ks.weightAt weight store key =
      ks.totalWeight weight store keys := by
  have keyLive := live key present
  rw [<- ks.totalWeight_erase weight _ present, <- ks.totalWeight_erase weight store present,
    ks.weightAt_of_dead weight (ks.get_set_old store key value keyLive moved),
    ks.totalWeight_set_live weight value keyLive
      (fun other inErase => live other (mem_of_mem_erase inErase)) distinct.not_mem_erase]
  omega

/-- Rewrites exchange the weights of the old values for at most the new ones.  If all keys were
live and some rewrite moves its value, weight is lost. -/
theorem totalWeight_rewrite (distinct : keys.Nodup)
    (live : ks.Live store (writes.map fst)) (writesDistinct : (writes.map fst).Nodup)
    (within : ∀ write ∈ writes, write.1 ∈ keys) (positive : ∀ write ∈ writes, 0 < weight write.2) :
    let before := ks.totalWeight weight store keys + (writes.map (fun write => weight write.2)).sum
    let after := ks.totalWeight weight (ks.rewrite store writes) keys +
      ks.totalWeight weight store (writes.map fst)
    after <= before ∧ (ks.Live store keys -> ¬ ks.KeepsKeys store writes -> after < before) := by
  induction writes generalizing store with
  | nil => exact ⟨by simp [rewrite], fun _ moves => absurd trivial moves⟩
  | cons write writes ih =>
    obtain ⟨target, value⟩ := write
    simp only [map_cons, nodup_cons, forall_mem_cons] at writesDistinct within positive
    have targetLive := live target (by simp)
    have tailLive : ks.Live store (writes.map fst) :=
      fun other present => live other (by simp [present])
    have := ks.totalWeight_set_le weight value targetLive distinct within.1
    obtain ⟨atMost, less⟩ := ih (Live.set ks value targetLive tailLive writesDistinct.1)
      writesDistinct.2 within.2 positive.2
    have := ks.totalWeight_set_live weight value targetLive tailLive writesDistinct.1
    simp only [rewrite, map_cons, sum_cons, totalWeight_cons]
    refine ⟨by omega, fun allLive moves => ?_⟩
    by_cases kept : (ks.set store target value).1 = target
    · have stillLive : ks.Live (ks.set store target value).2 keys := by
        intro other present
        by_cases equal : other = target
        · have stored := ks.get_set_self store target value targetLive
          rw [kept] at stored
          rw [equal, stored]
          rfl
        · rw [ks.get_set_live value targetLive (allLive other present) equal]
          exact allLive other present
      have := less stillLive fun keeps => moves ⟨kept, keeps⟩
      omega
    · have := ks.totalWeight_set_of_moved weight value allLive distinct within.1 kept
      have := positive.1
      omega

end Weight

end KeyedStore
end VexDB.Storage
