import Mathlib.Data.List.Nodup
import Mathlib.Logic.Function.Iterate

/-!
# Scans that restart a search

A search of a given width returns rows and says whether a wider one may find
more.  A scan runs a search, reports its rows, and at their end runs a wider one,
of whose rows it reports those that no earlier search returned.  The scan ends
when a search says that there is no more or when the width cannot grow.
-/

namespace VexDB.Storage
namespace Restart

open List Nat Prod

variable {K D : Type*} [DecidableEq K] {width count : Nat} {seen : List K}

/-- What a search of one width returns. -/
structure Round (K D : Type*) where
  rows : List (K × D)
  more : Bool

/-- The position of a scan: the rows of the last search, those of them that are
still to come, and the keys of the rows of earlier searches. -/
structure Cursor (K D : Type*) where
  width : Nat
  found : List (K × D)
  pending : List (K × D)
  returned : List K
  more : Bool

/-- What a scan does next. -/
inductive Outcome (K D : Type*)
  | report (row : K × D) (cursor : Cursor K D)
  | again (cursor : Cursor K D)
  | stop

section

variable (search : Nat -> Round K D) (next : Nat -> Nat)

/-- A cursor after a search. -/
def Cursor.after (width : Nat) (returned : List K) : Cursor K D :=
  ⟨width, (search width).rows, (search width).rows, returned, (search width).more⟩

/-- One step of a scan: pass a row, or run the next search. -/
def Cursor.step (cursor : Cursor K D) : Outcome K D :=
  match cursor.pending with
  | row :: rest =>
    if row.1 ∈ cursor.returned then .again { cursor with pending := rest }
    else .report row { cursor with pending := rest }
  | [] =>
    if cursor.more = false then .stop
    else if next cursor.width <= cursor.width then .stop
    else .again (Cursor.after search (next cursor.width)
      (cursor.returned ++ cursor.found.map Prod.fst))

/-- A scan from a cursor ends after it has reported the rows of a list. -/
inductive Drains : Cursor K D -> List (K × D) -> Prop
  | report {cursor later : Cursor K D} {row : K × D} {rows : List (K × D)} :
      cursor.step search next = .report row later -> Drains later rows → Drains cursor (row :: rows)
  | again {cursor later : Cursor K D} {rows : List (K × D)} :
      cursor.step search next = .again later -> Drains later rows -> Drains cursor rows
  | stop {cursor : Cursor K D} : cursor.step search next = .stop -> Drains cursor []

/-- No search follows one of this width. -/
def Ends (width : Nat) : Prop := (search width).more = true -> next width <= width

/-- The last search of a scan that begins with a width. -/
structure LastRound (width last : Nat) : Prop where
  ends : Ends search next (next^[last] width)
  goesOn : ∀ round < last, ¬ Ends search next (next^[round] width)

/-- The rows that some searches from a width on report, after those with the given
keys. -/
def fresh (seen : List K) (width : Nat) : Nat -> List (K × D)
  | 0 => []
  | count + 1 =>
    (search width).rows.filter (fun row => decide (row.1 ∉ seen)) ++
      fresh (seen ++ (search width).rows.map Prod.fst) (next width) count

variable {search next}

/-- What a scan reports is determined. -/
theorem Drains.unique
    (drains : Drains search next cursor rows) (drains' : Drains search next cursor other) :
    rows = other := by
  induction drains generalizing other with
  | report stepped _ ih =>
    cases drains' with
    | report stepped' rest =>
      rw [stepped, Outcome.report.injEq] at stepped'
      obtain ⟨rfl, rfl⟩ := stepped'
      rw [ih rest]
    | again stepped' => exact nomatch stepped.symm.trans stepped'
    | stop stepped' => exact nomatch stepped.symm.trans stepped'
  | again stepped _ ih =>
    cases drains' with
    | report stepped' => exact nomatch stepped.symm.trans stepped'
    | again stepped' rest =>
      rw [stepped, Outcome.again.injEq] at stepped'
      subst stepped'
      exact ih rest
    | stop stepped' => exact nomatch stepped.symm.trans stepped'
  | stop stepped =>
    cases drains' with
    | report stepped' => exact nomatch stepped.symm.trans stepped'
    | again stepped' => exact nomatch stepped.symm.trans stepped'
    | stop => rfl

section

omit [DecidableEq K]

theorem lastRound_succ :
    LastRound search next width (last + 1) ↔
      ¬ Ends search next width ∧ LastRound search next (next width) last := by
  constructor
  · rintro ⟨ends, goesOn⟩
    exact ⟨goesOn 0 (succ_pos _), ends,
      fun round earlier => goesOn (round + 1) (succ_lt_succ earlier)⟩
  · rintro ⟨first, ends, goesOn⟩
    refine ⟨ends, fun round earlier => ?_⟩
    cases round with
    | zero => exact first
    | succ round => exact goesOn round (lt_of_succ_lt_succ earlier)

/-- A scan whose widths are bounded comes to its last search. -/
theorem exists_lastRound (search : Nat -> Round K D)
    (bounded : ∀ width, next width <= limit) (width : Nat) :
    ∃ last, LastRound search next width last := by
  induction gap : limit - width using Nat.strongRecOn generalizing width with
  | ind gap ih =>
    by_cases ends : Ends search next width
    · exact ⟨0, ends, nofun⟩
    · have : width < next width := by
        by_contra stays
        exact ends fun _ => Nat.le_of_not_lt stays
      have := bounded width
      obtain ⟨last, rest⟩ := ih (limit - next width) (by omega) (next width) rfl
      exact ⟨last + 1, lastRound_succ.2 ⟨ends, rest⟩⟩

end

/-- The rows still to come are reported unless they were returned before. -/
theorem Drains.pending (cursor : Cursor K D) {tail : List (K × D)}
    (drains : Drains search next { cursor with pending := [] } tail) (pending : List (K × D)) :
    Drains search next { cursor with pending := pending }
      (pending.filter (fun row => decide (row.1 ∉ cursor.returned)) ++ tail) := by
  induction pending with
  | nil => exact drains
  | cons row rest ih =>
    by_cases passed : row.1 ∈ cursor.returned
    · rw [filter_cons_of_neg (by simpa using passed)]
      exact .again (if_pos passed) ih
    · rw [filter_cons_of_pos (by simpa using passed)]
      exact .report (if_neg passed) ih

/-- A scan reports what each of its searches is the first to find. -/
theorem LastRound.drains (isLast : LastRound search next width last) (returned : List K) :
    Drains search next (Cursor.after search width returned)
      (fresh search next returned width (last + 1)) := by
  induction last generalizing width returned with
  | zero =>
    refine Drains.pending (Cursor.after search width returned) (.stop ?_) _
    have ends : Ends search next width := isLast.ends
    unfold Cursor.step Cursor.after
    by_cases more : (search width).more = true
    · simp [ends more]
    · simp [more]
  | succ last ih =>
    obtain ⟨goesOn, rest⟩ := lastRound_succ.1 isLast
    obtain ⟨more, grows⟩ := Classical.not_imp.1 goesOn
    refine Drains.pending (Cursor.after search width returned) (.again ?_
      (ih rest (returned ++ (search width).rows.map fst))) _
    unfold Cursor.step Cursor.after
    simp [more, grows]

/-- A row that a search is the first to find. -/
def FirstFound (search : Nat -> Round K D) (next : Nat -> Nat) (seen : List K) (width round : Nat)
    (row : K × D) : Prop :=
  row ∈ (search (next^[round] width)).rows ∧ row.1 ∉ seen ∧
    ∀ earlier < round, row.1 ∉ (search (next^[earlier] width)).rows.map Prod.fst

omit [DecidableEq K] in
theorem firstFound_succ {round : Nat} {row : K × D} :
    FirstFound search next seen width (round + 1) row ↔
      FirstFound search next (seen ++ (search width).rows.map fst) (next width) round row := by
  unfold FirstFound
  rw [mem_append, not_or, forall_lt_succ_left]
  exact and_congr_right fun _ => and_assoc.symm

/-- A row is reported where it is found first. -/
theorem mem_fresh :
    row ∈ fresh search next seen width count ↔
      ∃ round < count, FirstFound search next seen width round row := by
  induction count generalizing seen width with
  | zero => simp [fresh]
  | succ count ih =>
    rw [fresh, mem_append, mem_filter, ih, decide_eq_true_eq]
    constructor
    · rintro (⟨member, unseen⟩ | ⟨round, inside, found⟩)
      · exact ⟨0, succ_pos _, member, unseen, nofun⟩
      · exact ⟨round + 1, succ_lt_succ inside, firstFound_succ.2 found⟩
    · rintro ⟨round, inside, found⟩
      cases round with
      | zero => exact .inl ⟨found.1, found.2.1⟩
      | succ round =>
        exact .inr ⟨round, lt_of_succ_lt_succ inside, firstFound_succ.1 found⟩

/-- The keys that are reported: those found and not returned before. -/
theorem mem_keys_fresh :
    key ∈ (fresh search next seen width count).map fst ↔
      key ∉ seen ∧ ∃ round < count, key ∈ (search (next^[round] width)).rows.map fst := by
  constructor
  · intro member
    obtain ⟨row, reported, rfl⟩ := mem_map.1 member
    obtain ⟨round, inside, found⟩ := mem_fresh.1 reported
    exact ⟨found.2.1, round, inside, mem_map_of_mem found.1⟩
  · rintro ⟨unseen, round, inside, found⟩
    induction round using Nat.strongRecOn with
    | ind round ih =>
      by_cases before : ∃ earlier < round, key ∈ (search (next^[earlier] width)).rows.map fst
      · obtain ⟨earlier, smaller, foundEarlier⟩ := before
        exact ih earlier smaller (Nat.lt_trans smaller inside) foundEarlier
      · obtain ⟨_, member, rfl⟩ := mem_map.1 found
        refine mem_map_of_mem (mem_fresh.2 ⟨round, inside, member, unseen, ?_⟩)
        exact fun earlier smaller foundEarlier => before ⟨earlier, smaller, foundEarlier⟩

/-- No key is reported twice if no search returns a key twice. -/
theorem nodup_keys_fresh (distinct : ∀ width, ((search width).rows.map fst).Nodup)
    (seen : List K) (width count : Nat) : ((fresh search next seen width count).map fst).Nodup := by
  induction count generalizing seen width with
  | zero => exact nodup_nil
  | succ count ih =>
    rw [fresh, map_append]
    refine List.Nodup.append ?_ (ih _ _) ?_
    · exact (distinct width).sublist (filter_sublist.map _)
    · intro _ first later
      obtain ⟨_, member, rfl⟩ := mem_map.1 first
      exact (mem_keys_fresh.1 later).1 (mem_append_right _
        (mem_map_of_mem (mem_filter.1 member).1))

end

end Restart
end VexDB.Storage
