import VexDB.Sqlite.Vtab

/-!
# What the callbacks keep

Between two callbacks the graph in memory has the rows of `%_vectors`, and the
segments have them too unless the graph has changes to write.  A sync that
succeeds therefore leaves segments with the rows of `%_vectors`.
-/

namespace VexDB.Sqlite

open List Option Bool GraphBridge Vtab Nat

section Rows

/-- A row added to one of the lists. -/
theorem flatten_modify_concat_perm {α : Type*} (lists : List (List α)) (value : α)
    (inBounds : index < lists.length) :
    (lists.modify index (· ++ [value])).flatten.Perm (value :: lists.flatten) := by
  induction lists generalizing index with
  | nil => exact absurd inBounds (not_lt_zero _)
  | cons head rest ih =>
    cases index with
    | zero =>
      simp only [modify_zero_cons, flatten_cons, append_assoc]
      exact perm_middle
    | succ =>
      have below := ih (lt_of_succ_lt_succ inBounds)
      exact (below.append_left head).trans perm_middle

/-- A row taken from the first list that has it. -/
theorem flatten_modify_erase {α : Type*} [BEq α] [LawfulBEq α] (lists : List (List α)) (value : α)
    (found : lists.findIdx? (·.contains value) = some index) :
    (lists.modify index (·.erase value)).flatten = lists.flatten.erase value := by
  induction lists generalizing index with
  | nil => cases found
  | cons head rest ih =>
    rw [findIdx?_cons] at found
    by_cases here : head.contains value = true
    · rw [if_pos here] at found
      cases found
      exact (erase_append_left _ (contains_iff_mem.1 here)).symm
    · rw [if_neg here] at found
      obtain ⟨_, beforeFound, rfl⟩ := map_eq_some_iff.1 found
      have absent : value ∉ head := fun present => here (contains_iff_mem.2 present)
      simp only [modify_succ_cons, flatten_cons, ih beforeFound]
      exact (erase_append_right _ absent).symm

namespace GraphBridge

theorem removeTid_eq_some {graph after : GraphBridge} {rowid : Rowid}
    (removed : graph.removeTid rowid = some after) :
    after.elems.flatten = graph.elems.flatten.erase rowid ∧ rowid ∈ graph.elems.flatten ∧
      after.dirty = true := by
  obtain ⟨_, found, rfl⟩ := map_eq_some_iff.1 removed
  refine ⟨flatten_modify_erase _ _ found, ?_, rfl⟩
  obtain ⟨inBounds, contains, -⟩ := findIdx?_eq_some_iff_getElem.1 found
  exact mem_flatten.2 ⟨_, getElem_mem inBounds, contains_iff_mem.1 contains⟩

theorem insert_perm (graph : GraphBridge) (target : Option Nat) (rowid : Rowid) :
    (graph.insert target rowid).elems.flatten.Perm (rowid :: graph.elems.flatten) := by
  rw [insert]
  cases merged : graph.merges target with
  | none => simp
  | some =>
    have hasRows := (filter_eq_some_iff.1 merged).2
    refine flatten_modify_concat_perm graph.elems rowid ?_
    by_contra outside
    rw [getD_eq_getElem?_getD, getElem?_eq_none (Nat.le_of_not_lt outside)] at hasRows
    cases hasRows

theorem insertRows_perm (rows : List Rowid) (targets : List (Option Nat)) (graph : GraphBridge) :
    (graph.insertRows rows targets).elems.flatten.Perm (graph.elems.flatten ++ rows) := by
  induction rows generalizing graph targets with
  | nil => simp [insertRows]
  | cons rowid rows ih =>
    refine (ih _ _).trans ?_
    refine ((graph.insert_perm _ rowid).append_right rows).trans ?_
    exact perm_middle.symm

/-- Only a row that joins a node leaves the marks as they are. -/
theorem hasDirty_insert {graph : GraphBridge} {target : Option Nat} (rowid : Rowid)
    (marked : graph.hasDirty = false -> graph.merges target = none) :
    (graph.insert target rowid).hasDirty = true := by
  rw [insert]
  cases merged : graph.merges target with
  | none => simp [hasDirty]
  | some =>
    cases clean : graph.hasDirty with
    | false => cases (marked clean).symm.trans merged
    | true => exact clean

end GraphBridge

end Rows

/-- No meta segment, or the segments list the rows of `%_vectors`. -/
def Database.Consistent (db : Database) : Prop :=
  ∀ segments, db.graph = some segments -> segments.elems.flatten.Perm db.vectors

/-- The graph has changes that the next sync writes. -/
def Vtab.unwritten (vt : Vtab) : Bool :=
  match vt.graph with
  | none => false
  | some graph => if graph.isDiskMode then graph.hasDirty else vt.graphDirty

/-- Between two callbacks: the graph in memory has the rows of `%_vectors`, and
so have the segments unless there is something to write. -/
structure Sound (conn : Conn) : Prop where
  graph : ∀ graph, conn.vt.graph = some graph -> graph.elems.flatten.Perm conn.db.vectors
  consistent : conn.vt.unwritten = false -> conn.db.Consistent
  seen : conn.vt.unwritten = true -> conn.vt.cookieSeen = some conn.db.cookie
  counted : ∀ n, conn.vt.rowCount = some n -> n = conn.db.vectors.length

/-- Inside a callback: the graph and the segments may still have the rows of
before. -/
structure Working (rows : List Rowid) (conn : Conn) : Prop where
  graph : ∀ graph, conn.vt.graph = some graph -> graph.elems.flatten.Perm rows
  segments : conn.vt.unwritten = false -> ∀ segments, conn.db.graph = some segments ->
    segments.elems.flatten.Perm rows
  seen : conn.vt.cookieSeen = some conn.db.cookie
  counted : ∀ n, conn.vt.rowCount = some n -> n = conn.db.vectors.length

theorem Working.sound (working : Working conn.db.vectors conn) : Sound conn :=
  ⟨working.graph, working.segments, fun _ => working.seen, working.counted⟩

theorem Vtab.unwritten_of_none {vt : Vtab} (noGraph : vt.graph = none) : vt.unwritten = false := by
  rw [unwritten, noGraph]

/-- Without a graph in memory only the segments count. -/
theorem sound_of_none {conn : Conn} (noGraph : conn.vt.graph = none)
    (consistent : conn.db.Consistent)
    (counted : ∀ n, conn.vt.rowCount = some n -> n = conn.db.vectors.length) : Sound conn where
  graph graph isGraph := nomatch noGraph.symm.trans isGraph
  consistent _ := consistent
  seen unwritten := absurd (unwritten_of_none noGraph) (by simp [unwritten])
  counted := counted

section Callbacks

variable {config : Config} {answers : Answers} {rows : List Rowid} {conn : Conn} {rowid : Rowid}

theorem checkCookie_working (sound : Sound conn) :
    Working conn.db.vectors (checkCookie conn) ∧ (checkCookie conn).db = conn.db := by
  rw [checkCookie]
  by_cases same : conn.vt.cookieSeen = some conn.db.cookie
  · rw [if_pos same]
    exact ⟨⟨sound.graph, sound.consistent, same, sound.counted⟩, rfl⟩
  · rw [if_neg same]
    have written : conn.vt.unwritten = false := by
      by_contra unwritten
      exact same (sound.seen (by simpa using unwritten))
    refine ⟨?_, rfl⟩
    cases isSeen : conn.vt.cookieSeen.isSome with
    | true =>
      exact ⟨by simp, fun _ => sound.consistent written, rfl, by simp⟩
    | false =>
      exact ⟨sound.graph, fun _ => sound.consistent written, rfl, sound.counted⟩

/-- Counting the rows changes the cached count only. -/
theorem countVectors_working (working : Working rows conn) :
    Working rows (countVectors conn).2 ∧ (countVectors conn).2.db = conn.db ∧
      (countVectors conn).2.vt.graph = conn.vt.graph := by
  rw [countVectors]
  split
  · exact ⟨working, rfl, rfl⟩
  · refine ⟨⟨working.graph, working.segments, working.seen, ?_⟩, rfl, rfl⟩
    rintro _ isCount
    exact (some.inj isCount).symm

variable (config) in
theorem overLimit_working (working : Working rows conn) :
    Working rows (overLimit config conn).2 ∧ (overLimit config conn).2.db = conn.db ∧
      (overLimit config conn).2.vt.graph = conn.vt.graph := by
  rw [overLimit]
  split
  · exact ⟨working, rfl, rfl⟩
  · exact countVectors_working working

variable (config answers) in
theorem tryOpenGraph_working (working : Working rows conn) :
    Working rows (tryOpenGraph config answers conn) ∧
      (tryOpenGraph config answers conn).db = conn.db := by
  obtain ⟨counted, sameDb, sameGraph⟩ := overLimit_working config working
  rw [tryOpenGraph]
  cases isGraph : conn.vt.graph with
  | some => exact ⟨working, rfl⟩
  | none =>
    simp only
    cases found : (overLimit config conn).2.db.graph with
    | none => exact ⟨counted, sameDb⟩
    | some segments =>
      have rowsEq := counted.segments
        (unwritten_of_none (sameGraph.trans isGraph)) segments found
      by_cases opens : answers.opens = true
      · simp only [if_pos opens]
        refine ⟨⟨?_, ?_, counted.seen, counted.counted⟩, sameDb⟩
        · rintro _ isOpened
          cases isOpened
          exact rowsEq
        · intro _ _ isSegments
          cases found.symm.trans isSegments
          exact rowsEq
      · simp only [if_neg opens]
        exact ⟨counted, sameDb⟩

/-- Dropping the graph leaves nothing to be wrong, if the segments go. -/
theorem dropGraph_working (working : Working rows conn) (drops : answers.drops = true)
    (others : List Rowid) : Working others (dropGraph answers conn).1 := by
  rw [dropGraph, invalidatePersistedGraph]
  refine ⟨?_, ?_, working.seen, working.counted⟩
  · intro _ isGraph
    exact absurd isGraph (by simp [resetGraph])
  · intro _ _ isSegments
    rw [drops] at isSegments
    cases isSegments

/-- A changed graph is kept if the next sync will write it. -/
theorem keepGraph_working (working : Working rows conn) {graph : GraphBridge} {others : List Rowid}
    (rowsEq : graph.elems.flatten.Perm others)
    (marked : graph.isDiskMode = true -> graph.hasDirty = true) :
    Working others (keepGraph conn graph) := by
  have unwritten : (keepGraph conn graph).vt.unwritten = true := by
    rw [unwritten, keepGraph]
    simp only
    split
    next isDisk => exact marked isDisk
    next => rfl
  refine ⟨?_, ?_, working.seen, working.counted⟩
  · rintro _ isGraph
    cases isGraph
    exact rowsEq
  · intro written
    cases unwritten.symm.trans written

/-- The call succeeds, or fails otherwise than by keeping stale segments. -/
def Reliable (answers : Answers) (result : Conn × Bool) : Prop :=
  result.2 = true ∨ (answers.drops = true ∧ answers.prepares = true)

section

variable (working : Working rows conn)
include working

theorem dropGraph_sound (reliable : Reliable answers (dropGraph answers conn)) :
    Sound (dropGraph answers conn).1 :=
  (dropGraph_working working (reliable.elim id And.left) _).sound

/-- Rows of `%_vectors` change while the graph still has those of before. -/
theorem Working.withVectors {vectors : List Rowid} {rowCount : Option Nat}
    (counted : ∀ n, rowCount = some n -> n = vectors.length) :
    Working rows ⟨{ conn.db with vectors := vectors }, { conn.vt with rowCount := rowCount }⟩ :=
  { working with counted }

omit working in
theorem deleteRow_sound (working : Working conn.db.vectors conn)
    (reliable : Reliable answers (deleteRow config answers rowid conn)) :
    Sound (deleteRow config answers rowid conn).1 := by
  rw [deleteRow] at reliable ⊢
  by_cases absent : rowid ∉ conn.db.vectors
  · rw [if_pos absent]
    exact working.sound
  · rw [if_neg absent] at reliable ⊢
    have present : rowid ∈ conn.db.vectors := not_not.1 absent
    have counted : ∀ n, conn.vt.rowCount.map (· - 1) = some n ->
        n = (conn.db.vectors.erase rowid).length := by
      intro n isCount
      obtain ⟨before, isBefore, rfl⟩ := map_eq_some_iff.1 isCount
      rw [working.counted before isBefore, length_erase_of_mem present]
    obtain ⟨opened, sameDb⟩ := tryOpenGraph_working config answers (working.withVectors counted)
    generalize tryOpenGraph config answers _ = conn' at opened sameDb reliable ⊢
    cases removed : conn'.vt.graph.bind (·.removeTid rowid) with
    | none =>
      simp only [removed] at reliable ⊢
      exact dropGraph_sound opened reliable
    | some graph =>
      simp only [removed] at reliable ⊢
      by_cases dead : tooManyDead graph = true
      · rw [if_pos dead] at reliable ⊢
        exact dropGraph_sound opened reliable
      · rw [if_neg dead]
        obtain ⟨before, isGraph, isRemoved⟩ := bind_eq_some_iff.1 removed
        obtain ⟨rowsEq, -, dirty⟩ := removeTid_eq_some isRemoved
        refine (keepGraph_working opened ?_ ?_).sound
        · rw [rowsEq]
          show (before.elems.flatten.erase rowid).Perm conn'.db.vectors
          rw [sameDb]
          exact (opened.graph before isGraph).erase rowid
        · exact fun _ => by simp [hasDirty, dirty]

/-- What `INSERT` and `UPDATE` do to the graph keeps it sound, when the rows of
`%_vectors` have changed accordingly. -/
theorem maintainGraph_sound (inserted : oldRowid = none -> conn.db.vectors.Perm (rowid :: rows))
    (moved : ∀ old, oldRowid = some old -> old ∈ rows ->
      conn.db.vectors.Perm (rowid :: rows.erase old))
    (marked : oldRowid = none -> ∀ graph, (tryOpenGraph config answers conn).vt.graph = some graph →
      graph.isDiskMode = true -> graph.hasDirty = false -> graph.merges answers.target = none)
    (reliable : Reliable answers (maintainGraph config answers oldRowid rowid vecChanged conn)) :
    Sound (maintainGraph config answers oldRowid rowid vecChanged conn).1 := by
  rw [maintainGraph] at reliable ⊢
  obtain ⟨opened, sameDb⟩ := tryOpenGraph_working config answers working
  generalize tryOpenGraph config answers conn = conn' at opened sameDb marked reliable ⊢
  generalize isRemoved : conn'.vt.graph.bind _ = removed at reliable ⊢
  cases removed with
  | none => exact dropGraph_sound opened reliable
  | some graph =>
    simp only at reliable ⊢
    obtain ⟨before, isGraph, removedEq⟩ := bind_eq_some_iff.1 isRemoved
    -- The row list of the graph once the new row is in.
    have rowsEq : (graph.insert answers.target rowid).elems.flatten.Perm conn'.db.vectors := by
      refine (graph.insert_perm answers.target rowid).trans ?_
      rw [sameDb]
      cases oldRowid with
      | none =>
        obtain rfl := some.inj removedEq
        exact ((opened.graph before isGraph).cons rowid).trans (inserted rfl).symm
      | some old =>
        obtain ⟨flat, present, -⟩ := removeTid_eq_some removedEq
        have beforeRows := opened.graph before isGraph
        rw [flat]
        exact ((beforeRows.erase old).cons rowid).trans
          (moved old rfl (beforeRows.mem_iff.1 present)).symm
    have isMarked : (graph.insert answers.target rowid).isDiskMode = true ->
        (graph.insert answers.target rowid).hasDirty = true := by
      intro isDisk
      refine hasDirty_insert rowid fun clean => ?_
      cases oldRowid with
      | none =>
        obtain rfl := some.inj removedEq
        refine marked rfl before isGraph ?_ clean
        rw [GraphBridge.insert] at isDisk
        split at isDisk <;> exact isDisk
      | some =>
        obtain ⟨-, -, dirty⟩ := removeTid_eq_some removedEq
        exact absurd clean (by simp [hasDirty, dirty])
    by_cases unprepared : (!vecChanged && !answers.prepares) = true
    · rw [if_pos unprepared] at reliable
      have prepares := (reliable.resolve_left (by simp)).2
      exact absurd unprepared (by simp [prepares])
    rw [if_neg unprepared] at reliable ⊢
    by_cases missing : (!vecChanged && !answers.fetches) = true
    · rw [if_pos missing] at reliable ⊢
      exact dropGraph_sound opened reliable
    rw [if_neg missing] at reliable ⊢
    by_cases throws : (!answers.inserts) = true
    · rw [if_pos throws] at reliable ⊢
      exact dropGraph_sound opened (.inr (reliable.resolve_left (by simp)))
    rw [if_neg throws] at reliable ⊢
    by_cases dead : tooManyDead (graph.insert answers.target rowid) = true
    · rw [if_pos dead] at reliable ⊢
      exact dropGraph_sound opened reliable
    · rw [if_neg dead]
      exact (keepGraph_working opened rowsEq isMarked).sound

end

/-- A row that joins a node of the open graph finds the graph marked already. -/
def Marked (config : Config) (answers : Answers) (conn : Conn) : Request -> Prop
  | .insert rowid => ∀ graph,
      (tryOpenGraph config answers (addRow rowid (checkCookie conn))).vt.graph = some graph ->
        graph.isDiskMode = true -> graph.hasDirty = false -> graph.merges answers.target = none
  | _ => True

theorem insertRow_sound (working : Working conn.db.vectors conn)
    (marked : ∀ graph, (tryOpenGraph config answers (addRow rowid conn)).vt.graph = some graph ->
      graph.isDiskMode = true -> graph.hasDirty = false -> graph.merges answers.target = none)
    (reliable : Reliable answers (insertRow config answers rowid conn)) :
    Sound (insertRow config answers rowid conn).1 := by
  rw [insertRow] at reliable ⊢
  split
  · exact working.sound
  next absent =>
    rw [if_neg absent] at reliable
    have counted : ∀ n, conn.vt.rowCount.map (· + 1) = some n ->
        n = (conn.db.vectors.orderedInsert (· <= ·) rowid).length := by
      intro n isCount
      obtain ⟨before, isBefore, rfl⟩ := map_eq_some_iff.1 isCount
      rw [working.counted before isBefore, orderedInsert_length]
    exact maintainGraph_sound (working.withVectors counted)
      (fun _ => perm_orderedInsert _ _ _) nofun
      (fun _ => marked) reliable

theorem moveRow_eq_some {rows after : List Rowid}
    (moved : moveRow oldRowid newRowid rows = some after) :
    (oldRowid ∈ rows -> after.Perm (newRowid :: rows.erase oldRowid)) ∧
      (oldRowid ∉ rows -> after = rows) := by
  rw [moveRow] at moved
  by_cases absent : oldRowid ∉ rows
  · rw [if_pos absent] at moved
    exact ⟨fun present => absurd present absent, fun _ => (some.inj moved).symm⟩
  · rw [if_neg absent] at moved
    split at moved
    · cases moved
    · cases moved
      exact ⟨fun _ => perm_orderedInsert _ _ _, fun other => absurd other absent⟩

theorem updateRow_sound (working : Working conn.db.vectors conn)
    (reliable : Reliable answers (updateRow config answers oldRowid newRowid vecChanged conn)) :
    Sound (updateRow config answers oldRowid newRowid vecChanged conn).1 := by
  rw [updateRow] at reliable ⊢
  cases isMoved : moveRow oldRowid newRowid conn.db.vectors with
  | none => exact working.sound
  | some rows =>
    obtain ⟨moved, kept⟩ := moveRow_eq_some isMoved
    have sameLength : rows.length = conn.db.vectors.length := by
      by_cases present : oldRowid ∈ conn.db.vectors
      · have := length_pos_of_mem present
        rw [(moved present).length_eq, length_cons, length_erase_of_mem present]
        omega
      · rw [kept present]
    have changed : Working conn.db.vectors { conn with db := { conn.db with vectors := rows } } :=
      working.withVectors fun n isCount => (working.counted n isCount).trans sameLength.symm
    simp only [isMoved] at reliable ⊢
    split
    next same =>
      -- Neither the vector nor the row number changes.
      have sameRows : rows.Perm conn.db.vectors := by
        have sameRowid : newRowid = oldRowid := by
          simpa using (and_eq_true_iff.1 same).2
        subst sameRowid
        by_cases present : newRowid ∈ conn.db.vectors
        · exact (moved present).trans (perm_cons_erase present).symm
        · rw [kept present]
      exact Working.sound ⟨fun graph isGraph => (changed.graph graph isGraph).trans sameRows.symm,
        fun written segments isSegments =>
          (changed.segments written segments isSegments).trans sameRows.symm,
        changed.seen, changed.counted⟩
    next different =>
      rw [if_neg different] at reliable
      refine maintainGraph_sound changed nofun ?_
        nofun reliable
      rintro _ isOld present
      cases isOld
      exact moved present

variable (config answers) in
/-- Loading or building the graph keeps the table sound. -/
theorem ensureGraph_working (working : Working conn.db.vectors conn) :
    Working conn.db.vectors (ensureGraph config answers conn).1 ∧
      (ensureGraph config answers conn).1.db = conn.db := by
  obtain ⟨opened, sameDb⟩ := tryOpenGraph_working config answers working
  obtain ⟨counted, sameDbAgain, -⟩ := overLimit_working config opened
  rw [ensureGraph]
  simp only
  split
  · exact ⟨opened, sameDb⟩
  split
  · exact ⟨counted, sameDbAgain.trans sameDb⟩
  rw [rebuildInMemory]
  split
  · refine ⟨keepGraph_working counted ?_ nofun,
      sameDbAgain.trans sameDb⟩
    rw [sameDbAgain, sameDb]
    exact config.buildBulk_perm _
  · exact ⟨counted, sameDbAgain.trans sameDb⟩

theorem runCommand_sound (working : Working conn.db.vectors conn)
    (reliable : Reliable answers (runCommand config answers conn command)) :
    Sound (runCommand config answers conn command).1 := by
  cases command with
  | graphMemoryLimit limit =>
    have limited : Working conn.db.vectors
        { conn with vt := { conn.vt with graphMemoryLimit := limit } } :=
      { working with }
    exact dropGraph_sound limited reliable
  | bruteForceThreshold =>
    exact Working.sound { working with }
  | signatureBuild =>
    obtain ⟨ensured, sameDb⟩ := ensureGraph_working config answers working
    rw [<- sameDb] at ensured
    rw [runCommand]
    simp only
    cases isGraph : (ensureGraph config answers conn).1.vt.graph with
    | none => exact ensured.sound
    | some graph =>
      simp only
      split
      · refine Working.sound (keepGraph_working ensured ?_ ?_)
        · exact ensured.graph graph isGraph
        · exact fun _ => by simp [hasDirty]
      · exact ensured.sound

/-- `vtabUpdate` keeps the table sound. -/
theorem vtabUpdate_sound (sound : Sound conn) (marked : Marked config answers conn request)
    (reliable : Reliable answers (vtabUpdate config answers request conn)) :
    Sound (vtabUpdate config answers request conn).1 := by
  obtain ⟨working, sameDb⟩ := checkCookie_working sound
  rw [<- sameDb] at working
  unfold vtabUpdate at reliable ⊢
  by_cases rejected : (!answers.writesRow) = true
  · rw [if_pos rejected]
    exact working.sound
  · rw [if_neg rejected] at reliable ⊢
    cases request with
    | delete => exact deleteRow_sound working reliable
    | insert => exact insertRow_sound working marked reliable
    | update => exact updateRow_sound working reliable
    | command => exact runCommand_sound working reliable

variable (config answers) in
/-- A query keeps the table sound. -/
theorem vtabFilter_sound (sound : Sound conn) : Sound (vtabFilter config answers conn) := by
  obtain ⟨working, sameDb⟩ := checkCookie_working sound
  obtain ⟨counted, sameDbAgain, -⟩ := countVectors_working working
  rw [<- sameDb, <- sameDbAgain] at counted
  rw [vtabFilter]
  simp only
  split
  · obtain ⟨ensured, sameDbEnsured⟩ := ensureGraph_working config answers counted
    rw [<- sameDbEnsured] at ensured
    exact ensured.sound
  · exact counted.sound

end Callbacks

section Sync

variable {config : Config} {answers : Answers} {conn : Conn} {graph : GraphBridge}

/-- A graph that was just written has nothing left to write. -/
theorem serializeV2_sound (rowsEq : graph.elems.flatten.Perm conn.db.vectors)
    (clean : graph.isDiskMode = true ∨ conn.vt.graphDirty = false)
    (counted : ∀ n, conn.vt.rowCount = some n -> n = conn.db.vectors.length) :
    Sound (serializeV2 conn graph) ∧ (serializeV2 conn graph).vt.unwritten = false := by
  have written : (serializeV2 conn graph).vt.unwritten = false := by
    rw [unwritten, serializeV2]
    simp only
    split
    · rfl
    next inMemory => exact clean.resolve_left inMemory
  refine ⟨⟨?_, ?_, ?_, counted⟩, written⟩
  · rintro _ isGraph
    cases isGraph
    exact rowsEq
  · rintro _ _ isSegments
    cases isSegments
    exact rowsEq
  · intro unwritten
    cases written.symm.trans unwritten

/-- A two-phase build leaves no row out: the rows of the first phase are all
there are, or end in a positive number. -/
def BuildsAll (config : Config) (conn : Conn) : Prop :=
  ∀ lastRowid, (conn.db.vectors.take
      (max (config.budgetRows conn.vt.graphMemoryLimit) 1024)).getLast? = some lastRowid ->
    max (config.budgetRows conn.vt.graphMemoryLimit) 1024 < conn.db.vectors.length ->
      0 < lastRowid

variable (answers) in
theorem buildTwoPhase_sound (counted : ∀ n, conn.vt.rowCount = some n -> n = conn.db.vectors.length)
    (noGraph : conn.vt.graph = none) (noSegments : conn.db.graph = none)
    (builds : BuildsAll config conn)
    (succeeds : (buildTwoPhase config answers conn.db.vectors.length conn).2 = true) :
    let after := (buildTwoPhase config answers conn.db.vectors.length conn).1
    Sound after ∧ after.vt.unwritten = false := by
  rw [buildTwoPhase] at succeeds ⊢
  simp only at succeeds ⊢
  generalize first : max (config.budgetRows conn.vt.graphMemoryLimit) 1024 = limit
    at succeeds ⊢
  have sameRows : conn.db.vectors.take (min limit conn.db.vectors.length) =
      conn.db.vectors.take limit := by
    rcases le_total limit conn.db.vectors.length with fits | above
    · rw [min_eq_left fits]
    · rw [min_eq_right above, take_length, take_of_length_le above]
  have consistent : conn.db.Consistent := fun segments isSegments =>
    nomatch noSegments.symm.trans isSegments
  cases isLast : (conn.db.vectors.take (min limit conn.db.vectors.length)).getLast? with
  | none =>
    exact ⟨sound_of_none noGraph consistent counted, unwritten_of_none noGraph⟩
  | some lastRowid =>
    simp only [isLast, invalidatePersistedGraph] at succeeds ⊢
    have built : answers.builds = true := by
      by_contra fails
      exact absurd succeeds (by simp [fails])
    have writes : (!answers.drops || !answers.serializes) = false := by
      rw [<- not_eq_true]
      intro fails
      exact absurd succeeds (by rw [if_neg (by simp [built]), if_pos fails]; simp)
    have opens : answers.opens = true := by
      by_contra fails
      exact absurd succeeds (by simp [built, writes, fails])
    simp only [built, writes, opens, Bool.not_true, false_eq_true, if_false] at succeeds ⊢
    have firstRows : (config.buildBulk
        (conn.db.vectors.take (min limit conn.db.vectors.length))).flatten.Perm
          (conn.db.vectors.take (min limit conn.db.vectors.length)) :=
      config.buildBulk_perm _
    by_cases streams : 0 < lastRowid ∧ min limit conn.db.vectors.length < conn.db.vectors.length
    · rw [if_pos streams] at succeeds ⊢
      have inserts : ¬ (!answers.inserts) = true := by
        intro fails
        exact absurd succeeds (by rw [if_pos fails]; simp)
      rw [if_neg inserts]
      refine serializeV2_sound ?_ (.inr rfl) counted
      refine (insertRows_perm _ _ _).trans ?_
      refine (firstRows.append_right _).trans ?_
      rw [take_append_drop]
    · rw [if_neg streams]
      refine serializeV2_sound ?_ (.inr rfl) counted
      have whole : conn.db.vectors.length <= limit := by
        by_contra more
        have fewer : limit < conn.db.vectors.length := Nat.lt_of_not_le more
        rw [sameRows] at isLast
        subst first
        exact streams ⟨builds lastRowid isLast fewer, by omega⟩
      refine firstRows.trans ?_
      rw [sameRows, take_of_length_le whole]

variable (config) in
/-- Counting and measuring change the cached count only. -/
theorem measured_sound (sound : Sound conn) (noGraph : conn.vt.graph = none) :
    let counted := countVectors conn
    let measured := overLimit config counted.2
    counted.1 = conn.db.vectors.length ∧ Sound measured.2 ∧ measured.2.vt.graph = none ∧
      measured.2.db = conn.db ∧
      measured.2.vt.graphMemoryLimit = conn.vt.graphMemoryLimit := by
  have counts : ∀ other : Conn, other.vt.graph = none -> Sound other ->
      (countVectors other).1 = other.db.vectors.length ∧ Sound (countVectors other).2 ∧
        (countVectors other).2.vt.graph = none ∧ (countVectors other).2.db = other.db ∧
        (countVectors other).2.vt.graphMemoryLimit = other.vt.graphMemoryLimit := by
    intro _ isNone otherSound
    rw [countVectors]
    split
    next n isCount => exact ⟨otherSound.counted n isCount, otherSound, isNone, rfl, rfl⟩
    next =>
      refine ⟨rfl, sound_of_none isNone
        (otherSound.consistent (unwritten_of_none isNone)) ?_, isNone, rfl, rfl⟩
      intro n isCount
      exact (some.inj isCount).symm
  obtain ⟨number, countedSound, countedNone, countedDb, countedLimit⟩ := counts conn noGraph sound
  refine ⟨number, ?_⟩
  rw [overLimit]
  split
  · exact ⟨countedSound, countedNone, countedDb, countedLimit⟩
  · obtain ⟨-, againSound, againNone, againDb, againLimit⟩ := counts _ countedNone countedSound
    exact ⟨againSound, againNone, againDb.trans countedDb, againLimit.trans countedLimit⟩

variable (answers) in
theorem recoverGraph_sound (sound : Sound conn)
    (builds : conn.vt.graph = none -> conn.db.graph = none -> BuildsAll config conn) :
    let result := recoverGraph config answers conn
    (result.2 = none -> Sound result.1) ∧
      (result.2 = some true -> Sound result.1 ∧ result.1.vt.unwritten = false) := by
  rw [recoverGraph]
  cases isGraph : conn.vt.graph with
  | some => exact ⟨fun _ => sound, nofun⟩
  | none =>
    obtain ⟨number, measured, noGraph, sameDb, sameLimit⟩ :=
      measured_sound config sound isGraph
    simp only [isSome_none, false_eq_true, if_false]
    generalize overLimit config (countVectors conn).2 = limited
      at measured noGraph sameDb sameLimit ⊢
    obtain ⟨_, conn'⟩ := limited
    simp only at measured noGraph sameDb sameLimit ⊢
    have written := unwritten_of_none noGraph
    split
    · exact ⟨nofun, fun _ => ⟨measured, written⟩⟩
    split
    · exact ⟨nofun, fun _ => ⟨measured, written⟩⟩
    next noSegments =>
      have isNone : conn'.db.graph = none := by simpa using noSegments
      have buildsHere : BuildsAll config conn' := by
        have before := builds isGraph (sameDb ▸ isNone)
        rw [BuildsAll] at before ⊢
        rw [sameDb, sameLimit]
        exact before
      have built := buildTwoPhase_sound answers measured.counted noGraph isNone buildsHere
      rw [number, <- sameDb]
      generalize buildTwoPhase config answers conn'.db.vectors.length conn' = result at built ⊢
      obtain ⟨_, succeeds⟩ := result
      cases succeeds with
      | false => exact ⟨nofun, fun returned =>
        absurd returned (by simp)⟩
      | true =>
        obtain ⟨afterSound, afterWritten⟩ := built rfl
        simp only [Bool.not_true, false_eq_true, if_false]
        split
        · exact ⟨nofun, fun _ =>
            ⟨afterSound, afterWritten⟩⟩
        · exact ⟨fun _ => { afterSound with }, nofun⟩

theorem writeGraph_sound (sound : Sound conn)
    (isGraph : conn.vt.graph = some graph) (succeeds : (writeGraph answers conn graph).2 = true) :
    let after := (writeGraph answers conn graph).1
    Sound after ∧ after.vt.unwritten = false := by
  have rowsEq := sound.graph graph isGraph
  rw [writeGraph] at succeeds ⊢
  by_cases isDisk : graph.isDiskMode = true
  · rw [if_pos isDisk] at succeeds ⊢
    split
    next clean =>
      refine ⟨sound, ?_⟩
      rw [unwritten, isGraph]
      simpa [isDisk] using clean
    next dirty =>
      rw [if_neg dirty] at succeeds
      split
      next fails => rw [if_pos fails] at succeeds; cases succeeds
      next => exact serializeV2_sound rowsEq (.inl isDisk) sound.counted
  · rw [if_neg isDisk] at succeeds ⊢
    split
    next clean =>
      refine ⟨sound, ?_⟩
      rw [unwritten, isGraph]
      simpa [isDisk] using clean
    next dirty =>
      rw [if_neg dirty] at succeeds
      split
      next fails => rw [if_pos fails] at succeeds; cases succeeds
      next dropped =>
        rw [if_neg dropped] at succeeds
        split
        next fails => rw [if_pos fails] at succeeds; cases succeeds
        next => exact serializeV2_sound rowsEq (.inr rfl) sound.counted

variable (answers) in
/-- A sync that succeeds leaves segments with the rows of `%_vectors`. -/
theorem vtabSync_sound (sound : Sound conn)
    (builds : conn.vt.graph = none -> conn.db.graph = none -> BuildsAll config conn)
    (succeeds : (vtabSync config answers conn).2 = true) :
    let after := (vtabSync config answers conn).1
    Sound after ∧ after.db.Consistent := by
  have synced : (syncImpl config answers conn).2 = true -> Sound (syncImpl config answers conn).1 ∧
      (syncImpl config answers conn).1.vt.unwritten = false := by
    obtain ⟨goesOn, returns⟩ := recoverGraph_sound answers sound builds
    rw [syncImpl]
    generalize recoverGraph config answers conn = recovered at goesOn returns ⊢
    obtain ⟨conn', result⟩ := recovered
    cases result with
    | some =>
      rintro rfl
      exact returns rfl
    | none =>
      simp only
      cases isGraph : conn'.vt.graph with
      | none => exact fun _ => ⟨goesOn rfl, unwritten_of_none isGraph⟩
      | some => exact writeGraph_sound (goesOn rfl) isGraph
  rw [vtabSync] at succeeds ⊢
  generalize syncImpl config answers conn = result at synced succeeds ⊢
  obtain ⟨_, _⟩ := result
  simp only at synced succeeds ⊢
  split
  next bumped =>
    obtain ⟨afterSound, written⟩ := synced (and_eq_true_iff.1 bumped).1
    refine ⟨⟨afterSound.graph, afterSound.consistent, ?_, afterSound.counted⟩,
      afterSound.consistent written⟩
    intro unwritten
    cases written.symm.trans unwritten
  next same =>
    rw [if_neg same] at succeeds
    obtain ⟨afterSound, written⟩ := synced succeeds
    exact ⟨afterSound, afterSound.consistent written⟩

end Sync

end VexDB.Sqlite
