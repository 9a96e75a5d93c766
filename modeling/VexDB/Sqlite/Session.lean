import VexDB.Sqlite.VtabSpec

/-!
# Sessions

A connection with its transaction: statements, savepoints, rollbacks and
commits in any order.  Every committed `%_graph` without a meta segment or with
the rows of `%_vectors` is kept so by every run in which nothing is rolled back
to a point where the graph had unwritten changes, no row joins a node of a graph
in disk mode that has nothing to write, and a two-phase build leaves no row out.
-/

namespace VexDB.Sqlite

open List

/-- What the core does when a call of a statement fails: roll back to the
savepoint of the statement, roll back the transaction, or, for a statement of
one row that has no savepoint, nothing. -/
inductive OnError where
  | rollbackTo
  | rollback
  | keep
  deriving DecidableEq, Repr

/-- What happens on a connection. -/
inductive Event where
  | statement (calls : List (Answers × Request)) (onError : OnError)
  | query (answers : Answers)
  | savepoint
  /-- Release a savepoint, counted from the innermost. -/
  | release (depth : Nat)
  | rollbackTo (depth : Nat)
  | rollback
  /-- A commit; when it is busy the transaction stays open after the sync. -/
  | commit (answers : Answers) (busy : Bool)
  | reconnect (graphMemoryLimit bruteForceThreshold : Nat)
  deriving DecidableEq, Repr

/-- The graph has unwritten changes, and old segments that lack them. -/
def Conn.behind (conn : Conn) : Bool := conn.vt.unwritten && conn.db.graph.isSome

/-- An open savepoint: the database to go back to, and whether its segments
lacked changes of the graph then. -/
structure Savepoint where
  db : Database
  behind : Bool
  deriving DecidableEq, Repr

/-- A connection, the last committed database, and the open savepoints, the
innermost first. -/
structure Session where
  conn : Conn
  committed : Database
  savepoints : List Savepoint
  deriving DecidableEq, Repr

section Steps

variable (config : Config)

/-- A table that was just connected. -/
def Vtab.connect (graphMemoryLimit bruteForceThreshold : Nat) : Vtab :=
  ⟨none, false, none, none, false, graphMemoryLimit, bruteForceThreshold⟩

/-- A table that was just created. -/
def Session.create (graphMemoryLimit bruteForceThreshold : Nat) : Session :=
  ⟨⟨⟨[], none, 0⟩, Vtab.connect graphMemoryLimit bruteForceThreshold⟩, ⟨[], none, 0⟩, []⟩

/-- The calls of a statement up to the first that fails. -/
def runCalls : List (Answers × Request) -> Conn -> Conn × Bool
  | [], conn => (conn, true)
  | (answers, request) :: rest, conn =>
    match vtabUpdate config answers request conn with
    | (conn, true) => runCalls rest conn
    | (conn, false) => (conn, false)

/-- Roll back the whole transaction. -/
def Session.rollback (session : Session) (vt : Vtab) : Session :=
  ⟨⟨session.committed, vtabRollback vt⟩, session.committed, []⟩

/-- The session after an event. -/
def Event.run (session : Session) : Event -> Session
  | .statement calls onError =>
    match runCalls config calls session.conn with
    | (conn, true) => { session with conn := conn }
    | (conn, false) =>
      match onError with
      | .rollbackTo =>
        { session with conn := ⟨session.conn.db, vtabRollbackTo conn.vt⟩ }
      | .rollback => session.rollback conn.vt
      | .keep => { session with conn := conn }
  | .query answers => { session with conn := vtabFilter config answers session.conn }
  | .savepoint =>
    { session with
      savepoints := ⟨session.conn.db, session.conn.behind⟩ :: session.savepoints }
  | .release depth => { session with savepoints := session.savepoints.drop (depth + 1) }
  | .rollbackTo depth =>
    match session.savepoints[depth]? with
    | none => session
    | some target =>
      { session with
        conn := ⟨target.db, vtabRollbackTo session.conn.vt⟩
        savepoints := session.savepoints.drop depth }
  | .rollback => session.rollback session.conn.vt
  | .commit answers busy =>
    match vtabSync config answers session.conn with
    | (conn, true) =>
      if busy then { session with conn := conn } else ⟨conn, conn.db, []⟩
    | (conn, false) => session.rollback conn.vt
  | .reconnect graphMemoryLimit bruteForceThreshold =>
    ⟨⟨session.committed, Vtab.connect graphMemoryLimit bruteForceThreshold⟩,
      session.committed, []⟩

def runEvents (session : Session) (events : List Event) : Session :=
  events.foldl (Event.run config) session

/-- No call of the statement joins a row to a node of a graph in disk mode that
has nothing to write. -/
def CleanCalls : List (Answers × Request) -> Conn -> Prop
  | [], _ => True
  | (answers, request) :: rest, conn =>
    Marked config answers conn request ∧
      ((vtabUpdate config answers request conn).2 = true ->
        CleanCalls rest (vtabUpdate config answers request conn).1)

/-- The events that keep the segments in step. -/
def Event.Clean (session : Session) : Event -> Prop
  | .statement calls onError =>
    CleanCalls config calls session.conn ∧
      ((runCalls config calls session.conn).2 = false ->
        match onError with
        | .rollbackTo => session.conn.behind = false
        | .rollback => True
        | .keep => ∀ call ∈ calls, call.1.drops = true ∧ call.1.prepares = true)
  | .rollbackTo depth => ∀ savepoint, session.savepoints[depth]? = some savepoint ->
      savepoint.behind = false
  | .commit _ _ => session.conn.vt.graph = none -> session.conn.db.graph = none ->
      BuildsAll config session.conn
  | _ => True

/-- Every event of a run is clean where it happens. -/
def CleanEvents (session : Session) : List Event -> Prop
  | [] => True
  | event :: rest =>
    event.Clean config session ∧ CleanEvents (event.run config session) rest

end Steps

variable {config : Config} {session : Session}

/-- What a clean run keeps. -/
structure Session.Sound (session : Session) : Prop where
  conn : Sqlite.Sound session.conn
  committed : session.committed.Consistent
  savepoints : ∀ savepoint ∈ session.savepoints, savepoint.behind = false ->
    savepoint.db.Consistent

theorem Sound.consistent_of_behind (sound : Sound conn)
    (inStep : conn.behind = false) : conn.db.Consistent := by
  rw [Conn.behind, Bool.and_eq_false_iff] at inStep
  rcases inStep with written | noSegments
  · exact sound.consistent written
  · intro _ isSegments
    rw [isSegments] at noSegments
    cases noSegments

theorem sound_rollbackTo (consistent : db.Consistent) (vt : Vtab) : Sound ⟨db, vtabRollbackTo vt⟩ :=
  sound_of_none rfl consistent (by simp [vtabRollbackTo])

theorem sound_connect (consistent : db.Consistent) (graphMemoryLimit bruteForceThreshold : Nat) :
    Sound ⟨db, Vtab.connect graphMemoryLimit bruteForceThreshold⟩ :=
  sound_of_none rfl consistent (by simp [Vtab.connect])

theorem Session.Sound.rollback (sound : session.Sound) (vt : Vtab) :
    (session.rollback vt).Sound where
  conn := sound_of_none rfl sound.committed (by simp [Session.rollback, vtabRollback])
  committed := sound.committed
  savepoints := by simp [Session.rollback]

/-- The calls of a statement. -/
theorem runCalls_sound (sound : Sound conn) (calls : List (Answers × Request))
    (clean : CleanCalls config calls conn) (reliable : (runCalls config calls conn).2 = true ∨
      ∀ call ∈ calls, call.1.drops = true ∧ call.1.prepares = true) :
    Sound (runCalls config calls conn).1 := by
  induction calls generalizing conn with
  | nil => exact sound
  | cons call rest ih =>
    obtain ⟨answers, request⟩ := call
    obtain ⟨marked, cleanRest⟩ := clean
    have step := vtabUpdate_sound sound marked
    rw [runCalls] at reliable ⊢
    generalize vtabUpdate config answers request conn = result
      at step cleanRest reliable ⊢
    obtain ⟨_, succeeds⟩ := result
    cases succeeds with
    | true =>
      refine ih (step (.inl rfl)) (cleanRest rfl) ?_
      exact reliable.imp_right fun every call present =>
        every call (mem_cons_of_mem _ present)
    | false =>
      have every := reliable.resolve_left (by simp)
      exact step (.inr (every (answers, request) mem_cons_self))

/-- One clean event. -/
theorem Session.Sound.event (sound : session.Sound) {event : Event}
    (clean : event.Clean config session) : (event.run config session).Sound := by
  cases event with
  | statement calls onError =>
    obtain ⟨cleanCalls, onFailure⟩ := clean
    have calls := runCalls_sound sound.conn calls cleanCalls
    rw [Event.run]
    generalize runCalls config _ session.conn = result at calls onFailure ⊢
    obtain ⟨conn, succeeds⟩ := result
    cases succeeds with
    | true => exact ⟨calls (.inl rfl), sound.committed, sound.savepoints⟩
    | false =>
      have condition := onFailure rfl
      cases onError with
      | rollbackTo =>
        exact ⟨sound_rollbackTo (sound.conn.consistent_of_behind condition) _,
          sound.committed, sound.savepoints⟩
      | rollback => exact sound.rollback _
      | keep => exact ⟨calls (.inr condition), sound.committed, sound.savepoints⟩
  | query answers =>
    exact ⟨vtabFilter_sound config answers sound.conn, sound.committed, sound.savepoints⟩
  | savepoint =>
    refine ⟨sound.conn, sound.committed, ?_⟩
    intro savepoint present inStep
    rcases mem_cons.1 present with rfl | earlier
    · exact sound.conn.consistent_of_behind inStep
    · exact sound.savepoints savepoint earlier inStep
  | release depth =>
    exact ⟨sound.conn, sound.committed, fun savepoint present =>
      sound.savepoints savepoint (mem_of_mem_drop present)⟩
  | rollbackTo depth =>
    rw [Event.run]
    cases found : session.savepoints[depth]? with
    | none => exact sound
    | some savepoint =>
      have consistent := sound.savepoints savepoint (mem_of_getElem? found) (clean savepoint found)
      exact ⟨sound_rollbackTo consistent _, sound.committed, fun other present =>
        sound.savepoints other (mem_of_mem_drop present)⟩
  | rollback => exact sound.rollback _
  | commit answers =>
    have synced := vtabSync_sound answers sound.conn clean
    rw [Event.run]
    generalize vtabSync config answers session.conn = result at synced ⊢
    obtain ⟨conn, succeeds⟩ := result
    cases succeeds with
    | false => exact sound.rollback _
    | true =>
      obtain ⟨connSound, consistent⟩ := synced rfl
      simp only
      split
      · exact ⟨connSound, sound.committed, sound.savepoints⟩
      · exact ⟨connSound, consistent, nofun⟩
  | reconnect =>
    exact ⟨sound_connect sound.committed _ _, sound.committed,
      nofun⟩

/-- A clean run. -/
theorem Session.Sound.events (sound : session.Sound) (events : List Event)
    (clean : CleanEvents config session events) : (runEvents config session events).Sound := by
  induction events generalizing session with
  | nil => exact sound
  | cons event rest ih =>
    exact ih (sound.event clean.1) clean.2

theorem Session.sound_create (graphMemoryLimit bruteForceThreshold : Nat) :
    (Session.create graphMemoryLimit bruteForceThreshold).Sound := by
  have empty : Database.Consistent ⟨[], none, 0⟩ := fun _ isSegments =>
    absurd isSegments (by simp)
  exact ⟨sound_connect empty _ _, empty, nofun⟩

/-- The persisted elems segments name exactly the rows of `%_vectors`. -/
def Database.RowsPersisted (db : Database) : Prop :=
  db.graph = none ∨ ∃ segments, db.graph = some segments ∧
    ∀ rowid, rowid ∈ segments.elems.flatten ↔ rowid ∈ db.vectors

/-- After every commit of a clean run the segments name the rows of the table. -/
theorem committed_rowsPersisted (graphMemoryLimit bruteForceThreshold : Nat) (events : List Event)
    (clean : CleanEvents config (Session.create graphMemoryLimit bruteForceThreshold) events) :
    (runEvents config (Session.create graphMemoryLimit bruteForceThreshold)
      events).committed.RowsPersisted := by
  have sound := (Session.sound_create graphMemoryLimit bruteForceThreshold).events events clean
  cases isGraph : (runEvents config (.create graphMemoryLimit bruteForceThreshold)
      events).committed.graph with
  | none => exact .inl isGraph
  | some segments =>
    exact .inr ⟨segments, isGraph, fun rowid => (sound.committed segments isGraph).mem_iff⟩

/-- Every row is a node of its own and takes a hundred bytes. -/
def plainConfig : Config where
  estimateGraphBytes n := 100 * n
  budgetRows _ := 0
  buildBulk rows := rows.map fun rowid => [rowid]
  buildBulk_perm rows := by
    induction rows with
    | nil => exact List.Perm.refl _
    | cons rowid rest ih => exact ih.cons rowid

/-- A statement that inserts one row. -/
def insertStatement (rowid : Rowid) : Event := .statement [({}, .insert rowid)] .rollbackTo

theorem committed_rowsPersisted_sample :
    CleanEvents plainConfig (Session.create 1 0)
        [insertStatement 1, .commit {} false, .savepoint, insertStatement 2, .rollbackTo 0,
          insertStatement 3, .commit {} false] ∧
      (runEvents plainConfig (Session.create 1 0)
        [insertStatement 1, .commit {} false, .savepoint, insertStatement 2, .rollbackTo 0,
          insertStatement 3, .commit {} false]).committed.RowsPersisted := by
  have statement : ∀ (session : Session) (rowid : Rowid),
      (runCalls plainConfig [({}, .insert rowid)] session.conn).2 = true ->
        (insertStatement rowid).Clean plainConfig session := by
    intro session _ succeeds
    refine ⟨⟨fun _ _ _ _ => rfl, fun _ => trivial⟩, fun fails => ?_⟩
    cases succeeds.symm.trans fails
  have commit : ∀ session : Session, session.conn.db.vectors.length <= 1024 ->
      (Event.commit {} false).Clean plainConfig session := by
    intro _ few _ _ _ _ more
    exact absurd (Nat.lt_of_le_of_lt (Nat.le_max_right _ _) more) (Nat.not_lt.2 few)
  have clean : CleanEvents plainConfig (.create 1 0)
      [insertStatement 1, .commit {} false, .savepoint, insertStatement 2, .rollbackTo 0,
        insertStatement 3, .commit {} false] := by
    refine ⟨statement _ _ (by decide +kernel), commit _ (by decide +kernel), trivial,
      statement _ _ (by decide +kernel), ?_, statement _ _ (by decide +kernel),
      commit _ (by decide +kernel), trivial⟩
    intro _ found
    have inStep : ((insertStatement 2).run plainConfig (Event.savepoint.run plainConfig
        ((Event.commit {} false).run plainConfig ((insertStatement 1).run plainConfig
          (.create 1 0))))).savepoints[0]?.map Savepoint.behind = some false := by
      decide +kernel
    rw [found] at inStep
    exact Option.some.inj inStep
  exact ⟨clean, committed_rowsPersisted 1 0 _ clean⟩

/-- Row 2 is inserted before a savepoint and row 3 after it; rolling back to the
savepoint forgets the graph with both, and the commit keeps the segments of
before, without row 2. -/
theorem rollbackTo_loses_row :
    ¬ ∀ (graphMemoryLimit bruteForceThreshold : Nat) (events : List Event),
      (runEvents plainConfig (Session.create graphMemoryLimit bruteForceThreshold)
        events).committed.RowsPersisted := by
  intro always
  have committed : (runEvents plainConfig (.create 1 0)
      [insertStatement 1, .commit {} false, insertStatement 2, .savepoint, insertStatement 3,
        .rollbackTo 0, .commit {} false]).committed = ⟨[1, 2], some ⟨[[1]], false⟩, 1⟩ := by
    decide +kernel
  have persisted := always 1 0 [insertStatement 1, .commit {} false, insertStatement 2, .savepoint,
    insertStatement 3, .rollbackTo 0, .commit {} false]
  rw [committed] at persisted
  rcases persisted with none | ⟨_, isSegments, rows⟩
  · cases none
  · cases isSegments
    exact absurd ((rows 2).2 (by simp)) (by simp)

-- A row that joins a node of a graph in disk mode is not written either.
example : (runEvents plainConfig (Session.create 1 0)
    [insertStatement 1, .commit {} false,
      .statement [({ target := some 0 }, .insert 2)] .rollbackTo, .commit {} false]).committed =
        ⟨[1, 2], some ⟨[[1]], false⟩, 1⟩ := by
  decide +kernel

end VexDB.Sqlite
