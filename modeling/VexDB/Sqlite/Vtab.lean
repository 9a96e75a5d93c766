import Mathlib.Data.List.Sort

/-!
# The GRAPH_INDEX virtual table

The callbacks of `graph_index_vtab.cpp` over its shadow tables.  Writes to
`%_vectors` go through SQL at once; the graph is changed in memory and written
to `%_graph` when the transaction commits.
-/

namespace VexDB.Sqlite

/-- A row number of SQLite. -/
abbrev Rowid := Int

/-- What `%_graph` holds once its meta segment is there. -/
structure Segments where
  /-- The rows of each node, as the elems segments list them. -/
  elems : List (List Rowid)
  /-- Written in a format before version 4. -/
  legacy : Bool
  deriving DecidableEq, Repr

/-- The shadow tables: `%_vectors` in rowid order, `%_graph`, and the cookie of
`%_config`. -/
structure Database where
  vectors : List Rowid
  graph : Option Segments
  cookie : Nat
  deriving DecidableEq, Repr

/-- An open graph: the rows of its nodes, and what is not written yet. -/
structure GraphBridge where
  elems : List (List Rowid)
  isDiskMode : Bool
  fullDirty : Bool
  /-- Some segment or row list is marked dirty. -/
  dirty : Bool
  deriving DecidableEq, Repr

namespace GraphBridge

/-- `OpenV2` and `OpenV2Disk` -/
def openV2 (isDiskMode : Bool) (segments : Segments) : GraphBridge :=
  ⟨segments.elems, isDiskMode, segments.legacy, false⟩

def count (graph : GraphBridge) : Nat := graph.elems.length

def deadNodeCount (graph : GraphBridge) : Nat := graph.elems.countP List.isEmpty

def hasDirty (graph : GraphBridge) : Bool := graph.fullDirty || graph.dirty

def needsFullRewrite (graph : GraphBridge) : Bool := !graph.isDiskMode && graph.fullDirty

/-- `RemoveTid`: take a row from the node that has it. -/
def removeTid (graph : GraphBridge) (rowid : Rowid) : Option GraphBridge :=
  (graph.elems.findIdx? (·.contains rowid)).map fun node =>
    { graph with elems := graph.elems.modify node (·.erase rowid), dirty := true }

/-- The row joins a node with an equal vector that still has rows. -/
def merges (graph : GraphBridge) (target : Option Nat) : Option Nat :=
  target.filter fun node => !(graph.elems.getD node []).isEmpty

/-- `Insert`: a row that joins a node leaves no dirty mark. -/
def insert (graph : GraphBridge) (target : Option Nat) (rowid : Rowid) : GraphBridge :=
  match graph.merges target with
  | some node => { graph with elems := graph.elems.modify node (· ++ [rowid]) }
  | none => { graph with elems := graph.elems ++ [[rowid]], dirty := true }

/-- Insert rows one after the other. -/
def insertRows (graph : GraphBridge) : List Rowid -> List (Option Nat) -> GraphBridge
  | [], _ => graph
  | rowid :: rows, targets =>
    insertRows (graph.insert targets.head?.join rowid) rows targets.tail

/-- The segments `SerializeV2` writes. -/
def segments (graph : GraphBridge) : Segments := ⟨graph.elems, false⟩

/-- The graph after `SerializeV2`. -/
def written (graph : GraphBridge) : GraphBridge :=
  { graph with fullDirty := false, dirty := false }

end GraphBridge

/-- The sizes and the bulk build a table is set up with. -/
structure Config where
  estimateGraphBytes : Nat -> Nat
  /-- Rows that fit the build budget, for a memory limit. -/
  budgetRows : Nat -> Nat
  /-- The nodes `BuildBulk` makes of some rows. -/
  buildBulk : List Rowid -> List (List Rowid)
  buildBulk_perm : ∀ rows, (buildBulk rows).flatten.Perm rows

/-- The state of `GraphIndexVtab`; no `rowCount` and no `cookieSeen` stand for -1. -/
structure Vtab where
  graph : Option GraphBridge
  graphDirty : Bool
  rowCount : Option Nat
  cookieSeen : Option Nat
  cookieBumpPending : Bool
  graphMemoryLimit : Nat
  bruteForceThreshold : Nat
  deriving DecidableEq, Repr

/-- A connection: the database as its transaction sees it, and the table. -/
structure Conn where
  db : Database
  vt : Vtab
  deriving DecidableEq, Repr

/-- How the calls made during one callback turn out. -/
structure Answers where
  /-- The request is accepted and its write to `%_vectors` succeeds. -/
  writesRow : Bool := true
  /-- The segments can be opened. -/
  opens : Bool := true
  /-- The node with the vector of the row. -/
  target : Option Nat := none
  /-- The statement that fetches an unchanged vector can be prepared. -/
  prepares : Bool := true
  /-- The unchanged vector is found. -/
  fetches : Bool := true
  /-- `Insert` and `BuildSignature` throw nothing. -/
  inserts : Bool := true
  /-- The rows of `%_graph` can be deleted. -/
  drops : Bool := true
  /-- The rows of `%_vectors` can be read and built into a graph. -/
  builds : Bool := true
  /-- The nodes with the vectors of the rows of a streamed build. -/
  targets : List (Option Nat) := []
  /-- `SerializeV2` writes all its segments. -/
  serializes : Bool := true
  /-- The cookie can be written. -/
  setsCookie : Bool := true
  deriving DecidableEq, Repr

section Callbacks

variable (config : Config) (answers : Answers)

/-- `CountVectors`: count once, then answer from the cache. -/
def countVectors (conn : Conn) : Nat × Conn :=
  match conn.vt.rowCount with
  | some n => (n, conn)
  | none =>
    (conn.db.vectors.length,
      { conn with vt := { conn.vt with rowCount := some conn.db.vectors.length } })

/-- `InvalidatePersistedGraph` -/
def invalidatePersistedGraph (conn : Conn) : Conn × Bool :=
  ({ conn with
      db := { conn.db with graph := if answers.drops then none else conn.db.graph }
      vt := { conn.vt with cookieBumpPending := true } }, answers.drops)

/-- `OverLimit` -/
def overLimit (conn : Conn) : Bool × Conn :=
  if conn.vt.graphMemoryLimit = 0 then (false, conn)
  else
    let (n, conn) := countVectors conn
    let persisted := (conn.db.graph.map fun segments => segments.elems.length).getD 0
    (conn.vt.graphMemoryLimit < config.estimateGraphBytes (max n persisted), conn)

/-- Forget the graph in memory. -/
def resetGraph (conn : Conn) : Conn :=
  { conn with vt := { conn.vt with graph := none, graphDirty := false } }

/-- `CheckCookie` -/
def checkCookie (conn : Conn) : Conn :=
  if conn.vt.cookieSeen = some conn.db.cookie then conn
  else
    let vt :=
      if conn.vt.cookieSeen.isSome then
        { conn.vt with graph := none, graphDirty := false, rowCount := none }
      else conn.vt
    { conn with vt := { vt with cookieSeen := some conn.db.cookie } }

/-- `TryOpenGraph` -/
def tryOpenGraph (conn : Conn) : Conn :=
  match conn.vt.graph with
  | some _ => conn
  | none =>
    let (exceeded, conn) := overLimit config conn
    match conn.db.graph with
    | some segments =>
      if answers.opens then
        { conn with
          vt := { conn.vt with
            graph := some (GraphBridge.openV2 exceeded segments)
            graphDirty := false } }
      else conn
    | none => conn

/-- `RebuildInMemory` -/
def rebuildInMemory (conn : Conn) : Conn × Bool :=
  if answers.builds then
    ({ conn with
        vt := { conn.vt with
          graph := some ⟨config.buildBulk conn.db.vectors, false, !conn.db.vectors.isEmpty, false⟩
          graphDirty := true } }, true)
  else (conn, false)

/-- `EnsureGraph` -/
def ensureGraph (conn : Conn) : Conn × Bool :=
  let conn := tryOpenGraph config answers conn
  if conn.vt.graph.isSome then (conn, true)
  else
    let (exceeded, conn) := overLimit config conn
    if exceeded then (conn, true) else rebuildInMemory config answers conn

/-- `DropGraph` -/
def dropGraph (conn : Conn) : Conn × Bool :=
  invalidatePersistedGraph answers (resetGraph conn)

/-- Keep a changed graph in memory. -/
def keepGraph (conn : Conn) (graph : GraphBridge) : Conn :=
  { conn with vt := { conn.vt with graph := some graph, graphDirty := true } }

/-- A fifth of the nodes or more has no row left. -/
def tooManyDead (graph : GraphBridge) : Bool :=
  graph.count <= graph.deadNodeCount * 5

/-- The commands of `INSERT INTO t(t)` that touch the table state. -/
inductive Command where
  | graphMemoryLimit (limit : Nat)
  | bruteForceThreshold (threshold : Nat)
  | signatureBuild
  deriving DecidableEq, Repr

/-- One `xUpdate`. -/
inductive Request where
  | delete (rowid : Rowid)
  | insert (rowid : Rowid)
  | update (oldRowid newRowid : Rowid) (vecChanged : Bool)
  | command (command : Command)
  deriving DecidableEq, Repr

/-- The `DELETE` branch of `vtabUpdate`. -/
def deleteRow (rowid : Rowid) (conn : Conn) : Conn × Bool :=
  if rowid ∉ conn.db.vectors then (conn, true)
  else
    let conn := tryOpenGraph config answers
      ⟨{ conn.db with vectors := conn.db.vectors.erase rowid },
        { conn.vt with rowCount := conn.vt.rowCount.map (· - 1) }⟩
    match conn.vt.graph.bind (·.removeTid rowid) with
    | none => dropGraph answers conn
    | some graph =>
      if tooManyDead graph then dropGraph answers conn
      else (keepGraph conn graph, true)

/-- The graph part of `INSERT` and `UPDATE`: an `UPDATE` takes its old row out
first. -/
def maintainGraph (oldRowid : Option Rowid) (rowid : Rowid) (vecChanged : Bool) (conn : Conn) :
    Conn × Bool :=
  let conn := tryOpenGraph config answers conn
  let removed := conn.vt.graph.bind fun graph =>
    match oldRowid with
    | none => some graph
    | some old => graph.removeTid old
  match removed with
  | none => dropGraph answers conn
  | some graph =>
    -- The segments stay when the fetch cannot be prepared.
    if !vecChanged && !answers.prepares then (resetGraph conn, false)
    else if !vecChanged && !answers.fetches then dropGraph answers conn
    else if !answers.inserts then ((dropGraph answers conn).1, false)
    else
      let graph := graph.insert answers.target rowid
      if tooManyDead graph then dropGraph answers conn
      else (keepGraph conn graph, true)

/-- A new row in `%_vectors`. -/
def addRow (rowid : Rowid) (conn : Conn) : Conn :=
  ⟨{ conn.db with vectors := conn.db.vectors.orderedInsert (· <= ·) rowid },
    { conn.vt with rowCount := conn.vt.rowCount.map (· + 1) }⟩

/-- The `INSERT` branch of `vtabUpdate`. -/
def insertRow (rowid : Rowid) (conn : Conn) : Conn × Bool :=
  if rowid ∈ conn.db.vectors then (conn, false)
  else maintainGraph config answers none rowid true (addRow rowid conn)

/-- `%_vectors` after `UPDATE … SET rowid = new WHERE rowid = old`. -/
def moveRow (oldRowid newRowid : Rowid) (rows : List Rowid) : Option (List Rowid) :=
  if oldRowid ∉ rows then some rows
  else if newRowid ≠ oldRowid ∧ newRowid ∈ rows then none
  else some ((rows.erase oldRowid).orderedInsert (· <= ·) newRowid)

/-- The `UPDATE` branch of `vtabUpdate`. -/
def updateRow (oldRowid newRowid : Rowid) (vecChanged : Bool) (conn : Conn) : Conn × Bool :=
  match moveRow oldRowid newRowid conn.db.vectors with
  | none => (conn, false)
  | some rows =>
    let conn := { conn with db := { conn.db with vectors := rows } }
    if !vecChanged && newRowid == oldRowid then (conn, true)
    else maintainGraph config answers (some oldRowid) newRowid vecChanged conn

/-- The special inserts of `vtabUpdate`. -/
def runCommand (conn : Conn) : Command -> Conn × Bool
  | .graphMemoryLimit limit =>
    dropGraph answers { conn with vt := { conn.vt with graphMemoryLimit := limit } }
  | .bruteForceThreshold threshold =>
    ({ conn with vt := { conn.vt with bruteForceThreshold := threshold } }, true)
  | .signatureBuild =>
    let (conn, ready) := ensureGraph config answers conn
    match conn.vt.graph with
    | some graph =>
      if ready && answers.inserts then (keepGraph conn { graph with dirty := true }, true)
      else (conn, false)
    | none => (conn, false)

/-- `vtabUpdate`: the connection, and whether the call succeeds. -/
def vtabUpdate (request : Request) (conn : Conn) : Conn × Bool :=
  let conn := checkCookie conn
  if !answers.writesRow then (conn, false)
  else
    match request with
    | .delete rowid => deleteRow config answers rowid conn
    | .insert rowid => insertRow config answers rowid conn
    | .update oldRowid newRowid vecChanged =>
      updateRow config answers oldRowid newRowid vecChanged conn
    | .command command => runCommand config answers conn command

/-- The part of `vtabFilter` that may load or build the graph. -/
def vtabFilter (conn : Conn) : Conn :=
  let (n, conn) := countVectors (checkCookie conn)
  if conn.vt.bruteForceThreshold < n then (ensureGraph config answers conn).1 else conn

/-- `SerializeV2` into `%_graph`. -/
def serializeV2 (conn : Conn) (graph : GraphBridge) : Conn :=
  ⟨{ conn.db with graph := some graph.segments }, { conn.vt with graph := some graph.written }⟩

/-- `BuildTwoPhase`: the first rows in memory, the others into the segments.  The
others are skipped when the last of the first rows has no positive number. -/
def buildTwoPhase (n : Nat) (conn : Conn) : Conn × Bool :=
  let k := min (max (config.budgetRows conn.vt.graphMemoryLimit) 1024) n
  match (conn.db.vectors.take k).getLast? with
  | none => (conn, true)
  | some lastRowid =>
    if !answers.builds then (conn, false)
    else
      let first : Segments := ⟨config.buildBulk (conn.db.vectors.take k), false⟩
      let conn := (invalidatePersistedGraph answers conn).1
      if !answers.drops || !answers.serializes then (conn, false)
      else
        let conn := { conn with db := { conn.db with graph := some first } }
        if !answers.opens then (conn, false)
        else
          let graph := GraphBridge.openV2 true first
          let conn := { conn with vt := { conn.vt with graphDirty := false } }
          if 0 < lastRowid ∧ k < n then
            if !answers.inserts then (resetGraph conn, false)
            else
              (serializeV2 conn
                (graph.insertRows (conn.db.vectors.drop k) answers.targets), true)
          else (serializeV2 conn graph, true)

/-- The first part of `SyncImpl`: build the graph of a table over the limit.  A
result stands for an early return. -/
def recoverGraph (conn : Conn) : Conn × Option Bool :=
  if conn.vt.graph.isSome then (conn, none)
  else
    let (n, conn) := countVectors conn
    let (exceeded, conn) := overLimit config conn
    if !exceeded || n <= conn.vt.bruteForceThreshold then (conn, some true)
    else if conn.db.graph.isSome then (conn, some true)
    else
      let (conn, built) := buildTwoPhase config answers n conn
      if !built then (conn, some false)
      else if conn.vt.graph.isNone then (conn, some true)
      else ({ conn with vt := { conn.vt with cookieBumpPending := true } }, none)

/-- The second part of `SyncImpl`: write the graph if it has changed. -/
def writeGraph (conn : Conn) (graph : GraphBridge) : Conn × Bool :=
  let bumped : Conn := { conn with vt := { conn.vt with cookieBumpPending := true } }
  if graph.isDiskMode then
    if !graph.hasDirty then (conn, true)
    else if !answers.serializes then (conn, false)
    else (serializeV2 bumped graph, true)
  else if !conn.vt.graphDirty then (conn, true)
  else if graph.needsFullRewrite && !answers.drops then (bumped, false)
  else if !answers.serializes then (conn, false)
  else (serializeV2 { bumped with vt := { bumped.vt with graphDirty := false } } graph, true)

/-- `SyncImpl` -/
def syncImpl (conn : Conn) : Conn × Bool :=
  match recoverGraph config answers conn with
  | (conn, some result) => (conn, result)
  | (conn, none) =>
    match conn.vt.graph with
    | none => (conn, true)
    | some graph => writeGraph answers conn graph

/-- `vtabSync` -/
def vtabSync (conn : Conn) : Conn × Bool :=
  let (conn, synced) := syncImpl config answers conn
  if synced && conn.vt.cookieBumpPending then
    let cookie := (conn.vt.cookieSeen.map (· + 1)).getD 1
    (⟨{ conn.db with cookie := if answers.setsCookie then cookie else conn.db.cookie },
      { conn.vt with cookieSeen := some cookie, cookieBumpPending := false }⟩, true)
  else (conn, synced)

/-- `vtabRollback` -/
def vtabRollback (vt : Vtab) : Vtab :=
  { vt with graph := none, graphDirty := false, rowCount := none, cookieBumpPending := false }

/-- `vtabRollbackTo` -/
def vtabRollbackTo (vt : Vtab) : Vtab :=
  { vt with graph := none, graphDirty := false, rowCount := none }

end Callbacks

end VexDB.Sqlite
