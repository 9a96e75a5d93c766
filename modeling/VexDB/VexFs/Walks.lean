import VexDB.VexFs.Effects

/-!
# Path walks that run alone

A path that is followed one statement at a time, with nothing in between, leads
where `TryResolve` leads in that state, and changes nothing.
-/

namespace VexDB.VexFs

open Storage Option Program
open Program (exec)

variable {H : Type} {db : Db H} {node : Node}

theorem liveNode_eq_some :
    db.liveNode inode = some node ↔
      node.id = inode ∧ db.inodes.get inode = some node.row ∧ node.row.live = true := by
  unfold Db.liveNode
  obtain ⟨_, _⟩ := node
  cases db.inodes.get inode with
  | none => simp
  | some found =>
    by_cases live : found.live = true
    · simp only [live, if_true, some.injEq, Node.mk.injEq]
      constructor
      · rintro ⟨rfl, rfl⟩
        exact ⟨rfl, rfl, live⟩
      · rintro ⟨rfl, rfl, _⟩
        exact ⟨rfl, rfl⟩
    · simp only [live]
      constructor
      · intro absurd
        simp at absurd
      · rintro ⟨_, same, isLive⟩
        rw [<- some.inj same] at isLive
        exact absurd isLive live

theorem findChild_eq_some :
    db.findChild parent name = some node ↔
      db.dentries.get (parent, name) = some node.id ∧ db.inodes.get node.id = some node.row ∧
        node.row.live = true := by
  unfold Db.findChild
  rw [bind_eq_some_iff]
  simp only [liveNode_eq_some]
  constructor
  · rintro ⟨_, entry, rfl, row⟩
    exact ⟨entry, row⟩
  · rintro ⟨entry, row⟩
    exact ⟨node.id, entry, rfl, row⟩

/-- Following a path from a live node ends at a live node. -/
theorem walk_live (begins : db.liveNode start.id = some start)
    (reached : db.walk start parts = some node) : db.liveNode node.id = some node := by
  induction parts generalizing start with
  | nil =>
    cases reached
    exact begins
  | cons part parts step =>
    unfold Db.walk at reached
    split_ifs at reached
    obtain ⟨_, found, rest⟩ := bind_eq_some_iff.1 reached
    obtain ⟨_, stored, live⟩ := findChild_eq_some.1 found
    exact step (liveNode_eq_some.2 ⟨rfl, stored, live⟩) rest

/-- A path leads to a live node. -/
theorem tryResolve_live (found : db.tryResolve parts = some node) :
    db.liveNode node.id = some node := by
  obtain ⟨_, rootFound, walked⟩ := bind_eq_some_iff.1 found
  obtain ⟨same, stored, live⟩ := liveNode_eq_some.1 rootFound
  exact walk_live (liveNode_eq_some.2 ⟨rfl, same ▸ stored, live⟩) walked

theorem run_findChildStep (db : Db H) (parent : Nat) (name : Name) :
    (findChildStep parent name).run db = (.ok (db.findChild parent name), db) := rfl

theorem run_walkSteps (db : Db H) (node : Node) (parts : List Name) :
    (walkSteps node parts).run db = (.ok (db.walk node parts), db) := by
  induction parts generalizing node with
  | nil => rfl
  | cons part parts step =>
    unfold walkSteps Db.walk
    split_ifs
    · rw [run_bind_ok (run_findChildStep db node.id part)]
      cases db.findChild node.id part with
      | none => rfl
      | some child => exact step child
    · rfl

theorem run_tryResolveSteps :
    (tryResolveSteps parts).run db = (.ok found, after) ↔
      (∃ root, db.liveNode db.workspace.rootInode = some root) ∧ found = db.tryResolve parts ∧
        after = db := by
  unfold tryResolveSteps Db.tryResolve
  rw [run_bind_eq_ok]
  simp only [run_exec_eq_ok, rootNode_ok, run_walkSteps, Prod.mk.injEq, Except.ok.injEq]
  constructor
  · rintro ⟨root, _, ⟨isRoot, rfl⟩, rfl, rfl⟩
    exact ⟨⟨root, isRoot⟩, by rw [isRoot, bind_some], rfl⟩
  · rintro ⟨⟨root, isRoot⟩, rfl, rfl⟩
    exact ⟨root, after, ⟨isRoot, rfl⟩, by rw [isRoot, bind_some], rfl⟩

theorem run_resolveSteps :
    (resolveSteps parts).run db = (.ok node, after) ↔
      db.tryResolve parts = some node ∧ after = db := by
  unfold resolveSteps
  rw [run_bind_eq_ok]
  simp only [run_tryResolveSteps]
  constructor
  · rintro ⟨found, state, ⟨_, rfl, rfl⟩, rest⟩
    cases isFound : state.tryResolve parts with
    | none =>
      rw [isFound] at rest
      exact (Tx.fail_ok.1 (run_exec_eq_ok.1 rest)).elim
    | some =>
      rw [isFound] at rest
      obtain ⟨rfl, rfl⟩ := run_pure_eq_ok.1 rest
      exact ⟨rfl, rfl⟩
  · rintro ⟨found, rfl⟩
    obtain ⟨root, isRoot, _⟩ := bind_eq_some_iff.1 found
    refine ⟨some node, after, ⟨⟨root, isRoot⟩, found.symm, rfl⟩, ?_⟩
    exact run_pure_eq_ok.2 ⟨rfl, rfl⟩

end VexDB.VexFs
