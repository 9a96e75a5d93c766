import VexDB.PgFs.Histories

/-!
# What a collection deletes

`vexfs_gc` takes a batch of versions that are not kept, deletes them with the
manifests and chunks they leave unused, captures the tree and compacts the history.
It fails when a manifest it would delete is the base of what is staged for a handle.
-/

namespace VexDB.PgFs

open Storage List Option Table Tx Bool
open VexFs (Bytes Name Kind DentryKey XattrKey Digest)

variable {H : Type} {db after : Db H}

/-! ## The stored content -/

namespace Store

/-- The manifests of some versions that their deletion leaves without a version. -/
def unusedManifest (store : Store H) (candidates : List ((Nat × Nat) × Version H))
    (manifest : Nat) : Bool :=
  (candidates.filterMap fun entry => entry.2.manifest).contains manifest &&
    !(store.deleteVersions (candidates.map Prod.fst)).manifestUsed manifest

/-- Delete versions with the manifests and chunks they leave unused. -/
def collect (store : Store H) (candidates : List ((Nat × Nat) × Version H)) : Store H :=
  if candidates = [] then store
  else ((store.deleteVersions (candidates.map Prod.fst)).deleteManifests
    (store.unusedManifest candidates)).deleteChunks

/-- The size of the chunks that a deletion of versions leaves unused. -/
def reclaimedBytes (store : Store H) (candidates : List ((Nat × Nat) × Version H)) : Nat :=
  if candidates = [] then 0
  else
    let left := (store.deleteVersions (candidates.map Prod.fst)).deleteManifests
      (store.unusedManifest candidates)
    ((left.chunks.entries.filter fun entry => !left.chunkUsed entry.1).map fun entry =>
      entry.2.size).sum

variable {store : Store H} {candidates : List ((Nat × Nat) × Version H)}

theorem unusedManifest_nil (manifest : Nat) : store.unusedManifest [] manifest = false := rfl

theorem get_deleteVersions (keys : List (Nat × Nat)) (key : Nat × Nat) :
    (store.deleteVersions keys).versions.get key =
      if key ∈ keys then none else store.versions.get key := by
  split_ifs with gone
  · exact get_filter_of_dropped _ fun _ => by simpa using gone
  · exact get_filter_of_kept _ fun _ => by simpa using gone

theorem get_collect_versions (key : Nat × Nat) :
    (store.collect candidates).versions.get key =
      if key ∈ candidates.map Prod.fst then none else store.versions.get key := by
  unfold collect
  by_cases empty : candidates = []
  · rw [if_pos empty, empty]
    rfl
  · rw [if_neg empty]
    exact get_deleteVersions _ key

theorem get_collect_manifests (manifest : Nat) :
    (store.collect candidates).manifests.get manifest =
      if store.unusedManifest candidates manifest then none else store.manifests.get manifest := by
  unfold collect
  by_cases empty : candidates = []
  · rw [if_pos empty, empty]
    rfl
  · split_ifs with unused
    · exact get_filter_of_dropped _ fun _ => by simp [unused]
    · exact get_filter_of_kept _ fun _ => by simp [unused]

theorem get_collect_manifestChunks (manifest no : Nat) :
    (store.collect candidates).manifestChunks.get (manifest, no) =
      if store.unusedManifest candidates manifest && (store.manifests.get manifest).isSome then none
      else store.manifestChunks.get (manifest, no) := by
  unfold collect
  by_cases empty : candidates = []
  · rw [if_pos empty, empty]
    rfl
  · split_ifs with unused
    · exact get_filter_of_dropped _ fun _ => congrArg (!·) unused
    · exact get_filter_of_kept _ fun _ => congrArg (!·) (eq_false_of_not_eq_true unused)

theorem get_collect_chunks {id : Nat}
    (stored : (store.collect candidates).chunks.get id = some chunk) :
    store.chunks.get id = some chunk := by
  unfold collect at stored
  by_cases empty : candidates = []
  · rwa [if_pos empty] at stored
  · rw [if_neg empty] at stored
    exact (filter_eq_some_iff.1 ((get_filter _ _ _).symm.trans stored)).1

/-- Chunks that some manifest still has stay. -/
theorem get_collect_chunks_of_listed {id : Nat}
    (listed : (store.collect candidates).manifestChunks.get key = some id) :
    (store.collect candidates).chunks.get id = store.chunks.get id := by
  unfold collect at listed ⊢
  by_cases empty : candidates = []
  · rw [if_pos empty]
  · rw [if_neg empty] at listed ⊢
    refine get_filter_of_kept _ fun _ => any_eq_true.2 ⟨(key, id), ?_, by simp⟩
    exact (mem_entries _ _ _).2 listed

/-- The content of a manifest that stays, or that has no row. -/
theorem chunkAt_collect
    (stays : (store.unusedManifest candidates manifest && (store.manifests.get manifest).isSome) =
      false) (no : Nat) :
    (store.collect candidates).chunkAt manifest no = store.chunkAt manifest no := by
  have same : (store.collect candidates).manifestChunks.get (manifest, no) =
      store.manifestChunks.get (manifest, no) := by
    rw [get_collect_manifestChunks, stays]
    rfl
  unfold chunkAt
  cases listed : store.manifestChunks.get (manifest, no) with
  | none => rw [same, listed, bind_none, bind_none]
  | some =>
    rw [same, listed, bind_some, bind_some]
    exact get_collect_chunks_of_listed (same.trans listed)

theorem Sound.collect [Digest H] (sound : store.Sound) : (store.collect candidates).Sound where
  chunk id chunk stored := sound.chunk id chunk (get_collect_chunks stored)
  listed key id listed := by
    rw [get_collect_chunks_of_listed listed]
    rw [get_collect_manifestChunks] at listed
    split_ifs at listed
    exact sound.listed _ id listed
  manifest id row stored := by
    rw [get_collect_manifests] at stored
    split_ifs at stored with unused
    obtain ⟨count, bounded, computed⟩ := sound.manifest id row stored
    refine ⟨count, bounded, ?_⟩
    rw [computeManifestChecksum_congr (chunkAt_collect (by simp [unused])), computed]

/-- Versions of which no alias stays. -/
def Collectable (store : Store H) (candidates : List ((Nat × Nat) × Version H)) : Prop :=
  ∀ entry ∈ candidates, store.versions.get entry.1 = some entry.2 ∧
    (entry.2.source ≠ none ∨ store.aliased entry.1 = false)

theorem manifestUsed_deleteVersions {keys : List (Nat × Nat)} {key : Nat × Nat} {row : Version H}
    {manifest : Nat} (stored : store.versions.get key = some row) (stays : key ∉ keys)
    (has : row.manifest = some manifest) :
    (store.deleteVersions keys).manifestUsed manifest = true := by
  refine any_eq_true.2 ⟨(key, row), (mem_entries _ _ _).2 ?_, by simpa using has⟩
  rw [get_deleteVersions, if_neg stays, stored]

theorem Versioned.collect (versioned : store.Versioned)
    (collectable : store.Collectable candidates) : (store.collect candidates).Versioned := by
  intro inode number row stored
  rw [get_collect_versions] at stored
  split_ifs at stored with gone
  cases versioned inode number row stored with
  | canonical manifest found has first manifested size checksum =>
    refine .canonical manifest found has first ?_ size checksum
    rw [get_collect_manifests, if_neg, manifested]
    rw [unusedManifest, manifestUsed_deleteVersions stored gone has]
    simp
  | copy origin source lacks of sourceStored first size checksum =>
    refine .copy origin source lacks of ?_ first size checksum
    rw [get_collect_versions, if_neg, sourceStored]
    intro deleted
    obtain ⟨⟨_, _⟩, member, rfl⟩ := mem_map.1 deleted
    obtain ⟨listed, canonical | unaliased⟩ := collectable _ member
    · cases sourceStored.symm.trans listed
      exact canonical first
    · have aliased : store.aliased (inode, origin) = true :=
        any_eq_true.2 ⟨((inode, number), row), (mem_entries _ _ _).2 stored, by simp [of]⟩
      rw [aliased] at unaliased
      cases unaliased

end Store

/-! ## The call -/

namespace Db

/-- A deletion of versions would delete the base of what is staged for a handle. -/
def blocks (db : Db H) (candidates : List ((Nat × Nat) × Version H)) : Bool :=
  db.mounts.staging.entries.any fun entry => entry.2.baseManifest.any fun manifest =>
    db.store.unusedManifest candidates manifest && (db.store.manifests.get manifest).isSome

/-- The state that a collection leaves before it compacts the history. -/
def swept (db : Db H) (now batch : Nat) : Db H :=
  { db with store := db.store.collect (db.collectable now batch) }.captureMetadataCheckpoint
    db.workspace.headCommit

/-- The floor of the history has risen. -/
def compacts (db : Db H) : Bool := decide (db.metadataFloor > db.workspace.historyFloor)

/-- Compact the history if its floor has risen. -/
def compacted (db : Db H) : Db H :=
  { db with
    history := if db.compacts then db.history.compact db.metadataFloor else db.history
    workspace.historyFloor :=
      if db.compacts then max db.workspace.historyFloor db.metadataFloor
      else db.workspace.historyFloor }

/-- The state that a collection leaves. -/
def collected (db : Db H) (now batch : Nat) : Db H := (db.swept now batch).compacted

/-- What a collection reports. -/
def gcReport (db : Db H) (now batch : Nat) : GcReport where
  deletedVersions := (db.collectable now batch).length
  reclaimedBytes := db.store.reclaimedBytes (db.collectable now batch)
  metadataFloorCommit :=
    if (db.swept now batch).compacts then (db.swept now batch).metadataFloor
    else (db.collected now batch).workspace.historyFloor
  metadataCompacted := (db.swept now batch).compacts
  remainingVersions := (db.collected now batch).store.versions.keys.length
  remainingReclaimableVersions := (db.collected now batch).reclaimableVersions now
  hasMore := decide (0 < (db.collected now batch).reclaimableVersions now)

end Db

section

variable {db : Db H}

theorem Db.mem_collectable {now batch : Nat} {entry : (Nat × Nat) × Version H}
    (member : entry ∈ db.collectable now batch) :
    db.store.versions.get entry.1 = some entry.2 ∧ db.retentionKeepVersions now entry.1 = false ∧
      (entry.2.source.isSome = true ∨ db.store.aliased entry.1 = false) := by
  have listed := (mem_insertionSort _).1 (mem_of_mem_take member)
  obtain ⟨stored, condition⟩ := mem_filter.1 listed
  rw [and_eq_true, or_eq_true, not_eq_true', not_eq_true'] at condition
  exact ⟨(mem_entries _ _ _).1 stored, condition⟩

theorem Db.collectable_collectable (now batch : Nat) :
    db.store.Collectable (db.collectable now batch) := by
  intro _ member
  obtain ⟨stored, _, condition⟩ := Db.mem_collectable member
  exact ⟨stored, condition.imp_left fun copy => by simpa [isSome_iff_ne_none] using copy⟩

theorem metadataFloor_le
    (stored : db.history.snapshots.get name = some row) : db.metadataFloor <= row.commit := by
  have member : row.commit ∈ db.history.snapshots.entries.map fun entry => entry.2.commit :=
    mem_map.2 ⟨(name, row), (mem_entries _ _ _).2 stored, rfl⟩
  unfold Db.metadataFloor
  cases least : (db.history.snapshots.entries.map fun entry => entry.2.commit).min? with
  | none =>
    rw [min?_eq_none_iff.1 least] at member
    cases member
  | some floor => exact (min?_eq_some_iff.1 least).2 _ member

theorem metadataFloor_cases (db : Db H) :
    db.metadataFloor = db.workspace.headCommit ∨
      ∃ name row, db.history.snapshots.get name = some row ∧ row.commit = db.metadataFloor := by
  unfold Db.metadataFloor
  cases least : (db.history.snapshots.entries.map fun entry => entry.2.commit).min? with
  | none => exact .inl rfl
  | some =>
    obtain ⟨⟨name, row⟩, member, same⟩ := mem_map.1 (min?_eq_some_iff.1 least).1
    exact .inr ⟨name, row, (mem_entries _ _ _).1 member, same⟩

theorem Db.compacted_snapshots (db : Db H) :
    db.compacted.history.snapshots = db.history.snapshots := by
  show (if db.compacts then _ else _ : History).snapshots = _
  split_ifs
  · rfl
  · rfl

/-- A compaction makes no difference from its floor on. -/
theorem Db.showsSame_compacted (db : Db H) (within : db.metadataFloor <= commit) :
    db.history.ShowsSame db.compacted.history commit := by
  show db.history.ShowsSame (if db.compacts then _ else _) commit
  split_ifs
  · exact db.history.showsSame_compact within
  · exact .refl _ _

end

theorem collectVersions_ok :
    collectVersions candidates db = .ok (bytes, after) ↔ db.blocks candidates = false ∧
      bytes = db.store.reclaimedBytes candidates ∧
      after = { db with store := db.store.collect candidates } := by
  unfold collectVersions Store.reclaimedBytes Store.collect
  by_cases empty : candidates = []
  · rw [if_pos empty, if_pos empty, if_pos empty, pure_ok, empty]
    simp [Db.blocks, Store.unusedManifest_nil]
  · rw [if_neg empty, if_neg empty, if_neg empty]
    simp only [bind_ok, onStore, write_ok, reading_ok, rejectIf_ok, pure_ok]
    constructor
    · rintro ⟨_, _, rfl, _, _, ⟨rfl, rfl⟩, _, _, ⟨rfl, rfl⟩, _, _, ⟨free, rfl⟩, _, _, rfl, _, _,
        ⟨rfl, rfl⟩, _, _, rfl, rfl, rfl⟩
      exact ⟨eq_false_of_not_eq_true free, rfl, rfl⟩
    · rintro ⟨free, rfl, rfl⟩
      exact ⟨⟨⟩, _, rfl, _, _, ⟨rfl, rfl⟩, _, _, ⟨rfl, rfl⟩, ⟨⟩, _,
        ⟨ne_true_of_eq_false free, rfl⟩, ⟨⟩, _, rfl, _, _, ⟨rfl, rfl⟩, ⟨⟩, _, rfl, rfl, rfl⟩

theorem compactMetadataHistory_ok :
    compactMetadataHistory floor db = .ok (nothing, after) ↔ floor ∈ db.history.checkpoints ∧
      after = { db with
        history := db.history.compact floor
        workspace.historyFloor := max db.workspace.historyFloor floor } := by
  unfold compactMetadataHistory
  simp only [bind_ok, reading_ok, rejectIf_ok, write_ok]
  constructor
  · rintro ⟨_, _, ⟨rfl, rfl⟩, _, _, ⟨present, rfl⟩, rfl⟩
    exact ⟨by simpa using present, rfl⟩
  · rintro ⟨present, rfl⟩
    exact ⟨_, _, ⟨rfl, rfl⟩, ⟨⟩, _, ⟨by simpa using present, rfl⟩, rfl⟩

theorem compactIf_ok :
    onlyIf (db.compacts = true) (compactMetadataHistory db.metadataFloor) db =
        .ok (nothing, after) ↔
      (db.compacts = true -> db.metadataFloor ∈ db.history.checkpoints) ∧
        after = db.compacted := by
  unfold Db.compacted
  rw [onlyIf_ok, compactMetadataHistory_ok]
  by_cases rises : db.compacts = true
  · simp [rises]
  · simp [rises]

theorem gc_ok :
    gc env batch db = .ok (report, after) ↔
      (1 <= batch ∧ batch <= 10000) ∧ db.mayUse env.user .admin = true ∧
      db.workspace.gcPaused = false ∧ db.blocks (db.collectable env.now batch) = false ∧
      ((db.swept env.now batch).compacts = true ->
        (db.swept env.now batch).metadataFloor ∈ (db.swept env.now batch).history.checkpoints) ∧
      after = db.collected env.now batch ∧ report = db.gcReport env.now batch := by
  unfold gc
  simp only [bind_ok, rejectIf_ok, requireWorkspace_ok, reading_ok, write_ok,
    pure_ok, collectVersions_ok]
  constructor
  · rintro ⟨_, _, ⟨sizes, rfl⟩, _, _, ⟨may, rfl⟩, _, _, ⟨rfl, rfl⟩, _, _, ⟨running, rfl⟩, _, _,
      ⟨rfl, rfl⟩, _, _, ⟨free, rfl, rfl⟩, _, _, rfl, _, _, ⟨rfl, rfl⟩, _, _, ⟨rfl, rfl⟩, _, _,
      compacts, _, _, ⟨rfl, rfl⟩, rfl, rfl⟩
    obtain ⟨present, rfl⟩ := compactIf_ok.1 compacts
    exact ⟨by omega, may, by simpa using running, free, present, rfl, rfl⟩
  · rintro ⟨sizes, may, running, free, present, rfl, rfl⟩
    exact ⟨⟨⟩, _, ⟨by omega, rfl⟩, ⟨⟩, _, ⟨may, rfl⟩, _, _, ⟨rfl, rfl⟩, ⟨⟩, _,
      ⟨by simpa using running, rfl⟩, _, _, ⟨rfl, rfl⟩, _, _, ⟨free, rfl, rfl⟩, ⟨⟩, _, rfl, _, _,
      ⟨rfl, rfl⟩, _, _, ⟨rfl, rfl⟩, ⟨⟩, _, compactIf_ok.2 ⟨present, rfl⟩, _, _, ⟨rfl, rfl⟩, rfl,
      rfl⟩

end VexDB.PgFs
