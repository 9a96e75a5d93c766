import VexDB.PgFs.Removal

/-!
# What the calls on files do to the tables

Every statement on the live rows marks the keys it changes dirty, and no inode row
is ever deleted.  Stored content only grows: chunks and finished manifests stay as
they are, a manifest gets its row when its chunks have passed the check, and a
version refers to a manifest of its size and digest or to a version that does.  An
edit is one such change; the functions other than those on snapshots and the
collection are made of edits.
-/

namespace VexDB.PgFs

open Storage List Option Table
open VexFs (Bytes Name Kind DentryKey XattrKey Digest)
open Table (get_set marks_refl)

/-! ## The live rows -/

/-- Rows change with their keys marked. -/
structure Tree.Evolves (tree after : Tree) : Prop where
  inodes : ∀ inode, inode ∉ after.dirtyInodes ->
    after.inodes.get inode = tree.inodes.get inode
  dentries : ∀ key, after.dirtyDentries.get key = none ->
    after.dentries.get key = tree.dentries.get key
  xattrs : ∀ key, after.dirtyXattrs.get key = none -> after.xattrs.get key = tree.xattrs.get key
  marksInodes : ∀ inode ∈ tree.dirtyInodes, inode ∈ after.dirtyInodes
  marksDentries : ∀ key, after.dirtyDentries.get key = none -> tree.dirtyDentries.get key = none
  marksXattrs : ∀ key, after.dirtyXattrs.get key = none -> tree.dirtyXattrs.get key = none
  keeps : ∀ inode, (tree.inodes.get inode).isSome -> (after.inodes.get inode).isSome
  real : ∀ inode ∈ after.dirtyInodes,
    inode ∈ tree.dirtyInodes ∨ (after.inodes.get inode).isSome

namespace Tree

variable {tree : Tree} {after : Tree}

theorem Evolves.refl (tree : Tree) : tree.Evolves tree :=
  ⟨fun _ _ => rfl, fun _ _ => rfl, fun _ _ => rfl, fun _ marked => marked, fun _ clean => clean,
    fun _ clean => clean, fun _ present => present, fun _ marked => .inl marked⟩

theorem Evolves.trans (first : tree.Evolves between)
    (second : between.Evolves after) : tree.Evolves after where
  inodes inode clean := (second.inodes inode clean).trans
    (first.inodes inode fun marked => clean (second.marksInodes inode marked))
  dentries key clean := (second.dentries key clean).trans
    (first.dentries key (second.marksDentries key clean))
  xattrs key clean := (second.xattrs key clean).trans
    (first.xattrs key (second.marksXattrs key clean))
  marksInodes inode marked := second.marksInodes inode (first.marksInodes inode marked)
  marksDentries key clean := first.marksDentries key (second.marksDentries key clean)
  marksXattrs key clean := first.marksXattrs key (second.marksXattrs key clean)
  keeps inode present := second.keeps inode (first.keeps inode present)
  real inode marked := by
    rcases second.real inode marked with early | present
    · exact (first.real inode early).imp_right (second.keeps inode)
    · exact .inr present

/-- A change of the inodes alone. -/
theorem evolves_of_inodes (dentries : after.dentries = tree.dentries)
    (xattrs : after.xattrs = tree.xattrs) (dirtyDentries : after.dirtyDentries = tree.dirtyDentries)
    (dirtyXattrs : after.dirtyXattrs = tree.dirtyXattrs)
    (inodes : ∀ inode, inode ∉ after.dirtyInodes -> after.inodes.get inode = tree.inodes.get inode)
    (marks : ∀ inode ∈ tree.dirtyInodes, inode ∈ after.dirtyInodes)
    (keeps : ∀ inode, (tree.inodes.get inode).isSome -> (after.inodes.get inode).isSome)
    (real : ∀ inode ∈ after.dirtyInodes,
      inode ∈ tree.dirtyInodes ∨ (after.inodes.get inode).isSome) : tree.Evolves after where
  inodes := inodes
  dentries _ _ := by rw [dentries]
  xattrs _ _ := by rw [xattrs]
  marksInodes := marks
  marksDentries _ clean := by rwa [dirtyDentries] at clean
  marksXattrs _ clean := by rwa [dirtyXattrs] at clean
  keeps := keeps
  real := real

theorem evolves_insertInode (inode : Nat) (row : Inode) :
    tree.Evolves (tree.insertInode inode row) := by
  refine evolves_of_inodes rfl rfl rfl rfl ?_ ?_ ?_ ?_
  · intro other clean
    exact get_set_of_ne _ _ fun same => clean (by rw [same]; exact mem_insert_self)
  · intro other marked
    exact mem_insert_of_mem marked
  · intro other present
    unfold insertInode
    rw [get_set]
    split_ifs
    · rfl
    · exact present
  · intro _ marked
    rcases mem_insert_iff.1 marked with rfl | before
    · right
      unfold insertInode
      rw [get_set_self]
      rfl
    · exact .inl before

theorem mem_foldl_insert {α : Type} (marks : List α) (key : α -> Nat) (dirty : List Nat)
    (inode : Nat) :
    inode ∈ marks.foldl (fun dirty mark => dirty.insert (key mark)) dirty ↔
      inode ∈ dirty ∨ ∃ mark ∈ marks, key mark = inode := by
  induction marks generalizing dirty with
  | nil => simp
  | cons mark marks step =>
    rw [foldl_cons, step, mem_insert_iff]
    constructor
    · rintro ((rfl | before) | ⟨other, member, same⟩)
      · exact .inr ⟨mark, mem_cons_self, rfl⟩
      · exact .inl before
      · exact .inr ⟨other, mem_cons_of_mem _ member, same⟩
    · rintro (before | ⟨other, member, same⟩)
      · exact .inl (.inr before)
      · rcases mem_cons.1 member with rfl | later
        · exact .inl (.inl same.symm)
        · exact .inr ⟨other, later, same⟩

theorem mem_dirtyInodes_update :
    inode ∈ (tree.updateInodes change).dirtyInodes ↔ inode ∈ tree.dirtyInodes ∨
        ∃ row other, tree.inodes.get inode = some row ∧ change inode row = some other := by
  unfold updateInodes
  rw [mem_foldl_insert]
  apply or_congr Iff.rfl
  constructor
  · rintro ⟨⟨_, row, other⟩, member, rfl⟩
    simp only [changedInodes, mem_filterMap, map_eq_some_iff, Prod.exists] at member
    obtain ⟨_, _, stored, _, found, rfl, rfl, rfl⟩ := member
    exact ⟨_, _, (tree.inodes.mem_entries _ _).1 stored, found⟩
  · rintro ⟨row, other, stored, found⟩
    refine ⟨(inode, row, other), ?_, rfl⟩
    simp only [changedInodes, mem_filterMap, map_eq_some_iff, Prod.mk.injEq, Prod.exists]
    exact ⟨inode, row, (tree.inodes.mem_entries _ _).2 stored, other, found, rfl, rfl, rfl⟩

theorem evolves_updateInodes (change : Nat -> Inode -> Option Inode) :
    tree.Evolves (tree.updateInodes change) := by
  have present : ∀ inode, (tree.inodes.get inode).isSome ->
      ((tree.updateInodes change).inodes.get inode).isSome := by
    intro inode found
    rw [get_updateInodes, isSome_map]
    exact found
  refine evolves_of_inodes rfl rfl rfl rfl ?_ ?_ present ?_
  · intro inode clean
    rw [mem_dirtyInodes_update] at clean
    rw [get_updateInodes]
    cases stored : tree.inodes.get inode with
    | none => rfl
    | some row =>
      cases found : change inode row with
      | none => rw [map_some, found, getD_none]
      | some other => exact absurd (.inr ⟨row, other, stored, found⟩) clean
  · intro inode marked
    exact mem_dirtyInodes_update.2 (.inl marked)
  · intro inode marked
    rcases mem_dirtyInodes_update.1 marked with before | ⟨row, _, stored, _⟩
    · exact .inl before
    · exact .inr (present inode (by rw [stored]; rfl))

theorem evolves_updateInode (inode : Nat) (change : Inode -> Inode) :
    tree.Evolves (tree.updateInode inode change) := evolves_updateInodes _

theorem evolves_bury (now : Nat) (condition : Nat -> Inode -> Bool) :
    tree.Evolves (tree.bury now condition) := evolves_updateInodes _

theorem evolves_touch (now inode : Nat) : tree.Evolves (tree.touch now inode) :=
  evolves_updateInodes _

/-- A change of the directory entries and the extended attributes. -/
theorem evolves_of_marks (inodes : after.inodes = tree.inodes)
    (dirtyInodes : after.dirtyInodes = tree.dirtyInodes)
    (dentries : Table.Marks tree.dentries tree.dirtyDentries after.dentries after.dirtyDentries)
    (xattrs : Table.Marks tree.xattrs tree.dirtyXattrs after.xattrs after.dirtyXattrs) :
    tree.Evolves after where
  inodes _ _ := by rw [inodes]
  dentries key clean := (dentries key clean).1
  xattrs key clean := (xattrs key clean).1
  marksInodes _ marked := by rwa [dirtyInodes]
  marksDentries key clean := (dentries key clean).2
  marksXattrs key clean := (xattrs key clean).2
  keeps _ present := by rwa [inodes]
  real _ marked := .inl (by rwa [dirtyInodes] at marked)

theorem evolves_insertDentry (key : DentryKey) (inode : Nat) :
    tree.Evolves (tree.insertDentry key inode) :=
  evolves_of_marks rfl rfl (marks_set _ _ _ _) (marks_refl _ _)

theorem evolves_deleteDentries (condition : DentryKey -> Bool) :
    tree.Evolves (tree.deleteDentries condition) :=
  evolves_of_marks rfl rfl (marks_filter _ _ _) (marks_refl _ _)

theorem evolves_deleteDentry (key : DentryKey) : tree.Evolves (tree.deleteDentry key) :=
  evolves_deleteDentries _

theorem evolves_moveDentry (source target : DentryKey) :
    tree.Evolves (tree.moveDentry source target) := by
  cases entry : tree.dentries.get source with
  | none =>
    unfold moveDentry
    rw [entry]
    exact .refl tree
  | some inode =>
    have moved : tree.moveDentry source target =
        { tree with
          dentries := (tree.dentries.erase source).set target inode
          dirtyDentries := (tree.dirtyDentries.set source inode).set target inode } := by
      unfold moveDentry
      rw [entry]
    rw [moved]
    refine evolves_of_marks rfl rfl (fun key clean => ?_) (marks_refl _ _)
    rw [get_set, get_set] at clean
    rw [get_set, get_erase]
    split_ifs at clean ⊢
    exact ⟨rfl, clean⟩

theorem evolves_insertDentries (rows : Table DentryKey Nat) :
    tree.Evolves (tree.insertDentries rows) :=
  evolves_of_marks rfl rfl (marks_setAll _ _ _) (marks_refl _ _)

theorem evolves_setXattr (key : XattrKey) (xattr : Xattr) :
    tree.Evolves (tree.setXattr key xattr) :=
  evolves_of_marks rfl rfl (marks_refl _ _) (marks_set _ _ _ _)

theorem evolves_deleteXattrs (condition : XattrKey -> Bool) :
    tree.Evolves (tree.deleteXattrs condition) :=
  evolves_of_marks rfl rfl (marks_refl _ _) (marks_filter _ _ _)

theorem evolves_insertXattrs (rows : Table XattrKey Xattr) :
    tree.Evolves (tree.insertXattrs rows) :=
  evolves_of_marks rfl rfl (marks_refl _ _) (marks_setAll _ _ _)

end Tree

/-! ## The stored content -/

variable {H : Type} [DecidableEq H] [Digest H]

namespace Store

/-- Every chunk has its size and digest, the lists of chunks have no gaps in the table of
chunks, and every manifest has passed the check of its chunks. -/
structure Sound (store : Store H) : Prop where
  chunk : ∀ id chunk, store.chunks.get id = some chunk ->
    chunk.size = chunk.content.length ∧ chunk.checksum = Digest.sha256 chunk.content
  listed : ∀ key id, store.manifestChunks.get key = some id -> (store.chunks.get id).isSome
  manifest : ∀ id row, store.manifests.get id = some row ->
    row.chunkCount = PgFs.chunkCount row.fileSize ∧ row.fileSize <= maxFileBytes ∧
      store.computeManifestChecksum id row.fileSize row.chunkCount = .ok row.checksum

/-- A version has a manifest with its size and digest, or is an alias of one that has. -/
inductive VersionSound (store : Store H) (inode : Nat) (row : Version H) : Prop
  | canonical (manifest : Nat) (found : Manifest H) (has : row.manifest = some manifest)
      (first : row.source = none) (stored : store.manifests.get manifest = some found)
      (size : found.fileSize = row.size) (checksum : found.checksum = row.checksum)
  | copy (number : Nat) (source : Version H) (lacks : row.manifest = none)
      (of : row.source = some number) (stored : store.versions.get (inode, number) = some source)
      (first : source.source = none) (size : source.size = row.size)
      (checksum : source.checksum = row.checksum)

/-- Every version is backed by content. -/
def Versioned (store : Store H) : Prop :=
  ∀ inode number row, store.versions.get (inode, number) = some row ->
    store.VersionSound inode row

/-- Content is added, and nothing that was stored changes. -/
structure Grows (store after : Store H) : Prop where
  chunks : ∀ id chunk, store.chunks.get id = some chunk -> after.chunks.get id = some chunk
  manifests : ∀ id row, store.manifests.get id = some row -> after.manifests.get id = some row
  lists : ∀ id no, (store.manifests.get id).isSome ->
    after.manifestChunks.get (id, no) = store.manifestChunks.get (id, no)
  versions : after.versions = store.versions

section

omit [DecidableEq H] [Digest H]

variable {store after : Store H}

/-- A list of chunks depends on the chunks under its numbers only. -/
theorem manifestRows_congr (same : ∀ no, after.chunkAt manifest no = store.chunkAt other no) :
    after.manifestRows manifest = store.manifestRows other := by
  have extend : ∀ (store : Store H) (manifest bound : Nat),
      (store.manifestChunks.keys.map Prod.snd).foldr max 0 + 1 <= bound ->
      ((range bound).filterMap fun no =>
        (store.chunkAt manifest no).map fun chunk => (no, chunk)) =
          store.manifestRows manifest := by
    intro store manifest _ within
    obtain ⟨_, rfl⟩ := Nat.exists_eq_add_of_le within
    rw [range_add, filterMap_append]
    refine (congrArg _ ?_).trans (append_nil _)
    rw [filterMap_eq_nil_iff]
    intro no member
    obtain ⟨_, _, rfl⟩ := mem_map.1 member
    rw [map_eq_none_iff]
    unfold chunkAt
    rw [(store.manifestChunks.get_eq_none _).2, bind_none]
    intro listed
    have := le_foldr_max 0 (mem_map_of_mem (f := Prod.snd) listed)
    omega
  rw [<- extend after manifest (max ((after.manifestChunks.keys.map Prod.snd).foldr max 0 + 1)
    ((store.manifestChunks.keys.map Prod.snd).foldr max 0 + 1)) (Nat.le_max_left _ _),
    <- extend store other _ (Nat.le_max_right _ _)]
  congr 1
  funext no
  rw [same]

end

section

variable {store after : Store H}

omit [DecidableEq H] in
theorem computeManifestChecksum_congr {manifest other fileSize count : Nat}
    (same : ∀ no, after.chunkAt manifest no = store.chunkAt other no) :
    after.computeManifestChecksum manifest fileSize count =
      store.computeManifestChecksum other fileSize count := by
  unfold computeManifestChecksum
  rw [manifestRows_congr same]

omit [DecidableEq H] [Digest H] in
theorem VersionSound.mono (sound : store.VersionSound inode row)
    (manifests : ∀ id row, store.manifests.get id = some row -> after.manifests.get id = some row)
    (versions : ∀ key row, store.versions.get key = some row ->
      after.versions.get key = some row) : after.VersionSound inode row := by
  cases sound with
  | canonical manifest found has first stored size checksum =>
    exact .canonical manifest found has first (manifests _ _ stored) size checksum
  | copy number source lacks of stored first size checksum =>
    exact .copy number source lacks of (versions _ _ stored) first size checksum

section

variable (grows : store.Grows after)
include grows

omit [DecidableEq H] in
theorem Grows.chunkAt (sound : store.Sound)
    (stored : (store.manifests.get manifest).isSome) (no : Nat) :
    after.chunkAt manifest no = store.chunkAt manifest no := by
  unfold Store.chunkAt
  rw [grows.lists manifest no stored]
  cases listed : store.manifestChunks.get (manifest, no) with
  | none => rfl
  | some id =>
    obtain ⟨chunk, found⟩ := isSome_iff_exists.1 (sound.listed _ _ listed)
    rw [bind_some, bind_some, found, grows.chunks id chunk found]

omit [DecidableEq H] [Digest H]

theorem Grows.versioned (versioned : store.Versioned) : after.Versioned := by
  intro inode number row stored
  rw [grows.versions] at stored
  exact (versioned inode number row stored).mono grows.manifests
    fun key row stored => by rwa [grows.versions]

end

omit [DecidableEq H] in
/-- Soundness of the content does not depend on the versions. -/
theorem Sound.withVersions (sound : store.Sound) (versions : Table (Nat × Nat) (Version H)) :
    Sound { store with versions := versions } where
  __ := sound
  manifest id row stored := by
    obtain ⟨count, bounded, computed⟩ := sound.manifest id row stored
    exact ⟨count, bounded, (computeManifestChecksum_congr fun _ => rfl).trans computed⟩

omit [DecidableEq H] [Digest H] in
/-- Versions are added that content backs. -/
theorem Versioned.extend (versioned : store.Versioned)
    (manifests : after.manifests = store.manifests)
    (keeps : ∀ key row, store.versions.get key = some row -> after.versions.get key = some row)
    (added : ∀ inode number row, after.versions.get (inode, number) = some row ->
      store.versions.get (inode, number) = some row ∨ store.VersionSound inode row) :
    after.Versioned := by
  have stays : ∀ inode row, store.VersionSound inode row -> after.VersionSound inode row :=
    fun _ _ sound => sound.mono (fun _ _ stored => by rwa [manifests]) keeps
  intro inode number row stored
  rcases added inode number row stored with before | backed
  · exact stays inode row (versioned inode number row before)
  · exact stays inode row backed

omit [DecidableEq H] in
/-- Growth keeps soundness if what is added is sound. -/
theorem Sound.grow (sound : store.Sound) (grows : store.Grows after)
    (chunk : ∀ id chunk, store.chunks.get id = none -> after.chunks.get id = some chunk ->
      chunk.size = chunk.content.length ∧ chunk.checksum = Digest.sha256 chunk.content)
    (listed : ∀ key id, after.manifestChunks.get key = some id ->
      store.manifestChunks.get key = some id ∨ (after.chunks.get id).isSome)
    (manifest : ∀ id row, store.manifests.get id = none -> after.manifests.get id = some row ->
      row.chunkCount = PgFs.chunkCount row.fileSize ∧ row.fileSize <= maxFileBytes ∧
        after.computeManifestChecksum id row.fileSize row.chunkCount = .ok row.checksum) :
    after.Sound where
  chunk id found stored := by
    cases before : store.chunks.get id with
    | none => exact chunk id found before stored
    | some old =>
      obtain rfl := mem_unique (grows.chunks id old before) stored
      exact sound.chunk id old before
  listed key id has := by
    rcases listed key id has with before | present
    · obtain ⟨old, found⟩ := isSome_iff_exists.1 (sound.listed key id before)
      rw [grows.chunks id old found]
      rfl
    · exact present
  manifest id row stored := by
    cases before : store.manifests.get id with
    | none => exact manifest id row before stored
    | some old =>
      obtain rfl := mem_unique (grows.manifests id old before) stored
      obtain ⟨count, bounded, computed⟩ := sound.manifest id old before
      refine ⟨count, bounded, ?_⟩
      rw [computeManifestChecksum_congr (grows.chunkAt sound (by rw [before]; rfl)), computed]

end

end Store

/-! ## Edits -/

/-- One change that a call on files makes; `mounting` says whether the call may change the
tables of mounted clients, and `batching` whether it may open and close a batch of commits. -/
inductive Edit (mounting batching : Prop) : Db H -> Db H -> Prop
  | tree {db : Db H} (after : Tree) (evolves : db.tree.Evolves after) :
      Edit mounting batching db { db with tree := after }
  | mounts {db : Db H} (may : mounting) (mounts : Mounts) :
      Edit mounting batching db { db with mounts := mounts }
  | sequences {db : Db H} (sequences : Sequences) :
      Edit mounting batching db { db with sequences := sequences }
  | aclSets {db : Db H} (aclSets : Table Nat (List AclEntry)) :
      Edit mounting batching db { db with aclSets := aclSets }
  | settings {db : Db H} (workspace : Workspace)
      (head : workspace.headCommit = db.workspace.headCommit)
      (floor : workspace.historyFloor = db.workspace.historyFloor) :
      Edit mounting batching db { db with workspace := workspace }
  | commit {db : Db H} : Edit mounting batching db db.advanceHead
  | batch {db : Db H} (may : batching) (batch : Option CommitBatch) :
      Edit mounting batching db { db with batch := batch }
  | content {db : Db H} (after : Store H) (grows : db.store.Grows after)
      (sound : db.store.Sound -> after.Sound) : Edit mounting batching db { db with store := after }
  | version {db : Db H} (inode number : Nat) (row : Version H)
      (fresh : db.store.versions.get (inode, number) = none)
      (sound : db.store.VersionSound inode row) :
      Edit mounting batching db
        { db with store.versions := db.store.versions.set (inode, number) row }

/-- A call is made of edits. -/
abbrev Edits {α : Type} (mounting batching : Prop) (call : Sql H α) : Prop :=
  Tx.Traces (Edit mounting batching) call

end VexDB.PgFs
