import VexDB.PgFs.Evolution

/-!
# Calls are made of edits

One lemma for each function of the source other than those on snapshots and the
collection, and from them the statement for all operations of that kind.  What a
function that stores content returns is a manifest of the size of that content,
which is what the version inserted next needs.
-/

namespace VexDB.PgFs

open Storage Option Table Tx Store
open VexFs (Bytes Name Kind DentryKey XattrKey Digest OpenFlags Durability Effect)
open Tx (ReadOnly bind_ok write_ok pure_ok)

variable {H : Type} [Digest H] {mounting batching : Prop} {α : Type} {id : Nat} {after : Db H} {env
  : Env} {manifest size inode : Nat} {db : Db H} {store : Store H}
  {data : Bytes} {lists : Table (Nat × Nat) Nat}

/-! ## Statements -/

theorem edits_onTree (evolves : ∀ tree : Tree, tree.Evolves (change tree)) :
    Edits (H := H) mounting batching (onTree change) :=
  .write fun db => .tree _ (evolves db.tree)

theorem edits_onMounts {change : Mounts -> Mounts} :
    Edits (H := H) True batching (onMounts change) :=
  .write fun _ => .mounts trivial _

theorem edits_onWorkspace (head : ∀ workspace, (change workspace).headCommit = workspace.headCommit)
    (floor : ∀ workspace, (change workspace).historyFloor = workspace.historyFloor) :
    Edits (H := H) mounting batching (onWorkspace change) :=
  .write fun _ => .settings _ (head _) (floor _)

theorem edits_nextval {value : Sequences -> Nat} {advance : Sequences -> Nat -> Sequences} :
    Edits (H := H) mounting batching (nextval value advance) :=
  .reads fun _ => .bind (.write fun _ => .sequences _) fun _ => .pure _

theorem edits_insertAclSet : Edits (H := H) mounting batching (insertAclSet acl) :=
  .bind edits_nextval fun _ => .bind (.attempt_unless fun _ _ => .aclSets _) fun _ => .pure _

theorem edits_getOrCreateAclSet : Edits (H := H) mounting batching (getOrCreateAclSet acl) := by
  refine .look fun canonical => .ite (.pure _) (.reads fun found => ?_)
  cases found with
  | some => exact .pure _
  | none => exact .bind edits_insertAclSet fun _ => .pure _

theorem edits_inheritedAclSet (parent : Nat) :
    Edits (H := H) mounting batching (inheritedAclSet parent) := by
  refine .look fun row => ?_
  cases row.aclSet with
  | none => exact .pure _
  | some =>
    exact .reads fun _ => .ite (.pure _) (.ite (.pure _) edits_getOrCreateAclSet)

theorem edits_inheritAcl {parent child : Nat} :
    Edits (H := H) mounting batching (inheritAcl parent child) :=
  .bind (edits_inheritedAclSet parent) fun _ =>
    edits_onTree fun _ => Tree.evolves_updateInode _ _

theorem edits_recordCommit {path : Bytes} :
    Edits (H := H) mounting batching (recordCommit path) := by
  intro _ _ _ returned
  obtain ⟨_, ⟨_, rfl⟩ | ⟨_, rfl, _⟩⟩ := recordCommit_ok.1 returned
  · exact .refl
  · exact .single .commit

instance {inode : Option Nat} : ReadOnly (quotaRow inode : Sql H (Option Inode)) := by
  cases inode with
  | none => exact inferInstanceAs (ReadOnly (pure none))
  | some => exact inferInstanceAs (ReadOnly (require _ _ >>= _))

instance {inode : Option Nat} : ReadOnly (enforceQuota inode size : Sql H Unit) := by
  unfold enforceQuota
  infer_instance

theorem edits_insertInode (row : Inode) : Edits (H := H) mounting batching (insertInode row) :=
  .bind edits_nextval fun _ =>
    .bind (.attempt_unless fun _ _ => .tree _ (Tree.evolves_insertInode _ _)) fun _ => .pure _

theorem edits_insertDentry : Edits (H := H) mounting batching (insertDentry key inode) :=
  .attempt_unless fun _ _ => .tree _ (Tree.evolves_insertDentry _ _)

theorem edits_insertNode {row : Inode} : Edits (H := H) mounting batching (insertNode key row) :=
  .bind (edits_insertInode row) fun _ => .bind edits_insertDentry fun _ =>
    .bind edits_inheritAcl fun _ => .pure _

instance : ReadOnly (inodeRow inode : Sql H Inode) := by
  unfold inodeRow
  infer_instance

theorem edits_touch {now : Nat} :
    Edits (H := H) mounting batching (onTree fun tree => tree.touch now inode) :=
  edits_onTree fun _ => Tree.evolves_touch _ _

theorem edits_advanceInode {version : Nat} {stamp : Inode -> Inode} :
    Edits (H := H) mounting batching (advanceInode inode version size stamp) :=
  edits_onTree fun _ => Tree.evolves_updateInode _ _

/-! ## Content -/

/-- A manifest with a row of some size. -/
def Manifested (size manifest : Nat) (db : Db H) : Prop :=
  ∃ row, db.store.manifests.get manifest = some row ∧ row.fileSize = size

/-- The manifest of every sound content with the manifests of a database would leave a
size within the limit. -/
def Bounded (size : Nat) (db : Db H) : Prop :=
  ∀ store : Store H, store.manifests = db.store.manifests -> store.Sound -> size <= maxFileBytes

omit [Digest H] in
theorem Manifested.edit [Digest H] (manifested : Manifested size manifest db)
    (edit : Edit mounting batching db after) : Manifested size manifest after := by
  obtain ⟨row, stored, fits⟩ := manifested
  refine ⟨row, ?_, fits⟩
  cases edit with
  | content store grows => exact grows.manifests _ _ stored
  | _ => exact stored

theorem Manifested.bounded (manifested : Manifested size manifest db) : Bounded size db := by
  intro _ same sound
  obtain ⟨row, stored, rfl⟩ := manifested
  exact (sound.manifest manifest row (by rw [same, stored])).2.1

/-- A new row of the table of chunks. -/
theorem Store.grows_chunk (fresh : store.chunks.get id = none) (data : Bytes) :
    store.Grows { store with
      chunks := store.chunks.set id ⟨data, data.length, Digest.sha256 data⟩ } where
  chunks other chunk stored := by
    rwa [get_set_of_ne]
    rintro rfl
    cases stored.symm.trans fresh
  manifests _ _ stored := stored
  lists _ _ _ := rfl
  versions := rfl

theorem Store.sound_chunk (fresh : store.chunks.get id = none) (data : Bytes)
    (sound : store.Sound) :
    Store.Sound { store with
      chunks := store.chunks.set id ⟨data, data.length, Digest.sha256 data⟩ } := by
  refine sound.grow (grows_chunk fresh data) ?_ (fun _ _ listed => .inl listed) ?_
  · intro other _ missing stored
    rw [get_set] at stored
    split_ifs at stored
    · cases stored
      exact ⟨rfl, rfl⟩
    · cases stored.symm.trans missing
  · intro _ _ missing stored
    cases stored.symm.trans missing

theorem insertChunk_ok (returned : insertChunk data db = .ok (id, after)) :
    ∃ sequences, db.store.chunks.get id = none ∧
      after = { db with
        sequences := sequences
        store.chunks := db.store.chunks.set id ⟨data, data.length, Digest.sha256 data⟩ } := by
  unfold insertChunk nextval at returned
  simp only [bind_ok, write_ok, attempt_ok] at returned
  obtain ⟨_, _, ⟨_, _, ⟨rfl, rfl⟩, _, _, rfl, rfl, rfl⟩, _, _, inserted, rfl, rfl⟩ := returned
  split_ifs at inserted with taken
  cases inserted
  exact ⟨_, by simpa using taken, rfl⟩

theorem edits_insertChunk (data : Bytes) : Edits (H := H) mounting batching (insertChunk data) := by
  intro db _ _ returned
  obtain ⟨sequences, fresh, rfl⟩ := insertChunk_ok returned
  have drawn : Edit mounting batching db { db with sequences := sequences } := .sequences _
  exact (Relation.ReflTransGen.single drawn).tail
    (.content _ (grows_chunk fresh data) (sound_chunk fresh data))

section

variable (same : ∀ id no, (store.manifests.get id).isSome ->
  lists.get (id, no) = store.manifestChunks.get (id, no))
include same

omit [Digest H] in
/-- Chunks listed under a manifest that has no row. -/
theorem Store.grows_lists : store.Grows { store with manifestChunks := lists } :=
  ⟨fun _ _ stored => stored, fun _ _ stored => stored, same, rfl⟩

theorem Store.sound_lists
    (listed : ∀ key id, lists.get key = some id -> store.manifestChunks.get key = some id ∨
      (store.chunks.get id).isSome)
    (sound : store.Sound) : Store.Sound { store with manifestChunks := lists } := by
  refine sound.grow (grows_lists same) ?_ listed ?_
  · intro id _ missing stored
    cases stored.symm.trans missing
  · intro id _ missing stored
    cases stored.symm.trans missing

end

/-- A part of a call that gives chunks to a manifest without a row. -/
structure Fills (mounting batching : Prop) (manifest : Nat) (call : Sql H Unit) : Prop where
  traces : TracesFrom (Edit mounting batching)
    (fun db => db.store.manifests.get manifest = none) call
  keeps : ∀ db after, call db = .ok ((), after) -> after.store.manifests = db.store.manifests

theorem Fills.pure : Fills (H := H) mounting batching manifest (pure ()) :=
  ⟨.of_traces (.pure _), fun _ _ returned => by rw [(pure_ok.1 returned).2]⟩

theorem Fills.look {α : Type} {first : Sql H α} [ReadOnly first] {next : α -> Sql H Unit}
    (fills : ∀ value, Fills mounting batching manifest (next value)) :
    Fills mounting batching manifest (first >>= next) where
  traces db _ after fresh returned := by
    obtain ⟨value, _, looked, continued⟩ := bind_ok.1 returned
    obtain rfl := ReadOnly.same looked
    exact (fills value).traces _ () after fresh continued
  keeps db after returned := by
    obtain ⟨value, _, looked, continued⟩ := bind_ok.1 returned
    obtain rfl := ReadOnly.same looked
    exact (fills value).keeps _ after continued

theorem Fills.forM {body : Nat -> Sql H Unit}
    (fills : ∀ no, Fills mounting batching manifest (body no)) (numbers : List Nat) :
    Fills mounting batching manifest (numbers.forM body) where
  traces := .forM _ (fun no _ => (fills no).traces) fun no _ db _ after fresh returned => by
    show after.store.manifests.get manifest = none
    rwa [(fills no).keeps db after returned]
  keeps db after returned :=
    Tx.Ensures.forM (fun other => other.store.manifests = db.store.manifests) numbers
      (fun no _ between _ after same returned =>
        ((fills no).keeps between after returned).trans same)
      db () after rfl returned

variable [DecidableEq H]

omit [Digest H] in
theorem Store.holds_isSome [Digest H] (holds : store.holds data id = true) :
    (store.chunks.get id).isSome := by
  unfold Store.holds at holds
  cases stored : store.chunks.get id with
  | none => simp [stored] at holds
  | some => rfl

theorem Store.reusableChunk_isSome
    (found : store.reusableChunk previous manifest no data = some id) :
    (store.chunks.get id).isSome := by
  rcases or_eq_some_iff.1 found with reused | ⟨_, own⟩
  · exact holds_isSome (filter_eq_some_iff.1 reused).2
  · exact holds_isSome (List.find?_some own)

theorem edits_findOrInsertChunk :
    Edits (H := H) mounting batching (findOrInsertChunk previous manifest no data) := by
  refine .reads fun found => ?_
  cases found with
  | some => exact .pure _
  | none => exact edits_insertChunk data

theorem findOrInsertChunk_ok
    (returned : findOrInsertChunk previous manifest no data db = .ok (id, after)) :
    after.store.manifests = db.store.manifests ∧ (after.store.chunks.get id).isSome := by
  obtain ⟨reusable, _, looked, continued⟩ := bind_ok.1 returned
  obtain ⟨found, rfl⟩ := Tx.reading_ok.1 looked
  cases reusable with
  | some =>
    obtain ⟨rfl, rfl⟩ := pure_ok.1 continued
    exact ⟨rfl, reusableChunk_isSome found.symm⟩
  | none =>
    obtain ⟨_, _, rfl⟩ := insertChunk_ok continued
    rw [get_set_self]
    exact ⟨rfl, rfl⟩

theorem storeChunk_manifests
    (returned : storeChunk previous manifest no data db = .ok ((), after)) :
    after.store.manifests = db.store.manifests := by
  unfold storeChunk at returned
  simp only [bind_ok, onStore, write_ok] at returned
  obtain ⟨_, _, found, rfl⟩ := returned
  exact (findOrInsertChunk_ok found).1

theorem fills_storeChunk (previous : Option Nat) (manifest no : Nat) (data : Bytes) :
    Fills (H := H) mounting batching manifest (storeChunk previous manifest no data) where
  keeps _ _ := storeChunk_manifests
  traces db nothing after fresh returned := by
    unfold storeChunk at returned
    simp only [bind_ok, onStore, write_ok] at returned
    obtain ⟨id, between, found, rfl⟩ := returned
    obtain ⟨same, present⟩ := findOrInsertChunk_ok found
    have unlisted : ∀ other number, (between.store.manifests.get other).isSome ->
        (between.store.manifestChunks.set (manifest, no) id).get (other, number) =
          between.store.manifestChunks.get (other, number) := by
      intro other _ stored
      refine get_set_of_ne _ _ fun here => ?_
      rw [(Prod.mk.inj here).1, same, fresh] at stored
      cases stored
    refine (edits_findOrInsertChunk _ _ _ found).tail
      (.content _ (grows_lists unlisted) (sound_lists unlisted ?_))
    intro _ _ listed
    rw [get_set] at listed
    split_ifs at listed
    · cases listed
      exact .inr present
    · exact .inl listed

section

omit [DecidableEq H]

/-- Linking chunks of another manifest to one without a row. -/
theorem edit_linkChunks (fresh : db.store.manifests.get manifest = none) (other : Nat)
    (condition : Nat -> Chunk H -> Bool) :
    Edit mounting batching db
      { db with store := db.store.linkChunks manifest other condition } := by
  refine .content _ (grows_lists ?_) (sound_lists ?_ ?_)
  case refine_3 =>
    intro _ id listed
    rw [get_setAll] at listed
    rcases or_eq_some_iff.1 listed with linked | ⟨_, before⟩
    · have member := mem_of_lastRow linked
      simp only [List.mem_map, List.mem_filter, Prod.mk.injEq, Prod.exists] at member
      obtain ⟨_, _, found, ⟨_, holds⟩, rfl, rfl⟩ := member
      right
      cases stored : db.store.chunks.get found with
      | none => simp [stored] at holds
      | some => rfl
    · exact .inl before
  all_goals
    intro id _ stored
    rw [get_setAll, (lastRow_eq_none _ _).2, none_or]
    intro _ member
    obtain ⟨_, _, same⟩ := List.mem_map.1 member
    rw [<- (Prod.mk.inj (Prod.mk.inj same).1).1, fresh] at stored
    cases stored

theorem fills_linkChunks (manifest other : Nat) (condition : Db H -> Nat -> Chunk H -> Bool) :
    Fills mounting batching manifest (Tx.write fun db =>
      { db with store := db.store.linkChunks manifest other (condition db) }) where
  traces db nothing after fresh returned := by
    rw [write_ok.1 returned]
    exact .single (edit_linkChunks fresh other _)
  keeps db after returned := by
    rw [write_ok.1 returned]
    rfl

end

theorem fills_rangeChunk (previous manifest offset : Nat) (content : Bytes) (no : Nat) :
    Fills (H := H) mounting batching manifest
      (rangeChunk previous manifest offset content size no) := by
  refine .look fun listed => ?_
  split_ifs
  · exact .pure
  · exact .look fun _ => .look fun _ => .look fun _ => fills_storeChunk _ _ _ _

/-- A manifest that has no row yet, for a content of some size. -/
def Unfinished (size manifest : Nat) (db : Db H) : Prop :=
  db.store.manifests.get manifest = none ∧ Bounded size db

/-- A call that stores a content of some size under a manifest, which it returns. -/
abbrev Stores (mounting batching : Prop) (start : Db H -> Prop) (size : Nat) (call : Sql H Nat) :
    Prop :=
  Reaches (Edit mounting batching) start call (Manifested size)

section

omit [DecidableEq H]

theorem stores_finishManifest (manifest size : Nat) :
    Stores (H := H) mounting batching (Unfinished size manifest) size
      (finishManifest manifest size) := by
  rintro db id _ ⟨fresh, bounded⟩ returned
  unfold finishManifest at returned
  simp only [bind_ok, checked_ok, onStore, write_ok, pure_ok] at returned
  obtain ⟨checksum, db, ⟨computed, rfl⟩, _, _, rfl, rfl, rfl⟩ := returned
  have grows : db.store.Grows { db.store with
      manifests := db.store.manifests.set id ⟨size, chunkCount size, checksum⟩ } := by
    refine ⟨fun _ _ stored => stored, fun other row stored => ?_, fun _ _ _ => rfl, rfl⟩
    rwa [get_set_of_ne]
    rintro rfl
    cases stored.symm.trans fresh
  refine ⟨.single (.content _ grows fun sound => sound.grow grows ?_ ?_ ?_), _,
    get_set_self _ _ _, rfl⟩
  · intro other _ missing stored
    cases stored.symm.trans missing
  · exact fun _ _ listed => .inl listed
  · intro _ _ missing stored
    rw [get_set] at stored
    split_ifs at stored with here
    · cases stored
      subst here
      exact ⟨rfl, bounded db.store rfl sound,
        (computeManifestChecksum_congr fun _ => rfl).trans computed⟩
    · cases stored.symm.trans missing

/-- Giving chunks to a manifest before it gets its row. -/
theorem Stores.fill {first : Sql H Unit} {rest : Sql H Nat}
    (fills : Fills mounting batching manifest first)
    (stores : Stores mounting batching (Unfinished size manifest) size rest) :
    Stores mounting batching (Unfinished size manifest) size (first >>= fun _ => rest) := by
  rintro db id after ⟨fresh, bounded⟩ returned
  obtain ⟨_, between, filled, finished⟩ := bind_ok.1 returned
  have same := fills.keeps db between filled
  have unfinished : Unfinished size manifest between :=
    ⟨by rw [same, fresh], fun store equal => bounded store (equal.trans same)⟩
  obtain ⟨steps, manifested⟩ := stores between id after unfinished finished
  exact ⟨(fills.traces db () between fresh filled).trans steps, manifested⟩

omit [Digest H] in
theorem newManifest_ok (returned : newManifest db = .ok (manifest, after)) :
    db.store.manifests.get manifest = none ∧
      ∃ sequences, after = { db with sequences := sequences } := by
  unfold newManifest nextval at returned
  simp only [bind_ok, Tx.reading_ok, write_ok, pure_ok, rejectIf_ok] at returned
  obtain ⟨_, _, ⟨_, _, ⟨rfl, rfl⟩, _, _, rfl, rfl, rfl⟩, _, _, ⟨rfl, rfl⟩, _, _, ⟨unused, rfl⟩,
    rfl, rfl⟩ := returned
  simp only [Bool.or_eq_true, not_or, Bool.not_eq_true, isSome_eq_false_iff,
    isNone_iff_eq_none] at unused
  exact ⟨unused.1, _, rfl⟩

/-- Drawing the id of a manifest and storing content under it. -/
theorem stores_newManifest {rest : Nat -> Sql H Nat} (stores : ∀ manifest,
      Stores mounting batching (Unfinished size manifest) size (rest manifest)) :
    Stores mounting batching (Bounded size) size (newManifest >>= rest) := by
  intro db id after bounded returned
  obtain ⟨manifest, _, drawn, stored⟩ := bind_ok.1 returned
  obtain ⟨fresh, sequences, rfl⟩ := newManifest_ok drawn
  obtain ⟨steps, manifested⟩ := stores manifest { db with sequences := sequences } id after
    ⟨fresh, bounded⟩ stored
  exact ⟨.head (.sequences sequences) steps, manifested⟩

theorem edits_insertManifestVersion {number commit : Nat} :
    TracesFrom (Edit (H := H) mounting batching) (Manifested size manifest)
      (insertManifestVersion env inode number commit manifest size) := by
  rintro db _ _ ⟨found, stored, rfl⟩ returned
  unfold insertManifestVersion insertVersion at returned
  simp only [bind_ok, require_ok, attempt_ok] at returned
  obtain ⟨_, db, ⟨looked, rfl⟩, inserted⟩ := returned
  cases stored.symm.trans looked
  split_ifs at inserted with taken
  cases inserted
  exact .single (.version inode number _ (by simpa using taken)
    (.canonical manifest found rfl rfl stored rfl rfl))

end

theorem stores_emptyManifest :
    Stores (H := H) mounting batching (fun _ => True) 0 emptyManifest := by
  intro _ id after _ returned
  obtain ⟨found, _, looked, continued⟩ := bind_ok.1 returned
  obtain ⟨search, rfl⟩ := Tx.reading_ok.1 looked
  cases found with
  | some =>
    simp only [bind_ok, rejectIf_ok] at continued
    obtain ⟨_, _, ⟨_, rfl⟩, rfl, rfl⟩ := continued
    have fits := List.find?_some search.symm
    rw [Bool.and_eq_true, decide_eq_true_iff] at fits
    exact ⟨.refl, _, (mem_entries _ _ _).1 (List.mem_of_find?_eq_some search.symm), fits.1⟩
  | none =>
    exact stores_newManifest (fun manifest => stores_finishManifest manifest 0) _ id after
      (fun _ _ _ => Nat.zero_le _) continued

theorem stores_storeManifest (previous : Option Nat) (content : Bytes) :
    Stores (H := H) mounting batching (fun _ => True) content.length
      (storeManifest previous content) := by
  intro _ id after _ returned
  obtain ⟨_, _, checked, continued⟩ := bind_ok.1 returned
  obtain ⟨small, rfl⟩ := Tx.rejectIf_ok.1 checked
  split_ifs at continued with empty
  · rw [empty]
    exact stores_emptyManifest _ id after trivial continued
  · exact stores_newManifest (fun manifest => .fill
      (.forM (fun no => fills_storeChunk previous manifest no _) _)
      (stores_finishManifest manifest content.length)) _ id after
      (fun _ _ _ => Nat.not_lt.1 small) continued

theorem stores_storeManifestRange {previous previousSize offset : Nat} {content : Bytes} :
    Stores (H := H) mounting batching (fun _ => True) (max previousSize (offset + content.length))
      (storeManifestRange previous previousSize offset content) := by
  intro db id after _ returned
  unfold storeManifestRange at returned
  simp only [bind_ok, rejectIf_ok, require_ok] at returned
  obtain ⟨_, _, ⟨_, rfl⟩, row, _, ⟨found, rfl⟩, _, _, ⟨_, rfl⟩, _, db, ⟨_, rfl⟩, returned⟩ :=
    returned
  obtain ⟨stored, fits⟩ := filter_eq_some_iff.1 found
  have manifested : Manifested previousSize previous db := ⟨row, stored, by simpa using fits⟩
  split_ifs at returned with empty
  · rw [empty]
    exact stores_emptyManifest _ id after trivial returned
  · refine stores_newManifest (fun manifest => .fill (fills_linkChunks manifest previous fun _ => _)
      (.fill (.forM (fun no => fills_rangeChunk previous manifest offset content no) _)
        (stores_finishManifest manifest _))) db id after ?_ returned
    intro store same sound
    have := manifested.bounded store same sound
    omega

end VexDB.PgFs
