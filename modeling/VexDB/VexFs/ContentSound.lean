import VexDB.VexFs.ContentStore
import VexDB.VexFs.Rows

/-!
# Stored content in every reachable state

Every manifest belongs to one canonical version and holds the content that the
version row describes; an alias names a canonical version with the same content.
Publishing only adds content.  Garbage collection deletes a canonical version
only if no alias has it as its source, and a manifest only with its version.
-/

namespace VexDB.VexFs

open Storage List Table Db Bool

variable {H : Type} [DecidableEq H] [Digest H] {after : Db H} {db : Db H} {inode size : Nat} {version : Version H}

/-- A version row agrees with the content that is stored for it. -/
inductive Db.SoundVersion (db : Db H) (inode : Nat) (version : Version H) : Prop
  | canonical (manifest : Nat) (content : Bytes) (source : version.source = none)
      (named : version.manifest = some manifest) (holds : db.Holds manifest inode content)
      (size : version.size = content.length) (checksum : version.checksum = contentDigest content)
      (bounded : content.length <= maxStagedBytes)
  | aliased (source : Nat) (canonical : Version H) (manifest : version.manifest = none)
      (named : version.source = some source)
      (stored : db.versions.get (inode, source) = some canonical)
      (original : canonical.source = none) (size : canonical.size = version.size)
      (checksum : canonical.checksum = version.checksum)

/-- The tables of versions, manifests and chunks fit together. -/
structure Db.ContentSound (db : Db H) : Prop where
  used : ∀ id row, db.manifests.get id = some row -> ∃ inode number version,
    db.versions.get (inode, number) = some version ∧ version.manifest = some id
  positive : ∀ id row, db.manifests.get id = some row -> 0 < id
  listed : ∀ id no chunk, db.manifestChunks.get (id, no) = some chunk ->
    ∃ row, db.manifests.get id = some row
  chunksUsed : ∀ id chunk, db.chunks.get id = some chunk -> ∃ manifest no,
    db.manifestChunks.get (manifest, no) = some id
  versions : ∀ inode number version, db.versions.get (inode, number) = some version ->
    db.SoundVersion inode version
  owned : ∀ left right first second id, db.versions.get left = some first ->
    db.versions.get right = some second -> first.manifest = some id ->
    second.manifest = some id -> left = right

section

omit [DecidableEq H]

theorem Db.SoundVersion.mono (sound : db.SoundVersion inode version)
    (held : ∀ manifest content, version.manifest = some manifest ->
      db.Holds manifest inode content -> after.Holds manifest inode content)
    (kept : ∀ source canonical, version.source = some source ->
      db.versions.get (inode, source) = some canonical ->
      after.versions.get (inode, source) = some canonical) : after.SoundVersion inode version := by
  cases sound with
  | canonical manifest content source named holds size checksum bounded =>
    exact .canonical manifest content source named (held manifest content named holds) size checksum
      bounded
  | aliased source canonical manifest named stored original size checksum =>
    exact .aliased source canonical manifest named (kept source canonical named stored) original
      size checksum

/-- The version that holds the content of a version, which is itself unless it is an alias. -/
theorem Db.ContentSound.original (sound : db.ContentSound)
    (stored : db.versions.get (inode, number) = some version) :
    ∃ row, db.versions.get (inode, version.source.getD number) = some row ∧
      row.source = none ∧ row.size = version.size ∧ row.checksum = version.checksum := by
  cases sound.versions inode number version stored with
  | canonical _ _ noSource =>
    rw [noSource]
    exact ⟨version, stored, noSource, rfl, rfl⟩
  | aliased source row _ named rowStored original size checksum =>
    rw [named]
    exact ⟨row, rowStored, original, size, checksum⟩

end

/-- The content of a stored version, and the manifest that holds it. -/
theorem Db.ContentSound.contents (sound : db.ContentSound)
    (found : db.versions.get (inode, number) = some version) :
    ∃ canonical manifest content, db.canonicalRow inode version = some canonical ∧
      canonical.manifest = some manifest ∧ db.Holds manifest inode content ∧
      content.length = version.size ∧ content.length <= maxStagedBytes ∧
      db.readVersionContent inode number = .ok content := by
  cases sound.versions inode number version found with
  | canonical manifest content source named holds size checksum bounded =>
    have row : db.canonicalRow inode version = some version := by
      unfold canonicalRow
      rw [source]
    exact ⟨version, manifest, content, row, named, holds, size.symm, bounded,
      readVersionContent_of_holds found row named holds size checksum rfl bounded⟩
  | aliased source canonical _ named stored original size checksum =>
    have row : db.canonicalRow inode version = some canonical := by
      unfold canonicalRow
      rw [named]
      exact stored
    cases sound.versions inode source canonical stored with
    | canonical manifest content _ kept holds length digest bounded =>
      exact ⟨canonical, manifest, content, row, kept, holds, (size.symm.trans length).symm, bounded,
        readVersionContent_of_holds found row kept holds (size.symm.trans length)
          (checksum.symm.trans digest) checksum bounded⟩
    | aliased other _ _ isAlias =>
      rw [original] at isAlias
      cases isAlias

/-- A stored version reads back a content of its size. -/
theorem Db.ContentSound.reads (sound : db.ContentSound)
    (found : db.versions.get (inode, number) = some version) :
    ∃ content, db.readVersionContent inode number = .ok content ∧
      content.length = version.size := by
  obtain ⟨_, _, content, _, _, _, length, _, read⟩ := sound.contents found
  exact ⟨content, read, length⟩

/-! ## Adding versions -/

section

variable (sound : db.ContentSound)
include sound

omit [DecidableEq H] in
/-- Aliases of canonical versions keep the content sound. -/
theorem Db.ContentSound.add (manifests : after.manifests = db.manifests)
    (entries : after.manifestChunks = db.manifestChunks) (chunks : after.chunks = db.chunks)
    (kept : ∀ key version, db.versions.get key = some version ->
      after.versions.get key = some version)
    (added : ∀ inode number version, after.versions.get (inode, number) = some version ->
      db.versions.get (inode, number) = some version ∨ version.manifest = none ∧
      ∃ source canonical, version.source = some source ∧
      db.versions.get (inode, source) = some canonical ∧ canonical.source = none ∧
      canonical.size = version.size ∧ canonical.checksum = version.checksum)
    : after.ContentSound := by
  have holds : ∀ manifest inode content, db.Holds manifest inode content ->
      after.Holds manifest inode content := by
    rintro manifest inode _ ⟨row, entry, ends⟩
    exact ⟨by rw [manifests, row], by rw [entries, chunks]; exact entry,
      by rw [entries]; exact ends⟩
  have old : ∀ inode number version id, after.versions.get (inode, number) = some version ->
      version.manifest = some id -> db.versions.get (inode, number) = some version := by
    intro inode number version id found named
    rcases added inode number version found with stored | ⟨none_named, _⟩
    · exact stored
    · rw [none_named] at named
      cases named
  constructor
  · intro id row found
    rw [manifests] at found
    obtain ⟨inode, number, version, stored, named⟩ := sound.used id row found
    exact ⟨inode, number, version, kept _ _ stored, named⟩
  · rw [manifests]
    exact sound.positive
  · rw [manifests, entries]
    exact sound.listed
  · rw [chunks, entries]
    exact sound.chunksUsed
  · intro inode number version found
    rcases added inode number version found with stored | ⟨none_named, source, canonical, named,
      stored, original, size, checksum⟩
    · exact (sound.versions inode number version stored).mono
        (fun _ _ _ held => holds _ _ _ held) fun _ _ _ canonicalStored => kept _ _ canonicalStored
    · exact .aliased source canonical none_named named (kept _ _ stored) original size checksum
  · rintro ⟨_, _⟩ ⟨_, _⟩ first second id left right firstNamed secondNamed
    exact sound.owned _ _ first second id (old _ _ _ id left firstNamed)
      (old _ _ _ id right secondNamed) firstNamed secondNamed

omit [DecidableEq H] in
/-- Content is sound or not regardless of the other tables. -/
theorem Db.ContentSound.of_same (manifests : after.manifests = db.manifests)
    (entries : after.manifestChunks = db.manifestChunks) (chunks : after.chunks = db.chunks)
    (versions : after.versions = db.versions) : after.ContentSound := by
  apply sound.add manifests entries chunks
  · exact fun _ _ stored => versions ▸ stored
  · exact fun _ _ _ found => .inl (versions ▸ found)

end

/-- The rows that storing a version leaves unchanged or adds. -/
theorem storedVersion_content (env : Env) (version : Nat) (previous : Option Nat)
    (whole : db.PiecesOf inode size pieces) (sound : db.ContentSound) :
    ∃ content row, Stored db (db.storedVersion env inode version size previous pieces) inode
        db.nextManifest size pieces content ∧
      (∀ key, (db.storedVersion env inode version size previous pieces).versions.get key =
        if key = (inode, version + 1) then some row else db.versions.get key) ∧
      row.manifest = some db.nextManifest ∧ row.source = none ∧ row.size = size ∧
      row.checksum = contentDigest content := by
  set committed := (db.advanced env inode size version).committed env with committedIs
  have unused : ∀ no, committed.manifestChunks.get (db.nextManifest, no) = none := by
    intro no
    rw [Option.eq_none_iff_forall_ne_some]
    intro chunk listed
    obtain ⟨row, stored⟩ := sound.listed db.nextManifest no chunk listed
    rw [nextManifest, get_fresh] at stored
    cases stored
  have same : committed.PiecesOf inode size pieces := ⟨whole.numbers, whole.lengths, whole.reused⟩
  obtain ⟨content, stored⟩ := stored_insertManifest same unused previous
  refine ⟨content, ⟨(committed.insertManifest inode db.nextManifest size previous
      pieces).nextVersionId, (db.advanced env inode size version).nextCommit, some db.nextManifest,
      size, contentChecksum size pieces, none, env.seconds⟩,
    ⟨⟨stored.holds.row, stored.holds.entry, stored.holds.ends⟩, stored.length,
      stored.digest, stored.faithful, stored.manifests, stored.entries, stored.chunks,
      stored.chunksNew⟩, fun key => ?_, rfl, rfl, rfl, stored.digest.symm⟩
  change (set (committed.insertManifest inode db.nextManifest size previous pieces).versions
    _ _).get key = _
  rw [get_set, insertManifest_versions]
  rfl

omit [DecidableEq H] in
/-- Storing pieces leaves what the other manifests hold. -/
theorem Stored.keeps (stored : Stored db after inode manifest size pieces content)
    (different : other ≠ manifest) (holds : db.Holds other owner bytes) :
    after.Holds other owner bytes := by
  constructor
  · rw [stored.manifests other different]
    exact holds.row
  · intro no inside
    obtain ⟨id, listed, present⟩ := holds.entry no inside
    refine ⟨id, ?_, stored.chunks id _ present⟩
    rw [stored.entries (other, no) different]
    exact listed
  · intro no outside
    rw [stored.entries (other, no) different]
    exact holds.ends no outside

theorem Db.ContentSound.storedVersion (sound : db.ContentSound) (env : Env) {version : Nat}
    (previous : Option Nat) (whole : db.PiecesOf inode size pieces)
    (bounded : size <= maxStagedBytes) (free : db.versions.get (inode, version + 1) = none) :
    (db.storedVersion env inode version size previous pieces).ContentSound := by
  obtain ⟨content, row, stored, versions, named, source, rowSize, checksum⟩ :=
    storedVersion_content env version previous whole sound
  set after := db.storedVersion env inode version size previous pieces with afterIs
  have fresh : ∀ id manifest, db.manifests.get id = some manifest -> id ≠ db.nextManifest :=
    fun id manifest found => ne_fresh _ _ found
  have kept : ∀ key old, db.versions.get key = some old -> after.versions.get key = some old := by
    intro key old found
    rw [versions, if_neg]
    · exact found
    · rintro rfl
      rw [free] at found
      cases found
  -- The manifest of an earlier version is stored, so it is not the new one.
  have oldManifest : ∀ key old id, db.versions.get key = some old -> old.manifest = some id ->
      id ≠ db.nextManifest := by
    rintro ⟨owner, number⟩ old id found oldNamed
    cases sound.versions owner number old found with
    | canonical manifest bytes _ same holds =>
      cases same.symm.trans oldNamed
      exact fresh _ _ holds.row
    | aliased _ _ none_named =>
      rw [none_named] at oldNamed
      cases oldNamed
  constructor
  · intro id manifest found
    by_cases isNew : id = db.nextManifest
    · subst isNew
      exact ⟨inode, version + 1, row, by rw [versions, if_pos rfl], named⟩
    · rw [stored.manifests id isNew] at found
      obtain ⟨owner, number, old, oldFound, oldNamed⟩ := sound.used id manifest found
      exact ⟨owner, number, old, kept _ _ oldFound, oldNamed⟩
  · intro id manifest found
    by_cases isNew : id = db.nextManifest
    · subst isNew
      exact Nat.succ_pos _
    · rw [stored.manifests id isNew] at found
      exact sound.positive id manifest found
  · intro id no chunk found
    by_cases isNew : id = db.nextManifest
    · subst isNew
      exact ⟨_, stored.holds.row⟩
    · rw [stored.entries (id, no) isNew] at found
      rw [stored.manifests id isNew]
      exact sound.listed id no chunk found
  · intro id chunk found
    rcases stored.chunksNew id chunk found with old | ⟨no, listed⟩
    · obtain ⟨manifest, no, listed⟩ := sound.chunksUsed id chunk old
      refine ⟨manifest, no, ?_⟩
      obtain ⟨_, manifestFound⟩ := sound.listed manifest no id listed
      rw [stored.entries (manifest, no) (fresh _ _ manifestFound)]
      exact listed
    · exact ⟨_, no, listed⟩
  · intro owner number found foundRow
    rw [versions] at foundRow
    split_ifs at foundRow with isNew
    · cases isNew
      cases foundRow
      exact .canonical db.nextManifest content source named stored.holds
        (rowSize.trans stored.length.symm) checksum (by rw [stored.length]; exact bounded)
    · refine (sound.versions owner number found foundRow).mono ?_ ?_
      · intro _ _ oldNamed holds
        exact stored.keeps (oldManifest _ _ _ foundRow oldNamed) holds
      · intro _ _ _ otherFound
        exact kept _ _ otherFound
  · intro left right first second id leftFound rightFound firstNamed secondNamed
    rw [versions] at leftFound rightFound
    split_ifs at leftFound rightFound with leftNew rightNew rightNew
    · exact leftNew.trans rightNew.symm
    · cases leftFound
      cases named.symm.trans firstNamed
      exact absurd rfl (oldManifest _ _ _ rightFound secondNamed)
    · cases rightFound
      cases named.symm.trans secondNamed
      exact absurd rfl (oldManifest _ _ _ leftFound firstNamed)
    · exact sound.owned left right first second id leftFound rightFound firstNamed secondNamed

/-! ## Deleting versions -/

omit [DecidableEq H] [Digest H] in
/-- A version that a run deletes is stored and not kept, and is an alias or the
source of no alias. -/
theorem mem_deletedVersions (member : (key, version) ∈ db.deletedVersions env batch) :
    db.versions.get key = some version ∧ key ∉ db.keepSet env ∧
      (version.source.isSome ∨ db.hasAlias key = false) := by
  unfold deletedVersions at member
  have candidate := mem_of_mem_take member
  rw [mem_insertionSort] at candidate
  unfold candidates at candidate
  rw [mem_filter, mem_entries] at candidate
  simp only [and_eq_true, or_eq_true, not_eq_true', contains_eq_mem,
    decide_eq_false_iff_not] at candidate
  exact ⟨candidate.1, candidate.2.1, candidate.2.2⟩

/-- The versions with the given keys are the rows a run deletes. -/
structure Db.Deletes (db : Db H) (deleted : List ((Nat × Nat) × Version H)) : Prop where
  stored : ∀ key version, (key, version) ∈ deleted -> db.versions.get key = some version
  sources : ∀ key version, (key, version) ∈ deleted ->
    version.source.isSome ∨ db.hasAlias key = false

section

omit [DecidableEq H] [Digest H]

theorem deletes_deletedVersions (db : Db H) (env : Env) (batch : Nat) :
    db.Deletes (db.deletedVersions env batch) :=
  ⟨fun _ _ member => (mem_deletedVersions member).1,
    fun _ _ member => (mem_deletedVersions member).2.2⟩

theorem get_deleteVersions (db : Db H) (deleted : List ((Nat × Nat) × Version H))
    (key : Nat × Nat) (version : Version H) :
    (db.deleteVersions deleted).versions.get key = some version ↔
      db.versions.get key = some version ∧ key ∉ deleted.map Prod.fst := by
  unfold Db.deleteVersions
  simp only [get_filter, Option.filter_eq_some_iff, not_eq_true', contains_eq_mem,
    decide_eq_false_iff_not]

end

section

omit [DecidableEq H]

variable {deleted : List ((Nat × Nat) × Version H)}

/-- What a manifest holds stays when the manifest does. -/
theorem Db.Holds.deleteVersions (holds : db.Holds manifest inode content)
    (kept : manifest ∉ deleted.filterMap fun entry => entry.2.manifest) :
    (db.deleteVersions deleted).Holds manifest inode content := by
  have entries : ∀ no, (db.deleteVersions deleted).manifestChunks.get (manifest, no) =
      db.manifestChunks.get (manifest, no) := by
    intro no
    unfold Db.deleteVersions
    simp only [get_filter, contains_eq_mem, kept, decide_false, Bool.not_false]
    cases db.manifestChunks.get (manifest, no) <;> rfl
  constructor
  · unfold Db.deleteVersions
    simp only [get_filter, contains_eq_mem, kept, decide_false, Bool.not_false, holds.row]
    rfl
  · intro no inside
    obtain ⟨id, listed, present⟩ := holds.entry no inside
    refine ⟨id, (entries no).trans listed, ?_⟩
    have used : ∃ entry ∈ (db.deleteVersions deleted).manifestChunks.entries, entry.2 = id :=
      ⟨((manifest, no), id), (mem_entries _ _ _).2 ((entries no).trans listed), rfl⟩
    unfold Db.deleteVersions at used ⊢
    rw [get_filter, present, Option.filter_eq_some_iff]
    exact ⟨rfl, by simpa [any_eq_true] using used⟩
  · intro no outside
    rw [entries no]
    exact holds.ends no outside

theorem Db.ContentSound.deleteVersions (sound : db.ContentSound) (deletes : db.Deletes deleted) :
    (db.deleteVersions deleted).ContentSound := by
  -- The manifest of a version that stays belongs to no deleted version.
  have manifestKept : ∀ key version id, db.versions.get key = some version ->
      key ∉ deleted.map Prod.fst -> version.manifest = some id ->
      id ∉ deleted.filterMap fun entry => entry.2.manifest := by
    intro key version id found stays named member
    obtain ⟨⟨other, gone⟩, inDeleted, goneNamed⟩ := mem_filterMap.1 member
    have same := sound.owned key other version gone id found (deletes.stored _ _ inDeleted) named
      goneNamed
    exact stays (same ▸ mem_map_of_mem inDeleted)
  have manifests : ∀ id row, (db.deleteVersions deleted).manifests.get id = some row ->
      db.manifests.get id = some row ∧ id ∉ deleted.filterMap fun entry => entry.2.manifest := by
    intro id row found
    unfold Db.deleteVersions at found
    simpa [Option.filter_eq_some_iff] using found
  have manifestStays : ∀ id row, db.manifests.get id = some row ->
      (id ∉ deleted.filterMap fun entry => entry.2.manifest) ->
      (db.deleteVersions deleted).manifests.get id = some row := by
    intro id row found stays
    unfold Db.deleteVersions
    rw [get_filter, Option.filter_eq_some_iff]
    exact ⟨found, by simpa using stays⟩
  constructor
  · intro id row found
    obtain ⟨old, stays⟩ := manifests id row found
    obtain ⟨inode, number, version, stored, named⟩ := sound.used id row old
    refine ⟨inode, number, version, ?_, named⟩
    rw [get_deleteVersions]
    refine ⟨stored, fun gone => stays ?_⟩
    obtain ⟨⟨key, other⟩, inDeleted, rfl⟩ := mem_map.1 gone
    have same := (deletes.stored _ _ inDeleted).symm.trans stored
    exact mem_filterMap.2 ⟨_, inDeleted, by rw [Option.some.inj same]; exact named⟩
  · intro id row found
    exact sound.positive id row (manifests id row found).1
  · intro id no chunk found
    have kept : db.manifestChunks.get (id, no) = some chunk ∧
        id ∉ deleted.filterMap fun entry => entry.2.manifest := by
      unfold Db.deleteVersions at found
      simpa [Option.filter_eq_some_iff] using found
    obtain ⟨row, stored⟩ := sound.listed id no chunk kept.1
    exact ⟨row, manifestStays id row stored kept.2⟩
  · intro id _ found
    unfold Db.deleteVersions at found
    rw [get_filter, Option.filter_eq_some_iff, any_eq_true] at found
    obtain ⟨⟨⟨manifest, no⟩, other⟩, member, same⟩ := found.2
    have other_eq : other = id := by simpa using same
    subst other_eq
    exact ⟨manifest, no, (mem_entries _ _ _).1 member⟩
  · intro inode number version found
    obtain ⟨stored, stays⟩ := (get_deleteVersions db deleted _ _).1 found
    refine (sound.versions inode number version stored).mono ?_ ?_
    · intro _ _ named holds
      exact holds.deleteVersions (manifestKept _ _ _ stored stays named)
    · intro source canonical named canonicalStored
      rw [get_deleteVersions]
      refine ⟨canonicalStored, fun gone => ?_⟩
      -- The source of an alias is canonical, so it is no candidate while the alias is there.
      obtain ⟨⟨key, _⟩, inDeleted, keyIs⟩ := mem_map.1 gone
      have keySame : key = (inode, source) := keyIs
      subst keySame
      cases (deletes.stored _ _ inDeleted).symm.trans canonicalStored
      rcases deletes.sources _ _ inDeleted with isAlias | noAlias
      · cases sound.versions inode number version stored with
        | canonical _ _ none_source =>
          rw [none_source] at named
          cases named
        | aliased otherSource row _ otherNamed rowStored original =>
          cases otherNamed.symm.trans named
          cases rowStored.symm.trans canonicalStored
          rw [original] at isAlias
          cases isAlias
      · have hasOne : db.hasAlias (inode, source) = true := by
          unfold hasAlias
          rw [any_eq_true]
          exact ⟨((inode, number), version), (mem_entries _ _ _).2 stored, by simp [named]⟩
        rw [noAlias] at hasOne
        cases hasOne
  · intro left right first second id leftFound rightFound firstNamed secondNamed
    exact sound.owned left right first second id
      ((get_deleteVersions db deleted _ _).1 leftFound).1
      ((get_deleteVersions db deleted _ _).1 rightFound).1 firstNamed secondNamed

end

end VexDB.VexFs
