import VexDB.VexFs.StagedContent

/-!
# Publishing staged content

Publishing stores the array of bytes that a staging area stands for as a new
version and makes that version the base of the staging area, so that the array
does not change.
-/

namespace VexDB.VexFs

open Storage List ErrorCode Overlay
open Storage.Overlay (cellAt Covers fit overwrite)
open Program (exec)

variable {H : Type} [DecidableEq H] [Digest H]

/-- The digests of the chunks of a content tell the chunks apart. -/
def DigestsSeparate (H : Type) [Digest H] (content : Bytes) : Prop :=
  ∀ left right, Digest.sha256 (chunkOf content left) = (Digest.sha256 (chunkOf content right) : H) →
    chunkOf content left = chunkOf content right

section

variable {db : Db H} {id inode : Nat} {staging : Staging} {base content : Bytes}

/-- A chunk filled up with zeros and cut to the end of the array. -/
theorem take_padChunk_covers (narrow : bytes.length <= contentChunkBytes)
    (cells : ∀ index < contentChunkBytes,
      cellAt 0 bytes index = cellAt 0 content (no * contentChunkBytes + index)) :
    (padChunk bytes).take (min contentChunkBytes (content.length - no * contentChunkBytes)) =
      chunkOf content no := by
  apply ext_cellAt
  · rw [length_take, length_padChunk_of_le narrow, length_chunkOf]
    omega
  · intro index inside
    rw [length_take] at inside
    rw [cellAt_take, if_pos (by omega), cellAt_padChunk, cells index (by omega), chunkOf_eq,
      cellAt_chunkAt, if_pos (by omega)]

/-- A piece of the content to publish is a chunk of the array. -/
theorem stagedPiece_covers (isBase : db.BaseOf staging inode base)
    (covers : Covers 0 contentChunkBytes (db.dirtyChunks id) (base.take staging.baseVisibleSize)
      content) (size : staging.logicalSize = content.length) (no : Nat) :
    ∃ reuse, db.stagedPiece inode id staging no = .ok (no, reuse, chunkOf content no) := by
  have positive := contentChunkBytes_pos
  unfold Db.stagedPiece
  dsimp only
  rw [size]
  cases found : db.stagingChunks.get (id, no) with
  | some bytes =>
    obtain ⟨some_bytes, narrow, _⟩ := covers.within no bytes found
    refine ⟨none, ?_⟩
    dsimp only
    rw [if_neg (by rintro (empty | _); exacts [some_bytes empty, by omega]),
      take_padChunk_covers narrow fun index inside => covers.chunk positive found inside]
  | none =>
    by_cases hidden : no * contentChunkBytes ≥ staging.baseVisibleSize
    · refine ⟨none, ?_⟩
      rw [if_pos hidden, take_padChunk_covers (Nat.zero_le _) fun index inside => ?_]
      rw [<- covers.clean positive found inside, cellAt_take, if_neg (by omega),
        cellAt_nil]
    · have := isBase.visible
      obtain ⟨_, chunkId, named, _, listed, stored⟩ := isBase.entry (Nat.not_le.1 hidden)
      have length := length_chunkOf base no
      rw [isBase.size] at length
      have data : (padChunk ((chunkOf base no).take (min (chunkOf base no).length
          (staging.baseVisibleSize - no * contentChunkBytes)))).take (chunkOf content no).length =
            chunkOf content no := by
        rw [length, length_chunkOf content]
        apply take_padChunk_covers
        · rw [length_take]
          omega
        · intro index inside
          rw [<- covers.clean positive found inside, cellAt_take, cellAt_take,
            chunkOf_eq, cellAt_chunkAt, if_pos inside]
          by_cases shown : no * contentChunkBytes + index < staging.baseVisibleSize
          · rw [if_pos shown, if_pos (by omega)]
          · rw [if_neg shown, if_neg (by omega)]
      rw [if_neg hidden, named, Option.bind_some, listed]
      dsimp only
      rw [stored]
      dsimp only [chunkRow]
      rw [<- length, <- length_chunkOf content, data, if_neg (by
        rintro (zero | _ | wrongSize | wrongLength | other)
        · have := Option.some.inj zero
          omega
        · omega
        · exact wrongSize rfl
        · exact wrongLength rfl
        · exact other rfl)]
      by_cases whole : min (chunkOf base no).length
            (staging.baseVisibleSize - no * contentChunkBytes) = (chunkOf base no).length ∧
          (chunkOf base no).length = (chunkOf content no).length
      · -- The chunk is reused as it is, so that its digest is the one stored with it.
        have same : chunkOf base no = chunkOf content no := by
          rw [<- data, whole.1, <- whole.2, take_length]
          unfold padChunk
          rw [take_left]
        rw [if_pos whole, same, if_pos rfl]
        exact ⟨some chunkId, rfl⟩
      · rw [if_neg whole, if_pos rfl]
        exact ⟨none, rfl⟩

variable (staged : db.Staged id inode staging base content)
include staged

omit [DecidableEq H] in
/-- The dirty bytes of a handle are at most the bytes of the array. -/
theorem Db.Staged.dirtyBytes_le : db.dirtyBytes id <= content.length := by
  have rows : db.dirtyBytes id =
      ((((db.stagingChunks.entries.filter fun entry => entry.1.1 = id).map
        fun entry => (entry.1.2, entry.2))).map fun row : Nat × Bytes => row.2.length).sum := by
    unfold Db.dirtyBytes
    rw [map_map]
    rfl
  rw [rows]
  apply staged.covers.total_le
  · rw [map_map]
    refine List.Nodup.map_on ?_ ((List.Nodup.of_map Prod.fst db.stagingChunks.nodup).filter _)
    rintro ⟨⟨left, leftNo⟩, _⟩ inLeft ⟨⟨right, rightNo⟩, _⟩ inRight same
    obtain ⟨leftStored, leftId⟩ := mem_filter.1 inLeft
    obtain ⟨rightStored, rightId⟩ := mem_filter.1 inRight
    obtain rfl : left = id := by simpa using leftId
    obtain rfl : right = left := by simpa using rightId
    obtain rfl : leftNo = rightNo := same
    rw [db.stagingChunks.eq_of_mem leftStored rightStored]
  · intro _ member
    obtain ⟨⟨⟨other, _⟩, _⟩, inEntries, rfl⟩ := mem_map.1 member
    obtain ⟨stored, isThis⟩ := mem_filter.1 inEntries
    obtain rfl : other = id := by simpa using isThis
    exact (db.stagingChunks.mem_entries _ _).1 stored

/-- The content to publish is the array. -/
theorem Db.Staged.pieces :
    ∃ pieces, db.stagedPieces inode id staging = .ok pieces ∧ contentOf pieces = content ∧
      ∀ piece ∈ pieces, piece.2.2 = chunkOf content piece.1 := by
  have size := staged.size
  have := staged.bounded
  have := staged.dirtyBytes_le
  have capacity := staged.capacity
  choose reuse piece using stagedPiece_covers staged.isBase staged.covers size
  refine ⟨(range (chunkCount staging.logicalSize)).map fun no =>
    (no, reuse no, chunkOf content no), ?_, ?_, ?_⟩
  · unfold Db.stagedPieces
    rw [if_neg (by
      have := staged.isBase.visible
      have := staged.isBase.bounded
      omega), if_neg]
    · apply mapM_except_of_forall₂
      rw [forall₂_map_right_iff]
      exact forall₂_same.2 fun no _ => piece no
    · rintro (wrong | beyond)
      · exact wrong capacity
      · obtain ⟨⟨⟨other, no⟩, bytes⟩, member, late⟩ := any_eq_true.1 beyond
        obtain ⟨stored, isThis⟩ := mem_filter.1 member
        obtain rfl : _ = id := by simpa using isThis
        obtain ⟨some_bytes, _, _⟩ := staged.covers.within no bytes
          ((db.stagingChunks.mem_entries _ _).1 stored)
        have := length_pos_iff.2 some_bytes
        have after := of_decide_eq_true late
        dsimp only at after
        rw [ge_iff_le, <- Nat.not_lt] at after
        apply after
        rw [chunkCount_eq, Chunking.lt_chunkTotal contentChunkBytes_pos]
        omega
  · unfold contentOf
    rw [map_map, size]
    exact Chunking.flatten_chunkAt contentChunkBytes_pos content
  · intro _ member
    obtain ⟨no, _, rfl⟩ := mem_map.1 member
    rfl

/-- Publishing stores the array as a version and bases the staging area on it. -/
theorem Db.Staged.publish (sound : db.Sound)
    (separate : DigestsSeparate H content) {after : Db H} {env : Env} {handle : Handle}
    {generation version : Nat} {found : Staging} {previous : Option Nat}
    {pieces : List (Nat × Option Nat × Bytes)} (owner : handle.inode = inode)
    (publishes : db.Publishes after env id handle generation version found previous pieces) :
    after.readVersionContent inode version = .ok content ∧
      ∃ now, after.Staged id inode now content content ∧ now.generation = staging.generation := by
  subst owner
  obtain rfl := Option.mem_unique publishes.publishable.found staged.row
  obtain ⟨_, ok, array, chunks⟩ := staged.pieces
  cases publishes.publishable.pieces.symm.trans ok
  obtain ⟨bytes, row, stored, versions, named, source, size, checksum⟩ :=
    storedVersion_content env handle.expectedVersion previous publishes.whole sound.content
  -- The bytes that are stored are those of the array, because the digests tell its chunks apart.
  have same : bytes = content := by
    rw [<- array]
    apply stored.faithful
    intro left inLeft right inRight _ digest
    rw [chunks left inLeft, chunks right inRight] at digest ⊢
    exact separate _ _ digest
  subst same
  have holds : after.Holds db.nextManifest handle.inode bytes := by
    rw [publishes.state]
    exact ⟨stored.holds.row, stored.holds.entry, stored.holds.ends⟩
  have manifestPositive : 0 < db.nextManifest := by
    unfold Db.nextManifest Table.fresh
    omega
  constructor
  · have stores : after.versions.get (handle.inode, version) = some row := by
      rw [publishes.state, publishes.number]
      change (db.storedVersion env handle.inode handle.expectedVersion found.logicalSize previous
        pieces).versions.get _ = _
      rw [versions, if_pos rfl]
    refine readVersionContent_of_holds stores ?_ named holds ?_ checksum rfl staged.bounded
    · unfold Db.canonicalRow
      rw [source]
    · rw [size, staged.size]
  · have none_dirty : after.dirtyChunks id = fun _ => none := by
      funext no
      rw [publishes.state]
      exact Table.get_filter_of_dropped _ fun _ => by simp
    obtain ⟨_, stagingSame, _, _, _, _⟩ := db.sameBeside_storedVersion env handle.inode
      handle.expectedVersion found.logicalSize previous pieces
    refine ⟨{ found with
        baseManifest := some db.nextManifest
        baseSize := found.logicalSize
        baseVisibleSize := found.logicalSize
        capacity := 0 }, ⟨?_, staged.size, staged.bounded, ⟨?_, Nat.le_refl _, ?_, ?_⟩, ?_, ?_⟩,
        rfl⟩
    · rw [publishes.state]
      change (Table.update _ _).get id = _
      rw [Table.get_update, stagingSame, staged.row]
      simp only [Option.map_some, if_true]
    · exact staged.size.symm
    · rw [staged.size]
      exact staged.bounded
    · intro _
      exact ⟨db.nextManifest, rfl, manifestPositive, holds⟩
    · rw [none_dirty]
      rw [staged.size, take_length]
      exact covers_base bytes
    · exact Db.dirtyBytes_of_clean fun no => congrFun none_dirty no

end

/-! ## How publishing can fail -/

/-- An error does not report corruption. -/
def SqlError.harmless (error : SqlError) : Prop := error.code ≠ .corrupt

omit [DecidableEq H] [Digest H] in
theorem failsWith_checked {α : Type} {look : Db H -> Except SqlError α}
    {possible : SqlError -> Prop} (fits : ∀ error, look db = .error error -> possible error) :
    Tx.FailsWith (checked look) db possible := by
  intro error failed
  unfold checked at failed
  cases looked : look db with
  | error found =>
    rw [looked] at failed
    rw [<- Except.error.inj failed]
    exact fits found looked
  | ok =>
    rw [looked] at failed
    exact absurd failed (by simp [Except.map])

theorem resolveVersionStorage_harmless {db : Db H} (sound : db.ContentSound) {inode number : Nat}
    {error : SqlError} (failed : db.resolveVersionStorage inode number = .error error) :
    error.harmless := by
  cases found : db.versions.get (inode, number) with
  | none =>
    unfold Db.resolveVersionStorage at failed
    rw [found] at failed
    cases failed
    exact noConfusion
  | some version =>
    obtain ⟨_, read, _⟩ := sound.reads found
    unfold Db.readVersionContent at read
    rw [failed] at read
    exact absurd read (by simp [bind, Except.bind])

section

variable {db : Db H} {id inode : Nat} {staging : Staging} {base content : Bytes}

variable (staged : db.Staged id inode staging base content)
include staged

/-- Publishing staged content does not report corruption. -/
theorem Db.Staged.storeVersion_harmless (sound : db.Sound) (env : Env) (version generation : Nat) :
    Tx.FailsWith (storeVersionFromStaging env inode version id generation) db
      SqlError.harmless := by
  refine .bind (.require noConfusion) fun found _ isFound => ?_
  obtain ⟨stored, rfl⟩ := Tx.require_ok.1 isFound
  obtain rfl := Option.mem_unique stored staged.row
  refine .bind (.rejectIf noConfusion) fun _ _ fresh => ?_
  obtain ⟨_, rfl⟩ := Tx.rejectIf_ok.1 fresh
  refine .bind ?_ fun previous _ isPrevious => ?_
  · unfold previousManifest
    split_ifs
    · exact .bind (failsWith_checked fun error failed =>
        resolveVersionStorage_harmless sound.content failed) fun _ _ _ => .pure _
    · exact .pure _
  obtain ⟨_, rfl⟩ := previousManifest_ok.1 isPrevious
  refine .bind ?_ fun _ _ admitted => ?_
  · exact .bind (.reading _) fun _ _ _ => .bind (.rejectIf noConfusion)
      fun _ _ _ => .rejectIf noConfusion
  obtain ⟨_, rfl⟩ := checkQuotaForContentSize_ok.1 admitted
  refine .bind (.attempt fun error failed => ?_) fun _ _ advanced => ?_
  · split_ifs at failed
    rw [<- Except.error.inj failed]
    exact noConfusion
  obtain ⟨_, rfl⟩ := advanceVersion_ok.1 advanced
  refine .bind (.bind (.reading _) fun _ _ _ => .bind (.write _) fun _ _ _ => .bind (.write _)
    fun _ _ _ => .bind (.write _) fun _ _ _ => .pure _) fun commit _ committed => ?_
  obtain ⟨_, rfl⟩ := createCommit_ok.1 committed
  refine .bind ?_ fun result _ _ => ?_
  · -- The pieces are found, as the content to publish is the array.
    refine .bind (failsWith_checked fun error failed => ?_) fun pieces _ _ =>
      .bind (.reading _) fun _ _ _ => .bind (.write _) fun _ _ _ => .pure _
    obtain ⟨pieces, ok, _⟩ := staged.pieces
    have same := (stagedPieces_congr inode id found rfl rfl rfl).trans ok
    cases failed.symm.trans same
  refine .bind (.reading _) fun _ _ _ => .bind (.attempt fun error failed => ?_) fun _ _ _ =>
    .bind (.write _) fun _ _ _ => .pure _
  split_ifs at failed
  rw [<- Except.error.inj failed]
  exact noConfusion

theorem Db.Staged.publish_harmless (sound : db.Sound) (env : Env)
    (owner : handle.inode = inode) (generation : Nat) :
    Tx.FailsWith (publishHandleInTransaction env id handle generation) db SqlError.harmless := by
  subst owner
  refine .bind (.rejectIf noConfusion) fun _ _ opened => ?_
  obtain ⟨_, rfl⟩ := Tx.rejectIf_ok.1 opened
  split_ifs
  · exact .bind (.require noConfusion) fun _ _ _ => .pure _
  · refine .bind (.rejectIf noConfusion) fun _ _ latest => ?_
    obtain ⟨_, rfl⟩ := Tx.rejectIf_ok.1 latest
    refine .bind (.require noConfusion) fun _ _ node => ?_
    obtain ⟨_, rfl⟩ := Tx.require_ok.1 node
    refine .bind (.rejectIf noConfusion) fun _ _ current => ?_
    obtain ⟨_, rfl⟩ := Tx.rejectIf_ok.1 current
    exact .bind (staged.storeVersion_harmless sound env _ _) fun _ _ _ => .bind (.write _)
      fun _ _ _ => .pure _

end

end VexDB.VexFs
