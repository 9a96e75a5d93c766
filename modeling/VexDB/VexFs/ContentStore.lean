import VexDB.Storage.Chunking
import VexDB.VexFs.Operations

/-!
# What a manifest holds

A manifest holds a content when its row carries the size and the digest of the
content and its chunks are the chunks of the content.  Storing pieces makes a
manifest that holds a content of the right size and digest, and a version of
such a manifest reads back that content.
-/

namespace VexDB.VexFs

open Storage List Option Table Prod Digest Db Chunking
open Chunking (chunkAt chunkTotal)

variable {H : Type} [DecidableEq H] [Digest H] {db start current : Db H} {stored : Db.NewChunks H}
  {done : List (Nat × Option Nat × Bytes)} {count : Nat} {inode manifest : Nat} {pieces : List (Nat
  × Option Nat × Bytes)}

theorem contentChunkBytes_pos : 0 < contentChunkBytes := by decide

theorem chunkOf_eq (content : Bytes) (no : Nat) :
    chunkOf content no = chunkAt contentChunkBytes content no := rfl

theorem chunkCount_eq (size : Nat) : chunkCount size = chunkTotal contentChunkBytes size := rfl

/-- The row of a chunk with some bytes. -/
def chunkRow (inode : Nat) (data : Bytes) : Chunk H :=
  ⟨inode, data, data.length, sha256 data⟩

/-- The sizes and digests of the chunks of a content. -/
def contentSums (content : Bytes) : List (Nat × H) :=
  (List.range (chunkCount content.length)).map fun no =>
    ((chunkOf content no).length, sha256 (chunkOf content no))

/-- The digest of a content. -/
def contentDigest (content : Bytes) : H :=
  manifestChecksum content.length contentChunkBytes (contentSums content)

/-- A manifest holds a content of an inode. -/
structure Db.Holds (db : Db H) (manifest inode : Nat) (content : Bytes) : Prop where
  row : db.manifests.get manifest =
    some ⟨content.length, chunkCount content.length, contentDigest content⟩
  entry : ∀ no < chunkCount content.length, ∃ id,
    db.manifestChunks.get (manifest, no) = some id ∧
      db.chunks.get id = some (chunkRow inode (chunkOf content no))
  ends : ∀ no, chunkCount content.length <= no -> db.manifestChunks.get (manifest, no) = none

/-! ## Storing pieces -/

/-- How far the loop over the pieces of a manifest has come: `done` are the pieces
stored so far, `stored` the chunks added for them. -/
structure Storing (start current : Db H) (inode manifest : Nat) (stored : Db.NewChunks H)
    (done : List (Nat × Option Nat × Bytes)) : Prop where
  manifests : current.manifests = start.manifests
  chunksKept : ∀ id chunk, start.chunks.get id = some chunk -> current.chunks.get id = some chunk
  chunksNew : ∀ id chunk, current.chunks.get id = some chunk ->
    start.chunks.get id = some chunk ∨
      ∃ piece ∈ done, current.manifestChunks.get (manifest, piece.1) = some id
  others : ∀ key : Nat × Nat, (key.1 = manifest -> key.2 ∉ done.map Prod.fst) ->
    current.manifestChunks.get key = start.manifestChunks.get key
  listed : ∀ piece ∈ done, ∃ id, ∃ other ∈ done,
    current.manifestChunks.get (manifest, piece.1) = some id ∧
      current.chunks.get id = some (chunkRow inode other.2.2) ∧
      other.2.2.length = piece.2.2.length ∧
      sha256 other.2.2 = (sha256 piece.2.2 : H)
  known : ∀ key id, stored.lookup key = some id -> ∃ other ∈ done,
    current.chunks.get id = some (chunkRow inode other.2.2) ∧
      (other.2.2.length, sha256 other.2.2) = key

/-- The loop lists a chunk, new or not, that holds bytes of the right length and digest. -/
theorem Storing.list (storing : Storing start current inode manifest stored done)
    (piece other : Nat × Option Nat × Bytes) (id : Nat) (chunks : Table Nat (Chunk H))
    (isNew : piece.1 ∉ done.map fst) (fromDone : other ∈ done ++ [piece])
    (kept : ∀ known chunk, current.chunks.get known = some chunk -> chunks.get known = some chunk)
    (added : ∀ known chunk, chunks.get known = some chunk ->
      current.chunks.get known = some chunk ∨ known = id)
    (present : chunks.get id = some (chunkRow inode other.2.2))
    (lengthSame : other.2.2.length = piece.2.2.length)
    (digestSame : sha256 other.2.2 = (sha256 piece.2.2 : H)) :
    Storing start
      { current with
        chunks := chunks
        manifestChunks := current.manifestChunks.set (manifest, piece.1) id }
      inode manifest stored (done ++ [piece]) := by
  refine ⟨storing.manifests, fun known chunk found => kept _ _ (storing.chunksKept _ _ found),
    ?_, ?_, ?_, ?_⟩
  · intro known chunk found
    rcases added known chunk found with old | rfl
    · rcases storing.chunksNew known chunk old with first | ⟨earlier, inDone, listed⟩
      · exact .inl first
      · refine .inr ⟨earlier, mem_append_left _ inDone, ?_⟩
        rw [get_set_of_ne]
        · exact listed
        · intro same
          exact isNew ((mk.inj same).2 ▸ mem_map_of_mem inDone)
    · exact .inr ⟨piece, by simp, get_set_self _ _ _⟩
  · intro key outside
    have different : key ≠ (manifest, piece.1) := by
      rintro rfl
      exact outside rfl (by simp)
    rw [get_set_of_ne _ _ different]
    exact storing.others key fun same member =>
      outside same (by rw [map_append]; exact mem_append_left _ member)
  · intro earlier member
    rcases mem_append.1 member with inDone | last
    · obtain ⟨known, source, sourceDone, found, content, rest⟩ := storing.listed earlier inDone
      refine ⟨known, source, mem_append_left _ sourceDone, ?_, kept _ _ content, rest⟩
      rw [get_set_of_ne]
      · exact found
      · intro same
        exact isNew ((mk.inj same).2 ▸ mem_map_of_mem inDone)
    · obtain rfl := mem_singleton.1 last
      exact ⟨id, other, fromDone, get_set_self _ _ _, present, lengthSame, digestSame⟩
  · intro key found lookup
    obtain ⟨source, sourceDone, content, same⟩ := storing.known key found lookup
    exact ⟨source, mem_append_left _ sourceDone, kept _ _ content, same⟩

/-- A chunk of the previous version is reused only if it holds the same bytes. -/
theorem previousChunk_some {no id : Nat}
    (found : db.previousChunk previous no inode data = some id) :
    db.chunks.get id = some (chunkRow inode data) := by
  unfold previousChunk at found
  simp only [bind_eq_some_iff] at found
  obtain ⟨_, _, _, _, chunk, stored, chosen⟩ := found
  split_ifs at chosen with same
  cases chosen
  rw [stored, some.injEq]
  obtain ⟨_, _, _, _⟩ := chunk
  dsimp only at same
  obtain ⟨rfl, rfl, rfl, rfl⟩ := same
  rfl

section

variable (storing : Storing start current inode manifest stored done)
include storing

theorem Storing.step (previous : Option Nat) (piece : Nat × Option Nat × Bytes)
    (isNew : piece.1 ∉ done.map fst)
    (reused : ∀ id, piece.2.1 = some id -> start.chunks.get id = some (chunkRow inode piece.2.2)) :
    Storing start (storeChunk inode manifest previous (current, stored) piece).1 inode manifest
      (storeChunk inode manifest previous (current, stored) piece).2 (done ++ [piece]) := by
  obtain ⟨no, reuse, data⟩ := piece
  unfold storeChunk
  dsimp only
  cases choice : (reuse.or (current.previousChunk previous no inode data)).or
      (stored.lookup (data.length, sha256 data)) with
  | some id =>
    have same : ∀ known chunk, current.chunks.get known = some chunk ->
        current.chunks.get known = some chunk ∨ known = id := fun _ _ found => .inl found
    rcases or_eq_some_iff.1 choice with known | ⟨_, earlier⟩
    · have present : current.chunks.get id = some (chunkRow inode data) := by
        rcases or_eq_some_iff.1 known with given | ⟨_, found⟩
        · exact storing.chunksKept _ _ (reused id given)
        · exact previousChunk_some found
      exact storing.list (no, reuse, data) (no, reuse, data) id current.chunks isNew (by simp)
        (fun _ _ found => found) same present rfl rfl
    · obtain ⟨other, inDone, present, equal⟩ := storing.known _ id earlier
      exact storing.list (no, reuse, data) other id current.chunks isNew
        (mem_append_left _ inDone) (fun _ _ found => found) same present
        (mk.inj equal).1 (mk.inj equal).2
  | none =>
    set id := current.chunks.fresh current.elsewhere.chunk with idIs
    have listed := storing.list (no, reuse, data) (no, reuse, data) id
      (current.chunks.set id (chunkRow inode data)) isNew (by simp)
      (fun other chunk found => by
        rw [get_set_of_ne _ _ (current.chunks.ne_fresh _ found)]
        exact found)
      (fun other chunk found => by
        rw [get_set] at found
        split_ifs at found with same
        · exact .inr same
        · exact .inl found)
      (get_set_self _ _ _) rfl rfl
    refine { listed with known := ?_ }
    intro key found lookup
    rw [lookup_append] at lookup
    rcases or_eq_some_iff.1 lookup with earlier | ⟨_, last⟩
    · exact listed.known key found earlier
    · refine ⟨(no, reuse, data), by simp, ?_⟩
      rw [lookup_cons] at last
      split at last
      · rename_i same
        cases last
        exact ⟨get_set_self _ _ _, (beq_iff_eq.1 same).symm⟩
      · cases last

theorem Storing.steps (previous : Option Nat) (distinct : ((done ++ pieces).map fst).Nodup)
    (reused : ∀ piece ∈ pieces, ∀ id, piece.2.1 = some id ->
      start.chunks.get id = some (chunkRow inode piece.2.2)) :
    ∃ last, Storing start (pieces.foldl (storeChunk inode manifest previous)
      (current, stored)).1 inode manifest last (done ++ pieces) := by
  induction pieces generalizing current stored done with
  | nil => exact ⟨stored, by simpa using storing⟩
  | cons piece pieces ih =>
    have isNew : piece.1 ∉ done.map fst := by
      intro member
      rw [map_append, nodup_append] at distinct
      exact distinct.2.2 _ member _ (by simp) rfl
    have next := storing.step previous piece isNew (reused piece mem_cons_self)
    have result := ih next (by rwa [append_assoc]) fun other member =>
      reused other (mem_cons_of_mem _ member)
    rw [append_assoc] at result
    exact result

end

/-- The digests of the chunks of a content tell its chunks apart. -/
def DistinctDigests (H : Type) [Digest H] (pieces : List (Nat × Option Nat × Bytes)) : Prop :=
  ∀ left ∈ pieces, ∀ right ∈ pieces, left.2.2.length = right.2.2.length ->
    sha256 left.2.2 = (sha256 right.2.2 : H) -> left.2.2 = right.2.2

/-- The bytes of a content given by its pieces. -/
def contentOf (pieces : List (Nat × Option Nat × Bytes)) : Bytes :=
  (pieces.map fun piece => piece.2.2).flatten

/-- What storing pieces under a new manifest does. -/
structure Stored (db after : Db H) (inode manifest size : Nat)
    (pieces : List (Nat × Option Nat × Bytes)) (content : Bytes) : Prop where
  holds : after.Holds manifest inode content
  length : content.length = size
  digest : contentDigest content = (contentChecksum size pieces : H)
  faithful : DistinctDigests H pieces -> content = contentOf pieces
  manifests : ∀ other, other ≠ manifest -> after.manifests.get other = db.manifests.get other
  entries : ∀ key : Nat × Nat, key.1 ≠ manifest ->
    after.manifestChunks.get key = db.manifestChunks.get key
  chunks : ∀ id chunk, db.chunks.get id = some chunk -> after.chunks.get id = some chunk
  chunksNew : ∀ id chunk, after.chunks.get id = some chunk ->
    db.chunks.get id = some chunk ∨ ∃ no, after.manifestChunks.get (manifest, no) = some id

omit [DecidableEq H] [Digest H] in
theorem PiecesOf.getElem (numbers : pieces.map fst = range count) (inside : no < count) :
    ∃ piece ∈ pieces, piece.1 = no ∧ pieces[no]? = some piece := by
  have : pieces.length = count := by
    rw [<- length_map (f := fst), numbers, length_range]
  have read : (pieces.map fst)[no]? = some no := by
    rw [numbers, getElem?_range inside]
  rw [getElem?_map, map_eq_some_iff] at read
  obtain ⟨piece, found, number⟩ := read
  exact ⟨piece, mem_of_getElem? found, number, found⟩

/-- What is computed by number agrees with what is computed from the pieces. -/
theorem PiecesOf.map_numbers {β : Type} {byNumber : Nat -> β}
    {byPiece : Nat × Option Nat × Bytes -> β} (numbers : pieces.map fst = range count)
    (same : ∀ no < count, ∃ piece, pieces[no]? = some piece ∧ byNumber no = byPiece piece) :
    (range count).map byNumber = pieces.map byPiece := by
  have : pieces.length = count := by
    rw [<- length_map (f := fst), numbers, length_range]
  apply ext_getElem?
  intro no
  rw [getElem?_map, getElem?_map]
  by_cases inside : no < count
  · obtain ⟨piece, found, equal⟩ := same no inside
    rw [getElem?_range inside, found, map_some, map_some, equal]
  · rw [getElem?_eq_none (by simpa using inside),
      getElem?_eq_none (by omega), map_none, map_none]

/-- Bytes given by number, with the lengths of the chunks of a size, are the
chunks of their concatenation. -/
theorem chunkOf_concatenation
    (lengths : ∀ no < chunkCount size, (data no).length = bytesAt size no) :
    (((range (chunkCount size)).map data).flatten).length = size ∧
      ∀ no < chunkCount size, chunkOf ((range (chunkCount size)).map data).flatten no =
        data no := by
  have count : ((range (chunkCount size)).map data).length =
      chunkTotal contentChunkBytes size := by
    simp [chunkCount_eq]
  obtain ⟨total, chunks⟩ := chunkAt_flatten contentChunkBytes_pos count (by
    intro no _ found
    simp only [getElem?_map, map_eq_some_iff] at found
    obtain ⟨_, at_no, rfl⟩ := found
    obtain ⟨inside, rfl⟩ := List.getElem?_eq_some_iff.1 at_no
    rw [List.getElem_range, lengths no (by simpa using inside)]
    rfl)
  refine ⟨total, fun no inside => ?_⟩
  rw [chunkOf_eq, chunks no, getElem?_map, getElem?_range inside]
  rfl

theorem stored_insertManifest {size : Nat} (whole : db.PiecesOf inode size pieces)
    (unused : ∀ no, db.manifestChunks.get (manifest, no) = none) (previous : Option Nat) :
    ∃ content, Stored db (db.insertManifest inode manifest size previous pieces) inode manifest
      size pieces content := by
  set start : Db H := { db with
    manifests := db.manifests.set manifest ⟨size, chunkCount size,
        manifestChecksum size contentChunkBytes (chunkSums pieces)⟩ } with startIs
  have begin : Storing start start inode manifest [] [] :=
    ⟨rfl, fun _ _ found => found, fun _ _ found => .inl found, fun _ _ => rfl,
      nofun, nofun⟩
  have distinctNumbers : (([] ++ pieces).map fst).Nodup := by
    rw [nil_append, whole.numbers]
    exact nodup_range
  obtain ⟨last, storing⟩ := begin.steps previous distinctNumbers whole.reused
  change Storing start (db.insertManifest inode manifest size previous pieces) inode manifest last
    pieces at storing
  generalize db.insertManifest inode manifest size previous pieces = after at storing
  -- For every number, the bytes that the listed chunk holds.
  have each : ∀ no, ∃ data : Bytes, no < chunkCount size ->
      ∃ piece ∈ pieces, pieces[no]? = some piece ∧ (∃ other ∈ pieces, other.2.2 = data) ∧
        data.length = piece.2.2.length ∧ piece.2.2.length = bytesAt size no ∧
        sha256 data = (sha256 piece.2.2 : H) ∧
        ∃ id, after.manifestChunks.get (manifest, no) = some id ∧
          after.chunks.get id = some (chunkRow inode data) := by
    intro no
    by_cases inside : no < chunkCount size
    · obtain ⟨piece, member, rfl, found⟩ := PiecesOf.getElem whole.numbers inside
      obtain ⟨id, other, otherMember, listed, present, lengthSame, digestSame⟩ :=
        storing.listed piece member
      exact ⟨other.2.2, fun _ => ⟨piece, member, found, ⟨other, otherMember, rfl⟩, lengthSame,
        whole.lengths piece member, digestSame, id, listed, present⟩⟩
    · exact ⟨[], fun holds => absurd holds inside⟩
  choose data facts using each
  have lengths : ∀ no < chunkCount size, (data no).length = bytesAt size no := by
    intro no inside
    obtain ⟨_, _, _, _, length, bytes, _⟩ := facts no inside
    exact length.trans bytes
  obtain ⟨total, chunks⟩ := chunkOf_concatenation lengths
  set content := ((range (chunkCount size)).map data).flatten with contentIs
  have sums : contentSums content = (chunkSums pieces : List (Nat × H)) := by
    unfold contentSums chunkSums
    rw [total]
    apply PiecesOf.map_numbers whole.numbers
    intro no inside
    obtain ⟨piece, _, found, _, length, _, digest, _⟩ := facts no inside
    exact ⟨piece, found, by simp only [chunks no inside, length, digest]⟩
  have digest : contentDigest content = (contentChecksum size pieces : H) := by
    unfold contentDigest contentChecksum
    rw [sums, total]
  have chunksNew : ∀ id chunk, after.chunks.get id = some chunk → start.chunks.get id = some chunk ∨
        ∃ no, after.manifestChunks.get (manifest, no) = some id := by
    intro id chunk found
    rcases storing.chunksNew id chunk found with old | ⟨piece, _, listed⟩
    · exact .inl old
    · exact .inr ⟨piece.1, listed⟩
  refine ⟨content, ⟨?_, ?_, ?_⟩, total, digest, ?_, ?_, ?_, storing.chunksKept, chunksNew⟩
  · rw [storing.manifests, get_set_self, digest, total]
    rfl
  · intro no inside
    rw [total] at inside
    obtain ⟨_, _, _, _, _, _, _, id, listed, present⟩ := facts no inside
    exact ⟨id, listed, by rw [chunks no inside]; exact present⟩
  · intro no outside
    rw [total] at outside
    rw [storing.others (manifest, no) fun _ member => ?_]
    · exact unused no
    · rw [whole.numbers, mem_range] at member
      omega
  · intro distinct
    rw [contentIs]
    congr 1
    apply PiecesOf.map_numbers whole.numbers
    intro no inside
    obtain ⟨piece, member, found, ⟨other, otherMember, same⟩, length, _, digestSame, _⟩ :=
      facts no inside
    rw [<- same] at length digestSame ⊢
    exact ⟨piece, found, distinct other otherMember piece member length digestSame⟩
  · intro _ different
    rw [storing.manifests, startIs, get_set_of_ne _ _ different]
  · intro key different
    exact storing.others key fun same => absurd same different

/-! ## Reading back -/

/-- A search over a range that finds something exactly at the first numbers. -/
theorem filterMap_range {β : Type} {look : Nat -> Option β} {found : Nat -> β}
    (within : count <= limit) (inside : ∀ no < count, look no = some (found no))
    (outside : ∀ no, count <= no -> look no = none) :
    (range limit).filterMap look = (range count).map found := by
  induction limit, within using Nat.le_induction with
  | base =>
    rw [<- filterMap_eq_map]
    apply filterMap_congr
    intro no member
    exact inside no (mem_range.1 member)
  | succ limit within step =>
    rw [range_succ, filterMap_append, step]
    simp [outside limit within]

omit [DecidableEq H] in
/-- The rows of a manifest are the chunks of the content it holds. -/
theorem Db.Holds.manifestRows (holds : db.Holds manifest inode content) :
    db.manifestRows manifest = (range (chunkCount content.length)).map fun no =>
      (no, chunkRow inode (chunkOf content no)) := by
  unfold Db.manifestRows
  apply filterMap_range
  · -- The last chunk of the manifest is among the keys that bound the search.
    rcases Nat.eq_zero_or_pos (chunkCount content.length) with _ | _
    · omega
    · obtain ⟨id, listed, _⟩ := holds.entry (chunkCount content.length - 1) (by omega)
      have member : chunkCount content.length - 1 ∈ db.manifestChunks.keys.map snd :=
        mem_map.2 ⟨_, (Table.mem_keys _ _).2 ⟨id, listed⟩, rfl⟩
      have := le_foldr_max 0 member
      omega
  · intro no inside
    obtain ⟨id, listed, stored⟩ := holds.entry no inside
    rw [listed, bind_some, stored]
    rfl
  · intro no outside
    rw [holds.ends no outside]
    rfl

/-- Reading the chunks of a content from some chunk on gives the rest of it. -/
theorem readChunks_chunks (inode : Nat) (content : Bytes) (rest no offset : Nat)
    (position : offset = min (no * contentChunkBytes) content.length)
    (whole : no + rest = chunkCount content.length) :
    readChunks content.length no offset ((range' no rest).map fun no =>
        ((no, chunkRow inode (chunkOf content no)) : Nat × Chunk H)) =
      .ok (((range' no rest).map (chunkOf content)).flatten,
        (range' no rest).map (fun no => ((chunkOf content no).length,
          sha256 (chunkOf content no))), chunkCount content.length, content.length) := by
  induction rest generalizing no offset with
  | zero =>
    have : ¬ no * contentChunkBytes < content.length :=
      mt (lt_chunkTotal contentChunkBytes_pos content.length no).2 (by
        rw [<- chunkCount_eq]; omega)
    have ends : offset = content.length := by omega
    rw [ends, <- whole]
    rfl
  | succ rest step =>
    have : no * contentChunkBytes < content.length :=
      (lt_chunkTotal contentChunkBytes_pos content.length no).1 (by
        rw [<- chunkCount_eq]; omega)
    have here : offset = no * contentChunkBytes := by omega
    have length : (chunkOf content no).length =
        min contentChunkBytes (content.length - offset) := by
      rw [length_chunkOf, here]
    have next := step (no + 1) (offset + min contentChunkBytes (content.length - offset)) (by
      rw [Nat.add_mul, here]; omega) (by omega)
    have := contentChunkBytes_pos
    rw [range'_succ, map_cons, readChunks, if_pos]
    · rw [next]
      simp only [map_cons, length]
      rfl
    · exact ⟨rfl, by omega, length, length, rfl⟩

/-- A version whose row and manifest agree with a content reads back the content. -/
theorem readVersionContent_of_holds (found : db.versions.get (inode, number) = some version)
    (source : db.canonicalRow inode version = some canonical)
    (named : canonical.manifest = some manifest) (holds : db.Holds manifest inode content)
    (size : version.size = content.length) (checksum : version.checksum = contentDigest content)
    (same : canonical.checksum = version.checksum) (bounded : content.length <= maxStagedBytes) :
    db.readVersionContent inode number = .ok content := by
  have resolved : db.resolveVersionStorage inode number =
      .ok ⟨manifest, content.length, version.source.getD number, chunkCount content.length,
        contentDigest content⟩ := by
    unfold resolveVersionStorage
    simp only [found, source, named, holds.row]
    rw [if_pos ⟨by omega, size, same.symm, checksum, by rw [size]⟩, size, checksum]
  have read := readChunks_chunks (H := H) inode content (chunkCount content.length) 0 0
    (by simp) (by omega)
  rw [<- range_eq_range'] at read
  unfold readVersionContent
  rw [resolved]
  simp only [bind, Except.bind, holds.manifestRows, read]
  rw [if_pos ⟨trivial, trivial, rfl⟩]
  exact congrArg Except.ok (flatten_chunkAt contentChunkBytes_pos content)

end VexDB.VexFs
