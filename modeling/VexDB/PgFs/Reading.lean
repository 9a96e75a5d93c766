import VexDB.PgFs.Evolution

/-!
# Reading versions

A version whose manifest has passed the check of its chunks can be read, and the
read gives the bytes of these chunks one after another.  Aliases read as the version
they are an alias of.
-/

namespace VexDB.PgFs

open Storage List Option
open VexFs (Bytes Digest)

variable {H : Type}

/-- Rising numbers below their number are all the numbers below it. -/
theorem eq_range_of_pairwise (rising : numbers.Pairwise (· < ·))
    (within : ∀ no ∈ numbers, no < numbers.length) : numbers = range numbers.length := by
  have listed : numbers ⊆ range numbers.length := fun no member =>
    mem_range.2 (within no member)
  have distinct : numbers.Nodup := rising.imp fun below => below.ne
  have same : numbers.Perm (range numbers.length) :=
    (distinct.subperm listed).perm_of_length_le (by rw [length_range])
  exact same.eq_of_pairwise' (rising.imp fun below => below.le)
    (pairwise_lt_range.imp fun below => below.le)

theorem lt_chunkCount (size no : Nat) : no < chunkCount size ↔ no * chunkBytes < size := by
  unfold chunkCount chunkBytes
  omega

namespace Store

/-- The bytes of the chunks of a manifest. -/
def manifestContent (store : Store H) (manifest : Nat) : Bytes :=
  (store.manifestRows manifest).flatMap fun row => row.2.content

/-- The manifest that holds the bytes of a version. -/
def storageOf (store : Store H) (inode : Nat) (version : Version H) : Option Nat :=
  match version.source with
  | none => version.manifest
  | some source => (store.versions.get (inode, source)).bind fun row => row.manifest

variable {store : Store H}

/-- The chunks of a manifest come in the order of their numbers. -/
theorem pairwise_manifestRows : ((store.manifestRows manifest).map Prod.fst).Pairwise (· < ·) := by
  unfold manifestRows
  rw [pairwise_map, pairwise_filterMap]
  refine pairwise_lt_range.imp fun below left leftAt right rightAt => ?_
  obtain ⟨_, _, rfl⟩ := map_eq_some_iff.1 leftAt
  obtain ⟨_, _, rfl⟩ := map_eq_some_iff.1 rightAt
  exact below

theorem mem_manifestRows (member : row ∈ store.manifestRows manifest) :
    store.chunkAt manifest row.1 = some row.2 := by
  obtain ⟨_, _, found⟩ := mem_filterMap.1 member
  obtain ⟨_, stored, rfl⟩ := map_eq_some_iff.1 found
  exact stored

variable [Digest H]

theorem computeManifestChecksum_ok {fileSize count : Nat} {checksum : H}
    (computed : store.computeManifestChecksum manifest fileSize count = .ok checksum) :
    (store.manifestRows manifest).length = count ∧
      ∀ row ∈ store.manifestRows manifest, row.1 < count ∧
        row.2.size = chunkSize fileSize row.1 := by
  unfold computeManifestChecksum at computed
  dsimp only at computed
  split_ifs at computed with valid
  exact ⟨valid.1, valid.2.2⟩

variable [DecidableEq H] {version : Version H}

/-- Chunks that are numbered without gaps, with the right sizes and digests, can be read. -/
theorem readChunks_eq {size expected : Nat} {rows : List (Nat × Chunk H)}
    (numbers : rows.map Prod.fst = range' expected rows.length)
    (count : expected + rows.length = chunkCount size)
    (valid : ∀ row ∈ rows, row.2.size = chunkSize size row.1 ∧
      row.2.size = row.2.content.length ∧ row.2.checksum = Digest.sha256 row.2.content) :
    readChunks size expected (min (expected * chunkBytes) size) rows =
      .ok (rows.flatMap fun row => row.2.content, chunkCount size, size) := by
  induction rows generalizing expected with
  | nil =>
    have last : ¬ expected * chunkBytes < size :=
      mt (lt_chunkCount size expected).2 (by rw [<- count]; simp)
    rw [readChunks, min_eq_right (Nat.le_of_not_lt last), <- count]
    rfl
  | cons row rows step =>
    obtain ⟨no, chunk⟩ := row
    rw [length_cons, range'_succ, map_cons, cons.injEq] at numbers
    obtain ⟨rfl, rest⟩ := numbers
    obtain ⟨sized, whole, digest⟩ := valid _ mem_cons_self
    dsimp only at sized whole digest
    have inside : no * chunkBytes < size :=
      (lt_chunkCount size no).1 (by rw [<- count, length_cons]; omega)
    have offset : min (no * chunkBytes) size = no * chunkBytes := min_eq_left inside.le
    have next : no * chunkBytes + chunk.size = min ((no + 1) * chunkBytes) size := by
      rw [sized, chunkSize, Nat.add_mul]
      omega
    have positive : 0 < chunkSize size no := by
      unfold chunkSize chunkBytes at *
      omega
    rw [readChunks, offset, if_pos ⟨rfl, positive, sized, whole.symm.trans sized, digest⟩, next,
      step rest (by rw [<- count, length_cons]; omega) fun row member =>
        valid row (mem_cons_of_mem _ member)]
    rfl

/-- The storage of a version is its manifest or that of the version it is an alias of. -/
theorem resolveVersionStorage_eq (sound : store.Sound) (versioned : store.Versioned)
    (stored : store.versions.get (inode, number) = some version) :
    ∃ manifest row canonical, store.storageOf inode version = some manifest ∧
      store.manifests.get manifest = some row ∧ row.fileSize = version.size ∧
      row.checksum = version.checksum ∧ store.resolveVersionStorage inode number =
        .ok ⟨manifest, row.fileSize, row.checksum, canonical, row.chunkCount⟩ := by
  unfold resolveVersionStorage storageOf canonical
  rw [stored]
  cases versioned inode number version stored with
  | canonical manifest row has first manifested size checksum =>
    obtain ⟨count, _, _⟩ := sound.manifest manifest row manifested
    refine ⟨manifest, row, number, ?_, manifested, size, checksum, ?_⟩
    · rw [first, has]
    · simp [filter_some, first, has, manifested, size, checksum, count, bind, Except.bind]
  | copy origin source _ of sourceStored sourceFirst sourceSize sourceChecksum =>
    cases versioned inode origin source sourceStored with
    | canonical manifest row has _ manifested size checksum =>
      obtain ⟨count, _, _⟩ := sound.manifest manifest row manifested
      refine ⟨manifest, row, origin, ?_, manifested, size.trans sourceSize,
        checksum.trans sourceChecksum, ?_⟩
      · rw [of]
        dsimp only
        rw [sourceStored, bind_some, has]
      · simp [filter_some, of, sourceStored, sourceFirst, sourceSize, sourceChecksum, has,
          manifested, size, checksum, count, bind, Except.bind]
    | copy _ _ _ again => cases again.symm.trans sourceFirst

/-- Every version can be read. -/
theorem readVersionContent_eq (sound : store.Sound) (versioned : store.Versioned)
    {inode number : Nat} (stored : store.versions.get (inode, number) = some version) :
    ∃ manifest, store.storageOf inode version = some manifest ∧
      store.readVersionContent inode number = .ok (store.manifestContent manifest) := by
  obtain ⟨manifest, row, _, storage, manifested, _, _, resolved⟩ :=
    resolveVersionStorage_eq sound versioned stored
  obtain ⟨count, bounded, computed⟩ := sound.manifest manifest row manifested
  obtain ⟨length, valid⟩ := computeManifestChecksum_ok computed
  have numbers : (store.manifestRows manifest).map Prod.fst =
      range' 0 (store.manifestRows manifest).length := by
    have within : ∀ no ∈ (store.manifestRows manifest).map Prod.fst,
        no < ((store.manifestRows manifest).map Prod.fst).length := by
      intro no member
      obtain ⟨chunk, listed, rfl⟩ := mem_map.1 member
      rw [length_map, length]
      exact (valid chunk listed).1
    rw [eq_range_of_pairwise pairwise_manifestRows within, length_map, range_eq_range']
  have read := readChunks_eq numbers (by rw [length, count, Nat.zero_add]) fun chunk listed => by
    obtain ⟨_, _, found⟩ := bind_eq_some_iff.1 (mem_manifestRows listed)
    exact ⟨(valid chunk listed).2, sound.chunk _ _ found⟩
  rw [Nat.zero_mul, Nat.zero_min] at read
  refine ⟨manifest, storage, ?_⟩
  rw [count] at computed
  unfold readVersionContent
  simp [resolved, read, computed, count, bounded, bind, Except.bind, pure, Except.pure,
    manifestContent]

end Store

end VexDB.PgFs
