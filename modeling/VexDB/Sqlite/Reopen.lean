import VexDB.GraphIndex.Structure
import VexDB.Sqlite.BridgeSpec

/-!
# Storing and reopening a bridge

Runs of inserts and removals, one `SerializeV2` into the same segments and
`OpenV2` on them.
-/

namespace VexDB.Sqlite
namespace Bridge

open GraphIndex Storage Option Finset List
open SegmentedArray (read_of_covered)

variable {V C D Q : Type*} [Inhabited V] [Inhabited C] {setup : Setup V C D Q}
  {impl : Impl V C D Q}

section Store

/-- Every segment of the graph is stored. -/
structure FullyWritten (setup : Setup V C D Q) (impl : Impl V C D Q) : Prop where
  shape : Shape setup impl
  header : impl.header = some ⟨impl.base.array.length, impl.upper.array.length, impl.entry⟩
  elems : elemsLayout.Covered impl.elems.array ∅ impl.elems.stored
  upper : upperLayout.Covered impl.upper.array ∅ impl.upper.stored
  base : (baseLayout setup).Covered impl.base.array ∅ impl.base.stored
  vectors : setup.compactMode = false -> vecLayout.Covered impl.vectors.array ∅ impl.vectors.stored
  codes : setup.quantized = true ->
    (codesLayout setup).Covered impl.codes.array ∅ impl.codes.stored
  fixed : ∀ quantizer, impl.quantizer = some quantizer -> impl.fixed = some quantizer

theorem FullyWritten.kept (written : FullyWritten setup impl) : Kept setup impl where
  shape := written.shape
  tracks := {
    elems := written.elems.mono (empty_subset _)
    upper := written.upper.mono (empty_subset _)
    base := written.base.mono (empty_subset _)
    vectors := fun raw => (written.vectors raw).mono (empty_subset _)
    codes := fun quantized => (written.codes quantized).mono (empty_subset _) }

/-- What a graph shares with its copy: rows, records, vectors unless it is
compact, quantizer and codes, entry point. -/
structure SameContent (setup : Setup V C D Q) (copy impl : Impl V C D Q) : Prop where
  elems : copy.elems.array = impl.elems.array
  upper : copy.upper.array.map upperRecord = impl.upper.array.map upperRecord
  base : copy.base.array.map baseRecord = impl.base.array.map baseRecord
  vectors : setup.compactMode = false -> copy.vectors.array = impl.vectors.array
  codes : setup.quantized = true -> copy.codes.array = impl.codes.array
  quantizer : copy.quantizer = impl.quantizer
  entry : copy.entry = impl.entry

omit [Inhabited V] [Inhabited C] in
theorem SameContent.trans
    (one : SameContent setup first second) (two : SameContent setup second third) :
    SameContent setup first third where
  elems := one.elems.trans two.elems
  upper := one.upper.trans two.upper
  base := one.base.trans two.base
  vectors raw := (one.vectors raw).trans (two.vectors raw)
  codes quantized := (one.codes quantized).trans (two.codes quantized)
  quantizer := one.quantizer.trans two.quantizer
  entry := one.entry.trans two.entry

/-- The quantizer and the codes of a stored graph read back. -/
theorem FullyWritten.readQuantizer (written : FullyWritten setup impl) :
    ∃ codes, readQuantizer setup impl.segments impl.base.array.length =
      some (impl.quantizer, codes) ∧ (setup.quantized = true -> codes = impl.codes.array) := by
  have shape := written.shape
  by_cases quantized : setup.quantized = true
  · by_cases isEmpty : impl.base.array = []
    · have noCodes : impl.codes.array = [] := by
        rw [<- List.length_eq_zero_iff, shape.codes quantized, isEmpty, length_nil]
      refine ⟨[], ?_, fun _ => noCodes.symm⟩
      simp [Bridge.readQuantizer, isEmpty, (shape.trained quantized).2 isEmpty]
    · obtain ⟨quantizer, used⟩ := ne_none_iff_exists'.1
        (fun unused => isEmpty ((shape.trained quantized).1 unused))
      have read := read_of_covered (written.codes quantized)
      rw [shape.codes quantized, show (codesLayout setup).record = id from rfl, List.map_id] at read
      refine ⟨impl.codes.array, ?_, fun _ => rfl⟩
      simpa [Bridge.readQuantizer, quantized, isEmpty, Impl.segments, used,
        written.fixed quantizer used, read] using shape.validCodes
  · refine ⟨[], ?_, fun contra => absurd contra quantized⟩
    simp [Bridge.readQuantizer, quantized, shape.plain (Bool.not_eq_true _ ▸ quantized)]

/-- A stored graph opens as itself. -/
theorem FullyWritten.reopens (written : FullyWritten setup impl) :
    ∃ opened, openV2 setup impl.segments = some opened ∧ SameContent setup opened impl := by
  have shape := written.shape
  have elems := read_of_covered written.elems
  have upper := read_of_covered written.upper
  have base := read_of_covered written.base
  rw [shape.elems, show elemsLayout.record = id from rfl, List.map_id] at elems
  have vectorsRead : ∃ vectors, (if setup.compactMode then some [] else
      vecLayout.read impl.base.array.length impl.vectors.stored) = some vectors ∧
      (setup.compactMode = false -> vectors = impl.vectors.array) := by
    cases compact : setup.compactMode with
    | true => exact ⟨[], rfl, fun contra => by cases contra⟩
    | false =>
      have read := read_of_covered (written.vectors compact)
      rw [shape.vectors compact, show (vecLayout : Layout V V).record = id from rfl,
        List.map_id] at read
      exact ⟨impl.vectors.array, read, fun _ => rfl⟩
  obtain ⟨vectors, vectorsRead, sameVectors⟩ := vectorsRead
  obtain ⟨_, quantizerRead, sameCodes⟩ := written.readQuantizer
  simp only [openV2, show impl.segments.header = impl.header from rfl, written.header,
    show impl.segments.elems = impl.elems.stored from rfl, elems,
    show impl.segments.upper = impl.upper.stored from rfl, upper,
    show impl.segments.base = impl.base.stored from rfl, base,
    show impl.segments.vectors = impl.vectors.stored from rfl, vectorsRead, quantizerRead,
    bind_some, map_some, some.injEq, exists_eq_left']
  exact ⟨rfl, by simp [UpperRecord.point, upperRecord, upperLayout, Layout.exact],
    by simp [BaseRecord.point, baseRecord, baseLayout, Layout.padded],
    sameVectors, sameCodes, rfl, rfl⟩

/-- Everything is stored but the quantizer, and in memory the codes. -/
structure Flushed (setup : Setup V C D Q) (impl : Impl V C D Q) : Prop where
  shape : Shape setup impl
  header : impl.header = some ⟨impl.base.array.length, impl.upper.array.length, impl.entry⟩
  elems : elemsLayout.Covered impl.elems.array ∅ impl.elems.stored
  upper : upperLayout.Covered impl.upper.array ∅ impl.upper.stored
  base : (baseLayout setup).Covered impl.base.array ∅ impl.base.stored
  vectors : setup.compactMode = false -> vecLayout.Covered impl.vectors.array ∅ impl.vectors.stored
  cached : setup.disk = true -> setup.quantized = true ->
    (codesLayout setup).Covered impl.codes.array ∅ impl.codes.stored
  marked : setup.quantized = true -> impl.codes.Tracked (codesLayout setup) ∅

theorem writeSegments_flushed (kept : Kept setup impl) :
    Flushed setup (writeSegments setup impl) ∧
      SameContent setup (writeSegments setup impl) impl := by
  obtain ⟨shape, tracks⟩ := kept
  have covered : setup.quantized = true -> (codesLayout setup).Covered impl.codes.array ∅
        (impl.codes.flush (codesLayout setup) false).stored :=
    fun quantized => (tracks.codes quantized).covered_flush false
  rw [writeSegments]
  cases onDisk : setup.disk with
  | true =>
    refine ⟨?_, ⟨rfl, rfl, rfl, fun _ => rfl, fun _ => rfl, rfl, rfl⟩⟩
    exact {
      shape := { shape with }
      header := by simp only [shape.elems]; rfl
      elems := tracks.elems.covered_flush _
      upper := tracks.upper.covered_flush _
      base := tracks.base.covered_flush _
      vectors := fun raw => (tracks.vectors raw).covered_flush _
      cached := fun _ => covered
      marked := fun quantized => (covered quantized).mono (empty_subset _) }
  | false =>
    have vectorsArray : (if setup.compactMode then { impl.vectors with dirty := ∅ }
        else impl.vectors.flush vecLayout impl.fullDirty).array = impl.vectors.array := by
      split <;> rfl
    refine ⟨?_, ⟨rfl, rfl, rfl, fun _ => vectorsArray, fun _ => rfl, rfl, rfl⟩⟩
    exact {
      shape := { shape with
        vectors := fun raw => (congrArg length vectorsArray).trans (shape.vectors raw) }
      header := rfl
      elems := tracks.elems.covered_flush _
      upper := tracks.upper.covered_flush _
      base := tracks.base.covered_flush _
      vectors := fun raw => by
        simp only [raw]
        exact (tracks.vectors raw).covered_flush _
      cached := fun contra => by
        rw [onDisk] at contra
        cases contra
      marked := tracks.codes }

/-- The quantizer and, in memory, its codes complete the segments. -/
theorem Flushed.writeQuantizer (flushed : Flushed setup impl) :
    ∃ saved, writeQuantizer setup impl = some saved ∧ FullyWritten setup saved ∧
      SameContent setup saved impl := by
  have shape := flushed.shape
  have emptyBase : impl.elems.array = [] -> impl.base.array = [] := fun isEmpty =>
    List.length_eq_zero_iff.1 (by rw [<- shape.elems, isEmpty, length_nil])
  rw [Bridge.writeQuantizer]
  split
  case isTrue idle =>
    have unused : impl.quantizer = none := by
      by_cases quantized : setup.quantized = true
      · exact (shape.trained quantized).2 (emptyBase (by simpa [quantized] using idle))
      · exact shape.plain (Bool.not_eq_true _ ▸ quantized)
    refine ⟨impl, rfl, ?_, ⟨rfl, rfl, rfl, fun _ => rfl, fun _ => rfl, rfl, rfl⟩⟩
    exact { flushed with
      codes := fun quantized seg _ inBounds => by
        rw [shape.codes quantized, (shape.trained quantized).1 unused] at inBounds
        exact absurd inBounds (Nat.not_lt_zero _)
      fixed := fun quantizer used => by
        rw [unused] at used
        cases used }
  case isFalse needed =>
    simp only [Bool.or_eq_true, Bool.not_eq_true', List.isEmpty_iff, not_or,
      Bool.not_eq_false] at needed
    have used : impl.quantizer.isNone = false := by
      cases unused : impl.quantizer with
      | some => rfl
      | none =>
        have isEmpty := (shape.trained needed.1).1 unused
        refine absurd (List.length_eq_zero_iff.1 ?_) needed.2
        rw [shape.elems, isEmpty, length_nil]
    have stored : ∀ quantizer, impl.quantizer = some quantizer ->
        (if impl.fixedDirty then impl.quantizer else impl.fixed) = some quantizer := by
      intro quantizer trained
      split
      · exact trained
      · next clean => exact shape.fixed quantizer trained (by simpa using clean)
    rw [used, if_neg Bool.false_ne_true]
    cases onDisk : setup.disk with
    | true =>
      refine ⟨_, rfl, ?_, ⟨rfl, rfl, rfl, fun _ => rfl, fun _ => rfl, rfl, rfl⟩⟩
      exact { flushed with
        shape := { shape with fixed := fun quantizer trained _ => stored quantizer trained }
        codes := flushed.cached onDisk
        fixed := stored }
    | false =>
      refine ⟨_, rfl, ?_, ⟨rfl, rfl, rfl, fun _ => rfl, fun _ => rfl, rfl, rfl⟩⟩
      exact { flushed with
        shape := { shape with fixed := fun quantizer trained _ => stored quantizer trained }
        codes := fun quantized => (flushed.marked quantized).covered_flush false
        fixed := stored }

/-- What the marks cover is stored by one `SerializeV2`. -/
theorem serializeV2_spec (kept : Kept setup impl) :
    ∃ saved, serializeV2 setup impl = some saved ∧ FullyWritten setup saved ∧
      SameContent setup saved impl := by
  obtain ⟨flushed, same⟩ := writeSegments_flushed kept
  obtain ⟨saved, stored, written, sameQuantizer⟩ := flushed.writeQuantizer
  exact ⟨saved, stored, written, sameQuantizer.trans same⟩

end Store

section Runs

/-- A call that changes the graph. -/
inductive Call (V : Type*) where
  | insert (vec : V) (rowid : Rowid) (level : Nat)
  | removeTid (rowid : Rowid)

/-- Carry out a call; none if it does not return. -/
def Call.run (setup : Setup V C D Q) (impl : Impl V C D Q) : Call V -> Option (Impl V C D Q)
  | .insert vec rowid level => Bridge.insert setup impl vec rowid level
  | .removeTid rowid => some (Bridge.removeTid impl rowid).1

/-- Carry out one call after another. -/
def runCalls (setup : Setup V C D Q) (impl : Impl V C D Q) : List (Call V) -> Option (Impl V C D Q)
  | [] => some impl
  | call :: calls => (call.run setup impl).bind fun after => runCalls setup after calls

/-- Every insert of a run finds its unmarked writes covered. -/
def MarkedRun (setup : Setup V C D Q) (impl : Impl V C D Q) : List (Call V) -> Prop
  | [] => True
  | .insert vec rowid level :: calls =>
    InsertMarked setup impl vec level ∧
      ∀ after ∈ Bridge.insert setup impl vec rowid level, MarkedRun setup after calls
  | .removeTid rowid :: calls => MarkedRun setup (Bridge.removeTid impl rowid).1 calls

instance decidableMarkedRun : (impl : Impl V C D Q) -> (calls : List (Call V)) ->
    Decidable (MarkedRun setup impl calls)
  | _, [] => inferInstanceAs (Decidable True)
  | _, .insert _ _ _ :: calls =>
    have : ∀ after, Decidable (MarkedRun setup after calls) :=
      fun after => decidableMarkedRun after calls
    inferInstanceAs (Decidable (_ ∧ _))
  | impl, .removeTid rowid :: calls => decidableMarkedRun (Bridge.removeTid impl rowid).1 calls

variable {after : Impl V C D Q}

section

variable (kept : Kept setup impl)
include kept

theorem insert_kept (marked : InsertMarked setup impl vec level)
    (returned : Bridge.insert setup impl vec rowid level = some after) : Kept setup after := by
  obtain ⟨_, insertedEq, rfl⟩ := map_eq_some_iff.1 returned
  obtain ⟨insertedShape, insertedTracks⟩ := insertRow_kept kept marked insertedEq
  exact ⟨{ insertedShape with }, { insertedTracks with }⟩

theorem removeTid_kept (rowid : Rowid) : Kept setup (Bridge.removeTid impl rowid).1 := by
  obtain ⟨shape, tracks⟩ := kept
  simp only [Bridge.removeTid]
  split
  case h_1 => exact ⟨{ shape with }, { tracks with }⟩
  case h_2 node _ =>
    refine ⟨{ shape with elems := (length_modify ..).trans shape.elems }, ?_⟩
    exact { tracks with
      elems := tracks.elems.change_mark fun other different =>
        modify_agrees impl.elems.array _ _ different }

/-- Over a run the stored and the marked segments stay the graph. -/
theorem runCalls_kept (marked : MarkedRun setup impl calls)
    (returned : runCalls setup impl calls = some after) : Kept setup after := by
  induction calls generalizing impl with
  | nil =>
    cases returned
    exact kept
  | cons call calls ih =>
    obtain ⟨between, called, rest⟩ := bind_eq_some_iff.1 returned
    cases call with
    | insert =>
      exact ih (insert_kept kept marked.1 called) (marked.2 between called) rest
    | removeTid rowid =>
      cases called
      exact ih (removeTid_kept kept rowid) marked rest

end

end Runs

section Samples

/-- Points on a line; the codes are the vectors, and a cache drops base segment 0
after every write. -/
def sampleSetup (disk compactMode : Bool) : Setup Int Int Nat Unit where
  disk := disk
  compactMode := compactMode
  quantized := compactMode
  params := { lineParams 2 with useDistCache := false, zeroFilled := false }
  train _ := some ()
  computeCode _ vec := some vec
  validCode _ := true
  codeParams _ _ := { lineParams 2 with useDistCache := false, zeroFilled := false }
  dropped _ := [(.base, 0)]
  computeCode_valid _ _ _ _ := rfl
  codeParams_encode _ _ _ := rfl
  compact_quantized := id

/-- An empty graph, stored. -/
def emptyGraph : Impl Int Int Nat Unit where
  elems := ⟨[], ∅, fun _ => none⟩
  upper := ⟨[], ∅, fun _ => none⟩
  base := ⟨[], ∅, fun _ => none⟩
  vectors := ⟨[], ∅, fun _ => none⟩
  codes := ⟨[], ∅, fun _ => none⟩
  entry := none
  quantizer := none
  released := false
  fullDirty := false
  fixedDirty := false
  rowidToNode := none
  header := some ⟨0, 0, none⟩
  fixed := none

theorem emptyGraph_fullyWritten (disk compactMode : Bool) :
    FullyWritten (sampleSetup disk compactMode) emptyGraph := by
  have nothing : ∀ {α β : Type} (layout : Layout α β) (stored : Nat -> Option (List β)),
      layout.Covered [] ∅ stored :=
    fun layout stored seg _ inBounds => absurd inBounds (Nat.not_lt_zero _)
  exact {
    shape := ⟨rfl, fun _ => rfl, fun _ => rfl, fun _ => rfl, (fun _ absent => nomatch absent),
      fun _ => ⟨fun _ => rfl, fun _ => rfl⟩, fun _ => rfl, (fun _ absent => nomatch absent)⟩
    header := rfl
    elems := nothing _ _
    upper := nothing _ _
    base := nothing _ _
    vectors := fun _ => nothing _ _
    codes := fun _ => nothing _ _
    fixed := fun _ absent => nomatch absent }

-- In memory the code of a new node of a stored compact graph is not written, and
-- the graph does not open any more.
example : ((runCalls (sampleSetup false true) emptyGraph [.insert 5 1 0]).bind fun one =>
    (serializeV2 (sampleSetup false true) one).bind fun start =>
    (runCalls (sampleSetup false true) start [.insert 6 2 0]).bind fun final =>
    (serializeV2 (sampleSetup false true) final).map fun saved =>
      (openV2 (sampleSetup false true) saved.segments).isSome) = some false := by decide +kernel

end Samples

end Bridge
end VexDB.Sqlite
