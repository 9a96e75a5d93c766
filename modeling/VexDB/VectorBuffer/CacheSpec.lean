import Mathlib.Data.List.Nodup
import Mathlib.Data.Set.Pairwise.Basic
import VexDB.VectorBuffer.Cache

/-!
# What a read of the shared vector cache delivers

A signature keeps only part of a relation's identity, an id is written without a
look at the cache, and an eviction gives the slot of an invalidated entry back
without a look at its pins.  Where none of the three can do harm, every read
delivers what the file held for its vector.
-/

namespace VexDB.VectorBuffer

open List Function State Call

variable {B : Type*} {entry : VecBufferLoc} {call : Call B} {slot : Slot} {index pool : Nat} {after
  : State B} {phase : Phase B} {rel : RelFileLocator} {sig : BufferSignature}

/-- Relations that no two of share signatures in a pool. -/
def Separate (config : Config) (rels : Set RelFileLocator) : Prop :=
  rels.Pairwise fun left right =>
    left.relNumber ≠ right.relNumber ∨ config.poolOffset left ≠ config.poolOffset right

theorem Separate.eq (separate : Separate config rels) (known : left ∈ rels)
    (known' : right ∈ rels) (sameNumber : left.relNumber = right.relNumber)
    (samePool : config.poolOffset left = config.poolOffset right) : left = right := by
  by_contra different
  rcases separate known known' different with numbers | pools
  · exact numbers sameNumber
  · exact pools samePool

/-- A step keeps to a set of relations, adds a vector only while the cache has no
valid entry under its signature, and evicts an invalidated entry only after its
last pin is gone. -/
def Careful (config : Config) (rels : Set RelFileLocator) (state : State B) : Action B -> Prop
  | .begin rel _ => rel ∈ rels
  | .addVector rel loc _ =>
    ∀ slot, state.locmap (config.poolOffset rel) (signature rel loc) ≠ some (.valid slot)
  | .evict slot =>
    ∀ pool sig held, state.blocks[slot.bufOffset]? = some pool -> state.sig slot = some sig ->
      state.locmap pool sig = some (.invalid held) -> state.refCount held = 0
  | _ => True

/-- A run all of whose steps are careful. -/
def CarefulRun (config : Config) (rels : Set RelFileLocator) :
    List (Action B) -> State B -> Prop
  | [], _ => True
  | action :: rest, state =>
    Careful config rels state action ∧
      ∀ after, step config state action = some after -> CarefulRun config rels rest after

/-- Whether a call has a slot pinned. -/
def Call.holds (slot : Slot) (call : Call B) : Bool :=
  match call.phase with
  | .holding held => decide (held = slot)
  | _ => false

theorem Call.holds_iff : call.holds slot = true ↔ call.phase = .holding slot := by
  unfold holds
  cases call.phase <;> simp

/-- What a call can rely on: before its return it has seen what the file holds
now; afterwards it shows something it has seen, in a slot nobody else can take. -/
structure Call.Served (state : State B) (call : Call B) : Prop where
  current : call.phase.returned = false -> state.file call.rel call.loc ∈ call.seen
  pinned : ∀ slot, call.phase = .holding slot ->
    ∃ pool bytes, state.blocks[slot.bufOffset]? = some pool ∧ slot ∉ state.freelist pool ∧
      state.content slot = some bytes ∧ some bytes ∈ call.seen
  copy : ∀ bytes, call.phase = .copied bytes -> some bytes ∈ call.seen

/-- The slots of the buffer: every slot is free or belongs to one entry or to
nobody, and a valid entry shows the vector of its relation. -/
structure Sound (config : Config) (rels : Set RelFileLocator) (state : State B) : Prop where
  freeNodup : ∀ pool, (state.freelist pool).Nodup
  freePool : ∀ pool, ∀ slot ∈ state.freelist pool, state.blocks[slot.bufOffset]? = some pool
  entryPool : ∀ pool sig entry slot, state.locmap pool sig = some entry ->
    entry.slot? = some slot ->
    state.blocks[slot.bufOffset]? = some pool ∧ slot ∉ state.freelist pool
  entryUnique : ∀ pool sig other entry entry' slot, state.locmap pool sig = some entry ->
    state.locmap pool other = some entry' -> entry.slot? = some slot ->
    entry'.slot? = some slot -> sig = other
  entryCurrent : ∀ pool sig slot, state.locmap pool sig = some (.valid slot) ->
    ∃ rel ∈ rels, config.poolOffset rel = pool ∧ sig.relId = rel.relNumber ∧
      ∃ bytes, state.content slot = some bytes ∧ state.file rel sig.offset = some bytes
  pins : ∀ slot, state.refCount slot = state.calls.countP (holds slot)
  callRel : ∀ call ∈ state.calls, call.rel ∈ rels
  served : ∀ call ∈ state.calls, call.Served state

variable {config : Config} {rels : Set RelFileLocator} {state : State B}

theorem Sound.initial : Sound config rels (initial : State B) where
  freeNodup _ := nodup_nil
  freePool _ _ member := absurd member not_mem_nil
  entryPool _ _ _ _ stored := nomatch stored
  entryUnique _ _ _ _ _ _ stored := nomatch stored
  entryCurrent _ _ _ stored := nomatch stored
  pins _ := rfl
  callRel _ member := absurd member not_mem_nil
  served _ member := absurd member not_mem_nil

theorem locmap_setEntry (pool other : Nat) (sig key : BufferSignature)
    (entry : Option VecBufferLoc) :
    (state.setEntry pool sig entry).locmap other key =
      if other = pool ∧ key = sig then entry else state.locmap other key := by
  unfold setEntry
  by_cases samePool : other = pool
  · subst samePool
    by_cases sameKey : key = sig <;> simp [sameKey]
  · simp [samePool]

theorem freelist_setFreelist (pool other : Nat) (slots : List Slot) :
    (state.setFreelist pool slots).freelist other =
      if other = pool then slots else state.freelist other := by
  unfold setFreelist
  by_cases samePool : other = pool <;> simp [samePool]

/-- A slot that is neither free nor in an entry nor pinned. -/
structure Unowned (state : State B) (pool : Nat) (slot : Slot) : Prop where
  ofPool : state.blocks[slot.bufOffset]? = some pool
  notFree : slot ∉ state.freelist pool
  noEntry : ∀ sig entry, state.locmap pool sig = some entry -> entry.slot? ≠ some slot
  notPinned : state.refCount slot = 0

theorem Unowned.transfer (unowned : Unowned state pool slot)
    (sameBlocks : after.blocks = state.blocks) (sameFreelist : after.freelist = state.freelist)
    (sameLocmap : after.locmap = state.locmap) (sameRefCount : after.refCount = state.refCount) :
    Unowned after pool slot where
  ofPool := sameBlocks ▸ unowned.ofPool
  notFree := sameFreelist ▸ unowned.notFree
  noEntry := sameLocmap ▸ unowned.noEntry
  notPinned := sameRefCount ▸ unowned.notPinned

/-- A call is served as long as the file, its slot and the content of that slot
stay. -/
theorem Call.Served.transfer (served : call.Served state) (sameFile : after.file = state.file)
    (sameBlocks : after.blocks = state.blocks) (slotKept : ∀ slot pool, call.phase = .holding slot →
      state.blocks[slot.bufOffset]? = some pool -> slot ∉ state.freelist pool ->
      slot ∉ after.freelist pool ∧ after.content slot = state.content slot) :
    call.Served after where
  current progress := by
    rw [sameFile]
    exact served.current progress
  pinned slot holding := by
    obtain ⟨pool, bytes, ofPool, notFree, shown, seen⟩ := served.pinned slot holding
    obtain ⟨stillNotFree, sameContent⟩ := slotKept slot pool holding ofPool notFree
    exact ⟨pool, bytes, sameBlocks ▸ ofPool, stillNotFree, sameContent.trans shown, seen⟩
  copy := served.copy

/-- The pins of a slot after one call has gone on. -/
theorem countP_set_phase {calls : List (Call B)} (at_index : calls[index]? = some call)
    (phase : Phase B) (slot : Slot) :
    (calls.set index { call with phase := phase }).countP (holds slot) =
      calls.countP (holds slot) - (if call.holds slot = true then 1 else 0) +
        if ({ call with phase := phase } : Call B).holds slot = true then 1 else 0 := by
  obtain ⟨bound, found⟩ := List.getElem?_eq_some_iff.1 at_index
  rw [List.countP_set bound, found]

theorem Call.not_holds (unpinned : ∀ slot, call.phase ≠ .holding slot) (slot : Slot) :
    ¬ call.holds slot = true :=
  fun holds => unpinned slot (holds_iff.1 holds)

theorem State.file_write (rel other : RelFileLocator) (loc key : Nat) (bytes : B) :
    (state.write rel loc bytes).file other key =
      if other = rel ∧ key = loc then some bytes else state.file other key := by
  unfold State.write
  by_cases sameRel : other = rel
  · subst sameRel
    by_cases sameLoc : key = loc <;> simp [sameLoc]
  · simp [sameRel]

section

variable (rel : RelFileLocator)

theorem Call.phase_observe (loc : Nat) (bytes : B) (call : Call B) :
    (call.observe rel loc bytes).phase = call.phase := by
  unfold observe
  split_ifs <;> rfl

theorem Call.rel_observe (loc : Nat) (bytes : B) (call : Call B) :
    (call.observe rel loc bytes).rel = call.rel := by
  unfold observe
  split_ifs <;> rfl

theorem Call.loc_observe (loc : Nat) (bytes : B) (call : Call B) :
    (call.observe rel loc bytes).loc = call.loc := by
  unfold observe
  split_ifs <;> rfl

end

theorem Call.seen_observe {loc : Nat} {bytes : B} {held : Option B} (seen : held ∈ call.seen) :
    held ∈ (call.observe rel loc bytes).seen := by
  unfold observe
  split_ifs
  · exact mem_append_left _ seen
  · exact seen

namespace Sound

variable (sound : Sound config rels state)

include sound

theorem setSig (slot : Slot) (sig : Option BufferSignature) :
    Sound config rels (state.setSig slot sig) :=
  { sound with
    served := fun call member => (sound.served call member).transfer rfl rfl
      fun _ _ _ _ notFree => ⟨notFree, rfl⟩ }

/-- Replacing an entry: a slot of the new entry must be free for it, and a valid
entry must show its vector. -/
theorem setEntry {entry : Option VecBufferLoc}
    (slots : ∀ new slot, entry = some new -> new.slot? = some slot ->
      (state.blocks[slot.bufOffset]? = some pool ∧ slot ∉ state.freelist pool) ∧
        ∀ other old, state.locmap pool other = some old -> old.slot? = some slot -> other = sig)
    (current : ∀ slot, entry = some (.valid slot) ->
      ∃ rel ∈ rels, config.poolOffset rel = pool ∧ sig.relId = rel.relNumber ∧
        ∃ bytes, state.content slot = some bytes ∧ state.file rel sig.offset = some bytes) :
    Sound config rels (state.setEntry pool sig entry) where
  __ := sound
  entryPool other key new slot stored ofSlot := by
    rw [locmap_setEntry] at stored
    split_ifs at stored with here
    · obtain ⟨rfl, rfl⟩ := here
      exact (slots new slot stored ofSlot).1
    · exact sound.entryPool other key new slot stored ofSlot
  entryUnique other key key' new new' slot stored stored' ofSlot ofSlot' := by
    rw [locmap_setEntry] at stored stored'
    split_ifs at stored stored' with here here' here'
    · exact here.2.trans here'.2.symm
    · obtain ⟨rfl, rfl⟩ := here
      exact ((slots new slot stored ofSlot).2 key' new' stored' ofSlot').symm
    · obtain ⟨rfl, rfl⟩ := here'
      exact (slots new' slot stored' ofSlot').2 key new stored ofSlot
    · exact sound.entryUnique other key key' new new' slot stored stored' ofSlot ofSlot'
  entryCurrent other key slot stored := by
    rw [locmap_setEntry] at stored
    split_ifs at stored with here
    · obtain ⟨rfl, rfl⟩ := here
      exact current slot stored
    · exact sound.entryCurrent other key slot stored
  served call member := (sound.served call member).transfer rfl rfl
    fun _ _ _ _ notFree => ⟨notFree, rfl⟩

theorem eraseEntry (pool : Nat) (sig : BufferSignature) :
    Sound config rels (state.setEntry pool sig none) :=
  sound.setEntry (fun _ _ absurd => nomatch absurd) (fun _ absurd => nomatch absurd)

theorem emptyEntry (pool : Nat) (sig : BufferSignature) :
    Sound config rels (state.setEntry pool sig (some .empty)) := by
  apply sound.setEntry
  · rintro _ _ ⟨⟩ ofSlot
    exact nomatch ofSlot
  · exact fun _ absurd => nomatch absurd

theorem invalidEntry (stored : state.locmap pool sig = some entry)
    (ofSlot : entry.slot? = some slot) :
    Sound config rels (state.setEntry pool sig (some (.invalid slot))) := by
  apply sound.setEntry
  · rintro _ _ ⟨⟩ ⟨⟩
    refine ⟨sound.entryPool pool sig entry slot stored ofSlot, ?_⟩
    intro other old storedOther ofOther
    exact sound.entryUnique pool other sig old entry slot storedOther stored ofOther ofSlot
  · exact fun _ absurd => nomatch absurd

/-- An entry for a slot that has no owner. -/
theorem ownEntry {loc : Nat} (entry : VecBufferLoc)
    (unowned : Unowned state (config.poolOffset rel) slot) (ofSlot : entry.slot? = some slot)
    (current : entry = .valid slot -> rel ∈ rels ∧
      ∃ bytes, state.content slot = some bytes ∧ state.file rel loc = some bytes) :
    Sound config rels (state.setEntry (config.poolOffset rel) (signature rel loc)
      (some entry)) := by
  apply sound.setEntry
  · rintro _ held ⟨⟩ ofHeld
    rw [ofSlot, Option.some.injEq] at ofHeld
    subst ofHeld
    exact ⟨⟨unowned.ofPool, unowned.notFree⟩, fun other old stored ofOther =>
      absurd ofOther (unowned.noEntry other old stored)⟩
  · rintro held ⟨⟩
    cases ofSlot
    obtain ⟨member, shown⟩ := current rfl
    exact ⟨rel, member, rfl, rfl, shown⟩

/-- After its entry is erased a slot without pins has no owner. -/
theorem unowned_eraseEntry (stored : state.locmap pool sig = some entry)
    (ofSlot : entry.slot? = some slot) (notPinned : state.refCount slot = 0) :
    Unowned (state.setEntry pool sig none) pool slot where
  ofPool := (sound.entryPool pool sig entry slot stored ofSlot).1
  notFree := (sound.entryPool pool sig entry slot stored ofSlot).2
  noEntry other old storedOther ofOther := by
    rw [locmap_setEntry] at storedOther
    split_ifs at storedOther with here
    exact here ⟨rfl,
      sound.entryUnique pool other sig old entry slot storedOther stored ofOther ofSlot⟩
  notPinned := notPinned

theorem not_holding (notPinned : state.refCount slot = 0) (member : call ∈ state.calls) :
    call.phase ≠ .holding slot := by
  intro holding
  have none_holds := sound.pins slot
  rw [notPinned, eq_comm, countP_eq_zero] at none_holds
  exact none_holds call member (holds_iff.2 holding)

/-- Giving an unowned slot to the free list. -/
theorem push (unowned : Unowned state pool slot) (listed : slots = state.freelist pool) :
    Sound config rels (state.setFreelist pool (slots ++ [slot])) where
  freeNodup other := by
    subst listed
    rw [freelist_setFreelist]
    split_ifs with same
    · refine .append (sound.freeNodup pool) (nodup_singleton slot) ?_
      rw [disjoint_singleton]
      exact unowned.notFree
    · exact sound.freeNodup other
  freePool other free member := by
    subst listed
    rw [freelist_setFreelist] at member
    split_ifs at member with same
    · subst same
      rcases mem_append.1 member with old | new
      · exact sound.freePool other free old
      · rw [mem_singleton.1 new]
        exact unowned.ofPool
    · exact sound.freePool other free member
  entryPool other key entry free stored ofSlot := by
    subst listed
    obtain ⟨ofPool, notFree⟩ := sound.entryPool other key entry free stored ofSlot
    refine ⟨ofPool, ?_⟩
    rw [freelist_setFreelist]
    split_ifs with same
    · subst same
      rw [mem_append, mem_singleton]
      rintro (old | rfl)
      · exact notFree old
      · exact unowned.noEntry key entry stored ofSlot
    · exact notFree
  __ := sound
  served call member := by
    subst listed
    refine (sound.served call member).transfer rfl rfl ?_
    intro _ _ holding _ notFree
    refine ⟨?_, rfl⟩
    rw [freelist_setFreelist]
    split_ifs with same
    · subst same
      rw [mem_append, mem_singleton]
      rintro (old | rfl)
      · exact notFree old
      · exact sound.not_holding unowned.notPinned member holding
    · exact notFree

theorem freeEntry (stored : state.locmap pool sig = some entry) (ofSlot : entry.slot? = some slot)
    (notPinned : state.refCount slot = 0) (keptSound : Sound config rels kept) :
    Sound config rels ((state.freeEntry pool sig slot).getD kept) := by
  unfold State.freeEntry
  split_ifs
  · exact (sound.eraseEntry pool sig).push (sound.unowned_eraseEntry stored ofSlot notPinned) rfl
  · exact keptSound

/-- Taking the first slot of the free list. -/
theorem pop (free : state.freelist pool = slot :: rest) :
    Sound config rels (state.setFreelist pool rest) ∧
      Unowned (state.setFreelist pool rest) pool slot := by
  have subset : ∀ other, (state.setFreelist pool rest).freelist other ⊆ state.freelist other := by
    intro other
    rw [freelist_setFreelist]
    split_ifs with same
    · rw [same, free]
      exact subset_cons_self slot rest
    · exact .refl _
  have member : slot ∈ state.freelist pool := by
    rw [free]
    exact mem_cons_self
  have nodup := sound.freeNodup pool
  rw [free, nodup_cons] at nodup
  constructor
  · constructor
    case freeNodup =>
      intro other
      rw [freelist_setFreelist]
      split_ifs
      · exact nodup.2
      · exact sound.freeNodup other
    case freePool => exact fun other each inside => sound.freePool other each (subset other inside)
    case entryPool =>
      intro other sig entry each stored ofSlot
      obtain ⟨ofPool, notFree⟩ := sound.entryPool other sig entry each stored ofSlot
      exact ⟨ofPool, fun inside => notFree (subset other inside)⟩
    case entryUnique => exact sound.entryUnique
    case entryCurrent => exact sound.entryCurrent
    case pins => exact sound.pins
    case callRel => exact sound.callRel
    case served =>
      intro call called
      exact (sound.served call called).transfer rfl rfl fun _ other _ _ notFree =>
        ⟨fun inside => notFree (subset other inside), rfl⟩
  · constructor
    case ofPool => exact sound.freePool pool slot member
    case notFree =>
      rw [freelist_setFreelist, if_pos rfl]
      exact nodup.1
    case noEntry =>
      intro sig entry stored ofSlot
      exact (sound.entryPool pool sig entry slot stored ofSlot).2 member
    case notPinned =>
      rw [setFreelist, sound.pins, countP_eq_zero]
      intro call called holds
      obtain ⟨other, _, ofPool, notFree, _⟩ :=
        (sound.served call called).pinned slot (holds_iff.1 holds)
      rw [sound.freePool pool slot member, Option.some.injEq] at ofPool
      exact notFree (ofPool ▸ member)

/-- Writing into an unowned slot. -/
theorem setContent (unowned : Unowned state pool slot) (bytes : B) :
    Sound config rels (state.setContent slot bytes) where
  __ := sound
  entryCurrent other sig each stored := by
    have different : each ≠ slot := by
      rintro rfl
      have ofPool := (sound.entryPool other sig _ each stored rfl).1
      rw [unowned.ofPool, Option.some.injEq] at ofPool
      subst ofPool
      exact unowned.noEntry sig _ stored rfl
    have same : (state.setContent slot bytes).content each = state.content each :=
      update_of_ne different _ _
    rw [same]
    exact sound.entryCurrent other sig each stored
  served call member := by
    refine (sound.served call member).transfer rfl rfl ?_
    intro _ _ holding _ notFree
    refine ⟨notFree, update_of_ne ?_ _ _⟩
    rintro rfl
    exact sound.not_holding unowned.notPinned member holding

section

variable (at_index : state.calls[index]? = some call)
include at_index

/-- A call goes on, with pins that follow it. -/
theorem setCall {counts : Slot -> Nat} (counted : ∀ slot, counts slot = state.refCount slot -
      (if call.holds slot = true then 1 else 0) +
        if ({ call with phase := phase } : Call B).holds slot = true then 1 else 0)
    (served : Call.Served state { call with phase := phase }) :
    Sound config rels ({ state with refCount := counts }.setPhase index call phase) where
  __ := sound
  pins slot := by
    refine (counted slot).trans ?_
    rw [sound.pins slot]
    exact (countP_set_phase at_index phase slot).symm
  callRel other member := by
    rcases mem_or_eq_of_mem_set member with old | rfl
    · exact sound.callRel other old
    · exact sound.callRel call (mem_of_getElem? at_index)
  served other member := by
    have before : Call.Served state other := by
      rcases mem_or_eq_of_mem_set member with old | rfl
      · exact sound.served other old
      · exact served
    exact before.transfer rfl rfl fun _ _ _ _ notFree => ⟨notFree, rfl⟩

/-- A call goes on without taking or giving a pin. -/
theorem setPhase
    (unpinned : ∀ slot, call.phase ≠ .holding slot) (stays : ∀ slot, phase ≠ .holding slot)
    (served : Call.Served state { call with phase := phase }) :
    Sound config rels (state.setPhase index call phase) := by
  apply sound.setCall at_index _ served
  intro slot
  rw [if_neg (not_holds unpinned slot), if_neg (not_holds stays slot)]
  rfl

/-- A call returns with a slot it has pinned. -/
theorem pin (unpinned : ∀ held, call.phase ≠ .holding held)
    (served : Call.Served state { call with phase := .holding slot }) :
    Sound config rels ((state.setRefCount slot (state.refCount slot + 1)).setPhase index call
      (.holding slot)) := by
  apply sound.setCall at_index _ served
  intro held
  rw [if_neg (not_holds unpinned held), Nat.sub_zero]
  simp only [holds, decide_eq_true_eq]
  by_cases same : slot = held
  · subst same
    rw [update_self, if_pos rfl]
  · rw [update_of_ne (Ne.symm same), if_neg same, Nat.add_zero]

/-- `release_vector_buffer` -/
theorem unpin (holding : call.phase = .holding slot) :
    Sound config rels ((state.setRefCount slot (state.refCount slot - 1)).setPhase index call
      .finished) := by
  refine sound.setCall at_index ?_ ⟨nofun, nofun, nofun⟩
  intro held
  simp only [holds, holding, decide_eq_true_eq, Bool.false_eq_true, if_false, Nat.add_zero]
  by_cases same : slot = held
  · subst same
    rw [update_self, if_pos rfl]
  · rw [update_of_ne (Ne.symm same), if_neg same, Nat.sub_zero]

end

end Sound

theorem Phase.not_holding (progress : phase.returned = false) (slot : Slot) :
    phase ≠ .holding slot := by
  rintro rfl
  exact nomatch progress

/-- A call in progress stays served when it goes on without returning. -/
theorem Call.Served.proceed (served : call.Served state) (progress : call.phase.returned = false)
    (next : phase.returned = false) :
    Call.Served state { call with phase := phase } where
  current _ := served.current progress
  pinned slot holding := absurd holding (Phase.not_holding next slot)
  copy bytes copied := by
    cases copied
    exact nomatch next

theorem Call.Served.finish (call : Call B) : Call.Served state { call with phase := .finished } :=
  ⟨nofun, nofun, nofun⟩

theorem Call.Served.copied (read : some bytes ∈ call.seen) :
    Call.Served state { call with phase := .copied bytes } := by
  refine ⟨nofun, nofun, ?_⟩
  rintro _ ⟨⟩
  exact read

namespace Sound

variable (sound : Sound config rels state)

include sound

section

variable (at_index : state.calls[index]? = some call) (progress : call.phase.returned = false)
include at_index progress

/-- A call in progress that does not return with this step. -/
theorem proceed (phase : Phase B) (next : phase.returned = false) :
    Sound config rels (state.setPhase index call phase) :=
  sound.setPhase at_index (Phase.not_holding progress) (Phase.not_holding next)
    ((sound.served call (mem_of_getElem? at_index)).proceed progress next)

theorem construct (retryCount : Nat) :
    Sound config rels (state.construct config index call retryCount) := by
  have current := (sound.served call (mem_of_getElem? at_index)).current progress
  have relation := sound.callRel call (mem_of_getElem? at_index)
  unfold State.construct
  dsimp only
  rcases free : state.freelist (config.poolOffset call.rel) with _ | ⟨slot, rest⟩
  · exact (sound.emptyEntry _ _).proceed at_index progress (.dropping retryCount false false) rfl
  · obtain ⟨popped, unowned⟩ := sound.pop free
    have taken := popped.setSig slot (some (signature call.rel call.loc))
    rcases stored : state.file call.rel call.loc with _ | bytes
    · have ended := taken.proceed at_index progress (.dropping retryCount false true) rfl
      dsimp only
      split_ifs
      · refine (ended.push (unowned.transfer rfl rfl rfl rfl) ?_).emptyEntry _ _
        exact ((freelist_setFreelist _ _ rest).trans (if_pos rfl)).symm
      · exact ended.ownEntry (.invalid slot) (unowned.transfer rfl rfl rfl rfl) rfl nofun
    · have filled := taken.setContent (unowned.transfer rfl rfl rfl rfl) bytes
      have shown : (((state.setFreelist (config.poolOffset call.rel) rest).setSig slot
          (some (signature call.rel call.loc))).setContent slot bytes).content slot = some bytes :=
        update_self _ _ _
      have entered := filled.ownEntry (.valid slot) (unowned.transfer rfl rfl rfl rfl) rfl
        fun _ => ⟨relation, bytes, shown, stored⟩
      refine entered.pin at_index (Phase.not_holding progress) ⟨nofun, ?_, nofun⟩
      rintro _ ⟨⟩
      exact ⟨_, bytes, unowned.ofPool, unowned.notFree, shown, stored ▸ current⟩

omit at_index progress in
theorem lookup (separate : Separate config rels) (at_index : state.calls[index]? = some call)
    (progress : call.phase.returned = false) (retryCount : Nat) :
    Sound config rels (state.lookup config index call retryCount) := by
  have member := mem_of_getElem? at_index
  unfold State.lookup
  rcases stored : state.locmap (config.poolOffset call.rel) (signature call.rel call.loc)
    with _ | ⟨_ | slot | slot⟩
  · exact sound.construct at_index progress retryCount
  · exact sound.proceed at_index progress (.dropping retryCount false false) rfl
  · -- a valid entry: its relation can only be the one of the call
    obtain ⟨ofPool, notFree⟩ := sound.entryPool _ _ _ slot stored rfl
    obtain ⟨_, known, samePool, sameNumber, bytes, shown, inFile⟩ :=
      sound.entryCurrent _ _ slot stored
    have same := separate.eq known (sound.callRel call member) sameNumber.symm samePool
    subst same
    refine sound.pin at_index (Phase.not_holding progress) ⟨nofun, ?_, nofun⟩
    rintro _ ⟨⟩
    exact ⟨_, bytes, ofPool, notFree, shown, inFile ▸ (sound.served call member).current progress⟩
  · exact sound.proceed at_index progress (.dropping retryCount true false) rfl

theorem drop (retryCount : Nat) (pendingInvalidation readFailed interrupted : Bool) :
    Sound config rels (state.drop config index call
      (afterDrop retryCount pendingInvalidation readFailed interrupted)) := by
  have goesOn : ∀ {kept : State B}, Sound config rels kept -> kept.calls = state.calls ->
      Sound config rels (kept.setPhase index call
        (afterDrop retryCount pendingInvalidation readFailed interrupted)) := by
    intro _ keptSound sameCalls
    rw [<- sameCalls] at at_index
    unfold afterDrop
    split_ifs
    · exact keptSound.setPhase at_index (Phase.not_holding progress) nofun (.finish call)
    all_goals exact keptSound.proceed at_index progress _ rfl
  unfold State.drop
  dsimp only
  split_ifs
  · exact goesOn (sound.eraseEntry _ _) rfl
  · exact goesOn sound rfl

end

theorem advance (separate : Separate config rels) (at_index : state.calls[index]? = some call)
    (advanced : state.advance config index call choice = some after) : Sound config rels after := by
  have served := sound.served call (mem_of_getElem? at_index)
  unfold State.advance at advanced
  cases phase : call.phase with
  | opening =>
    have progress : call.phase.returned = false := by rw [phase]; rfl
    simp only [phase, Option.some.injEq] at advanced
    subst advanced
    split_ifs
    · exact sound.proceed at_index progress (.looking 0) rfl
    · exact sound.proceed at_index progress .reading rfl
  | looking retryCount =>
    have progress : call.phase.returned = false := by rw [phase]; rfl
    simp only [phase, Option.some.injEq] at advanced
    subst advanced
    exact sound.lookup separate at_index progress retryCount
  | dropping retryCount pendingInvalidation readFailed =>
    have progress : call.phase.returned = false := by rw [phase]; rfl
    simp only [phase, Option.some.injEq] at advanced
    subst advanced
    exact sound.drop at_index progress retryCount pendingInvalidation readFailed choice
  | retrying retryCount =>
    have progress : call.phase.returned = false := by rw [phase]; rfl
    simp only [phase] at advanced
    split_ifs at advanced <;> cases advanced
    · exact sound.proceed at_index progress .reading rfl
    · exact sound.proceed at_index progress (.looking retryCount) rfl
  | reading =>
    have progress : call.phase.returned = false := by rw [phase]; rfl
    have current := served.current progress
    simp only [phase] at advanced
    rcases inFile : state.file call.rel call.loc with _ | bytes
    · simp only [inFile, Option.some.injEq] at advanced
      subst advanced
      exact sound.setPhase at_index (Phase.not_holding progress) (by simp) (.finish call)
    · simp only [inFile, Option.some.injEq] at advanced
      subst advanced
      refine sound.setPhase at_index (Phase.not_holding progress) (by simp) (.copied ?_)
      exact inFile ▸ current
  | holding slot =>
    simp only [phase, Option.some.injEq] at advanced
    subst advanced
    exact sound.unpin at_index phase
  | copied bytes =>
    simp only [phase, Option.some.injEq] at advanced
    subst advanced
    refine sound.setPhase at_index ?_ (by simp) (.finish call)
    simp [phase]
  | finished =>
    rw [phase] at advanced
    cases advanced

theorem evict (careful : Careful config rels state (.evict slot))
    (evicted : state.evict slot = some after) : Sound config rels after := by
  unfold State.evict at evicted
  rcases ofPool : state.blocks[slot.bufOffset]? with _ | pool
  · rw [ofPool] at evicted
    exact nomatch evicted
  rcases tagged : state.sig slot with _ | sig
  · rw [ofPool, tagged] at evicted
    exact nomatch evicted
  simp only [ofPool, tagged] at evicted
  have cleared := sound.setSig slot none
  rcases stored : state.locmap pool sig with _ | ⟨_ | held | held⟩
  · simp only [stored, Option.some.injEq] at evicted
    exact evicted ▸ sound
  · simp only [stored, Option.some.injEq] at evicted
    exact evicted ▸ sound.eraseEntry pool sig
  · simp only [stored] at evicted
    split_ifs at evicted with notPinned <;> cases evicted
    · exact cleared.freeEntry stored rfl notPinned cleared
    · exact sound
  · simp only [stored, Option.some.injEq] at evicted
    subst evicted
    exact cleared.freeEntry stored rfl (careful pool sig held ofPool tagged stored) cleared

theorem invalidate (rel : RelFileLocator) (loc : Nat) :
    Sound config rels (state.invalidate config rel loc) := by
  unfold State.invalidate
  dsimp only
  split_ifs
  · rcases stored : state.locmap (config.poolOffset rel) (signature rel loc)
      with _ | ⟨_ | slot | slot⟩
    · exact sound
    · exact sound.eraseEntry _ _
    all_goals
      have kept := sound.invalidEntry stored rfl
      dsimp only
      split_ifs with notPinned
      · exact sound.freeEntry stored rfl notPinned kept
      · exact kept
  · exact sound

/-- The slots of a new block belong to nobody yet. -/
theorem grow (grown : state.grow config pool = some after) : Sound config rels after := by
  unfold State.grow at grown
  split_ifs at grown
  cases grown
  set slots : List Slot :=
    (range (x86.getPoolMaxOffset pool)).map fun offset => ⟨state.blocks.length, offset⟩ with slots_eq
  have fresh : ∀ slot ∈ slots, slot.bufOffset = state.blocks.length := by
    intro slot member
    rw [slots_eq, mem_map] at member
    obtain ⟨_, _, rfl⟩ := member
    rfl
  have kept : ∀ {number other : Nat}, state.blocks[number]? = some other ->
      (state.blocks ++ [pool])[number]? = some other := by
    intro _ other found
    rw [List.getElem?_append_left (List.getElem?_eq_some_iff.1 found).1]
    exact found
  have stillNotFree : ∀ {slot : Slot} {other : Nat}, state.blocks[slot.bufOffset]? = some other ->
      slot ∉ state.freelist other ->
      slot ∉ (update state.freelist pool (state.freelist pool ++ slots)) other := by
    intro slot other ofPool notFree
    by_cases same : other = pool
    · subst same
      rw [update_self, mem_append]
      rintro (old | new)
      · exact notFree old
      · have bound := (List.getElem?_eq_some_iff.1 ofPool).1
        rw [fresh slot new] at bound
        exact lt_irrefl _ bound
    · rw [update_of_ne same]
      exact notFree
  constructor
  case freeNodup =>
    intro other
    rw [freelist_setFreelist]
    split_ifs
    · refine .append (sound.freeNodup pool) ?_ ?_
      · refine .map ?_ nodup_range
        intro _ _ same
        exact (Slot.mk.inj same).2
      · intro slot old new
        have bound := (List.getElem?_eq_some_iff.1 (sound.freePool pool slot old)).1
        rw [fresh slot new] at bound
        exact lt_irrefl _ bound
    · exact sound.freeNodup other
  case freePool =>
    intro other slot member
    rw [freelist_setFreelist] at member
    split_ifs at member with same
    · subst same
      rcases mem_append.1 member with old | new
      · exact kept (sound.freePool other slot old)
      · show (state.blocks ++ [other])[slot.bufOffset]? = some other
        rw [fresh slot new, getElem?_concat_length]
    · exact kept (sound.freePool other slot member)
  case entryPool =>
    intro other sig entry slot stored ofSlot
    obtain ⟨ofPool, notFree⟩ := sound.entryPool other sig entry slot stored ofSlot
    exact ⟨kept ofPool, stillNotFree ofPool notFree⟩
  case entryUnique => exact sound.entryUnique
  case entryCurrent => exact sound.entryCurrent
  case pins => exact sound.pins
  case callRel => exact sound.callRel
  case served =>
    intro call member
    have served := sound.served call member
    refine ⟨served.current, ?_, served.copy⟩
    intro slot holding
    obtain ⟨other, bytes, ofPool, notFree, shown, seen⟩ := served.pinned slot holding
    exact ⟨other, bytes, kept ofPool, stillNotFree ofPool notFree, shown, seen⟩

/-- Writing a vector for which the cache has no valid entry. -/
theorem write {loc : Nat} (bytes : B) (absent : ∀ slot,
      state.locmap (config.poolOffset rel) (signature rel loc) ≠ some (.valid slot)) :
    Sound config rels (state.write rel loc bytes) where
  __ := sound
  entryCurrent pool sig slot stored := by
    obtain ⟨other, known, samePool, sameNumber, held, shown, inFile⟩ :=
      sound.entryCurrent pool sig slot stored
    refine ⟨other, known, samePool, sameNumber, held, shown, ?_⟩
    rw [file_write, if_neg]
    · exact inFile
    · rintro ⟨rfl, rfl⟩
      subst samePool
      have sameSig : sig = signature other sig.offset := by rw [signature, <- sameNumber]
      exact absent slot (sameSig ▸ stored)
  pins slot := by
    rw [State.write, countP_map]
    refine (sound.pins slot).trans (countP_congr fun call _ => ?_)
    rw [comp_apply, holds_iff, holds_iff, phase_observe]
  callRel call member := by
    obtain ⟨before, old, rfl⟩ := mem_map.1 member
    rw [rel_observe]
    exact sound.callRel before old
  served call member := by
    obtain ⟨before, old, rfl⟩ := mem_map.1 member
    have served := sound.served before old
    constructor
    case current =>
      intro progress
      rw [phase_observe] at progress
      rw [rel_observe, loc_observe, file_write]
      unfold observe
      split_ifs with same written written
      · exact mem_append_right _ (mem_singleton_self _)
      · exact absurd ⟨same.1, same.2.1⟩ written
      · exact absurd ⟨written.1, written.2, progress⟩ same
      · exact served.current progress
    case pinned =>
      intro slot holding
      rw [phase_observe] at holding
      obtain ⟨pool, held, ofPool, notFree, shown, seen⟩ := served.pinned slot holding
      exact ⟨pool, held, ofPool, notFree, shown, seen_observe seen⟩
    case copy =>
      intro held copied
      rw [phase_observe] at copied
      exact seen_observe (served.copy held copied)

theorem begin (known : rel ∈ rels) (loc : Nat) (progress : phase.returned = false) :
    Sound config rels
      { state with calls := state.calls ++ [⟨rel, loc, phase, [state.file rel loc]⟩] } where
  __ := sound
  pins slot := by
    rw [countP_append, countP_singleton, if_neg]
    · exact sound.pins slot
    · exact not_holds (Phase.not_holding progress) slot
  callRel call member := by
    rcases mem_append.1 member with old | new
    · exact sound.callRel call old
    · rw [mem_singleton.1 new]
      exact known
  served call member := by
    rcases mem_append.1 member with old | new
    · exact (sound.served call old).transfer rfl rfl fun _ _ _ _ notFree => ⟨notFree, rfl⟩
    · rw [mem_singleton.1 new]
      refine ⟨fun _ => mem_singleton_self _, ?_, ?_⟩
      · exact fun slot holding => absurd holding (Phase.not_holding progress slot)
      · rintro _ rfl
        exact nomatch progress

theorem setLive (rel : RelFileLocator) (loc : Nat) (live : Bool) :
    Sound config rels (state.setLive rel loc live) :=
  { sound with
    served := fun call member => (sound.served call member).transfer rfl rfl
      fun _ _ _ _ notFree => ⟨notFree, rfl⟩ }

theorem step (separate : Separate config rels)
    (careful : Careful config rels state action) (made : step config state action = some after) :
    Sound config rels after := by
  cases action with
  | begin rel loc =>
    cases made
    refine sound.begin careful loc ?_
    split_ifs <;> rfl
  | advance index choice =>
    obtain ⟨_, at_index, advanced⟩ := Option.bind_eq_some_iff.1 made
    exact sound.advance separate at_index advanced
  | evict slot => exact sound.evict careful made
  | grow pool => exact sound.grow made
  | markDeleted rel loc =>
    simp only [VectorBuffer.step] at made
    split_ifs at made
    cases made
    exact (sound.invalidate rel loc).setLive rel loc false
  | addVector rel loc bytes =>
    simp only [VectorBuffer.step] at made
    split_ifs at made
    cases made
    exact (sound.write bytes careful).setLive rel loc true

theorem run (separate : Separate config rels)
    (careful : CarefulRun config rels actions state) (ran : run config actions state = some after) :
    Sound config rels after := by
  induction actions generalizing state with
  | nil =>
    cases ran
    exact sound
  | cons action rest ih =>
    obtain ⟨between, made, remaining⟩ := Option.bind_eq_some_iff.1 ran
    exact ih (sound.step separate careful.1 made) (careful.2 between made) remaining

theorem readsCurrent : state.ReadsCurrent := by
  intro call member returned unreleased
  have served := sound.served call member
  unfold shows
  cases phase : call.phase with
  | holding slot =>
    obtain ⟨_, bytes, _, _, shown, seen⟩ := served.pinned slot phase
    exact ⟨bytes, shown, seen⟩
  | copied bytes => exact ⟨bytes, rfl, served.copy bytes phase⟩
  | finished => exact absurd phase unreleased
  | _ =>
    rw [phase] at returned
    exact nomatch returned

end Sound

/-- In a run whose relations do not share signatures, whose vectors are added
only while the cache has no valid entry for them and whose evictions leave pinned
slots alone, every read delivers what the file held for its vector. -/
theorem reads_current_of_careful (config : Config) (rels : Set RelFileLocator)
    (separate : Separate config rels) (actions : List (Action B))
    (careful : CarefulRun config rels actions initial) (state : State B)
    (ran : run config actions initial = some state) :
    state.ReadsCurrent :=
  (Sound.initial.run separate careful ran).readsCurrent

/-- An index in one of two databases; its vectors have 16000 dimensions. -/
private def trialRel (dbOid : Nat) : RelFileLocator := ⟨1663, dbOid, 16384⟩

private def trialConfig : Config := ⟨fun _ => 64000, 1⟩

/-- A vector is read, deleted while it is pinned, and its id is used again. -/
private def trialActions : List (Action Nat) :=
  [.grow 1000, .addVector (trialRel 1) 0 7, .begin (trialRel 1) 0, .advance 0 false,
    .advance 0 false, .markDeleted (trialRel 1) 0, .addVector (trialRel 1) 0 8,
    .begin (trialRel 1) 0, .advance 1 false, .advance 1 false, .advance 1 false,
    .advance 1 false]

theorem reads_current_of_careful_recycled :
    (run trialConfig trialActions initial).isSome = true ∧
      ∀ state, run trialConfig trialActions initial = some state -> state.ReadsCurrent := by
  refine ⟨by decide +kernel, fun state ran => ?_⟩
  refine reads_current_of_careful trialConfig {trialRel 1} (Set.pairwise_singleton _ _)
    trialActions ?_ state ran
  refine ⟨trivial, fun _ grown => ?_⟩
  cases grown
  refine ⟨nofun, fun _ added => ?_⟩
  cases added
  refine ⟨rfl, fun _ begun => ?_⟩
  cases begun
  refine ⟨trivial, fun _ opened => ?_⟩
  cases opened
  refine ⟨trivial, fun _ constructed => ?_⟩
  cases constructed
  refine ⟨trivial, fun _ deleted => ?_⟩
  cases deleted
  -- the entry is there, but the deletion has made it invalid
  refine ⟨nofun, fun _ reused => ?_⟩
  refine ⟨rfl, fun _ begun => ?_⟩
  exact ⟨trivial, fun _ _ => ⟨trivial, fun _ _ => ⟨trivial, fun _ _ => ⟨trivial, fun _ _ =>
    trivial⟩⟩⟩⟩

/-- The indexes of two databases can have the same `relNumber`.  A read of the one
then gets the vector that the cache keeps for the other. -/
theorem read_of_other_relation :
    ∃ (config : Config) (actions : List (Action Nat)) (state : State Nat),
      run config actions initial = some state ∧ ¬ state.ReadsCurrent := by
  have misread : (run trialConfig
      [.grow 1000, .addVector (trialRel 1) 0 7, .addVector (trialRel 2) 0 9,
        .begin (trialRel 1) 0, .advance 0 false, .advance 0 false,
        .begin (trialRel 2) 0, .advance 1 false, .advance 1 false]
      (initial : State Nat)).any (fun state => !decide state.ReadsCurrent) = true := by
    decide +kernel
  obtain ⟨state, ran, wrong⟩ := (Option.any_eq_true _ _).1 misread
  refine ⟨_, _, state, ran, ?_⟩
  simpa using wrong

end VexDB.VectorBuffer
