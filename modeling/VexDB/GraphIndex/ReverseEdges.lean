import VexDB.GraphIndex.Structure
import VexDB.Storage.Runs

/-!
# Reverse edges of concurrent inserts

`update_reverse_edges` reads the list of a neighbour under one page lock, chooses
a slot without it, and writes the slot under another.  The point lock around the
three is taken only while `parallel_build` is set; at run time inserts share the
entry lock and nothing else.
-/

namespace VexDB.GraphIndex

open Storage GraphStore

variable {P V D Tid : Type} [Inhabited P] [Inhabited V] {layer : Layer} {key : Layer × Nat} {store :
  GraphStore P V D} {newPoint : Nat × Nat} {nbr : Candidate V D}

/-- What an insert is doing with a record. -/
inductive EdgePhase (V D : Type) where
  | idle
  /-- The record was assigned and is not written yet. -/
  | owns (layer : Layer) (idx : Nat)
  /-- Behind `lock_point`, before `get_neighbors` or after `set_neighbor`. -/
  | locked (newPoint : Nat × Nat) (layer : Layer) (nbr : Candidate V D)
  /-- `select_neighbors` chose a slot of the list it saw. -/
  | chosen (newPoint : Nat × Nat) (layer : Layer) (nbr : Candidate V D)
      (seen : List (Option (Nat × Nat))) (slot : Option Nat)

namespace EdgePhase

def owned : EdgePhase V D -> Option (Layer × Nat)
  | .owns layer idx => some (layer, idx)
  | _ => none

/-- The record behind the point lock. -/
def held : EdgePhase V D -> Option (Layer × Nat)
  | .locked _ layer nbr | .chosen _ layer nbr _ _ => some (layer, nbr.curLayerIdx)
  | _ => none

/-- The record between its read and its write. -/
def pending : EdgePhase V D -> Option (Layer × Nat)
  | .chosen _ layer nbr _ _ => some (layer, nbr.curLayerIdx)
  | _ => none

/-- The list that was read. -/
def seen : EdgePhase V D -> List (Option (Nat × Nat))
  | .chosen _ _ _ seen _ => seen
  | _ => []

omit [Inhabited V] in
theorem held_of_pending {phase : EdgePhase V D} (pending : phase.pending = some key) :
    phase.held = some key := by
  cases phase <;> first | exact pending | cases pending

end EdgePhase

/-- The neighbour list of a record. -/
def GraphStore.slots (store : GraphStore P V D) (key : Layer × Nat) :
    Option (List (Option (Nat × Nat))) :=
  ((store.layer key.1)[key.2]?).map Point.neighbors

section Slots

omit [Inhabited P] [Inhabited V]

theorem slots_modifyPoint_of_ne (store : GraphStore P V D)
    (change : Point D -> Point D) (different : (layer, idx) ≠ key) :
    (store.modifyPoint layer idx change).slots key = store.slots key := by
  rw [slots, slots, getElem?_layer_modifyPoint, if_neg]
  rintro ⟨sameLayer, sameIdx⟩
  exact different (Prod.ext sameLayer.symm sameIdx.symm)

/-- Assigning a record leaves the lists there are. -/
theorem slots_assign (params : Params V D) (layer : Layer) (found : store.slots key = some seen) :
    (store.assign params layer).slots key = some seen := by
  rw [<- found]
  rcases nextId_cases params store layer with ⟨assigned, _⟩ | ⟨assigned, _⟩
  · obtain ⟨_, present, _⟩ := Option.map_eq_some_iff.1 found
    rw [assigned, slots, slots]
    by_cases sameLayer : key.1 = layer
    · subst sameLayer
      rw [layer_withLayer_self, List.getElem?_append_left (List.getElem?_eq_some_iff.1 present).1]
    · rw [layer_withLayer_of_ne _ _ sameLayer]
  · rw [assigned, slots, slots, layer_withFreeList]

end Slots

/-- What an insert does to the graph, one page lock at a time. -/
inductive EdgeOp (P V D : Type) where
  /-- `get_entry` with the shared lock. -/
  | enter
  /-- `release_entry_lock` -/
  | leave
  /-- A whole insert under the exclusive lock. -/
  | alone (store : GraphStore P V D)
  | assign (layer : Layer)
  | addPoint (lower id : Option Nat) (neighbors : List (Option (Nat × Nat)))
  | addVector (id : Nat) (query : V)
  | lock (newPoint : Nat × Nat) (layer : Layer) (nbr : Candidate V D)
  | read
  | write
  | unlock

structure EdgeConfig (P V D Tid : Type) where
  params : Params V D
  pt : PointType P Tid
  /-- `parallel_build`, with the lock array in place. -/
  pointLocks : Bool
  /-- The lock that `vex_graph_build_point_lock` answers. -/
  stripe : Layer × Nat -> Nat

structure EdgeState (P V D : Type) where
  store : GraphStore P V D
  /-- The inserts that share the entry lock. -/
  holders : List Nat
  phase : Nat -> EdgePhase V D

/-- The slot `select_neighbors` chooses for a new point. -/
def chosenSlot (params : Params V D) (store : GraphStore P V D) (newPoint : Nat × Nat)
    (layer : Layer) (nbr : Candidate V D) : Option Nat :=
  (selectPruned params false store layer (getNeighbors params store layer nbr) newPoint.1
    (store.pointInfo params layer nbr.curLayerIdx) nbr).1

/-- `set_neighbor`, when a slot was chosen. -/
def setChosen (config : EdgeConfig P V D Tid) (store : GraphStore P V D) (newPoint : Nat × Nat)
    (layer : Layer) (nbr : Candidate V D) : Option Nat -> GraphStore P V D
  | some slot => store.write config.params config.pt
      (.setNeighbor layer nbr.curLayerIdx slot newPoint none)
  | none => store

/-- Without a step in between, the read and the write are `update_reverse_edges`. -/
theorem updateReverseEdge_eq_setChosen (config : EdgeConfig P V D Tid)
    (cached : config.params.useDistCache = true) (store : GraphStore P V D)
    (newPoint : Nat × Nat) (layer : Layer) (nbr : Candidate V D) :
    updateReverseEdge config.params (impl config.params config.pt) layer newPoint store nbr =
      setChosen config store newPoint layer nbr
        (chosenSlot config.params store newPoint layer nbr) := by
  rw [updateReverseEdge, chosenSlot]
  simp only [cached]
  generalize selectPruned config.params false store layer _ newPoint.1 _ nbr = result
  obtain ⟨pruned, stat⟩ := result
  cases stat <;> cases pruned <;> rfl

namespace EdgeState

/-- Another insert holds the point lock. -/
def Blocked (config : EdgeConfig P V D Tid) (state : EdgeState P V D) (actor : Nat)
    (key : Layer × Nat) : Prop :=
  config.pointLocks = true ∧ ∃ other ∈ state.holders, other ≠ actor ∧
    ∃ taken ∈ (state.phase other).held, config.stripe taken = config.stripe key

instance (config : EdgeConfig P V D Tid) (state : EdgeState P V D) (actor : Nat)
    (key : Layer × Nat) : Decidable (state.Blocked config actor key) :=
  inferInstanceAs (Decidable (_ ∧ ∃ _ ∈ _, _ ∧ ∃ _ ∈ _, _))

/-- Go on with another store and another phase of one insert. -/
def proceed (state : EdgeState P V D) (actor : Nat) (store : GraphStore P V D)
    (phase : EdgePhase V D) : EdgeState P V D :=
  ⟨store, state.holders, Function.update state.phase actor phase⟩

/-- One step of an insert that shares the entry lock. -/
def advance (config : EdgeConfig P V D Tid) (state : EdgeState P V D) (actor : Nat) :
    EdgeOp P V D -> EdgePhase V D -> EdgeState P V D
  | .leave, .idle => ⟨state.store, state.holders.erase actor, state.phase⟩
  | .assign layer, .idle =>
    state.proceed actor (state.store.assign config.params layer)
      (.owns layer (state.store.nextId layer))
  | .addPoint lower id neighbors, .owns layer idx =>
    state.proceed actor (state.store.write config.params config.pt
      (.addPoint layer idx lower id neighbors none)) .idle
  | .addVector id query, phase =>
    state.proceed actor (state.store.write config.params config.pt (.addVector id query)) phase
  | .lock newPoint layer nbr, .idle =>
    -- a base candidate carries its id twice
    if recordIdx layer nbr = nbr.curLayerIdx ∧
        ¬ state.Blocked config actor (layer, nbr.curLayerIdx) then
      state.proceed actor state.store (.locked newPoint layer nbr)
    else state
  | .read, .locked newPoint layer nbr =>
    match state.store.slots (layer, nbr.curLayerIdx) with
    | some seen => state.proceed actor state.store (.chosen newPoint layer nbr seen
        (chosenSlot config.params state.store newPoint layer nbr))
    | none => state
  | .write, .chosen newPoint layer nbr _ slot =>
    state.proceed actor (setChosen config state.store newPoint layer nbr slot)
      (.locked newPoint layer nbr)
  | .unlock, .locked _ _ _ => state.proceed actor state.store .idle
  | _, _ => state

/-- One step of one insert; a step that has to wait changes nothing. -/
def step (config : EdgeConfig P V D Tid) (state : EdgeState P V D) :
    Nat × EdgeOp P V D -> EdgeState P V D
  | (actor, .enter) => ⟨state.store, actor :: state.holders, state.phase⟩
  | (_, .alone store) => if state.holders = [] then { state with store } else state
  | (actor, op) =>
    if actor ∈ state.holders then state.advance config actor op (state.phase actor) else state

/-- A list is read when its record was written, and without the point locks when
no other insert is between its read and its write of it; no such record is
assigned. -/
def Unshared (config : EdgeConfig P V D Tid) (state : EdgeState P V D) :
    Nat × EdgeOp P V D -> Prop
  | (actor, .read) => ∀ key ∈ (state.phase actor).held, ∀ other ∈ state.holders,
      other ≠ actor -> (state.phase other).owned ≠ some key ∧
        (config.pointLocks = true ∨ (state.phase other).pending ≠ some key)
  | (actor, .assign layer) => ∀ other ∈ state.holders, other ≠ actor ->
      (state.phase other).pending ≠ some (layer, state.store.nextId layer)
  | _ => True

instance (config : EdgeConfig P V D Tid) (state : EdgeState P V D) :
    (op : Nat × EdgeOp P V D) -> Decidable (state.Unshared config op)
  | (_, .read) => inferInstanceAs (Decidable (∀ _ ∈ _, ∀ _ ∈ _, _ -> _ ∧ (_ ∨ _)))
  | (_, .assign _) => inferInstanceAs (Decidable (∀ _ ∈ _, _ -> _))
  | (_, .enter) | (_, .leave) | (_, .alone _) | (_, .addPoint _ _ _) | (_, .addVector _ _)
  | (_, .lock _ _ _) | (_, .write) | (_, .unlock) => inferInstanceAs (Decidable True)

/-- The slot an insert is about to write holds what the insert saw in it. -/
def Atomic (state : EdgeState P V D) : Prop :=
  ∀ actor newPoint layer nbr seen slot,
    state.phase actor = .chosen newPoint layer nbr seen (some slot) ->
      (state.store.slots (layer, nbr.curLayerIdx)).bind (·[slot]?) = seen[slot]?

/-- Lists between read and write are unchanged, and belong to one insert each. -/
structure Sound (config : EdgeConfig P V D Tid) (state : EdgeState P V D) : Prop where
  active : ∀ actor, state.phase actor = .idle ∨ actor ∈ state.holders
  unchanged : ∀ actor key, (state.phase actor).pending = some key ->
    state.store.slots key = some (state.phase actor).seen
  apart : ∀ actor other key, actor ≠ other -> (state.phase actor).pending = some key ->
    (state.phase other).pending ≠ some key ∧ (state.phase other).owned ≠ some key
  striped : config.pointLocks = true -> ∀ actor other key taken, actor ≠ other ->
    (state.phase actor).held = some key -> (state.phase other).held = some taken ->
      config.stripe taken ≠ config.stripe key

section Steps

variable {config : EdgeConfig P V D Tid} {state : EdgeState P V D} {actor : Nat}

section

omit [Inhabited P] [Inhabited V]

variable (sound : state.Sound config)
include sound

/-- What holds of an idle insert and of all that share the entry lock. -/
theorem Sound.others (property : EdgePhase V D -> Prop) (idle : property .idle)
    (shared : ∀ other ∈ state.holders, other ≠ actor -> property (state.phase other)) (other : Nat)
    (different : other ≠ actor) : property (state.phase other) := by
  rcases sound.active other with resting | present
  · rw [resting]
    exact idle
  · exact shared other present different

variable (present : actor ∈ state.holders)
include present

/-- One insert goes on: it leaves the lists that others are about to write, and
takes none of theirs. -/
theorem Sound.proceed {phase : EdgePhase V D}
    (frame : ∀ other key, other ≠ actor -> (state.phase other).pending = some key ->
      state.store.slots key = some (state.phase other).seen ->
      store.slots key = some (state.phase other).seen)
    (own : ∀ key, phase.pending = some key -> store.slots key = some phase.seen ∧
      ∀ other, other ≠ actor -> (state.phase other).pending ≠ some key ∧
      (state.phase other).owned ≠ some key)
    (fresh : ∀ key, phase.owned = some key -> ∀ other, other ≠ actor ->
      (state.phase other).pending ≠ some key)
    (stripes : config.pointLocks = true -> ∀ key, phase.held = some key -> ∀ other, other ≠ actor ->
      ∀ taken, (state.phase other).held = some taken -> config.stripe taken ≠ config.stripe key)
    : (state.proceed actor store phase).Sound config := by
  have self : (state.proceed actor store phase).phase actor = phase := Function.update_self ..
  have rest : ∀ other, other ≠ actor ->
      (state.proceed actor store phase).phase other = state.phase other :=
    fun other different => Function.update_of_ne different ..
  constructor
  case active =>
    intro other
    by_cases same : other = actor
    · exact .inr (same ▸ present)
    · rw [rest other same]
      exact sound.active other
  case unchanged =>
    intro other key pending
    by_cases same : other = actor
    · subst same
      rw [self] at pending ⊢
      exact (own key pending).1
    · rw [rest other same] at pending ⊢
      exact frame other key same pending (sound.unchanged other key pending)
  case apart =>
    intro first second key different pending
    by_cases isFirst : first = actor
    · subst isFirst
      rw [self] at pending
      rw [rest second different.symm]
      exact (own key pending).2 second different.symm
    · rw [rest first isFirst] at pending
      by_cases isSecond : second = actor
      · subst isSecond
        rw [self]
        exact ⟨fun both => ((own key both).2 first isFirst).1 pending,
          fun owned => fresh key owned first isFirst pending⟩
      · rw [rest second isSecond]
        exact sound.apart first second key different pending
  case striped =>
    intro locks first second key taken different held blocking
    by_cases isFirst : first = actor
    · subst isFirst
      rw [self] at held
      rw [rest second different.symm] at blocking
      exact stripes locks key held second different.symm taken blocking
    · rw [rest first isFirst] at held
      by_cases isSecond : second = actor
      · subst isSecond
        rw [self] at blocking
        exact (stripes locks taken blocking first isFirst key held).symm
      · rw [rest second isSecond] at blocking
        exact sound.striped locks first second key taken different held blocking

/-- Going on without a list: only the lists of others have to stay. -/
theorem Sound.rest (frame : ∀ other key, other ≠ actor -> (state.phase other).pending = some key ->
      state.store.slots key = some (state.phase other).seen ->
      store.slots key = some (state.phase other).seen)
    : (state.proceed actor store .idle).Sound config :=
  sound.proceed present frame (by rintro _ ⟨⟩) (by rintro _ ⟨⟩) (by rintro _ _ ⟨⟩)

/-- `get_neighbors` and `select_neighbors` -/
theorem Sound.read {seen : List (Option (Nat × Nat))} {slot : Option Nat}
    (locked : state.phase actor = .locked newPoint layer nbr)
    (found : state.store.slots (layer, nbr.curLayerIdx) = some seen)
    (unshared : state.Unshared config (actor, .read)) :
    (state.proceed actor state.store (.chosen newPoint layer nbr seen slot)).Sound config := by
  have held : (state.phase actor).held = some (layer, nbr.curLayerIdx) := by
    rw [locked]
    rfl
  refine sound.proceed present (fun _ _ _ _ kept => kept) ?_ (by rintro _ ⟨⟩) ?_
  · rintro key ⟨⟩
    refine ⟨found, fun other different => ?_⟩
    obtain ⟨written, alone⟩ := sound.others
      (fun phase => phase.owned ≠ some (layer, nbr.curLayerIdx) ∧
        (config.pointLocks = true ∨ phase.pending ≠ some (layer, nbr.curLayerIdx)))
      ⟨by rintro ⟨⟩, .inr (by rintro ⟨⟩)⟩ (unshared _ held) other different
    refine ⟨fun pending => ?_, written⟩
    rcases alone with locks | unread
    · exact sound.striped locks actor other _ _ different.symm held
        (EdgePhase.held_of_pending pending) rfl
    · exact unread pending
  · rintro locks key ⟨⟩ other different taken blocking
    exact sound.striped locks actor other _ taken different.symm held blocking

end

section

variable (sound : state.Sound config)
include sound

section

variable (present : actor ∈ state.holders)
include present

/-- `set_neighbor` -/
theorem Sound.write {seen : List (Option (Nat × Nat))} {slot : Option Nat}
    (chosen : state.phase actor = .chosen newPoint layer nbr seen slot) :
    (state.proceed actor (setChosen config state.store newPoint layer nbr slot)
      (.locked newPoint layer nbr)).Sound config := by
  have pending : (state.phase actor).pending = some (layer, nbr.curLayerIdx) := by
    rw [chosen]
    rfl
  refine sound.proceed present ?_ (by rintro _ ⟨⟩) (by rintro _ ⟨⟩) ?_
  · intro other _ different theirs kept
    cases slot with
    | none => exact kept
    | some =>
      refine (slots_modifyPoint_of_ne _ _ ?_).trans kept
      rintro rfl
      exact (sound.apart actor other _ different.symm pending).1 theirs
  · rintro locks _ ⟨⟩ other different taken blocking
    exact sound.striped locks actor other _ taken different.symm
      (EdgePhase.held_of_pending pending) blocking

omit [Inhabited P] [Inhabited V] in
/-- `lock_point` -/
theorem Sound.lock (free : ¬ state.Blocked config actor (layer, nbr.curLayerIdx)) :
    (state.proceed actor state.store (.locked newPoint layer nbr)).Sound config := by
  refine sound.proceed present (fun _ _ _ _ kept => kept) (by rintro _ ⟨⟩) (by rintro _ ⟨⟩) ?_
  rintro locks _ ⟨⟩ other different taken blocking same
  rcases sound.active other with resting | sharing
  · rw [resting] at blocking
    cases blocking
  · exact free ⟨locks, other, sharing, different, taken, blocking, same⟩

theorem Sound.advance (unshared : state.Unshared config (actor, op)) :
    (state.advance config actor op (state.phase actor)).Sound config := by
  cases op with
  | enter | alone => exact sound
  | leave =>
    cases phase : state.phase actor with
    | idle =>
      refine ⟨fun other => ?_, sound.unchanged, sound.apart, sound.striped⟩
      by_cases same : other = actor
      · exact .inl (same ▸ phase)
      · exact (sound.active other).imp_right (List.mem_erase_of_ne same).2
    | _ => exact sound
  | assign layer =>
    cases phase : state.phase actor with
    | idle =>
      refine sound.proceed present (fun _ _ _ _ => slots_assign _ layer)
        (by rintro _ ⟨⟩) ?_ (by rintro _ _ ⟨⟩)
      rintro key ⟨⟩
      exact sound.others (fun phase => phase.pending ≠ some _) (by rintro ⟨⟩) unshared
    | _ => exact sound
  | addPoint =>
    cases phase : state.phase actor with
    | owns =>
      refine sound.rest present fun other key different pending kept => ?_
      refine (slots_modifyPoint_of_ne _ _ ?_).trans kept
      rintro rfl
      exact (sound.apart other actor _ different pending).2 (by rw [phase]; rfl)
    | _ => exact sound
  | addVector =>
    refine sound.proceed present (fun _ _ _ _ kept => kept) (fun key pending => ?_)
      (fun key owned other different pending => ?_)
      (fun locks key held other different taken => ?_)
    · exact ⟨sound.unchanged actor key pending, fun other different =>
        sound.apart actor other key different.symm pending⟩
    · exact (sound.apart other actor key different pending).2 owned
    · exact sound.striped locks actor other key taken different.symm held
  | lock =>
    cases phase : state.phase actor with
    | idle =>
      rw [EdgeState.advance]
      split_ifs with possible
      · exact sound.lock present possible.2
      · exact sound
    | _ => exact sound
  | read =>
    cases phase : state.phase actor with
    | locked newPoint layer nbr =>
      rw [EdgeState.advance]
      cases found : state.store.slots (layer, nbr.curLayerIdx) with
      | none => exact sound
      | some => exact sound.read present phase found unshared
    | _ => exact sound
  | write =>
    cases phase : state.phase actor with
    | chosen => exact sound.write present phase
    | _ => exact sound
  | unlock =>
    cases phase : state.phase actor with
    | locked => exact sound.rest present fun _ _ _ _ kept => kept
    | _ => exact sound

end

/-- One step of any insert. -/
theorem Sound.step (unshared : state.Unshared config op) : (state.step config op).Sound config := by
  obtain ⟨actor, op⟩ := op
  have inside : (if actor ∈ state.holders then
      state.advance config actor op (state.phase actor) else state).Sound config := by
    split_ifs with present
    · exact sound.advance present unshared
    · exact sound
  cases op with
  | enter =>
    exact ⟨fun other => (sound.active other).imp_right (List.mem_cons_of_mem _),
      sound.unchanged, sound.apart, sound.striped⟩
  | alone =>
    rw [EdgeState.step]
    split_ifs with empty
    · refine ⟨sound.active, fun other key pending => ?_, sound.apart, sound.striped⟩
      rcases sound.active other with resting | sharing
      · simp [resting, EdgePhase.pending] at pending
      · simp [empty] at sharing
    · exact sound
  | _ => exact inside

end

end Steps

/-- No insert has begun. -/
def start (store : GraphStore P V D) : EdgeState P V D := ⟨store, [], fun _ => .idle⟩

/-- No edge is lost in a run whose lists are read unshared. -/
theorem reverse_edges_atomic (config : EdgeConfig P V D Tid) (store : GraphStore P V D)
    (ops : List (Nat × EdgeOp P V D))
    (unshared : Along (step config) (Unshared config) (start store) ops) :
    (ops.foldl (step config) (start store)).Atomic := by
  have started : (start store).Sound config :=
    ⟨fun _ => .inl rfl, by rintro _ _ ⟨⟩, by rintro _ _ _ _ ⟨⟩, by rintro _ _ _ _ _ _ ⟨⟩⟩
  have sound := unshared.foldl (fun _ _ sound allowed => sound.step allowed) started
  intro actor _ layer nbr _ _ chosen
  have pending := sound.unchanged actor (layer, nbr.curLayerIdx) (by rw [chosen]; rfl)
  rw [pending, chosen]
  rfl

/-- A graph of one point, whose list is empty. -/
def oneRecord : GraphStore (List Nat) Int Nat :=
  ⟨[[0]], [GraphStore.cleared (lineParams 2) .base], [], [0], some ⟨0, 0, 0⟩, [], [], false⟩

/-- Two inserts add their points, both with the neighbour 0, and link them to its record. -/
def twoInserts : List (Nat × EdgeOp (List Nat) Int Nat) :=
  [(1, .enter), (2, .enter),
    (1, .assign .base), (1, .addPoint none none [some (0, 0), none, none, none]),
    (2, .assign .base), (2, .addPoint none none [some (0, 0), none, none, none]),
    (1, .addVector 1 5), (2, .addVector 2 6),
    (1, .lock (1, 1) .base ⟨0, 0, none, 5, none⟩), (2, .lock (2, 2) .base ⟨0, 0, none, 6, none⟩),
    (1, .read), (2, .read), (1, .write)]

/-- With point locks the second insert waits for the first. -/
theorem reverse_edges_atomic_locked :
    ((twoInserts ++ [(1, EdgeOp.unlock), (2, EdgeOp.lock (2, 2) .base ⟨0, 0, none, 6, none⟩),
        (2, EdgeOp.read)]).foldl (step ⟨lineParams 2, rowList, true, fun key => key.2⟩)
      (start oneRecord)).Atomic :=
  reverse_edges_atomic _ _ _ (by decide +kernel)

/-- At run time both inserts read an empty list and choose its first slot. -/
theorem reverse_edge_lost :
    ¬ ∀ (config : EdgeConfig (List Nat) Int Nat Nat) (store : GraphStore (List Nat) Int Nat)
      (ops : List (Nat × EdgeOp (List Nat) Int Nat)),
      (ops.foldl (step config) (start store)).Atomic := by
  intro always
  have atomic := always ⟨lineParams 2, rowList, false, fun key => key.2⟩ oneRecord twoInserts
    2 (2, 2) .base ⟨0, 0, none, 6, none⟩ [none, none, none, none] 0 rfl
  exact absurd atomic (by decide +kernel)

end EdgeState
end VexDB.GraphIndex
