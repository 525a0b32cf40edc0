import TimeIds.Config
import TimeIds.Proofs.Session.Run

/-!
# The nodes of a session

A store comes by its nodes in one of three ways. Nodes that are given are checked for repeats, those
of a document are read without any, and a registry without nodes derives one; the sequences are cut
to 14 bits when the nodes become live. From then on nothing adds a node, takes one away or moves one,
and no sequence gets longer, so the check before a save never finds a repeat.

* **`Registry.storable_of_load`** – the nodes of a registry that was loaded may be stored;
* **`Session.keeps_after`** – they may be stored ever after, and their identifiers stay the same;
* **`Session.nodes_are_those_loaded`** – what this means for the requests of a session.
-/

namespace TimeIds

/-! ## Stores that there are -/

/-- How a process can come by a store. -/
inductive Store.Obtained : Store → Prop
  | given {nodes : List Node} {s : Store} (h : ofNodes nodes = .ok s) : Obtained s
  | resource (path : Option Path) (nodes : List Node) : Obtained (.resource path nodes)
  | file (f : FileStore) : Obtained (.file f)
  | configured (c : StoreConfig) : Obtained c.store

/-- A store on given nodes exists only where no identifier comes twice. -/
theorem Store.distinct_of_ofNodes {nodes : List Node} {s : Store} (h : ofNodes nodes = .ok s) :
    s = .memory nodes ∧ (nodes.map Node.id).Nodup := by
  unfold ofNodes at h
  cases hdistinct : ensureDistinct nodes with
  | error e => rw [hdistinct] at h; cases h
  | ok _ =>
    rw [hdistinct] at h
    cases h
    exact ⟨rfl, ensureDistinct_eq_ok_iff.1 hdistinct⟩

variable {σ : Type} [Disk (StateM σ)]

/-- What was loaded has no repeats: given nodes had none before, and a document is read without
any. -/
theorem Store.Loaded.distinct {s s' : Store} (h : s.Loaded s')
    (hgiven : ∀ nodes, s = .memory nodes → (nodes.map Node.id).Nodup) :
    (s'.nodes.map Node.id).Nodup := by
  cases h with
  | memory nodes => exact hgiven nodes rfl
  | resource path nodes hfound => exact hfound.distinct
  | file hpath hfound => exact hfound.distinct

/-- However a process came by a store on given nodes, they have no repeats; an environment gives
none at all. -/
theorem Store.Obtained.distinct {s : Store} (hs : s.Obtained) {nodes : List Node}
    (h : s = .memory nodes) : (nodes.map Node.id).Nodup := by
  cases hs with
  | given hgiven =>
    obtain ⟨hmemory, hdistinct⟩ := Store.distinct_of_ofNodes hgiven
    -- the check before the store is made has found none
    cases hmemory.symm.trans h
    exact hdistinct
  | resource path kept => cases h
  | file f => cases h
  | configured c =>
    unfold StoreConfig.store at h
    split at h
    · cases h
      exact List.nodup_nil
    · cases h
    · cases h

/-! ## Loading -/

namespace Registry

/-- **The nodes of a registry that was loaded may be stored.** -/
theorem storable_of_load {store : Store} (hstore : store.Obtained) {draws : Draws} {wall : Millis}
    {d d' : σ} {r : Registry}
    (h : (load store draws wall : OnDisk σ (Except IdError Registry)) d = (.ok r, d')) :
    Document.Storable r.nodes := by
  obtain ⟨loaded, hloaded, rfl⟩ := exists_store_of_load h
  have hdistinct := (Store.loaded_of_load hloaded).distinct fun _ => hstore.distinct
  exact storable_ofStore hdistinct draws wall

/-- The primary node is the first one that was loaded, or is derived where none was. -/
theorem primary_ofStore (s : Store) (draws : Draws) (wall : Millis) :
    (ofStore s draws wall).primary =
      match s.nodes with
      | [] => Node.derived draws
      | n :: _ => n.restore := by
  unfold ofStore
  cases s.nodes <;> rfl

/-- The live nodes may be stored, and have the given identifiers. -/
structure Keeps (ids : List NodeId) (r : Registry) : Prop where
  storable : Document.Storable r.nodes
  ids : r.nodes.map Node.id = ids

variable {ids : List NodeId} {r r' : Registry}

/-- A timestamp moves a node on under its identifier, and masks the sequence if it bumps it. -/
theorem Keeps.asked (h : r.Keeps ids) (i : Nat) (reading : Reading) :
    (r.asked i reading).Keeps ids := by
  by_cases hi : i < r.nodes.length
  · rw [asked_of_lt r hi]
    have hid : (r.nodes[i].step reading).id = r.nodes[i].id := Node.step_id _ _
    have hmasked : (r.nodes[i].step reading).Masked :=
      Node.masked_step (h.storable.masked _ (List.getElem_mem hi)) reading
    constructor
    · rw [nodes_set]
      exact h.storable.set hi hid hmasked
    · rw [nodes_set, Document.map_id_set hi hid]
      exact h.ids
  · rw [r.asked_of_le (Nat.not_lt.1 hi)]
    exact h

/-- A save leaves the live nodes alone. -/
theorem Keeps.effect (h : r.Keeps ids) {byHand : Prop} {d d' : σ}
    (heffect : r.Effect byHand d r' d') : r'.Keeps ids :=
  ⟨by rw [heffect.nodes]; exact h.storable, by rw [heffect.nodes]; exact h.ids⟩

/-- There is always a primary node, and its identifier comes first. -/
theorem Keeps.head? (h : r.Keeps ids) : ids.head? = some r.primary.id := by
  rw [← h.ids]
  rfl

/-! ### The check before a save -/

/-- Nodes without repeats pass the check before a save, of every kind of store. -/
theorem save_ne_invalidArgument {s : Store} {nodes : List Node}
    (hdistinct : (nodes.map Node.id).Nodup) (d : σ) (fault : ArgumentFault) :
    ((s.save nodes : OnDisk σ (Except IdError Store)) d).1 ≠ .error (.invalidArgument fault) := by
  have hok := ensureDistinct_eq_ok_iff.2 hdistinct
  cases hpath : s.path? with
  | none =>
    rw [Store.save_of_no_path hpath, hok]
    exact nofun
  | some path =>
    obtain ⟨f, rfl, -⟩ := Store.exists_file_of_path? hpath
    rw [Store.save_file, hok]
    dsimp only
    -- all that is left to fail is the file system
    cases (Disk.replaceText f.path (f.document nodes).text :
      OnDisk σ (Except FileFault Unit)) d with
    | mk outcome d' => cases outcome <;> exact nofun

/-- What is made of a result adds no failure to it. -/
theorem map_ne_error {α β : Type} {x : Except IdError α} {e : IdError} (f : α → β)
    (h : x ≠ .error e) : x.map f ≠ .error e := by
  cases x with
  | error e' => exact fun heq => h (congrArg Except.error (Except.error.inj heq))
  | ok a => exact nofun

/-- A save by hand is not refused for a repeat. -/
theorem flush_ne_invalidArgument {r : Registry} (hr : Document.Storable r.nodes) (wall : Millis)
    (d : σ) (fault : ArgumentFault) :
    ((r.flush wall : OnDisk σ (Except IdError Registry)) d).1 ≠
      .error (.invalidArgument fault) := by
  have hsave := save_ne_invalidArgument (s := r.store) hr.distinct d fault
  show ((r.store.save r.nodes : OnDisk σ (Except IdError Store)) d).1.map _ ≠ _
  exact map_ne_error _ hsave

/-- A due flush is not refused for a repeat: it writes the same identifiers under other ticks. -/
theorem flushIfDue_ne_invalidArgument {r : Registry} (hr : Document.Storable r.nodes) (now : Millis)
    (d : σ) (fault : ArgumentFault) :
    ((r.flushIfDue now : OnDisk σ (Except IdError (Bool × Registry))) d).1 ≠
      .error (.invalidArgument fault) := by
  have hpinned := storable_pinned hr (r.flushTicks now)
  have hsave := save_ne_invalidArgument (s := r.store) hpinned.distinct d fault
  unfold flushIfDue
  split
  · exact nofun
  · show ((r.store.save (pinned r.nodes (r.flushTicks now)) :
      OnDisk σ (Except IdError Store)) d).1.map _ ≠ _
    exact map_ne_error _ hsave

/-- Closing a registry is not refused for a repeat. -/
theorem close_ne_invalidArgument {r : Registry} (hr : Document.Storable r.nodes) (wall : Millis)
    (d : σ) (fault : ArgumentFault) :
    ((r.close wall : OnDisk σ (Except IdError Unit)) d).1 ≠ .error (.invalidArgument fault) := by
  have hflush := flush_ne_invalidArgument hr wall d fault
  unfold close
  split
  · exact nofun
  · show ((r.flush wall : OnDisk σ (Except IdError Registry)) d).1.map _ ≠ _
    exact map_ne_error _ hflush

end Registry

/-! ## Whole sessions -/

namespace Session

/-- **What is loaded is kept**: after any actions the nodes may be stored, and their identifiers are
those that were loaded. -/
theorem keeps_after {ids : List NodeId} {s : Session σ} (hs : s.registry.Keeps ids)
    (actions : List Action) : (s.after actions).registry.Keeps ids := by
  induction actions generalizing s with
  | nil => exact hs
  | cons a rest ih =>
    -- one timestamp and then at most one save, and both keep the nodes
    obtain ⟨i, reading, heffect⟩ := s.step_effect a
    exact ih ((hs.asked i reading).effect heffect)

/-- **The nodes of a session are those that were loaded.** However a registry came by its store, and
whatever is asked of it or of its generator: it has a node, no identifier occurs twice, the
identifiers are the ones it was opened with, in the same order, and every clock sequence has at most
14 bits. So no save is refused for a repeat, and the primary node stays the first of those loaded,
or the one that was derived where there was none. -/
theorem nodes_are_those_loaded {store : Store} (hstore : store.Obtained) {draws : Draws}
    {wall : Millis} {d₀ d : σ} {r : Registry}
    (hload : (Registry.load store draws wall : OnDisk σ (Except IdError Registry)) d₀ =
      (.ok r, d)) (actions : List Action) :
    let s := (⟨.free r, d⟩ : Session σ).after actions
    s.registry.nodes ≠ [] ∧ (s.registry.nodes.map Node.id).Nodup ∧
      s.registry.nodes.map Node.id = r.nodes.map Node.id ∧
      (∀ n ∈ s.registry.nodes, n.clockSequence ≤ clockSequenceMax) ∧
      (∀ (fault : ArgumentFault) (time : Millis),
        ((s.registry.flush time : OnDisk σ (Except IdError Registry)) s.disk).1 ≠
            .error (.invalidArgument fault) ∧
          ((s.registry.flushIfDue time : OnDisk σ (Except IdError (Bool × Registry))) s.disk).1 ≠
            .error (.invalidArgument fault) ∧
          ((s.holder.close time : OnDisk σ (Except IdError Unit)) s.disk).1 ≠
            .error (.invalidArgument fault)) ∧
      s.registry.primary.id =
        match r.store.nodes with
        | [] => draws.host.asMulticast
        | n :: _ => n.id := by
  intro s
  have hr : r.Keeps (r.nodes.map Node.id) := ⟨Registry.storable_of_load hstore hload, rfl⟩
  have hs : s.registry.Keeps (r.nodes.map Node.id) := keeps_after (s := ⟨.free r, d⟩) hr actions
  refine ⟨List.cons_ne_nil _ _, hs.storable.distinct, hs.ids, hs.storable.masked,
    fun fault time => ⟨?_, ?_, ?_⟩, ?_⟩
  · exact Registry.flush_ne_invalidArgument hs.storable time s.disk fault
  · exact Registry.flushIfDue_ne_invalidArgument hs.storable time s.disk fault
  · rw [Holder.close_eq]
    -- a generator closes the registry that it holds
    exact Registry.close_ne_invalidArgument hs.storable time s.disk fault
  · -- both primary nodes are the head of one list of identifiers
    have hprimary : s.registry.primary.id = r.primary.id :=
      Option.some.inj (hs.head?.symm.trans hr.head?)
    obtain ⟨loaded, -, rfl⟩ := Registry.exists_store_of_load hload
    rw [hprimary, Registry.primary_ofStore, Registry.store_ofStore]
    cases loaded.nodes <;> rfl

/-- Two nodes that are given, one of them under a sequence that is too long. -/
def givenNodes : List Node := [⟨⟨2, 0, 0, 0, 0, 1⟩, 10, 5⟩, ⟨⟨2, 0, 0, 0, 0, 2⟩, 3, 0xFFFF⟩]

/-- A timestamp on the second node, a save, and a generator on the first; the sequence that was too
long is cut when it becomes live. -/
theorem nodes_are_those_loaded_of_two_given :
    ∃ r, (Store.memory givenNodes).Obtained ∧
      (Registry.load (.memory givenNodes) ⟨⟨4, 0, 0, 0, 0, 1⟩, fun _ => 7⟩ 0 :
        OnTree (Except IdError Registry)) {} = (.ok r, {}) ∧
      let s := (⟨.free r, {}⟩ : Session FileTree).after
        [.ask (.issue 1 (some 3)), .ask (.flush 0), .adopt, .call ⟨some 11, 20000⟩]
      s.registry.nodes.map Node.id = r.nodes.map Node.id ∧
        s.registry.primary.id = ⟨2, 0, 0, 0, 0, 1⟩ ∧
        ∀ n ∈ s.registry.nodes, n.clockSequence ≤ clockSequenceMax := by
  have hgiven : Store.ofNodes givenNodes = .ok (.memory givenNodes) := rfl
  have hload : (Registry.load (.memory givenNodes) ⟨⟨4, 0, 0, 0, 0, 1⟩, fun _ => 7⟩ 0 :
      OnTree (Except IdError Registry)) {} = (.ok _, {}) := rfl
  obtain ⟨-, -, hids, hmasked, -, hprimary⟩ := nodes_are_those_loaded (.given hgiven) hload
    [.ask (.issue 1 (some 3)), .ask (.flush 0), .adopt, .call ⟨some 11, 20000⟩]
  exact ⟨_, .given hgiven, hload, hids, hprimary, hmasked⟩

end Session
end TimeIds
