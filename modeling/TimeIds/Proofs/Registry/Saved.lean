import TimeIds.Registry
import TimeIds.Proofs.Store.Load

/-!
# Saving the nodes of a registry and loading them again

A registry that writes a document keeps its nodes storable, whatever it does. A save that is not
refused leaves the document of the nodes in the file, under the interval that the registry uses, and
leaves the live nodes alone; a document in the file loads with exactly its nodes.

* **`Registry.close_spec`**, **`Registry.flushIfDue_spec`** – what the two ways of saving leave in
  the file;
* **`Registry.flush_flushIfDue`** – all that a request to flush can come to;
* **`Registry.writes_of_load`** – a registry that was loaded keeps writing its document;
* **`Registry.load_of_holds`** – what was saved is loaded again.
-/

namespace TimeIds
namespace Registry

/-- A registry that writes the document at `path`, under the interval that `override` puts before
that of the document. -/
structure Writes (r : Registry) (path : Path) (override : Option UInt64) : Prop where
  store : ∃ f, r.store = .file f ∧ f.path = path ∧ f.override = override
  writable : r.isReadOnly = false
  storable : Document.Storable r.nodes

variable {path : Path} {override : Option UInt64} {σ : Type} [Disk (StateM σ)]

/-- The nodes with their last ticks all at one point. -/
def pinned (nodes : List Node) (ticks : Ticks) : List Node :=
  nodes.map fun n => { n with lastTicks := ticks }

/-- Other ticks make no repeats, and no sequence longer. -/
theorem storable_pinned {nodes : List Node} (hnodes : Document.Storable nodes) (ticks : Ticks) :
    Document.Storable (pinned nodes ticks) := by
  constructor
  · have hids : (pinned nodes ticks).map Node.id = nodes.map Node.id := by
      unfold pinned
      rw [List.map_map]
      rfl
    rw [hids]
    exact hnodes.distinct
  · intro n hn
    obtain ⟨n', hn', rfl⟩ := List.mem_map.1 hn
    exact hnodes.masked n' hn'

/-- The registry after `nodes` were saved at a time. -/
def resaved (r : Registry) (nodes : List Node) (time : Millis) : Registry :=
  { r with store := r.store.holding nodes, lastFlush := time }

/-- A save does not change the time between flushes. -/
@[simp] theorem resaved_interval (r : Registry) (nodes : List Node) (time : Millis) :
    (r.resaved nodes time).interval = r.interval := r.store.interval_holding nodes

/-- A registry that was saved writes the same document as before. -/
theorem Writes.resaved {r : Registry} (hr : r.Writes path override) (nodes : List Node)
    (time : Millis) : (r.resaved nodes time).Writes path override := by
  obtain ⟨f, hstore, hpath, hoverride⟩ := hr.store
  refine ⟨⟨{ f with nodes }, ?_, hpath, hoverride⟩, ?_, hr.storable⟩
  · unfold Registry.resaved
    rw [hstore]
    rfl
  · rw [← hr.writable]
    unfold isReadOnly Store.isReadOnly
    rw [show (r.resaved nodes time).store.interval = r.store.interval from
      r.store.interval_holding nodes]

/-! ### Nodes by position -/

/-- Positions count the primary node first, and then the others. -/
theorem nodes_set (r : Registry) (i : Nat) (n : Node) : (r.set i n).nodes = r.nodes.set i n := by
  cases i <;> rfl

/-- The live nodes are not those of the store. -/
theorem store_set (r : Registry) (i : Nat) (n : Node) : (r.set i n).store = r.store := by
  cases i <;> rfl

theorem set_getElem (r : Registry) {i : Nat} (hi : i < r.nodes.length) :
    r.set i r.nodes[i] = r := by
  cases i with
  | zero => rfl
  | succ i =>
    have hi : i < r.others.length := Nat.lt_of_succ_lt_succ hi
    show { r with others := r.others.set i r.others[i] } = r
    rw [List.set_getElem_self]

/-- A registry goes on writing its document with another state of one of its nodes. -/
theorem Writes.set {r : Registry} (hr : r.Writes path override) {i : Nat} (hi : i < r.nodes.length)
    {n : Node} (hid : n.id = r.nodes[i].id) (hmasked : n.Masked) :
    (r.set i n).Writes path override := by
  refine ⟨?_, ?_, ?_⟩
  · rw [store_set]
    exact hr.store
  · rw [← hr.writable]
    unfold isReadOnly
    rw [store_set]
  · rw [nodes_set]
    exact hr.storable.set hi hid hmasked

/-! ### Saves -/

/-- A store that reads the interval of a registry on the same document has that interval. -/
theorem Writes.interval_documented {r : Registry} {f : FileStore}
    (hr : r.Writes f.path f.override) :
    ({ f with documented := r.interval } : FileStore).interval = r.interval := by
  obtain ⟨f', hstore, -, hoverride⟩ := hr.store
  have hinterval : r.interval = f'.interval := by
    unfold interval
    rw [hstore]
    rfl
  unfold FileStore.interval at hinterval ⊢
  rw [hoverride] at hinterval
  show f.override.getD r.interval = r.interval
  -- an interval that goes first hides the documented one; otherwise that is the interval itself
  cases hover : f.override with
  | none => rfl
  | some n =>
    rw [hinterval, hover]
    rfl

/-- What a save that is not refused comes to. -/
theorem save_spec {r : Registry} (hr : r.Writes path override) {nodes : List Node}
    {t t' : FileTree} {s : Store}
    (h : (r.store.save nodes : OnTree (Except IdError Store)) t = (.ok s, t')) :
    s = r.store.holding nodes ∧ t'.Holds path (Document.text ⟨some r.interval, nodes⟩) := by
  obtain ⟨f, hstore, rfl, -⟩ := hr.store
  unfold interval
  rw [hstore] at h ⊢
  exact Store.save_spec h

/-- A save by hand that is not refused leaves the nodes in the file as they are. -/
theorem flush_spec {r r' : Registry} (hr : r.Writes path override) {wall : Millis}
    {t t' : FileTree} (h : (r.flush wall : OnTree (Except IdError Registry)) t = (.ok r', t')) :
    r' = r.resaved r.nodes wall ∧ t'.Holds path (Document.text ⟨some r.interval, r.nodes⟩) := by
  unfold flush at h
  rw [OnDisk.bind_apply] at h
  cases hsave : (r.store.save r.nodes : OnTree _) t with
  | mk outcome t₁ =>
    rw [hsave] at h
    cases outcome with
    | error e => cases h
    | ok s =>
      cases h
      obtain ⟨rfl, hholds⟩ := save_spec hr hsave
      exact ⟨rfl, hholds⟩

/-- Closing a registry leaves the document of its nodes in the file. -/
theorem close_spec {r : Registry} (hr : r.Writes path override) {wall : Millis} {t t' : FileTree}
    (h : (r.close wall : OnTree (Except IdError Unit)) t = (.ok (), t')) :
    t'.Holds path (Document.text ⟨some r.interval, r.nodes⟩) := by
  unfold close at h
  rw [hr.writable, if_neg Bool.false_ne_true, OnDisk.bind_apply] at h
  cases hflush : (r.flush wall : OnTree _) t with
  | mk outcome t₁ =>
    rw [hflush] at h
    cases outcome with
    | error e => cases h
    | ok r' =>
      cases h
      exact (flush_spec hr hflush).2

/-- Dropping a registry does to the files what closing it does. -/
theorem drop_tree (r : Registry) (wall : Millis) (t : FileTree) :
    ((r.drop wall : OnTree Unit) t).2 = ((r.close wall : OnTree (Except IdError Unit)) t).2 := rfl

/-! ### Due flushes -/

/-- The point an interval later, counted in milliseconds. Both the interval and the sum are cut to
63 bits. -/
theorem toInt_after (now : Millis) (interval : UInt64) :
    (after now interval).toInt =
      min (now.toInt + min interval.toNat (2 ^ 63 - 1)) (2 ^ 63 - 1) := by
  have hlow := now.le_toInt
  unfold after
  exact Int64.toInt_ofInt_of_le (by omega) (by omega)

/-- A registry that may be written is due an interval after its last save. -/
theorem Writes.nextFlush_eq {r : Registry} (hr : r.Writes path override) :
    r.nextFlush = after r.lastFlush r.interval := by
  unfold nextFlush
  rw [hr.writable, if_neg Bool.false_ne_true]

theorem le_after (now : Millis) (interval : UInt64) : now ≤ after now interval := by
  have hhigh := now.toInt_lt
  rw [Int64.le_iff_toInt_le, toInt_after]
  omega

/-- A flush that is not due does nothing. -/
theorem flushIfDue_of_not_due {r : Registry} {now : Millis}
    (hdue : now < r.nextFlush) (d : σ) :
    (r.flushIfDue now : OnDisk σ (Except IdError (Bool × Registry))) d = (.ok (false, r), d) := by
  unfold flushIfDue
  rw [if_pos (by simp [hdue])]
  rfl

/-- The document that a flush at `now` writes. -/
def flushDocument (r : Registry) (now : Millis) : Document :=
  ⟨some r.interval, pinned r.nodes (r.flushTicks now)⟩

/-- What a request to flush at `now` comes to, where the document is at `path`. -/
inductive Flush (r : Registry) (path : Path) (now : Millis) (d : σ) :
    Except IdError (Bool × Registry) × σ → Prop
  | quiet (hdue : now < r.nextFlush) : Flush r path now d (.ok (false, r), d)
  | refused (hdue : ¬now < r.nextFlush) {fault : FileFault} {d' : σ}
      (hreplace : (Disk.replaceText path (r.flushDocument now).text :
        OnDisk σ (Except FileFault Unit)) d = (.error fault, d')) :
      Flush r path now d (.error (.file fault), d')
  | wrote (hdue : ¬now < r.nextFlush) {d' : σ}
      (hreplace : (Disk.replaceText path (r.flushDocument now).text :
        OnDisk σ (Except FileFault Unit)) d = (.ok (), d')) :
      Flush r path now d (.ok (true, r.resaved (r.flushDocument now).nodes now), d')

/-- A due flush replaces the document. -/
theorem Writes.saveAt_eq {r : Registry} (hr : r.Writes path override) (now : Millis) (d : σ) :
    (r.store.saveAt r.nodes (r.flushTicks now) : OnDisk σ (Except IdError Store)) d =
      match (Disk.replaceText path (r.flushDocument now).text :
        OnDisk σ (Except FileFault Unit)) d with
      | (.error fault, d') => (.error (.file fault), d')
      | (.ok (), d') => (.ok (r.store.holding (r.flushDocument now).nodes), d') := by
  obtain ⟨f, hstore, rfl, -⟩ := hr.store
  have hdistinct := (storable_pinned hr.storable (r.flushTicks now)).distinct
  -- the interval that the store writes is the one that the registry goes by
  have hdocument : f.document (pinned r.nodes (r.flushTicks now)) = r.flushDocument now := by
    unfold flushDocument interval
    rw [hstore]
    rfl
  show (r.store.save (pinned r.nodes (r.flushTicks now)) : OnDisk σ (Except IdError Store)) d = _
  rw [hstore, Store.save_file, ensureDistinct_eq_ok_iff.2 hdistinct]
  dsimp only
  rw [hdocument]
  rfl

/-- **What a request to flush comes to.** -/
theorem flush_flushIfDue {r : Registry} (hr : r.Writes path override) (now : Millis) (d : σ) :
    r.Flush path now d ((r.flushIfDue now : OnDisk σ (Except IdError (Bool × Registry))) d) := by
  by_cases hdue : now < r.nextFlush
  · rw [flushIfDue_of_not_due hdue]
    exact .quiet hdue
  · unfold flushIfDue
    rw [if_neg (by simp [hr.writable, hdue]), OnDisk.bind_apply, hr.saveAt_eq]
    cases hreplace : (Disk.replaceText path (r.flushDocument now).text :
      OnDisk σ (Except FileFault Unit)) d with
    | mk outcome d' =>
      cases outcome with
      | error fault => exact .refused hdue hreplace
      | ok _ => exact .wrote hdue hreplace

/-- A due flush that is not refused leaves the nodes in the file one interval ahead. -/
theorem flushIfDue_spec {r r' : Registry} (hr : r.Writes path override) {now : Millis}
    (hdue : ¬now < r.nextFlush) {wrote : Bool} {t t' : FileTree}
    (h : (r.flushIfDue now : OnTree (Except IdError (Bool × Registry))) t =
      (.ok (wrote, r'), t')) :
    wrote = true ∧ r' = r.resaved (pinned r.nodes (r.flushTicks now)) now ∧
      t'.Holds path (Document.text ⟨some r.interval, pinned r.nodes (r.flushTicks now)⟩) := by
  have hflush := flush_flushIfDue hr now t
  rw [h] at hflush
  cases hflush with
  | quiet hearly => exact absurd hearly hdue
  -- on a tree a replacement that is not refused leaves the text
  | wrote _ hreplace => exact ⟨rfl, rfl, FileTree.holds_of_replaceText hreplace⟩

/-! ### Loading -/

/-- A registry that was loaded is that of a store that was. -/
theorem exists_store_of_load {store : Store} {draws : Draws}
    {wall : Millis} {r : Registry} {d d' : σ}
    (h : (load store draws wall : OnDisk σ (Except IdError Registry)) d = (.ok r, d')) :
    ∃ loaded, (store.load draws.sequence : OnDisk σ (Except IdError Store)) d = (.ok loaded, d') ∧
      r = ofStore loaded draws wall := by
  unfold load at h
  rw [OnDisk.bind_apply] at h
  cases hload : (store.load draws.sequence : OnDisk σ (Except IdError Store)) d with
  | mk outcome d₁ =>
    rw [hload] at h
    cases outcome with
    | error e => cases h
    | ok loaded =>
      cases h
      exact ⟨loaded, rfl, rfl⟩

/-- Storable nodes become live as they are. -/
theorem map_restore {nodes : List Node} (hnodes : Document.Storable nodes) :
    nodes.map Node.restore = nodes := by
  rw [List.map_congr_left fun n hn => Node.restore_of_masked (hnodes.masked n hn), List.map_id']

theorem map_id_restore (nodes : List Node) :
    (nodes.map Node.restore).map Node.id = nodes.map Node.id := by
  rw [List.map_map]
  rfl

/-- A registry has the nodes of its store, or one of its own where the store has none. Whatever the
sequences in the store, they are cut to 14 bits. -/
theorem storable_ofStore {s : Store} (hdistinct : (s.nodes.map Node.id).Nodup) (draws : Draws)
    (wall : Millis) : Document.Storable (ofStore s draws wall).nodes := by
  rw [← map_id_restore] at hdistinct
  unfold ofStore
  split
  -- the node derived for the host is alone, and its draw is masked
  · refine ⟨by simp [nodes], fun n hn => ?_⟩
    rw [List.mem_singleton.1 hn]
    exact Node.maskSequence_le _
  · next primary others heq =>
    refine ⟨by rwa [heq] at hdistinct, fun n hn => ?_⟩
    have hn : n ∈ s.nodes.map Node.restore := by rwa [heq]
    obtain ⟨n', -, rfl⟩ := List.mem_map.1 hn
    exact n'.masked_restore

/-- A registry keeps the store that it was made of, also where it derives a node that the store has
not. -/
theorem store_ofStore (s : Store) (draws : Draws) (wall : Millis) :
    (ofStore s draws wall).store = s := by
  unfold ofStore
  split <;> rfl

/-- A registry is on the document that its store was on before it was loaded. -/
theorem path?_of_load {store : Store} {draws : Draws} {wall : Millis} {r : Registry} {d d' : σ}
    (h : (load store draws wall : OnDisk σ (Except IdError Registry)) d = (.ok r, d')) :
    r.store.path? = store.path? := by
  obtain ⟨loaded, hloaded, rfl⟩ := exists_store_of_load h
  rw [store_ofStore, (Store.loaded_of_load hloaded).path?]

/-- A registry loaded from a document that may be written goes on writing it. -/
theorem writes_of_load {f : FileStore} {draws : Draws} {wall : Millis}
    {d d' : σ} {r : Registry}
    (h : (load (.file f) draws wall : OnDisk σ (Except IdError Registry)) d = (.ok r, d'))
    (hwritable : r.isReadOnly = false) : r.Writes f.path f.override := by
  obtain ⟨loaded, hloaded, rfl⟩ := exists_store_of_load h
  cases Store.sameDocument_of_load hloaded with
  | @file _ f' hpath hoverride =>
    -- loading kept the document, and gave nodes that may be stored in it
    cases Store.loaded_of_load hloaded with
    | file _ hfound =>
      have hstorable := storable_ofStore (s := .file f') hfound.distinct draws wall
      exact ⟨⟨f', store_ofStore _ _ _, hpath, hoverride⟩, hwritable, hstorable⟩

/-- A document whose nodes are storable loads with exactly these nodes, whatever the draws. -/
theorem load_of_holds {f : FileStore} {interval : UInt64} {primary : Node} {others : List Node}
    {t : FileTree} (hholds : t.Holds f.path (Document.text ⟨some interval, primary :: others⟩))
    (hnodes : Document.Storable (primary :: others)) (draws : Draws) (wall : Millis) :
    (load (.file f) draws wall : OnTree (Except IdError Registry)) t =
      (.ok ⟨.file { f with documented := interval, nodes := primary :: others }, primary, others,
        wall⟩, t) := by
  have hlive : ofStore (.file (f.loaded ⟨some interval, primary :: others⟩)) draws wall =
      ⟨.file { f with documented := interval, nodes := primary :: others }, primary, others,
        wall⟩ := by
    have hrestore : (Store.file (f.loaded ⟨some interval, primary :: others⟩)).nodes.map
        Node.restore = primary :: others := map_restore hnodes
    unfold ofStore
    rw [hrestore]
    rfl
  unfold load
  rw [OnDisk.bind_apply, Store.load_of_holds hholds hnodes]
  show (Except.ok (ofStore _ draws wall), t) = _
  rw [hlive]

end Registry
end TimeIds
