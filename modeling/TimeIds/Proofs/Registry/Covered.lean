import TimeIds.Proofs.Node.Resumed
import TimeIds.Proofs.Registry.Run

/-!
# What a due flush covers

A due flush puts the last ticks of all nodes in the document one interval ahead of the time it is
given. That is not always past what the nodes have issued: a node may have been read from the
document with a later tick, or have been given one by a clock that runs ahead of the time. A node
whose last tick lies past the point of the flush is put back by it, and taken up again from the
document it issues that tick a second time, under the same clock sequence.

* **`Registry.flushIfDue_wrote`** – a flush that wrote left the document of the nodes, pinned;
* **`Opened.flushIfDue_covers_iff`** – it covers exactly the nodes that are not past it.
-/

namespace TimeIds

namespace Registry

variable {path : Path} {override : Option UInt64}

/-- A flush that tells that it wrote was due. -/
theorem flushIfDue_wrote {r r' : Registry} (hr : r.Writes path override) {now : Millis}
    {t t' : FileTree}
    (h : (r.flushIfDue now : OnTree (Except IdError (Bool × Registry))) t =
      (.ok (true, r'), t')) :
    t'.Holds path (Document.text ⟨some r.interval, pinned r.nodes (r.flushTicks now)⟩) := by
  have hflush := flush_flushIfDue hr now t
  rw [h] at hflush
  cases hflush with
  | wrote _ hreplace => exact FileTree.holds_of_replaceText hreplace

/-- Storable nodes in the document are found again by a registry that opens it, unless there are
none. -/
theorem load_nodes_of_holds {f : FileStore} {interval : UInt64} {nodes : List Node} {t : FileTree}
    (hholds : t.Holds f.path (Document.text ⟨some interval, nodes⟩))
    (hnodes : Document.Storable nodes) (hne : nodes ≠ []) (draws : Draws) (wall : Millis) :
    ∃ found, (load (.file f) draws wall : OnTree (Except IdError Registry)) t = (.ok found, t) ∧
      found.nodes = nodes := by
  obtain ⟨primary, others, rfl⟩ := List.exists_cons_of_ne_nil hne
  exact ⟨_, load_of_holds hholds hnodes draws wall, rfl⟩

end Registry

namespace Opened

/-- **What a due flush covers.** A registry that writes a document is asked for timestamps and saves
in any order, and then a flush of it writes. The document opens again with the live nodes, their
last ticks put at the point of the flush. Such a record covers what its node held when the registry
was opened and what it issued since, in fewer than `2 ^ 14` bumps, exactly if the live node is not
past that point. -/
theorem flushIfDue_covers_iff {f : FileStore} {draws : Draws} {wall now : Millis}
    {t t₀ t' : FileTree} {r r' : Registry} {s : Opened FileTree} {requests : List Request}
    (hload : (Registry.load (.file f) draws wall : OnTree (Except IdError Registry)) t =
      (.ok r, t₀)) (hwritable : r.isReadOnly = false)
    (hs : s = (⟨r, t₀⟩ : Opened FileTree).after requests)
    (hflush : (s.registry.flushIfDue now : OnTree (Except IdError (Bool × Registry))) s.disk =
      (.ok (true, r'), t')) (draws' : Draws) (wall' : Millis) :
    ∃ found, (Registry.load (.file f) draws' wall' : OnTree (Except IdError Registry)) t' =
        (.ok found, t') ∧
      found.nodes = Registry.pinned s.registry.nodes (s.registry.flushTicks now) ∧
      ∀ (p : Nat) (live : Node), s.registry.nodes[p]? = some live →
        ∃ n kept : Node, r.nodes[p]? = some n ∧ found.nodes[p]? = some kept ∧
          kept.clockSequence = live.clockSequence ∧
          (bumpCount (n.marks (readingsOn p requests)) < 2 ^ 14 →
            (kept.Covers (n.stamps (readingsOn p requests)) ↔
              live.lastTicks ≤ kept.lastTicks)) := by
  have hr := Registry.writes_of_load hload hwritable
  have hwrites : s.registry.Writes f.path f.override := by
    rw [hs]
    exact writes_after (s := ⟨r, t₀⟩) hr requests
  -- the flush leaves a document, and that opens with exactly the pinned nodes
  have hholds := Registry.flushIfDue_wrote hwrites hflush
  obtain ⟨found, hfound, hnodes⟩ := Registry.load_nodes_of_holds hholds
    (Registry.storable_pinned hwrites.storable _) (List.cons_ne_nil _ _) draws' wall'
  refine ⟨found, hfound, hnodes, ?_⟩
  intro p live hlive
  -- the live node is the opened one, led on by its own readings
  have hrun := getElem?_nodes_after ⟨r, t₀⟩ requests p
  rw [← hs, hlive] at hrun
  obtain ⟨n, hn, rfl⟩ := Option.map_eq_some_iff.1 hrun.symm
  refine ⟨n, { n.after (readingsOn p requests) with
    lastTicks := s.registry.flushTicks now }, hn, ?_, rfl, ?_⟩
  · rw [hnodes, Registry.pinned, List.getElem?_map, hlive]
    rfl
  · intro hfew
    exact Node.covers_iff (hr.storable.masked n (List.mem_of_getElem? hn)) hfew rfl

/-- A registry on a document that does not exist yet, opened at the time 0. -/
def onNewDocument : Registry :=
  { store := .file { path := ⟨"s.json"⟩, override := some 1000 }
    primary := ⟨⟨130, 0, 0, 0, 0, 1⟩, 0, 5⟩
    lastFlush := 0 }

/-- Where there is no document, a registry derives its node for the host. -/
theorem load_onNewDocument :
    (Registry.load (.file { path := ⟨"s.json"⟩, override := some 1000 })
      ⟨⟨2, 0, 0, 0, 0, 1⟩, fun _ => 5⟩ 0 : OnTree (Except IdError Registry)) {} =
        (.ok onNewDocument, {}) := rfl

/-- The clock steps back before a flush, but the point of the flush lies ahead of both ticks. -/
theorem flushIfDue_covers_a_step_back :
    ∃ r s r' t' found kept,
      (Registry.load (.file { path := ⟨"s.json"⟩, override := some 1000 })
          ⟨⟨2, 0, 0, 0, 0, 1⟩, fun _ => 5⟩ 0 : OnTree (Except IdError Registry)) {} =
        (.ok r, {}) ∧ r.isReadOnly = false ∧
      s = (⟨r, {}⟩ : Opened FileTree).after [.issue 0 (some 9), .issue 0 (some 7)] ∧
      (s.registry.flushIfDue 20000 : OnTree (Except IdError (Bool × Registry))) s.disk =
        (.ok (true, r'), t') ∧
      (Registry.load (.file { path := ⟨"s.json"⟩, override := some 1000 })
          ⟨⟨4, 0, 0, 0, 0, 1⟩, fun _ => 7⟩ 0 : OnTree (Except IdError Registry)) t' =
        (.ok found, t') ∧
      found.nodes[0]? = some kept ∧
      kept.Covers (r.primary.stamps [some 9, some 7]) := by
  generalize hs : (⟨onNewDocument, {}⟩ : Opened FileTree).after
    [.issue 0 (some 9), .issue 0 (some 7)] = s
  have hlive : s.registry.nodes[0]? = some ⟨⟨130, 0, 0, 0, 0, 1⟩, 7, 6⟩ := by
    rw [← hs]
    rfl
  obtain ⟨r', t', hflush⟩ : ∃ r' t', (s.registry.flushIfDue 20000 :
      OnTree (Except IdError (Bool × Registry))) s.disk = (.ok (true, r'), t') := by
    rw [← hs]
    exact ⟨_, _, rfl⟩
  obtain ⟨found, hfound, hnodes, hcovers⟩ := flushIfDue_covers_iff load_onNewDocument rfl
    hs.symm hflush ⟨⟨4, 0, 0, 0, 0, 1⟩, fun _ => 7⟩ 0
  obtain ⟨n, kept, hn, hkept, -, hiff⟩ := hcovers 0 _ hlive
  cases hn
  refine ⟨onNewDocument, s, r', t', found, kept, load_onNewDocument, rfl, hs.symm, hflush, hfound,
    hkept, (hiff (by decide)).2 ?_⟩
  rw [hnodes, ← hs] at hkept
  cases hkept
  decide

/-- The time steps back after a tick was issued, and a flush at the new time puts the node back.
Taken up from the document, the node issues the tick once more under the same sequence. -/
theorem flushIfDue_puts_back :
    ∃ r s r' t' found,
      (Registry.load (.file { path := ⟨"s.json"⟩, override := some 1000 })
          ⟨⟨2, 0, 0, 0, 0, 1⟩, fun _ => 5⟩ 0 : OnTree (Except IdError Registry)) {} =
        (.ok r, {}) ∧ r.isReadOnly = false ∧
      s = (⟨r, {}⟩ : Opened FileTree).after
        [.issue 0 (some (Ticks.ofMillis 6000000000000))] ∧
      (s.registry.flushIfDue 5000000000000 : OnTree (Except IdError (Bool × Registry))) s.disk =
        (.ok (true, r'), t') ∧
      (Registry.load (.file { path := ⟨"s.json"⟩, override := some 1000 })
          ⟨⟨4, 0, 0, 0, 0, 1⟩, fun _ => 7⟩ 0 : OnTree (Except IdError Registry)) t' =
        (.ok found, t') ∧
      found.primary.lastTicks < s.registry.primary.lastTicks ∧
      found.primary.mark (some s.registry.primary.lastTicks) =
        ⟨.ok s.registry.primary.stamp, false⟩ := by
  generalize hs : (⟨onNewDocument, {}⟩ : Opened FileTree).after
    [.issue 0 (some (Ticks.ofMillis 6000000000000))] = s
  obtain ⟨r', t', hflush⟩ : ∃ r' t', (s.registry.flushIfDue 5000000000000 :
      OnTree (Except IdError (Bool × Registry))) s.disk = (.ok (true, r'), t') := by
    rw [← hs]
    exact ⟨_, _, rfl⟩
  have hwrites : s.registry.Writes ⟨"s.json"⟩ (some 1000) := by
    rw [← hs]
    exact writes_after (s := (⟨onNewDocument, {}⟩ : Opened FileTree))
      (Registry.writes_of_load load_onNewDocument rfl) _
  have hholds := Registry.flushIfDue_wrote hwrites hflush
  obtain ⟨found, hfound, hnodes⟩ := Registry.load_nodes_of_holds
    (f := { path := ⟨"s.json"⟩, override := some 1000 }) hholds
    (Registry.storable_pinned hwrites.storable _) (List.cons_ne_nil _ _)
    ⟨⟨4, 0, 0, 0, 0, 1⟩, fun _ => 7⟩ 0
  refine ⟨onNewDocument, s, r', t', found, load_onNewDocument, rfl, hs.symm, hflush, hfound, ?_⟩
  -- the node that is found is the live one, but put back to the point of the flush
  have hprimary : found.primary = { s.registry.primary with
      lastTicks := s.registry.flushTicks 5000000000000 } := (List.cons.inj hnodes).1
  have hlt : found.primary.lastTicks < s.registry.primary.lastTicks := by
    rw [hprimary, ← hs]
    decide +kernel
  exact ⟨hlt, Node.mark_lastTicks_of_lt (by rw [hprimary]) hlt⟩

end Opened
end TimeIds
