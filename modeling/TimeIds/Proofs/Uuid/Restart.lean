import TimeIds.Proofs.Uuid.Run

/-!
# Restarts do not show

A generator may be let go at any point, by closing it or by dropping it, and another one opened on
its document. `Running.interrupted` is a run with such restarts in between, and it is compared with
the run of one generator that is never let go.

* **`Running.start_of_letGo`** – after a save that is not refused, the document opens again with all
  nodes as they were;
* **`Running.interrupted_transparent`** – the UUIDs are those of the run without restarts.
-/

namespace TimeIds

/-- How a generator is let go, when, and with which draws the next one is opened. -/
structure Restart where
  dropped : Bool
  closing : Millis
  opening : Millis
  draws : Draws

/-- What happens to a generator: a call, or a restart. -/
inductive RunEvent
  | call (c : Call)
  | restart (r : Restart)

/-- What is seen of an event: the result of a call; or, at a restart, what the last save came to,
the nodes before it, and the nodes after it if the document opened again. -/
inductive RunEntry
  | answered (result : Except IdError Uuid)
  | restarted (saved : Except IdError Unit) (before : List Node) (found : Except IdError (List Node))

/-- The call of an event, if it is one. -/
def RunEvent.call? : RunEvent → Option Call
  | call c => some c
  | restart _ => none

/-- The result in an entry, if it is that of a call. -/
def RunEntry.result? : RunEntry → Option (Except IdError Uuid)
  | answered result => some result
  | restarted .. => none

namespace Running

/-- All live nodes, in the order of the document. -/
def nodes (s : Running FileTree) : List Node := s.generator.registry.nodes

/-- What the last save comes to. Dropping a generator does not tell. -/
def saved (s : Running FileTree) (r : Restart) : Except IdError Unit :=
  ((s.generator.close r.closing : OnTree _) s.disk).1

/-- The files after a generator is closed or dropped. -/
def letGo (s : Running FileTree) (r : Restart) : FileTree :=
  if r.dropped then ((s.generator.drop r.closing : OnTree Unit) s.disk).2
  else ((s.generator.close r.closing : OnTree (Except IdError Unit)) s.disk).2

/-- A run with restarts on the document of `f`. It ends where the document does not open. -/
def interrupted (f : FileStore) : Running FileTree → List RunEvent → List RunEntry
  | _, [] => []
  | s, .call c :: rest => .answered (s.record c).result :: interrupted f (s.step c) rest
  | s, .restart r :: rest =>
    match start f r.draws r.opening (s.letGo r) with
    | .error e => [.restarted (s.saved r) s.nodes (.error e)]
    | .ok s' => .restarted (s.saved r) s.nodes (.ok s'.nodes) :: interrupted f s' rest

variable {s : Running FileTree} {f : FileStore}

/-- Dropping a generator leaves the files that closing it leaves. -/
theorem letGo_eq (s : Running FileTree) (r : Restart) :
    s.letGo r = ((s.generator.close r.closing : OnTree (Except IdError Unit)) s.disk).2 := by
  unfold letGo
  split
  · exact Registry.drop_tree _ _ _
  · rfl

/-- After a save that is not refused, the document opens again with all nodes as they were, and may
still be written. -/
theorem start_of_letGo (hs : s.Ready f.path f.override) {r : Restart}
    (hsaved : s.saved r = .ok ()) :
    ∃ s', start f r.draws r.opening (s.letGo r) = .ok s' ∧ s'.nodes = s.nodes ∧
      s'.Ready f.path f.override := by
  have hclose : (s.generator.registry.close r.closing : OnTree (Except IdError Unit)) s.disk =
      (.ok (), s.letGo r) := by
    rw [letGo_eq, ← hsaved]
    rfl
  have hholds := Registry.close_spec hs.writes hclose
  have hstart := start_of_holds hholds hs.writes.storable r.draws r.opening
  refine ⟨_, hstart, rfl, ready_of_start hstart ?_⟩
  -- the document names the interval that the generator used
  have hinterval : ({ f with documented := s.generator.registry.interval } : FileStore).interval =
      s.generator.registry.interval := hs.writes.interval_documented
  rw [← hs.writes.writable]
  exact congrArg (· == readOnlyInterval) hinterval

theorem interrupted_call (f : FileStore) (s : Running FileTree) (c : Call) (rest : List RunEvent) :
    interrupted f s (.call c :: rest) =
      .answered (s.record c).result :: interrupted f (s.step c) rest := rfl

theorem interrupted_restart (f : FileStore) (s : Running FileTree) (r : Restart)
    (rest : List RunEvent) :
    interrupted f s (.restart r :: rest) =
      match start f r.draws r.opening (s.letGo r) with
      | .error e => [.restarted (s.saved r) s.nodes (.error e)]
      | .ok s' => .restarted (s.saved r) s.nodes (.ok s'.nodes) :: interrupted f s' rest := by
  rfl

/-- A restart tells what the last save came to, whether or not the document opens again. -/
theorem exists_restarted_mem (s : Running FileTree) (f : FileStore) (r : Restart)
    (rest : List RunEvent) :
    ∃ found, .restarted (s.saved r) s.nodes found ∈ interrupted f s (.restart r :: rest) := by
  rw [interrupted_restart]
  split
  · exact ⟨_, List.mem_singleton_self _⟩
  · exact ⟨_, List.mem_cons_self⟩

variable {saved : Except IdError Unit} {before : List Node} {found : Except IdError (List Node)}

/-- A call is no restart, so the restarts of a run are those after it. -/
theorem mem_interrupted_call {c : Call} {rest : List RunEvent} :
    .restarted saved before found ∈ interrupted f s (.call c :: rest) ↔
      .restarted saved before found ∈ interrupted f (s.step c) rest := by
  rw [interrupted_call, List.mem_cons]
  exact or_iff_right (by simp)

/-- A restart of a run is its first one, or comes after the document opened again. -/
theorem mem_interrupted_restart {r : Restart} {rest : List RunEvent}
    (h : .restarted saved before found ∈ interrupted f s (.restart r :: rest)) :
    saved = s.saved r ∨ ∃ s', start f r.draws r.opening (s.letGo r) = .ok s' ∧
      .restarted saved before found ∈ interrupted f s' rest := by
  rw [interrupted_restart] at h
  cases hstart : start f r.draws r.opening (s.letGo r) with
  | error e =>
    rw [hstart] at h
    cases List.mem_singleton.1 h
    exact .inl rfl
  | ok s' =>
    rw [hstart] at h
    rcases List.mem_cons.1 h with h | h
    · cases h
      exact .inl rfl
    · exact .inr ⟨s', rfl, h⟩

/-- Induction over the events. The run without restarts may be in another state, but its primary
node is the same. -/
theorem interrupted_eq (hs : s.Ready f.path f.override) {s' : Running FileTree}
    (hprimary : s.primary = s'.primary) (events : List RunEvent)
    (hsaved : ∀ saved before found,
      .restarted saved before found ∈ interrupted f s events → saved = .ok ()) :
    (interrupted f s events).filterMap RunEntry.result? =
        (s'.records (events.filterMap RunEvent.call?)).map CallRecord.result ∧
      ∀ saved before found,
        .restarted saved before found ∈ interrupted f s events → found = .ok before := by
  induction events generalizing s s' with
  | nil => exact ⟨rfl, fun _ _ _ h => absurd h List.not_mem_nil⟩
  | cons e rest ih =>
    cases e with
    | call c =>
      -- both primary nodes move on with the same reading, whatever the flushes come to
      have hstep : (s.step c).primary = (s'.step c).primary := by
        rw [primary_step, primary_step, hprimary]
      obtain ⟨hresults, hfound⟩ := ih (hs.step c) hstep
        (fun saved before found h => hsaved saved before found (mem_interrupted_call.2 h))
      constructor
      · have hresult : (s.record c).result = (s'.record c).result := by
          rw [result_record, result_record, hprimary]
        rw [interrupted_call]
        show (s.record c).result :: _ = (s'.record c).result :: _
        rw [hresult]
        exact congrArg _ hresults
      · intro saved before found h
        exact hfound saved before found (mem_interrupted_call.1 h)
    | restart r =>
      obtain ⟨found, hentry⟩ := exists_restarted_mem s f r rest
      have hsave := hsaved _ _ found hentry
      -- the save succeeded, so the document opens again with the nodes as they were
      obtain ⟨s₁, hstart, hnodes, hs₁⟩ := start_of_letGo hs hsave
      rw [interrupted_restart, hstart] at hsaved ⊢
      -- the run without restarts does nothing here
      have hprimary₁ : s₁.primary = s'.primary := by
        rw [← hprimary]
        exact (List.cons.inj hnodes).1
      obtain ⟨hresults, hfound⟩ := ih hs₁ hprimary₁
        (fun saved before found h => hsaved saved before found (List.mem_cons_of_mem _ h))
      refine ⟨hresults, ?_⟩
      intro saved before found h
      rcases List.mem_cons.1 h with h | h
      · cases h
        rw [hnodes]
      · exact hfound saved before found h

/-- **Restarts do not show.** A generator that writes a document is let go and opened again at any
points between its calls, under any draws. If the last save before each restart succeeds, every
restart finds all nodes as they were, in the same order, and the UUIDs are those of the generator
that is never let go. -/
theorem interrupted_transparent {draws : Draws} {wall : Millis} {t : FileTree}
    (hstart : start f draws wall t = .ok s)
    (hwritable : s.generator.registry.isReadOnly = false) (events : List RunEvent)
    (hsaved : ∀ saved before found,
      .restarted saved before found ∈ interrupted f s events → saved = .ok ()) :
    (interrupted f s events).filterMap RunEntry.result? =
        (s.records (events.filterMap RunEvent.call?)).map CallRecord.result ∧
      ∀ saved before found,
        .restarted saved before found ∈ interrupted f s events → found = .ok before :=
  interrupted_eq (ready_of_start hstart hwritable) rfl events hsaved

/-- A generator on a new document: a call that flushes, a restart, and another call. -/
theorem interrupted_transparent_after_a_flush :
    ∃ s, start { path := ⟨"s.json"⟩ } ⟨⟨2, 0, 0, 0, 0, 1⟩, fun _ => 5⟩ 0 ({} : FileTree) =
        .ok s ∧
      (interrupted { path := ⟨"s.json"⟩ } s [.call ⟨some 7, 20000⟩,
          .restart ⟨false, 20000, 20000, ⟨⟨4, 0, 0, 0, 0, 1⟩, fun _ => 7⟩⟩,
          .call ⟨some 7, 20000⟩]).filterMap RunEntry.result? =
        (s.records [⟨some 7, 20000⟩, ⟨some 7, 20000⟩]).map CallRecord.result ∧
      ∀ saved before found, .restarted saved before found ∈
        interrupted { path := ⟨"s.json"⟩ } s [.call ⟨some 7, 20000⟩,
          .restart ⟨false, 20000, 20000, ⟨⟨4, 0, 0, 0, 0, 1⟩, fun _ => 7⟩⟩,
          .call ⟨some 7, 20000⟩] → found = .ok before := by
  have hstart : start { path := ⟨"s.json"⟩ } ⟨⟨2, 0, 0, 0, 0, 1⟩, fun _ => 5⟩ 0 ({} : FileTree) =
      .ok ⟨.ofRegistry ⟨.file { path := ⟨"s.json"⟩ }, ⟨⟨130, 0, 0, 0, 0, 1⟩, 0, 5⟩, [], 0⟩, {}⟩ :=
    rfl
  generalize hs : (⟨.ofRegistry ⟨.file { path := ⟨"s.json"⟩ }, ⟨⟨130, 0, 0, 0, 0, 1⟩, 0, 5⟩, [],
    0⟩, {}⟩ : Running FileTree) = s at hstart
  have hsave : (s.step ⟨some 7, 20000⟩).saved
      ⟨false, 20000, 20000, ⟨⟨4, 0, 0, 0, 0, 1⟩, fun _ => 7⟩⟩ = .ok () := by
    subst hs
    rfl
  refine ⟨s, hstart, interrupted_transparent hstart (by subst hs; rfl) _ ?_⟩
  intro saved before found h
  rcases mem_interrupted_restart (mem_interrupted_call.1 h) with rfl | ⟨s', -, h⟩
  · exact hsave
  · exact absurd (mem_interrupted_call.1 h) (List.not_mem_nil)

end Running
end TimeIds
