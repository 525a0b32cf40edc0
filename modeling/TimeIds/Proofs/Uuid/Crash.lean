import TimeIds.Clock.Manual
import TimeIds.Proofs.Node.Resumed
import TimeIds.Proofs.Uuid.Run

/-!
# A crash between flushes

A due flush writes the nodes with their last ticks one interval ahead. A generator that ends without
being closed leaves that document behind, and another one takes the nodes up from there. While the
generator lives and does not bump the sequence of its primary node, the document stays ahead of what
is issued: the next flush is due before the clock can pass it.

* **`ManualClock.inTime_calls`** – under a clock moved by hand no tick is ahead of the time;
* **`Running.ahead_of_flush`**, **`Running.Ahead.step`** – a flush puts the document ahead, and calls
  keep it there;
* **`Running.reopened_disjoint`** – the runs before and after a crash have no timestamp in common.
-/

namespace TimeIds

/-! ## Calls under a clock moved by hand -/

/-- What happens to a clock that a generator reads: it is moved, or a UUID is asked for. -/
inductive ClockEvent
  | set (millis : Millis)
  | advance (delta : Millis)
  | call

namespace ManualClock

/-- The calls among the events, with what the clock shows at each. -/
def calls : ManualClock → List ClockEvent → List Call
  | _, [] => []
  | c, .set millis :: rest => (c.setMillis millis).calls rest
  | c, .advance delta :: rest => (c.advance delta).calls rest
  | c, .call :: rest => ⟨c.reading, c.millis⟩ :: c.calls rest

end ManualClock

/-- The tick of a call is not ahead of its time. -/
def Call.InTime (c : Call) : Prop := ∀ ticks ∈ c.reading, ticks ≤ Ticks.ofMillis c.now

/-- Moving the time moves the tick with it, so no call gets a tick ahead of its time. -/
theorem ManualClock.inTime_calls {clock : ManualClock}
    (hclock : clock.ticks ≤ Ticks.ofMillis clock.millis) (events : List ClockEvent) :
    ∀ c ∈ clock.calls events, c.InTime := by
  induction events generalizing clock with
  | nil => simp [calls]
  | cons e rest ih =>
    cases e with
    | set millis => exact ih (UInt64.le_refl _)
    | advance delta => exact ih (UInt64.le_refl _)
    | call =>
      intro c hc
      rcases List.mem_cons.1 hc with rfl | hc
      · intro ticks hticks
        unfold reading at hticks
        split at hticks
        · cases hticks
        · cases hticks
          exact hclock
      · exact ih hclock c hc

/-! ## The file is ahead of what is issued -/

namespace Running

variable {s : Running FileTree} {path : Path} {override : Option UInt64} {c : Call}

/-- The file holds the nodes under their clock sequences, with all last ticks at the time the next
flush is due, and the primary node is not past it. -/
structure Ahead (s : Running FileTree) (path : Path) : Prop where
  holds : s.disk.Holds path (Document.text ⟨some s.generator.registry.interval,
    Registry.pinned s.generator.registry.nodes (Ticks.ofMillis s.generator.nextFlush)⟩)
  lastTicks_le : s.primary.lastTicks ≤ Ticks.ofMillis s.generator.nextFlush

/-- A call that flushes puts the file ahead. -/
theorem ahead_of_flush (hs : s.Ready path override) (hc : c.InTime)
    (hflush : s.flush c = some (.ok true)) : (s.step c).Ahead path := by
  obtain ⟨⟨ticks, hreading⟩, -, -⟩ := flush_eq_some hflush
  obtain ⟨-, hgenerator, hholds⟩ := step_of_flush_ok hs hflush
  -- the tick just issued is at most that of the present, and the deadline lies an interval later
  have hlast : (s.step c).primary.lastTicks = ticks := by
    rw [primary_step, hreading, Node.step_some]
  have hnext : (s.step c).generator.nextFlush =
      Registry.after c.now s.generator.registry.interval := by
    have hwrites := (UuidGenerator.writes_issued hs.writes c.reading).resaved
      (Registry.pinned (s.generator.issued c.reading).registry.nodes
        (s.generator.registry.flushTicks c.now)) c.now
    rw [hgenerator]
    show Registry.nextFlush _ = _
    rw [hwrites.nextFlush_eq, Registry.resaved_interval]
    rfl
  constructor
  · rw [hnext, hgenerator]
    show FileTree.Holds _ path (Document.text ⟨some (Registry.interval (Registry.resaved _ _ _)), _⟩)
    rw [Registry.resaved_interval]
    exact hholds
  · rw [hlast, hnext]
    exact UInt64.le_trans (hc ticks (by rw [hreading]; rfl))
      (Ticks.ofMillis_mono (Registry.le_after _ _))

/-- A call keeps the file ahead, if it does not bump the sequence and no flush of it fails. -/
theorem Ahead.step (hahead : s.Ahead path) (hs : s.Ready path override) (hc : c.InTime)
    (hflush : ∀ e, s.flush c ≠ some (.error e)) (hquiet : (s.record c).bumped = false) :
    (s.step c).Ahead path := by
  cases hreading : c.reading with
  | none =>
    rw [step_none hreading]
    exact hahead
  | some ticks =>
    by_cases hdue : c.now < s.generator.nextFlush
    · -- before the next flush is due, the tick is at most that of the due time
      have hprimary : s.primary.step c.reading = { s.primary with lastTicks := ticks } := by
        have hbumps : s.primary.bumps c.reading = false := hquiet
        rw [hreading] at hbumps ⊢
        rw [Node.step_some, hbumps, if_neg Bool.false_ne_true]
      rw [step_of_not_due hreading hdue]
      constructor
      · show s.disk.Holds path (Document.text ⟨_, Registry.pinned (s.primary.step c.reading ::
          s.generator.registry.others) (Ticks.ofMillis s.generator.nextFlush)⟩)
        rw [hprimary]
        exact hahead.holds
      · show (s.primary.step c.reading).lastTicks ≤ Ticks.ofMillis s.generator.nextFlush
        rw [hprimary]
        exact UInt64.le_trans (hc ticks (by rw [hreading]; rfl))
          (Ticks.ofMillis_mono (Int64.le_of_lt hdue))
    · have hdone := flush_of_due hreading hdue
      cases htried : (s.tried c).1 with
      | error e =>
        rw [htried] at hdone
        exact absurd hdone (hflush e)
      | ok flushed =>
        rw [htried] at hdone
        have hwrote := (step_of_flush_ok hs hdone).1
        refine ahead_of_flush hs hc ?_
        rw [hdone]
        exact congrArg (some ∘ Except.ok) hwrote

/-- From a flush on, a run without bumps and without failing flushes keeps the file ahead. -/
theorem Ahead.after (hahead : s.Ahead path) (hs : s.Ready path override) {calls : List Call}
    (hcalls : ∀ c ∈ calls, c.InTime)
    (hflushes : ∀ r ∈ s.records calls, ∀ e, r.flush ≠ some (.error e))
    (hquiet : bumpCount ((s.records calls).map CallRecord.toMark) = 0) :
    (s.after calls).Ahead path := by
  induction calls generalizing s with
  | nil => exact hahead
  | cons c rest ih =>
    rw [records] at hflushes hquiet
    rw [List.map_cons, bumpCount_cons_eq_zero] at hquiet
    have hstep := hahead.step hs (hcalls c (by simp)) (hflushes (s.record c) (by simp)) hquiet.1
    exact ih hstep (hs.step c) (fun c' hc' => hcalls c' (by simp [hc']))
      (fun r hr => hflushes r (by simp [hr])) hquiet.2

/-! ## Opening the file again -/

/-- The nodes at the end of a run after a flush, as they are found in the file. -/
theorem Ahead.start (hahead : s.Ahead path) (hs : s.Ready path override)
    (override' : Option UInt64) (draws : Draws) (wall : Millis) :
    ∃ s', start { path, override := override' } draws wall s.disk = .ok s' ∧
      s'.primary = { s.primary with lastTicks := Ticks.ofMillis s.generator.nextFlush } := by
  have hnodes := Registry.storable_pinned hs.writes.storable (Ticks.ofMillis s.generator.nextFlush)
  exact ⟨_, start_of_holds hahead.holds hnodes draws wall, rfl⟩

/-- **A crash between flushes costs no timestamp.** A generator that writes a document runs under a
clock moved by hand; every due flush succeeds, and after one of them the sequence is not bumped any
more. If the run ends there, the file opens again, and the primary node issues nothing that it
issued before, however the second clock runs, as long as both runs together make fewer than `2 ^ 14`
bumps. -/
theorem reopened_disjoint {override' : Option UInt64} {draws draws' : Draws} {wall wall' : Millis}
    {t : FileTree} (hstart : start { path, override } draws wall t = .ok s)
    (hwritable : s.generator.registry.isReadOnly = false) {clock : ManualClock}
    (hclock : clock = {} ∨ ∃ millis, clock = .startingAt millis) (events : List ClockEvent)
    (hflushes : ∀ r ∈ s.records (clock.calls events), ∀ e, r.flush ≠ some (.error e))
    {before later : List CallRecord} {r : CallRecord}
    (hrecords : s.records (clock.calls events) = before ++ r :: later)
    (hflushed : r.flush = some (.ok true))
    (hquiet : bumpCount (later.map CallRecord.toMark) = 0) :
    ∃ s', start { path, override := override' } draws' wall' (s.after (clock.calls events)).disk =
        .ok s' ∧
      s'.primary.id = s.primary.id ∧
      ∀ calls, bumpCount ((s.records (clock.calls events)).map CallRecord.toMark) +
          bumpCount ((s'.records calls).map CallRecord.toMark) < 2 ^ 14 →
        ∀ m ∈ s.records (clock.calls events), ∀ m' ∈ s'.records calls, ∀ a b,
          m.outcome = .ok a → m'.outcome = .ok b → a ≠ b := by
  have hticks : clock.ticks ≤ Ticks.ofMillis clock.millis := by
    rcases hclock with rfl | ⟨millis, rfl⟩
    · decide
    · exact UInt64.le_refl _
  have hcalls := ManualClock.inTime_calls hticks events
  have hs := ready_of_start hstart hwritable
  generalize clock.calls events = calls at *
  -- at the end of the run the file is ahead
  have hahead : (s.after calls).Ahead path := by
    obtain ⟨calls₁, c, calls₂, rfl, -, rfl, rfl⟩ := exists_call_of_records_eq hrecords
    have hs₁ := hs.after calls₁
    have hflush := ahead_of_flush hs₁ (hcalls c (by simp)) hflushed
    rw [after_append, after_cons]
    rw [records_append, records] at hflushes
    exact hflush.after (hs₁.step c) (fun c' hc' => hcalls c' (by simp [hc']))
      (fun r hr => hflushes r (by simp [hr])) hquiet
  obtain ⟨s', hs', hprimary⟩ := hahead.start (hs.after calls) override' draws' wall'
  -- what is opened is the primary node of the end, with its last tick put ahead
  have hid : s'.primary.id = s.primary.id := by
    rw [hprimary, primary_after]
    exact Node.after_id _ _
  refine ⟨s', hs', hid, ?_⟩
  intro calls' hbumps m hm m' hm' a b ha hb
  rw [marks_records, marks_records] at hbumps
  -- the rest is about one node, taken up again with the sequence it ended with
  have hmasked : s.primary.Masked := hs.writes.storable.masked _ (by simp [Registry.nodes, primary])
  have hmarks : m.toMark ∈ s.primary.marks (calls.map Call.reading) := by
    rw [← marks_records]
    exact List.mem_map_of_mem hm
  have hmarks' : m'.toMark ∈ s'.primary.marks (calls'.map Call.reading) := by
    rw [← marks_records]
    exact List.mem_map_of_mem hm'
  refine Node.issued_ne_of_resumed hmasked ?_ ?_ hbumps hmarks hmarks' ha hb
  · rw [hprimary, primary_after]
  · rw [hprimary, ← primary_after]
    exact hahead.lastTicks_le

/-- A generator on a new document flushes every second. Twenty seconds after it was opened there are
two calls, of which the first flushes, and then a crash. Another generator on the document is asked
at the time of the second call. -/
theorem reopened_disjoint_after_one_flush :
    ∃ s s', start { path := ⟨"s.json"⟩, override := some 1000 }
        ⟨⟨2, 0, 0, 0, 0, 1⟩, fun _ => 5⟩ 0 ({} : FileTree) = .ok s ∧
      start { path := ⟨"s.json"⟩ } ⟨⟨4, 0, 0, 0, 0, 1⟩, fun _ => 7⟩ 0
        (s.after ((ManualClock.startingAt 20000).calls [.call, .advance 1, .call])).disk = .ok s' ∧
      s'.primary.id = s.primary.id ∧
      (∃ m ∈ s.records ((ManualClock.startingAt 20000).calls [.call, .advance 1, .call]),
        m.outcome = .ok ⟨Ticks.ofMillis 20001, 5⟩) ∧
      ∀ m' ∈ s'.records ((ManualClock.startingAt 20001).calls [.call]),
        ∀ b, m'.outcome = .ok b → ⟨Ticks.ofMillis 20001, 5⟩ ≠ b := by
  have hstart : start { path := ⟨"s.json"⟩, override := some 1000 }
      ⟨⟨2, 0, 0, 0, 0, 1⟩, fun _ => 5⟩ 0 ({} : FileTree) =
      .ok ⟨.ofRegistry ⟨.file { path := ⟨"s.json"⟩, override := some 1000 },
        ⟨⟨130, 0, 0, 0, 0, 1⟩, 0, 5⟩, [], 0⟩, {}⟩ := rfl
  generalize hs : (⟨.ofRegistry ⟨.file { path := ⟨"s.json"⟩, override := some 1000 },
    ⟨⟨130, 0, 0, 0, 0, 1⟩, 0, 5⟩, [], 0⟩, {}⟩ : Running FileTree) = s at hstart
  generalize hfirstCall : (⟨(ManualClock.startingAt 20000).reading, 20000⟩ : Call) = first
  generalize hsecondCall : (⟨(ManualClock.startingAt 20001).reading, 20001⟩ : Call) = second
  have hrecords : s.records ((ManualClock.startingAt 20000).calls [.call, .advance 1, .call]) =
      [] ++ s.record first :: [(s.step first).record second] := by
    rw [← hfirstCall, ← hsecondCall]
    rfl
  have hfirst : (s.record first).flush = some (.ok true) := by
    subst hs hfirstCall
    rfl
  have hsecond : ((s.step first).record second).flush = none := by
    subst hs hfirstCall hsecondCall
    rfl
  have hquiet : (s.record first).bumped = false ∧ ((s.step first).record second).bumped = false := by
    subst hs hfirstCall hsecondCall
    exact ⟨rfl, rfl⟩
  have hissued : ((s.step first).record second).outcome = .ok ⟨Ticks.ofMillis 20001, 5⟩ := by
    subst hs hfirstCall hsecondCall
    rfl
  have hflushes : ∀ r ∈ s.records ((ManualClock.startingAt 20000).calls
      [.call, .advance 1, .call]), ∀ e, r.flush ≠ some (.error e) := by
    rw [hrecords]
    intro r hr e
    rcases List.mem_cons.1 hr with rfl | hr
    · rw [hfirst]
      simp
    · rw [List.mem_singleton.1 hr, hsecond]
      simp
  obtain ⟨s', hs', hid, hdisjoint⟩ := reopened_disjoint hstart (by rw [← hs]; rfl)
    (.inr ⟨20000, rfl⟩) [.call, .advance 1, .call] hflushes hrecords hfirst
    (bumpCount_cons_eq_zero.2 ⟨hquiet.2, rfl⟩)
  have hmem : (s.step first).record second ∈
      s.records ((ManualClock.startingAt 20000).calls [.call, .advance 1, .call]) := by
    rw [hrecords]
    simp
  refine ⟨s, s', hstart, hs', hid, ⟨_, hmem, hissued⟩, ?_⟩
  intro m' hm' b hb
  have hfew : bumpCount ((s.records ((ManualClock.startingAt 20000).calls
        [.call, .advance 1, .call])).map CallRecord.toMark) +
      bumpCount ((s'.records ((ManualClock.startingAt 20001).calls [.call])).map
        CallRecord.toMark) < 2 ^ 14 := by
    have hbefore : bumpCount ((s.records ((ManualClock.startingAt 20000).calls
        [.call, .advance 1, .call])).map CallRecord.toMark) = 0 := by
      rw [hrecords]
      exact bumpCount_cons_eq_zero.2 ⟨hquiet.1, bumpCount_cons_eq_zero.2 ⟨hquiet.2, rfl⟩⟩
    have hone : bumpCount ((s'.records ((ManualClock.startingAt 20001).calls [.call])).map
        CallRecord.toMark) ≤ 1 := List.countP_le_length
    omega
  exact hdisjoint _ hfew _ hmem m' hm' _ b hissued hb

end Running
end TimeIds
