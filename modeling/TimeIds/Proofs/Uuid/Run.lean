import TimeIds.Uuid.Generator
import TimeIds.Proofs.Registry.Run

/-!
# Runs of a UUID generator

`Running` is a generator together with the files it works on, which may be any state with any four
operations on it. `Running.record` tells what one call did and `Running.records` what a whole run
did; `Running.step` and `Running.after` are generator and files afterwards. To its registry a call
does what a request for a timestamp on the primary node does, and a due flush after it
(`Running.step_effect`). So the UUIDs depend on the primary node and the readings alone, whatever the
flushes come to:

* **`Running.result_record`**, **`Running.primary_step`** – a UUID is that of the timestamp issued on
  the primary node, and the node moves on as if there were no flushes;
* **`Running.step_of_flush_ok`**, **`Running.step_of_flush_error`** – what a flush leaves in the file,
  and what one that fails leaves of the generator;
* **`Running.Ready.after`** – a generator keeps writing its document.
-/

namespace TimeIds

/-- A call for a UUID: what the tick clock answers to it, and the time. -/
structure Call where
  reading : Reading
  now : Millis

/-- What a call for a UUID did. -/
structure CallRecord extends Mark where
  result : Except IdError Uuid
  /-- What the flush came to, if one was tried: whether it wrote, or why it failed. -/
  flush : Option (Except IdError Bool)

/-- A generator and the files it works on. -/
structure Running (σ : Type) where
  generator : UuidGenerator
  disk : σ

namespace UuidGenerator

/-- The generator after the timestamp is issued, before a flush. -/
def issued (g : UuidGenerator) (reading : Reading) : UuidGenerator :=
  { g with registry := { g.registry with primary := g.registry.primary.step reading } }

/-- Before the flush, a call has done to the registry what a request for a timestamp does. -/
theorem registry_issued (g : UuidGenerator) (reading : Reading) :
    (g.issued reading).registry = g.registry.asked 0 reading :=
  (g.registry.asked_zero reading).symm

/-- The deadline that the registry gives is the one it gave before the timestamp. -/
theorem nextFlush_issued (g : UuidGenerator) (reading : Reading) :
    (g.issued reading).registry.nextFlush = g.registry.nextFlush :=
  g.registry.nextFlush_set 0 _

/-- A registry that writes its document still does before the flush. -/
theorem writes_issued {g : UuidGenerator} {path : Path} {override : Option UInt64}
    (hg : g.registry.Writes path override) (reading : Reading) :
    (g.issued reading).registry.Writes path override := by
  rw [registry_issued]
  exact hg.asked 0 reading

variable {σ : Type} [Disk (StateM σ)]

/-- Once its own deadline is past, a generator asks its registry to flush, and looks up the next
deadline whatever comes of it. -/
theorem flushIfDue_of_due {g : UuidGenerator} {now : Millis}
    (hdue : ¬now < g.nextFlush) (d : σ) :
    (g.flushIfDue now : OnDisk σ _) d =
      (match ((g.registry.flushIfDue now : OnDisk σ _) d).1 with
        | .error _ => { g with nextFlush := g.registry.nextFlush }
        | .ok (_, registry) => ofRegistry registry,
        ((g.registry.flushIfDue now : OnDisk σ _) d).2) := by
  unfold flushIfDue
  rw [if_neg hdue, OnDisk.bind_apply]
  cases ((g.registry.flushIfDue now : OnDisk σ _) d).1 <;> rfl

/-- What the flush of a generator does to its registry: nothing before the deadline, and after it
what the registry makes of it. -/
theorem effect_flushIfDue (g : UuidGenerator) (now : Millis) (d : σ) (byHand : Prop) :
    let flushed := (g.flushIfDue now : OnDisk σ UuidGenerator) d
    g.registry.Effect byHand d flushed.1.registry flushed.2 := by
  intro flushed
  have heffect := g.registry.effect_flushIfDue now d byHand
  unfold flushed flushIfDue
  split
  · exact .quiet
  · rw [OnDisk.bind_apply]
    cases hflush : (g.registry.flushIfDue now : OnDisk σ (Except IdError (Bool × Registry))) d with
    | mk outcome d' =>
      rw [hflush] at heffect
      cases outcome with
      | error e => exact heffect
      | ok flushed => exact heffect

/-- After a flush, as before it, a generator keeps the deadline of its registry. Where it asked, it
looked that up again. -/
theorem nextFlush_flushIfDue {g : UuidGenerator} (h : g.nextFlush = g.registry.nextFlush)
    (now : Millis) (d : σ) :
    let flushed := (g.flushIfDue now : OnDisk σ UuidGenerator) d
    flushed.1.nextFlush = flushed.1.registry.nextFlush := by
  intro flushed
  unfold flushed
  by_cases hdue : now < g.nextFlush
  · unfold flushIfDue
    rw [if_pos hdue]
    exact h
  · rw [flushIfDue_of_due hdue]
    cases ((g.registry.flushIfDue now : OnDisk σ _) d).1 <;> rfl

/-- A call without a tick changes nothing. -/
theorem next_none (g : UuidGenerator) (now : Millis) (d : σ) :
    (g.next none now : OnDisk σ _) d = (.error .overClocked, d) := rfl

/-- A call with a tick issues it on the primary node, and then flushes if that is due. -/
theorem next_some (g : UuidGenerator) (ticks : Ticks) (now : Millis) (d : σ) :
    (g.next (some ticks) now : OnDisk σ _) d =
      (.ok (Uuid.ofTimestamp (g.registry.primary.step (some ticks)).stamp g.nodeId,
        (((g.issued (some ticks)).flushIfDue now : OnDisk σ _) d).1),
        (((g.issued (some ticks)).flushIfDue now : OnDisk σ _) d).2) := by
  have hid : (g.issued (some ticks)).nodeId = g.nodeId := g.registry.primary.step_id _
  have hissue : g.registry.primary.issue (some ticks) =
      .ok ((g.registry.primary.step (some ticks)).stamp, g.registry.primary.step (some ticks)) :=
    g.registry.primary.issue_some ticks
  unfold next
  rw [hissue, ← hid]
  rfl

end UuidGenerator

namespace Running

variable {σ : Type}

/-- The node that the UUIDs name. -/
def primary (s : Running σ) : Node := s.generator.registry.primary

variable [Disk (StateM σ)]

/-- What the call comes to, and the files after it. -/
def next (s : Running σ) (c : Call) : Except IdError (Uuid × UuidGenerator) × σ :=
  (s.generator.next c.reading c.now : OnDisk σ _) s.disk

/-- What the registry makes of a flush once the timestamp is issued, and the files after it. -/
def tried (s : Running σ) (c : Call) : Except IdError (Bool × Registry) × σ :=
  ((s.generator.issued c.reading).registry.flushIfDue c.now : OnDisk σ _) s.disk

/-- The flush of a call. Only a call that issued a timestamp tries one, and only once it is due. -/
def flush (s : Running σ) (c : Call) : Option (Except IdError Bool) :=
  if c.reading.isSome ∧ s.generator.nextFlush ≤ c.now then some ((s.tried c).1.map Prod.fst)
  else none

/-- The record of a call. -/
def record (s : Running σ) (c : Call) : CallRecord where
  toMark := s.primary.mark c.reading
  result := (s.next c).1.map Prod.fst
  flush := s.flush c

/-- Generator and files after a call. -/
def step (s : Running σ) (c : Call) : Running σ :=
  match s.next c with
  | (.ok (_, g), d) => ⟨g, d⟩
  | (.error _, d) => ⟨s.generator, d⟩

/-- The records of a run. -/
def records (s : Running σ) : List Call → List CallRecord
  | [] => []
  | c :: rest => s.record c :: (s.step c).records rest

/-- Generator and files after a run. -/
def after (s : Running σ) (calls : List Call) : Running σ := calls.foldl step s

/-! ## One call -/

/-- A call without a tick changes nothing. -/
theorem next_none {s : Running σ} {c : Call} (hc : c.reading = none) :
    s.next c = (.error .overClocked, s.disk) := by
  unfold next
  rw [hc, UuidGenerator.next_none]

/-- The UUID of a call with a tick, and the flush after it. -/
theorem next_some {s : Running σ} {c : Call} {ticks : Ticks} (hc : c.reading = some ticks) :
    s.next c =
      (.ok (Uuid.ofTimestamp (s.primary.step (some ticks)).stamp s.primary.id,
        (((s.generator.issued (some ticks)).flushIfDue c.now : OnDisk σ _) s.disk).1),
        (((s.generator.issued (some ticks)).flushIfDue c.now : OnDisk σ _) s.disk).2) := by
  unfold next
  rw [hc]
  exact s.generator.next_some ticks c.now s.disk

/-- Without a tick, generator and files stay as they are. -/
theorem step_none {s : Running σ} {c : Call} (hc : c.reading = none) : s.step c = s := by
  unfold step
  rw [next_none hc]

/-- With a tick, they are what the flush after the timestamp leaves. -/
theorem step_some {s : Running σ} {c : Call} {ticks : Ticks} (hc : c.reading = some ticks) :
    s.step c = ⟨(((s.generator.issued c.reading).flushIfDue c.now : OnDisk σ _) s.disk).1,
      (((s.generator.issued c.reading).flushIfDue c.now : OnDisk σ _) s.disk).2⟩ := by
  unfold step
  rw [next_some hc, hc]

/-- **What a call does to the registry and the files.** It issues a timestamp on the primary node,
and then saves at most once, never by hand. -/
theorem step_effect (s : Running σ) (c : Call) (byHand : Prop) :
    (s.generator.registry.asked 0 c.reading).Effect byHand s.disk (s.step c).generator.registry
      (s.step c).disk := by
  cases hc : c.reading with
  | none =>
    rw [step_none hc, Registry.asked_none]
    exact .quiet
  | some ticks =>
    rw [step_some hc, hc, ← UuidGenerator.registry_issued]
    exact (s.generator.issued (some ticks)).effect_flushIfDue c.now s.disk byHand

/-- A UUID is that of the timestamp issued on the primary node. -/
theorem result_record (s : Running σ) (c : Call) :
    (s.record c).result =
      (s.primary.mark c.reading).outcome.map (Uuid.ofTimestamp · s.primary.id) := by
  unfold record
  dsimp only
  cases hc : c.reading with
  | none =>
    rw [next_none hc]
    rfl
  | some ticks =>
    rw [next_some hc, Node.mark_some]
    rfl

/-- A call moves the primary node on as a timestamp issued on it does. -/
theorem primary_step (s : Running σ) (c : Call) :
    (s.step c).primary = s.primary.step c.reading := by
  have hnodes := (s.step_effect c True).nodes
  rw [Registry.asked_zero] at hnodes
  exact (List.cons.inj hnodes).1

/-! ## Runs -/

@[simp] theorem after_nil (s : Running σ) : s.after [] = s := rfl

@[simp] theorem after_cons (s : Running σ) (c : Call) (rest : List Call) :
    s.after (c :: rest) = (s.step c).after rest := rfl

theorem after_append (s : Running σ) (cs cs' : List Call) :
    s.after (cs ++ cs') = (s.after cs).after cs' := List.foldl_append

/-- The records of a run in two parts: the second part goes on from where the first ends. -/
theorem records_append (s : Running σ) (cs cs' : List Call) :
    s.records (cs ++ cs') = s.records cs ++ (s.after cs).records cs' := by
  induction cs generalizing s with
  | nil => rfl
  | cons c rest ih => simp [records, ih]

/-- A run moves the primary node on as its readings do. -/
theorem primary_after (s : Running σ) (calls : List Call) :
    (s.after calls).primary = s.primary.after (calls.map Call.reading) := by
  induction calls generalizing s with
  | nil => rfl
  | cons c rest ih => rw [after_cons, ih, primary_step, List.map_cons, Node.after_cons]

/-- The timestamps of a run are those of the primary node, for the readings of the run. -/
theorem marks_records (s : Running σ) (calls : List Call) :
    (s.records calls).map CallRecord.toMark = s.primary.marks (calls.map Call.reading) := by
  induction calls generalizing s with
  | nil => rfl
  | cons c rest ih =>
    rw [records, List.map_cons, ih, primary_step, List.map_cons, Node.marks]
    rfl

/-- The call behind a record of a run. -/
theorem exists_call_of_records_eq {s : Running σ} {calls : List Call}
    {before later : List CallRecord} {r : CallRecord}
    (h : s.records calls = before ++ r :: later) :
    ∃ calls₁ c calls₂, calls = calls₁ ++ c :: calls₂ ∧ s.records calls₁ = before ∧
      r = (s.after calls₁).record c ∧ later = ((s.after calls₁).step c).records calls₂ := by
  -- each record before it is that of one call, so as many calls are split off
  induction before generalizing s calls with
  | nil =>
    cases calls with
    | nil => cases h
    | cons c rest =>
      obtain ⟨hr, hlater⟩ := List.cons.inj h
      exact ⟨[], c, rest, rfl, rfl, hr.symm, hlater.symm⟩
  | cons r' before ih =>
    cases calls with
    | nil => cases h
    | cons c rest =>
      obtain ⟨hr', hrest⟩ := List.cons.inj h
      obtain ⟨calls₁, c', calls₂, rfl, hbefore, hr, hlater⟩ := ih hrest
      refine ⟨c :: calls₁, c', calls₂, rfl, ?_, hr, hlater⟩
      rw [records, hr', hbefore]

/-! ## The deadline of a run -/

/-- A generator that writes the document at `path`, and knows when the next flush is due. -/
structure Ready (s : Running σ) (path : Path) (override : Option UInt64) : Prop where
  writes : s.generator.registry.Writes path override
  nextFlush : s.generator.nextFlush = s.generator.registry.nextFlush

variable {s : Running σ} {path : Path} {override : Option UInt64} {c : Call}

/-- A call leaves the generator with the deadline of its registry, if it had it before. -/
theorem Ready.step (hs : s.Ready path override) (c : Call) : (s.step c).Ready path override := by
  refine ⟨(s.step_effect c True).writes (hs.writes.asked 0 c.reading), ?_⟩
  cases hc : c.reading with
  | none =>
    rw [step_none hc]
    exact hs.nextFlush
  | some ticks =>
    have hissued : (s.generator.issued c.reading).nextFlush =
        (s.generator.issued c.reading).registry.nextFlush :=
      hs.nextFlush.trans (s.generator.nextFlush_issued c.reading).symm
    rw [step_some hc]
    exact UuidGenerator.nextFlush_flushIfDue hissued c.now s.disk

theorem Ready.after (hs : s.Ready path override) (calls : List Call) :
    (s.after calls).Ready path override := by
  induction calls generalizing s with
  | nil => exact hs
  | cons c rest ih => exact ih (hs.step c)

/-! ## The flush of a call -/

/-- Before the next flush is due, a call only issues a timestamp. -/
theorem step_of_not_due {ticks : Ticks} (hc : c.reading = some ticks)
    (hdue : c.now < s.generator.nextFlush) :
    s.step c = ⟨s.generator.issued c.reading, s.disk⟩ := by
  have hflush : ((s.generator.issued c.reading).flushIfDue c.now : OnDisk σ _) s.disk =
      (s.generator.issued c.reading, s.disk) := by
    unfold UuidGenerator.flushIfDue
    rw [if_pos (show c.now < (s.generator.issued c.reading).nextFlush from hdue)]
    rfl
  rw [step_some hc, hflush]

theorem flush_of_due {ticks : Ticks} (hc : c.reading = some ticks)
    (hdue : ¬c.now < s.generator.nextFlush) : s.flush c = some ((s.tried c).1.map Prod.fst) := by
  unfold flush
  rw [if_pos ⟨by rw [hc]; rfl, Int64.not_lt.1 hdue⟩]

/-- A flush is only tried by a call with a tick that comes at the deadline or later. -/
theorem flush_eq_some {outcome : Except IdError Bool} (h : s.flush c = some outcome) :
    (∃ ticks, c.reading = some ticks) ∧ ¬c.now < s.generator.nextFlush ∧
      (s.tried c).1.map Prod.fst = outcome := by
  unfold flush at h
  split at h
  · next hdue =>
    exact ⟨Option.isSome_iff_exists.1 hdue.1, Int64.not_lt.2 hdue.2, Option.some.inj h⟩
  · cases h

/-- Once a flush is due, a call makes of the generator what the flush comes to. -/
theorem step_of_due {ticks : Ticks} (hc : c.reading = some ticks)
    (hdue : ¬c.now < s.generator.nextFlush) :
    s.step c =
      ⟨match (s.tried c).1 with
        | .error _ => { s.generator.issued c.reading with
            nextFlush := (s.generator.issued c.reading).registry.nextFlush }
        | .ok (_, registry) => .ofRegistry registry, (s.tried c).2⟩ := by
  rw [step_some hc, UuidGenerator.flushIfDue_of_due (g := s.generator.issued c.reading) hdue]
  rfl

/-- A call at which a flush fails keeps the timestamp it issued; the flush stays due. -/
theorem step_of_flush_error (hs : s.Ready path override) {e : IdError}
    (h : s.flush c = some (.error e)) : (s.step c).generator = s.generator.issued c.reading := by
  obtain ⟨⟨ticks, hc⟩, hdue, houtcome⟩ := flush_eq_some h
  -- the time that the registry gives is the one that is already kept
  have hnext : (s.generator.issued c.reading).registry.nextFlush =
      (s.generator.issued c.reading).nextFlush := hs.nextFlush.symm
  rw [step_of_due hc hdue]
  cases htried : (s.tried c).1 with
  | error e =>
    dsimp only
    rw [hnext]
  | ok flushed =>
    rw [htried] at houtcome
    cases houtcome

/-- A call at which a flush succeeds leaves the document of all nodes one interval ahead. -/
theorem step_of_flush_ok {s : Running FileTree} (hs : s.Ready path override) {wrote : Bool}
    (h : s.flush c = some (.ok wrote)) :
    wrote = true ∧
      (s.step c).generator = .ofRegistry ((s.generator.issued c.reading).registry.resaved
        (Registry.pinned (s.generator.issued c.reading).registry.nodes
          (s.generator.registry.flushTicks c.now)) c.now) ∧
      (s.step c).disk.Holds path (Document.text ⟨some s.generator.registry.interval,
        Registry.pinned (s.generator.issued c.reading).registry.nodes
          (s.generator.registry.flushTicks c.now)⟩) := by
  obtain ⟨⟨ticks, hc⟩, hdue, houtcome⟩ := flush_eq_some h
  have hdue' : ¬c.now < (s.generator.issued c.reading).registry.nextFlush := hs.nextFlush ▸ hdue
  rw [step_of_due hc hdue]
  cases htried : s.tried c with
  | mk flushed t' =>
    rw [htried] at houtcome
    cases flushed with
    | error e => cases houtcome
    | ok flushed =>
      cases houtcome
      obtain ⟨hwrote, hregistry, hholds⟩ :=
        Registry.flushIfDue_spec (UuidGenerator.writes_issued hs.writes c.reading) hdue' htried
      exact ⟨hwrote, congrArg UuidGenerator.ofRegistry hregistry, hholds⟩

/-! ## Opening a generator -/

/-- A generator opened on a document, with the files it finds. -/
def start (f : FileStore) (draws : Draws) (wall : Millis) (d : σ) :
    Except IdError (Running σ) :=
  let loaded := (UuidGenerator.load (.file f) draws wall : OnDisk σ _) d
  loaded.1.map (⟨·, loaded.2⟩)

/-- A generator is opened on the registry that is loaded. -/
theorem start_eq (f : FileStore) (draws : Draws) (wall : Millis) (d : σ) :
    start f draws wall d =
      ((Registry.load (.file f) draws wall : OnDisk σ _) d).1.map
        (⟨.ofRegistry ·, ((Registry.load (.file f) draws wall : OnDisk σ _) d).2⟩) := by
  unfold start UuidGenerator.load
  rw [OnDisk.bind_apply]
  cases ((Registry.load (.file f) draws wall : OnDisk σ _) d).1 <;> rfl

/-- A generator opened on a document that may be written goes on writing it. -/
theorem ready_of_start {f : FileStore} {draws : Draws} {wall : Millis} {d : σ}
    (h : start f draws wall d = .ok s) (hwritable : s.generator.registry.isReadOnly = false) :
    s.Ready f.path f.override := by
  rw [start_eq] at h
  cases hload : (Registry.load (.file f) draws wall : OnDisk σ _) d with
  | mk outcome d' =>
    rw [hload] at h
    cases outcome with
    | error e => cases h
    | ok r =>
      cases h
      exact ⟨Registry.writes_of_load hload hwritable, rfl⟩

/-- A generator opened on a written document has the nodes of the document. -/
theorem start_of_holds {f : FileStore} {interval : UInt64} {primary : Node} {others : List Node}
    {t : FileTree} (hholds : t.Holds f.path (Document.text ⟨some interval, primary :: others⟩))
    (hnodes : Document.Storable (primary :: others)) (draws : Draws) (wall : Millis) :
    start f draws wall t =
      .ok ⟨.ofRegistry ⟨.file { f with documented := interval, nodes := primary :: others },
        primary, others, wall⟩, t⟩ := by
  rw [start_eq, Registry.load_of_holds hholds hnodes]
  rfl

end Running
end TimeIds
