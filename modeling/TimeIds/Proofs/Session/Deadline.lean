import TimeIds.Proofs.Session.Run

/-!
# The deadline that a generator keeps

A generator keeps the time of its next flush, so that most calls do not look at the registry. That
time is the one the registry would give: it depends on the store and the last flush alone, so a
timestamp does not move it, and a flush is always followed by another look. A generator that looks at
the registry every time, and leaves a flush that fails at that, therefore answers and writes alike,
although the time that it keeps gets old.

* **`UuidGenerator.Alike.flush`** – the two ways of flushing;
* **`Session.Alike.turn`** – one action, in both ways;
* **`Session.keeps_deadline`** – whole sessions.
-/

namespace TimeIds

/-! ## Generators that look every time -/

namespace UuidGenerator

section Unguarded

variable {m : Type → Type} [Monad m] [Disk m]

/-- Asks the registry to flush if that is due, whatever the time that is kept. A flush that fails
comes to nothing. -/
def flushUnguarded (g : UuidGenerator) (now : Millis) : m UuidGenerator := do
  match ← g.registry.flushIfDue now with
  | .error _ => pure g
  | .ok (_, registry) => pure { g with registry }

/-- The next UUID of a generator that looks at the registry every time. -/
def nextUnguarded (g : UuidGenerator) (reading : Reading) (now : Millis) :
    m (Except IdError (Uuid × UuidGenerator)) :=
  match g.registry.primary.issue reading with
  | .error e => pure (.error e)
  | .ok (timestamp, primary) => do
    let issued := { g with registry := { g.registry with primary } }
    let g ← issued.flushUnguarded now
    pure (.ok (Uuid.ofTimestamp timestamp issued.nodeId, g))

end Unguarded

variable {σ : Type} [Disk (StateM σ)]

/-- Without a tick nobody looks at the registry. -/
theorem nextUnguarded_none (g : UuidGenerator) (now : Millis) (d : σ) :
    (g.nextUnguarded none now : OnDisk σ _) d = (.error .overClocked, d) := rfl

/-- A call with a tick issues it, as it does for a generator that keeps the time, and then looks at
the registry. -/
theorem nextUnguarded_some (g : UuidGenerator) (ticks : Ticks) (now : Millis) (d : σ) :
    (g.nextUnguarded (some ticks) now : OnDisk σ _) d =
      (.ok (Uuid.ofTimestamp (g.registry.primary.step (some ticks)).stamp g.nodeId,
        (((g.issued (some ticks)).flushUnguarded now : OnDisk σ _) d).1),
        (((g.issued (some ticks)).flushUnguarded now : OnDisk σ _) d).2) := by
  have hid : (g.issued (some ticks)).nodeId = g.nodeId := g.registry.primary.step_id _
  have hissue : g.registry.primary.issue (some ticks) =
      .ok ((g.registry.primary.step (some ticks)).stamp, g.registry.primary.step (some ticks)) :=
    g.registry.primary.issue_some ticks
  unfold nextUnguarded
  rw [hissue, ← hid]
  rfl

/-- Two generators on one registry. The first keeps the time that the registry gives; what the second
keeps does not matter. -/
structure Alike (g g' : UuidGenerator) : Prop where
  registry : g'.registry = g.registry
  nextFlush : g.nextFlush = g.registry.nextFlush

variable {g g' : UuidGenerator}

/-- A timestamp leaves two generators alike: it moves no deadline. -/
theorem Alike.issued (h : g.Alike g') (reading : Reading) :
    (g.issued reading).Alike (g'.issued reading) where
  registry := by
    unfold UuidGenerator.issued
    rw [h.registry]
  nextFlush := h.nextFlush.trans (g.nextFlush_issued reading).symm

/-- A timestamp asked of the registry moves no deadline either. -/
theorem Alike.askedBy (h : g.Alike g') (request : Request) :
    Alike { g with registry := g.registry.askedBy request }
      { g' with registry := g'.registry.askedBy request } where
  registry := by rw [h.registry]
  nextFlush := h.nextFlush.trans (g.registry.nextFlush_askedBy request).symm

/-- **A flush that is not due is not missed.** A generator that keeps the right time and one that
looks every time end with the same registry and the same files, and the first still keeps the right
time. -/
theorem Alike.flush (h : g.Alike g') (now : Millis) (d : σ) :
    let guarded := (g.flushIfDue now : OnDisk σ UuidGenerator) d
    let unguarded := (g'.flushUnguarded now : OnDisk σ UuidGenerator) d
    guarded.1.Alike unguarded.1 ∧ unguarded.2 = guarded.2 := by
  intro guarded unguarded
  have hunguarded : unguarded =
      (match ((g.registry.flushIfDue now : OnDisk σ _) d).1 with
        | .error _ => g'
        | .ok (_, registry) => { g' with registry },
        ((g.registry.flushIfDue now : OnDisk σ _) d).2) := by
    unfold unguarded flushUnguarded
    rw [h.registry, OnDisk.bind_apply]
    cases ((g.registry.flushIfDue now : OnDisk σ _) d).1 <;> rfl
  by_cases hdue : now < g.nextFlush
  · -- the registry would have said the same
    have hguarded : guarded = (g, d) := by
      unfold guarded flushIfDue
      rw [if_pos hdue]
      rfl
    rw [hunguarded, hguarded, Registry.flushIfDue_of_not_due (h.nextFlush ▸ hdue)]
    exact ⟨⟨rfl, h.nextFlush⟩, rfl⟩
  · -- both ask the registry; the first then looks up the time again, and the second lets it get old
    rw [hunguarded, show guarded = _ from flushIfDue_of_due hdue d]
    cases ((g.registry.flushIfDue now : OnDisk σ _) d).1 with
    | error e => exact ⟨⟨h.registry, rfl⟩, rfl⟩
    | ok flushed => exact ⟨⟨rfl, rfl⟩, rfl⟩

end UuidGenerator

/-! ## Sessions in both ways -/

/-- How a generator answers a call. -/
abbrev Answering (σ : Type) : Type :=
  UuidGenerator → Call → OnDisk σ (Except IdError (Uuid × UuidGenerator))

namespace Answering

variable {σ : Type} [Disk (StateM σ)]

/-- By the time that the generator keeps. -/
def guarded : Answering σ := fun g c => g.next c.reading c.now

/-- By a look at the registry at every call. -/
def unguarded : Answering σ := fun g c => g.nextUnguarded c.reading c.now

end Answering

/-- What is seen of an action: the answer if it was a call, and registry and files after it. -/
structure Seen (σ : Type) where
  answer : Option (Except IdError Uuid)
  registry : Registry
  disk : σ

/-- A holder whose generator, if any, keeps the right time, and another on the same registry. -/
inductive Holder.Alike : Holder → Holder → Prop
  | free (r : Registry) : Alike (.free r) (.free r)
  | taken {g g' : UuidGenerator} (h : g.Alike g') : Alike (.taken g) (.taken g')

namespace Holder.Alike

variable {h h' : Holder}

theorem registry (halike : h.Alike h') : h'.registry = h.registry := by
  cases halike with
  | free r => rfl
  | taken hg => exact hg.registry

theorem nextFlush (halike : h.Alike h') :
    ∀ g, h = .taken g → g.nextFlush = g.registry.nextFlush := by
  rintro g rfl
  cases halike with
  | taken hg => exact hg.nextFlush

theorem self (halike : h.Alike h') : h.Alike h := by
  cases halike with
  | free r => exact .free r
  | taken hg => exact .taken ⟨rfl, hg.nextFlush⟩

end Holder.Alike

namespace Session

variable {σ : Type} [Disk (StateM σ)]

/-- The answer to an action, if it is a call, and the session after it. -/
def turn (answering : Answering σ) (s : Session σ) :
    Action → Option (Except IdError Uuid) × Session σ
  | .call c =>
    match s.holder with
    | .free _ => (none, s)
    | .taken g =>
      match answering g c s.disk with
      | (.ok (uuid, g'), d) => (some (.ok uuid), ⟨.taken g', d⟩)
      | (.error e, d) => (some (.error e), ⟨.taken g, d⟩)
  | a => (none, s.step a)

/-- What is seen of a run. -/
def seen (answering : Answering σ) (s : Session σ) : List Action → List (Seen σ)
  | [] => []
  | a :: rest =>
    let next := s.turn answering a
    ⟨next.1, next.2.registry, next.2.disk⟩ :: next.2.seen answering rest

/-- A turn by the time that is kept is an action of the session. -/
theorem turn_guarded (s : Session σ) (a : Action) : (s.turn .guarded a).2 = s.step a := by
  cases a with
  | ask request => rfl
  | adopt => rfl
  | call c =>
    unfold turn step ofRunning Running.step Running.next
    cases s.holder with
    | free r => rfl
    | taken g =>
      dsimp only
      rw [show (Answering.guarded g c : OnDisk σ _) s.disk =
        (g.next c.reading c.now : OnDisk σ _) s.disk from rfl]
      cases (g.next c.reading c.now : OnDisk σ _) s.disk with
      | mk outcome d => cases outcome <;> rfl

/-- Sessions on the same registry and the same files, the first with a generator, if any, that keeps
the right time. -/
structure Alike (s s' : Session σ) : Prop where
  holder : s.holder.Alike s'.holder
  disk : s'.disk = s.disk

variable {s s' : Session σ}

/-- Whatever is done but a call leaves two sessions alike, since it does not look at the time that
is kept. -/
theorem Alike.step (h : s.Alike s') {a : Action} (hquiet : ∀ c, a ≠ .call c) :
    (s.step a).Alike (s'.step a) := by
  obtain ⟨holder, disk⟩ := s
  obtain ⟨holder', disk'⟩ := s'
  obtain ⟨hholder, rfl⟩ := h
  cases a with
  | ask request =>
    cases hholder with
    | free r => exact ⟨.free _, rfl⟩
    | taken hg => exact ⟨.taken (hg.askedBy request), rfl⟩
  | adopt =>
    cases hholder with
    | free r => exact ⟨.taken ⟨rfl, rfl⟩, rfl⟩
    | taken hg => exact ⟨.taken hg, rfl⟩
  | call c => exact absurd rfl (hquiet c)

/-- **One action.** The answer is the same, and so are registry and files after it. -/
theorem Alike.turn (h : s.Alike s') (a : Action) :
    (s'.turn .unguarded a).1 = (s.turn .guarded a).1 ∧
      (s.turn .guarded a).2.Alike (s'.turn .unguarded a).2 := by
  cases a with
  | ask request => exact ⟨rfl, h.step (a := .ask request) nofun⟩
  | adopt => exact ⟨rfl, h.step (a := .adopt) nofun⟩
  | call c =>
    obtain ⟨holder, disk⟩ := s
    obtain ⟨holder', disk'⟩ := s'
    obtain ⟨hholder, rfl⟩ := h
    cases hholder with
    | free r => exact ⟨rfl, .free r, rfl⟩
    | @taken g g' hg =>
      unfold Session.turn Answering.guarded Answering.unguarded
      dsimp only
      cases hc : c.reading with
      | none =>
        rw [UuidGenerator.next_none, UuidGenerator.nextUnguarded_none]
        exact ⟨rfl, .taken hg, rfl⟩
      | some ticks =>
        -- the timestamp is the same, and the two ways of flushing meet the same registry
        obtain ⟨hafter, hdisk⟩ := (hg.issued (some ticks)).flush c.now disk'
        rw [UuidGenerator.next_some, UuidGenerator.nextUnguarded_some]
        refine ⟨?_, .taken hafter, hdisk⟩
        unfold UuidGenerator.nodeId
        rw [hg.registry]

/-- **Whole runs.** What is seen is the same after every action. -/
theorem Alike.seen (h : s.Alike s') (actions : List Action) :
    s.seen .guarded actions = s'.seen .unguarded actions := by
  induction actions generalizing s s' with
  | nil => rfl
  | cons a rest ih =>
    obtain ⟨hanswer, hafter⟩ := h.turn a
    unfold Session.seen
    dsimp only
    rw [ih hafter, hanswer, hafter.disk]
    unfold Session.registry
    rw [hafter.holder.registry]

/-- In every session a generator keeps the right time. -/
theorem Alike.after (h : s.Alike s) (actions : List Action) :
    (s.after actions).Alike (s.after actions) := by
  induction actions generalizing s with
  | nil => exact h
  | cons a rest ih =>
    -- a turn in both ways says more than is needed: the first of the two is the session
    have hstep : (s.step a).holder.Alike (s.step a).holder := by
      rw [← turn_guarded]
      exact (h.turn a).2.holder.self
    exact ih ⟨hstep, rfl⟩

/-- **The deadline is exact.** At any time of a session, whatever its store and its clocks say and
whichever writes fail, a generator keeps the time that its registry gives for the next flush. So from
then on it could as well ask the registry at every call, and let a flush that fails be: the answers
are the same, and so are registry and files after every action. -/
theorem keeps_deadline (r : Registry) (d : σ) (earlier later : List Action) :
    let s := (⟨.free r, d⟩ : Session σ).after earlier
    (∀ g, s.holder = .taken g → g.nextFlush = g.registry.nextFlush) ∧
      s.seen .guarded later = s.seen .unguarded later := by
  intro s
  have hopened : (⟨.free r, d⟩ : Session σ).Alike ⟨.free r, d⟩ := ⟨.free r, rfl⟩
  have halike : s.Alike s := hopened.after earlier
  exact ⟨halike.holder.nextFlush, halike.seen later⟩

/-- Nothing is ever due, until the last time there is. -/
theorem keeps_deadline_at_the_last_time :
    let n : Node := ⟨⟨2, 0, 0, 0, 0, 1⟩, 10, 5⟩
    let r : Registry := ⟨.memory [n], n, [], 0⟩
    let s := (⟨.free r, {}⟩ : Session FileTree).after [.adopt, .call ⟨some 11, Int64.maxValue⟩]
    let later : List Action := [.call ⟨none, 900⟩, .call ⟨some 13, Int64.maxValue⟩]
    let g : UuidGenerator := ⟨{ r with primary := ⟨⟨2, 0, 0, 0, 0, 1⟩, 11, 5⟩ }, Int64.maxValue⟩
    s.holder = .taken g ∧ g.nextFlush = g.registry.nextFlush ∧
      s.seen .guarded later = s.seen .unguarded later := by
  intro n r s later g
  have hholder : s.holder = .taken g := rfl
  obtain ⟨hexact, hseen⟩ := keeps_deadline r ({} : FileTree)
    [.adopt, .call ⟨some 11, Int64.maxValue⟩] later
  exact ⟨hholder, hexact g hholder, hseen⟩

end Session
end TimeIds
