import TimeIds.Proofs.Uuid.Run

/-!
# Sessions

A process opens a registry, asks it for timestamps and saves, may hand it over to a generator of
UUIDs, and lets go of what it holds in the end. `Session` is what the process holds together with
the file system, and that may be any state with any four operations on it, so that it refuses
whatever it likes. As long as the process holds the registry itself, an action is a step of an
`Opened` registry; once it holds a generator, one of a `Running` generator.

Both kinds of steps issue at most one timestamp and then save at most once. All that a session can
do to a registry and to the files follows from this:

* **`Session.step_effect`**, **`Session.ended_effect`** – what an action does, and what letting go
  does;
* **`Session.store_after`** – the store stays the same but for the nodes it knows;
* **`Session.within_ended`** – what holds of every replacement of the document holds of whole
  sessions.
-/

namespace TimeIds

/-- What a process has in hand: a registry, or a generator that has taken one over. -/
inductive Holder
  | free (r : Registry)
  | taken (g : UuidGenerator)

/-- What a process does with it. -/
inductive Action
  | ask (request : Request)
  /-- A generator takes the registry over. -/
  | adopt
  | call (c : Call)

/-- How a process lets go of it. One that is killed just leaves it. -/
inductive Ending
  | closed (wall : Millis)
  | dropped (wall : Millis)
  | left

/-- What a process has in hand, and the file system. -/
structure Session (σ : Type) where
  holder : Holder
  disk : σ

/-! ## What a process has in hand -/

namespace Holder

/-- The registry that is worked on, by whomever. -/
def registry : Holder → Registry
  | free r => r
  | taken g => g.registry

variable {m : Type → Type} [Monad m] [Disk m]

/-- Closes what the process has in hand. -/
def close (h : Holder) (wall : Millis) : m (Except IdError Unit) :=
  match h with
  | free r => r.close wall
  | taken g => g.close wall

/-- Drops what the process has in hand. -/
def drop (h : Holder) (wall : Millis) : m Unit :=
  match h with
  | free r => r.drop wall
  | taken g => g.drop wall

theorem close_eq (h : Holder) (wall : Millis) :
    (h.close wall : m (Except IdError Unit)) = h.registry.close wall := by
  cases h <;> rfl

theorem drop_eq (h : Holder) (wall : Millis) : (h.drop wall : m Unit) = h.registry.drop wall := by
  cases h <;> rfl

end Holder

/-! ## Sessions -/

namespace Session

variable {σ : Type} [Disk (StateM σ)]

/-- The registry of a session, free or with a generator. -/
def registry (s : Session σ) : Registry := s.holder.registry

/-- The session of a process that holds a registry. -/
def ofOpened (s : Opened σ) : Session σ := ⟨.free s.registry, s.disk⟩

/-- The session of a process that holds a generator. -/
def ofRunning (s : Running σ) : Session σ := ⟨.taken s.generator, s.disk⟩

/-- What there is after an action. The nodes can still be asked when a generator has taken the
registry over, but that is not asked to save any more; and without a generator there is nothing to
call. -/
def step (s : Session σ) : Action → Session σ
  | .ask request =>
    match s.holder with
    | .free r => ofOpened ((⟨r, s.disk⟩ : Opened σ).step request)
    | .taken g => ⟨.taken { g with registry := g.registry.askedBy request }, s.disk⟩
  | .adopt =>
    match s.holder with
    | .free r => ⟨.taken (.ofRegistry r), s.disk⟩
    | .taken _ => s
  | .call c =>
    match s.holder with
    | .free _ => s
    | .taken g => ofRunning ((⟨g, s.disk⟩ : Running σ).step c)

/-- What there is after a number of actions. -/
def after (s : Session σ) (actions : List Action) : Session σ := actions.foldl step s

/-- The file system after the process let go. -/
def ended (s : Session σ) : Ending → σ
  | .closed wall => ((s.holder.close wall : OnDisk σ (Except IdError Unit)) s.disk).2
  | .dropped wall => ((s.holder.drop wall : OnDisk σ Unit) s.disk).2
  | .left => s.disk

@[simp] theorem after_nil (s : Session σ) : s.after [] = s := rfl

@[simp] theorem after_cons (s : Session σ) (a : Action) (rest : List Action) :
    s.after (a :: rest) = (s.step a).after rest := rfl

/-- **What an action does.** It issues at most one timestamp, and then saves at most once. -/
theorem step_effect (s : Session σ) (a : Action) :
    ∃ i reading, (s.registry.asked i reading).Effect (∃ wall, a = .ask (.flush wall)) s.disk
      (s.step a).registry (s.step a).disk := by
  -- an action that issues nothing could as well ask for a timestamp without a tick
  have hquiet {byHand : Prop} : ∃ i reading,
      (s.registry.asked i reading).Effect byHand s.disk s.registry s.disk :=
    ⟨0, none, by rw [Registry.asked_none]; exact .quiet⟩
  obtain ⟨holder, disk⟩ := s
  cases a with
  | ask request =>
    obtain ⟨i, reading, hasked⟩ := holder.registry.exists_asked_eq request
    refine ⟨i, reading, ?_⟩
    cases holder with
    | free r =>
      show Registry.Effect _ (r.asked i reading) disk _ _
      -- a save by hand is one of the free registry, and the only one there is
      rw [show r.asked i reading = r.askedBy request from hasked]
      exact Opened.step_effect ⟨r, disk⟩ request _ fun wall hflush => ⟨wall, by rw [hflush]⟩
    | taken g =>
      -- the registry of a generator gives timestamps, and leaves saving to the generator
      show Registry.Effect _ (g.registry.asked i reading) disk (g.registry.askedBy request) disk
      rw [show g.registry.asked i reading = g.registry.askedBy request from hasked]
      exact .quiet
  | adopt =>
    cases holder with
    | free r => exact hquiet
    | taken g => exact hquiet
  | call c =>
    cases holder with
    | free r => exact hquiet
    | taken g => exact ⟨0, c.reading, Running.step_effect ⟨g, disk⟩ c _⟩

/-- What letting go does. It is never a save by hand. -/
theorem ended_effect (s : Session σ) (ending : Ending) :
    ∃ r, s.registry.Effect False s.disk r (s.ended ending) := by
  cases ending with
  | closed wall =>
    show ∃ r, s.registry.Effect False s.disk r ((s.holder.close wall : OnDisk σ _) s.disk).2
    rw [Holder.close_eq]
    exact s.registry.effect_close wall s.disk False
  | dropped wall =>
    show ∃ r, s.registry.Effect False s.disk r ((s.holder.drop wall : OnDisk σ Unit) s.disk).2
    rw [Holder.drop_eq]
    -- dropping closes, and forgets what came of it
    exact s.registry.effect_close wall s.disk False
  -- a process that is killed does nothing any more
  | left => exact ⟨_, .quiet⟩

/-! ## Whole sessions -/

section Store

variable {β : Type} {f : Store → β} (hf : ∀ s nodes, f (s.holding nodes) = f s)
include hf

/-- What does not depend on the nodes that a store knows stays as it is in every action. -/
theorem store_step (s : Session σ) (a : Action) :
    f (s.step a).registry.store = f s.registry.store := by
  obtain ⟨i, reading, heffect⟩ := s.step_effect a
  rw [heffect.store hf, Registry.store_asked]

/-- **The store stays the same but for the nodes it knows**, whatever is done and whatever fails. -/
theorem store_after (s : Session σ) (actions : List Action) :
    f (s.after actions).registry.store = f s.registry.store := by
  induction actions generalizing s with
  | nil => rfl
  | cons a rest ih => rw [after_cons, ih, store_step hf]

end Store

theorem path?_step (s : Session σ) (a : Action) :
    (s.step a).registry.store.path? = s.registry.store.path? :=
  store_step Store.path?_holding s a

/-- A session works on one document, if it works on any. -/
theorem path?_after (s : Session σ) (actions : List Action) :
    (s.after actions).registry.store.path? = s.registry.store.path? :=
  store_after Store.path?_holding s actions

theorem isReadOnly_step (s : Session σ) (a : Action) :
    (s.step a).registry.isReadOnly = s.registry.isReadOnly :=
  store_step Store.isReadOnly_holding s a

/-- A session that is read-only stays so, and one that may write may always. -/
theorem isReadOnly_after (s : Session σ) (actions : List Action) :
    (s.after actions).registry.isReadOnly = s.registry.isReadOnly :=
  store_after Store.isReadOnly_holding s actions

variable {R : σ → σ → Prop} {s : Session σ}

/-- What holds of every replacement of the document holds of an action. -/
theorem within_step (hR : s.registry.store.Within R) (a : Action) : R s.disk (s.step a).disk := by
  obtain ⟨i, reading, heffect⟩ := s.step_effect a
  exact heffect.within (by rwa [Registry.store_asked])

/-- What holds of every replacement of the document holds of a run of actions. -/
theorem within_after (hR : s.registry.store.Within R) (actions : List Action) :
    R s.disk (s.after actions).disk := by
  induction actions generalizing s with
  | nil => exact hR.refl s.disk
  | cons a rest ih => exact hR.trans (within_step hR a) (ih (hR.of_path? (s.path?_step a)))

/-- **What a session does to the files.** A relation that holds of every replacement of the document
of the registry, if it has one, and of several things done one after the other, holds between the
files before a session and those after it. -/
theorem within_ended (hR : s.registry.store.Within R) (actions : List Action) (ending : Ending) :
    R s.disk ((s.after actions).ended ending) := by
  obtain ⟨r, heffect⟩ := (s.after actions).ended_effect ending
  exact hR.trans (within_after hR actions)
    (heffect.within (hR.of_path? (s.path?_after actions)))

end Session
end TimeIds
