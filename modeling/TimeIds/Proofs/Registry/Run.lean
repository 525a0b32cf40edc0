import TimeIds.Proofs.Registry.AllOrNothing

/-!
# Runs of a registry

An open registry is asked for timestamps on its nodes, to save them, and to save them if that is
due. `Opened` is a registry with the files it works on, `Opened.step` what is left of both after a
request and `Opened.after` what a whole run leaves. The files may be any state with any four
operations on it, so that they refuse whatever they like.

A request issues at most one timestamp and then saves at most once (`Opened.step_effect`). A
timestamp changes the node it is issued on, and a save changes no live node, so:

* **`Registry.asked_of_lt`** – what a timestamp does to a registry, be it issued or refused;
* **`Registry.Effect.nodes`**, **`Registry.Effect.store`** – a save leaves the live nodes alone, and
  the store is the same but for the nodes it knows;
* **`Opened.getElem?_nodes_after`** – after a run each node is where its own readings lead it;
* **`Opened.writes_after`** – a registry goes on writing its document.
-/

namespace TimeIds

/-- What an open registry is asked for. -/
inductive Request
  /-- A timestamp on the node at a position, for a clock reading. -/
  | issue (position : Nat) (reading : Reading)
  | flush (wall : Millis)
  | flushIfDue (now : Millis)

/-- A registry and the files it works on. -/
structure Opened (σ : Type) where
  registry : Registry
  disk : σ

/-! ## One timestamp -/

namespace Registry

/-- The registry after a timestamp was asked for. There is nothing to ask of a position without a
node. -/
def asked (r : Registry) (i : Nat) (reading : Reading) : Registry :=
  if h : i < r.nodes.length then
    match r.issue ⟨i, h⟩ reading with
    | .ok (_, r') => r'
    | .error _ => r
  else r

/-- **A timestamp changes the node it is issued on**, and nothing else. A refusal moves the node
nowhere, so it is told in the same way. -/
theorem asked_of_lt (r : Registry) {i : Nat} (hi : i < r.nodes.length) (reading : Reading) :
    r.asked i reading = r.set i (r.nodes[i].step reading) := by
  unfold asked
  rw [dif_pos hi]
  unfold issue
  cases reading with
  -- a refusal is told as a step that leads nowhere
  | none =>
    rw [Node.step_none, set_getElem _ hi]
    rfl
  | some ticks =>
    rw [show r.nodes[(⟨i, hi⟩ : Fin r.nodes.length)] = r.nodes[i] from rfl, Node.issue_some]
    rfl

/-- Past the nodes there is nothing to issue on. -/
theorem asked_of_le (r : Registry) {i : Nat} (hi : r.nodes.length ≤ i) (reading : Reading) :
    r.asked i reading = r := dif_neg (Nat.not_lt.2 hi)

@[simp] theorem asked_none (r : Registry) (i : Nat) : r.asked i none = r := by
  by_cases hi : i < r.nodes.length
  · rw [asked_of_lt r hi, Node.step_none, set_getElem]
  · exact r.asked_of_le (Nat.not_lt.1 hi) none

/-- A timestamp is kept in the live nodes until the next save. -/
@[simp] theorem store_asked (r : Registry) (i : Nat) (reading : Reading) :
    (r.asked i reading).store = r.store := by
  by_cases hi : i < r.nodes.length
  · rw [asked_of_lt r hi, store_set]
  · rw [r.asked_of_le (Nat.not_lt.1 hi)]

theorem isReadOnly_asked (r : Registry) (i : Nat) (reading : Reading) :
    (r.asked i reading).isReadOnly = r.isReadOnly :=
  congrArg Store.isReadOnly (r.store_asked i reading)

/-- The node at the first position is the primary one, and it is always there. -/
theorem asked_zero (r : Registry) (reading : Reading) :
    r.asked 0 reading = { r with primary := r.primary.step reading } :=
  r.asked_of_lt (Nat.succ_pos _) reading

/-- What a timestamp leaves of one node. -/
theorem getElem?_nodes_asked (r : Registry) (i : Nat) (reading : Reading) (p : Nat) :
    (r.asked i reading).nodes[p]? =
      r.nodes[p]?.map fun n => if i = p then n.step reading else n := by
  by_cases hi : i < r.nodes.length
  · rw [asked_of_lt r hi, nodes_set, List.getElem?_set]
    by_cases hp : i = p
    · subst hp
      simp [hi]
    · simp [hp]
  · -- past the nodes there is no node to be changed either
    have hi := Nat.not_lt.1 hi
    rw [r.asked_of_le hi]
    by_cases hp : i = p
    · subst hp
      simp [hi]
    · simp [hp]

/-! ### The time of the next flush -/

theorem lastFlush_set (r : Registry) (i : Nat) (n : Node) : (r.set i n).lastFlush = r.lastFlush := by
  cases i <;> rfl

theorem nextFlush_set (r : Registry) (i : Nat) (n : Node) : (r.set i n).nextFlush = r.nextFlush := by
  unfold nextFlush isReadOnly interval
  rw [store_set, lastFlush_set]

/-- A timestamp puts no flush off, since the time of the next depends on the last save alone. -/
theorem nextFlush_asked (r : Registry) (i : Nat) (reading : Reading) :
    (r.asked i reading).nextFlush = r.nextFlush := by
  by_cases hi : i < r.nodes.length
  · rw [asked_of_lt r hi, nextFlush_set]
  · rw [r.asked_of_le (Nat.not_lt.1 hi)]

/-! ### The document -/

/-- A timestamp names no other node and gives no longer sequence, so what may be written stays so. -/
theorem Writes.asked {r : Registry} {path : Path} {override : Option UInt64}
    (hr : r.Writes path override) (i : Nat) (reading : Reading) :
    (r.asked i reading).Writes path override := by
  by_cases hi : i < r.nodes.length
  · rw [asked_of_lt r hi]
    refine hr.set hi (Node.step_id _ _) (Node.masked_step ?_ _)
    exact hr.storable.masked _ (List.getElem_mem hi)
  · rw [r.asked_of_le (Nat.not_lt.1 hi)]
    exact hr

/-! ### The timestamp of a request -/

/-- The registry after the timestamp that a request asks for, if it asks for one. -/
def askedBy (r : Registry) : Request → Registry
  | .issue i reading => r.asked i reading
  | .flush _ => r
  | .flushIfDue _ => r

/-- A request that asks for none could as well ask for one without a tick. -/
theorem exists_asked_eq (r : Registry) (request : Request) :
    ∃ i reading, r.asked i reading = r.askedBy request := by
  cases request with
  | issue i reading => exact ⟨i, reading, rfl⟩
  | flush wall => exact ⟨0, none, r.asked_none 0⟩
  | flushIfDue now => exact ⟨0, none, r.asked_none 0⟩

/-- No request puts the next flush off by the timestamp it asks for. -/
theorem nextFlush_askedBy (r : Registry) (request : Request) :
    (r.askedBy request).nextFlush = r.nextFlush := by
  obtain ⟨i, reading, hasked⟩ := r.exists_asked_eq request
  rw [← hasked, nextFlush_asked]

/-! ## One save -/

variable {σ : Type}

/-- What there is after an operation that may fail: a failure leaves the registry as it is. -/
def kept (r : Registry) : Except IdError Registry × σ → Opened σ
  | (.ok r', d) => ⟨r', d⟩
  | (.error _, d) => ⟨r, d⟩

variable [Disk (StateM σ)]

/-- Registry and files after the nodes are saved, as they are or with every last tick put at `pin`. -/
def saving (r : Registry) (pin : Option Ticks) (time : Millis) (d : σ) : Opened σ :=
  match (r.store.save (savedNodes r.nodes pin) : OnDisk σ (Except IdError Store)) d with
  | (.ok store, d') => ⟨{ r with store, lastFlush := time }, d'⟩
  | (.error _, d') => ⟨r, d'⟩

/-- To the files a registry does what its store does. -/
theorem disk_saving (r : Registry) (pin : Option Ticks) (time : Millis) (d : σ) :
    (r.saving pin time d).disk =
      ((r.store.save (savedNodes r.nodes pin) : OnDisk σ (Except IdError Store)) d).2 := by
  unfold saving
  cases (r.store.save (savedNodes r.nodes pin) : OnDisk σ (Except IdError Store)) d with
  | mk outcome d' => cases outcome <;> rfl

/-- A save by hand saves the nodes as they are. -/
theorem kept_flush (r : Registry) (wall : Millis) (d : σ) :
    r.kept ((r.flush wall : OnDisk σ (Except IdError Registry)) d) = r.saving none wall d := by
  unfold flush saving savedNodes
  rw [OnDisk.bind_apply]
  cases (r.store.save r.nodes : OnDisk σ (Except IdError Store)) d with
  | mk outcome d' => cases outcome <;> rfl

/-- A due flush saves the nodes an interval ahead. -/
theorem kept_flushIfDue (r : Registry) (now : Millis) (d : σ) :
    let flushed := (r.flushIfDue now : OnDisk σ (Except IdError (Bool × Registry))) d
    r.kept (flushed.1.map Prod.snd, flushed.2) =
      if r.isReadOnly || now < r.nextFlush then ⟨r, d⟩
      else r.saving (some (r.flushTicks now)) now d := by
  intro flushed
  unfold flushed flushIfDue saving savedNodes pinned
  split
  · rfl
  · rw [OnDisk.bind_apply]
    unfold Store.saveAt
    cases (r.store.save (r.nodes.map fun n => { n with lastTicks := r.flushTicks now }) :
      OnDisk σ (Except IdError Store)) d with
    | mk outcome d' => cases outcome <;> rfl

/-- What an operation may do to a registry and the files, once a timestamp is issued: nothing, or
one save. A registry that is read-only saves only by hand. -/
inductive Effect (byHand : Prop) (r : Registry) (d : σ) : Registry → σ → Prop
  | quiet : Effect byHand r d r d
  | saved (pin : Option Ticks) (time : Millis) (hmay : byHand ∨ r.isReadOnly = false) :
      Effect byHand r d (r.saving pin time d).registry (r.saving pin time d).disk

namespace Effect

variable {byHand : Prop} {r r' : Registry} {d d' : σ}

/-- A save leaves the live nodes as they are, also one that writes them an interval ahead. -/
theorem nodes (h : r.Effect byHand d r' d') : r'.nodes = r.nodes := by
  cases h with
  | quiet => rfl
  | saved pin time hmay =>
    unfold saving
    split <;> rfl

/-- What does not depend on the nodes that the store knows stays as it is. -/
theorem store {β : Type} {f : Store → β} (hf : ∀ s nodes, f (s.holding nodes) = f s)
    (h : r.Effect byHand d r' d') : f r'.store = f r.store := by
  cases h with
  | quiet => rfl
  | saved pin time hmay =>
    unfold saving
    split
    · next store d₁ hsave =>
      dsimp only
      rw [Store.eq_holding_of_save hsave, hf]
    · rfl

/-- A registry that is read-only leaves the files alone, but for a save by hand. -/
theorem disk_of_isReadOnly (h : r.Effect byHand d r' d') (hreadOnly : r.isReadOnly = true)
    (hhand : ¬byHand) : d' = d := by
  cases h with
  | quiet => rfl
  | saved pin time hmay =>
    rcases hmay with hmay | hmay
    · exact absurd hmay hhand
    · rw [hmay] at hreadOnly
      cases hreadOnly

/-- What holds of every replacement of the document, and of doing nothing, holds of an effect. -/
theorem within {R : σ → σ → Prop} (h : r.Effect byHand d r' d') (hR : r.store.Within R) : R d d' := by
  cases h with
  | quiet => exact hR.refl d
  | saved pin time hmay =>
    rw [disk_saving]
    exact hR.save _ d

/-- A registry that writes its document goes on writing it, whether or not a save is refused. -/
theorem writes {path : Path} {override : Option UInt64} (h : r.Effect byHand d r' d')
    (hr : r.Writes path override) : r'.Writes path override := by
  cases h with
  | quiet => exact hr
  | saved pin time hmay =>
    unfold saving
    split
    · next store d₁ hsave =>
      rw [Store.eq_holding_of_save hsave]
      exact hr.resaved _ time
    · exact hr

end Effect

/-- A save by hand does not look at the interval. -/
theorem effect_flush (r : Registry) (wall : Millis) (d : σ) (byHand : Prop)
    (hmay : byHand ∨ r.isReadOnly = false) :
    let after := r.kept ((r.flush wall : OnDisk σ (Except IdError Registry)) d)
    r.Effect byHand d after.registry after.disk := by
  intro after
  rw [show after = r.saving none wall d from r.kept_flush wall d]
  exact .saved none wall hmay

/-- A due flush is never a save by hand, since a registry that is read-only has none. -/
theorem effect_flushIfDue (r : Registry) (now : Millis) (d : σ) (byHand : Prop) :
    let flushed := (r.flushIfDue now : OnDisk σ (Except IdError (Bool × Registry))) d
    let after := r.kept (flushed.1.map Prod.snd, flushed.2)
    r.Effect byHand d after.registry after.disk := by
  intro flushed after
  rw [show after = _ from r.kept_flushIfDue now d]
  split
  · exact .quiet
  · -- that a flush is due says that the registry may be written
    next hdue =>
    simp only [Bool.or_eq_true, not_or, Bool.not_eq_true] at hdue
    exact .saved _ now (.inr hdue.1)

/-- Closing saves at most once, and never by hand. What becomes of the registry is not told. -/
theorem effect_close (r : Registry) (wall : Millis) (d : σ) (byHand : Prop) :
    ∃ r', r.Effect byHand d r' ((r.close wall : OnDisk σ (Except IdError Unit)) d).2 := by
  unfold close
  split
  · exact ⟨r, .quiet⟩
  · next hwritable =>
    -- a registry that is closed saves as by hand, but only once it is known not to be read-only
    have heffect := r.effect_flush wall d byHand (.inr (by simpa using hwritable))
    rw [OnDisk.bind_apply]
    cases hflush : (r.flush wall : OnDisk σ (Except IdError Registry)) d with
    | mk outcome d' =>
      rw [hflush] at heffect
      cases outcome with
      | error e => exact ⟨_, heffect⟩
      | ok r' => exact ⟨_, heffect⟩

end Registry

/-! ## Requests -/

namespace Opened

variable {σ : Type} [Disk (StateM σ)]

/-- Registry and files after a request. -/
def step (s : Opened σ) : Request → Opened σ
  | .issue i reading => ⟨s.registry.asked i reading, s.disk⟩
  | .flush wall => s.registry.kept ((s.registry.flush wall : OnDisk σ _) s.disk)
  | .flushIfDue now =>
    let flushed := (s.registry.flushIfDue now : OnDisk σ _) s.disk
    s.registry.kept (flushed.1.map Prod.snd, flushed.2)

/-- Registry and files after a run. -/
def after (s : Opened σ) (requests : List Request) : Opened σ := requests.foldl step s

/-- The readings of the requests for timestamps on one node. -/
def readingsOn (position : Nat) (requests : List Request) : List Reading :=
  requests.filterMap fun
    | .issue i reading => if i = position then some reading else none
    | _ => none

/-! ### One request -/

/-- **What a request does.** It issues the timestamp it asks for, if any, and then saves at most
once. -/
theorem step_effect (s : Opened σ) (request : Request) (byHand : Prop)
    (hhand : ∀ wall, request = .flush wall → byHand) :
    (s.registry.askedBy request).Effect byHand s.disk (s.step request).registry
      (s.step request).disk := by
  cases request with
  | issue i reading => exact .quiet
  | flush wall => exact s.registry.effect_flush wall s.disk byHand (.inl (hhand wall rfl))
  | flushIfDue now => exact s.registry.effect_flushIfDue now s.disk byHand

/-- What a request leaves of one node. -/
theorem getElem?_nodes_step (s : Opened σ) (request : Request) (p : Nat) :
    (s.step request).registry.nodes[p]? =
      s.registry.nodes[p]?.map (·.after (readingsOn p [request])) := by
  -- a save leaves the nodes to the timestamp before it
  rw [(s.step_effect request True fun _ _ => trivial).nodes]
  cases request with
  | issue i reading =>
    show (s.registry.asked i reading).nodes[p]? = _
    rw [Registry.getElem?_nodes_asked]
    by_cases hp : i = p <;> simp [readingsOn, hp]
  | flush wall => simp [Registry.askedBy, readingsOn]
  | flushIfDue now => simp [Registry.askedBy, readingsOn]

/-! ### Whole runs -/

@[simp] theorem after_nil (s : Opened σ) : s.after [] = s := rfl

@[simp] theorem after_cons (s : Opened σ) (request : Request) (rest : List Request) :
    s.after (request :: rest) = (s.step request).after rest := rfl

/-- **After a run each node is where its own readings lead it**, whatever the saves come to. -/
theorem getElem?_nodes_after (s : Opened σ) (requests : List Request) (p : Nat) :
    (s.after requests).registry.nodes[p]? =
      s.registry.nodes[p]?.map (·.after (readingsOn p requests)) := by
  induction requests generalizing s with
  | nil => simp [readingsOn]
  | cons request rest ih =>
    -- the first request leads the node on by its reading, and the others from there
    have hreadings : readingsOn p (request :: rest) =
        readingsOn p [request] ++ readingsOn p rest := List.filterMap_append (l := [request])
    rw [after_cons, ih, getElem?_nodes_step, hreadings, Option.map_map]
    congr 1
    funext n
    exact (Node.after_append n _ _).symm

variable {s : Opened σ} {path : Path} {override : Option UInt64}

theorem writes_step (hs : s.registry.Writes path override) (request : Request) :
    (s.step request).registry.Writes path override := by
  obtain ⟨i, reading, hasked⟩ := s.registry.exists_asked_eq request
  refine (s.step_effect request True fun _ _ => trivial).writes ?_
  rw [← hasked]
  exact hs.asked i reading

/-- A registry that writes its document does so after any run. -/
theorem writes_after (hs : s.registry.Writes path override) (requests : List Request) :
    (s.after requests).registry.Writes path override := by
  induction requests generalizing s with
  | nil => exact hs
  | cons request rest ih => exact ih (writes_step hs request)

end Opened
end TimeIds
