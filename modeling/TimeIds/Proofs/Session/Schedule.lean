import TimeIds.Proofs.Session.Nodes

/-!
# When a registry is saved

A registry is asked again and again to save its nodes if that is due, at times that may go back or
be the last there are. Between two requests timestamps are issued, and the files may be changed by
others. A request that comes too early does nothing, and one that is refused leaves the registry as
it was, so the next one tries again; only a save moves the time of the next, and never back. So the
times of the saves are an interval apart.

* **`Registry.onSchedule_flushCall`** – one request;
* **`Session.flushes_on_schedule`** – all requests to a registry that may be written.
-/

namespace TimeIds

variable {σ : Type} [Disk (StateM σ)]

/-! ## One request -/

namespace Registry

variable {r : Registry} {path : Path} {override : Option UInt64}

/-- After a save the next flush is due an interval later. -/
theorem Writes.nextFlush_resaved (hr : r.Writes path override) (nodes : List Node) (time : Millis) :
    (r.resaved nodes time).nextFlush = after time r.interval := by
  rw [(hr.resaved nodes time).nextFlush_eq, resaved_interval]
  rfl

end Registry

/-- A request to flush at `now`: what there was before it, the answer, and what there is after. -/
structure FlushCall (σ : Type) where
  now : Millis
  before : Registry
  disk : σ
  answer : Except IdError Bool
  after : Registry
  disk' : σ

/-- The request that comes to a result. After a failure the registry at hand is the one before. -/
def FlushCall.ofResult (before : Registry) (disk : σ) (now : Millis)
    (result : Except IdError (Bool × Registry) × σ) : FlushCall σ :=
  let left := before.kept (result.1.map Prod.snd, result.2)
  ⟨now, before, disk, result.1.map Prod.fst, left.registry, left.disk⟩

/-- The request that is put to a registry. -/
def Registry.flushCall (r : Registry) (d : σ) (now : Millis) : FlushCall σ :=
  .ofResult r d now ((r.flushIfDue now : OnDisk σ (Except IdError (Bool × Registry))) d)

/-- How a registry that saves at an interval answers a request, and what it leaves. -/
structure FlushCall.OnSchedule (tree : σ → FileTree) (path : Path) (interval : UInt64)
    (c : FlushCall σ) : Prop where
  nodes : c.after.nodes = c.before.nodes
  early : c.answer = .ok false ↔ c.now < c.before.nextFlush
  quiet : c.answer = .ok false → c.after = c.before ∧ c.disk' = c.disk
  wrote : c.answer = .ok true →
    let document : Document :=
      ⟨some interval, Registry.pinned c.before.nodes (Ticks.ofMillis c.after.nextFlush)⟩
    c.after.nextFlush.toInt = min (c.now.toInt + min interval.toNat (2 ^ 63 - 1)) (2 ^ 63 - 1) ∧
      (tree c.disk').Holds path document.text ∧
      ∀ sequence, Document.ofText sequence document.text = .ok document
  refused : ∀ e, c.answer = .error e →
    ((c.before.store.saveAt c.before.nodes (c.before.flushTicks c.now) :
        OnDisk σ (Except IdError Store)) c.disk).1 = .error e ∧
      c.after = c.before ∧
      (∀ target, (tree c.disk).locate path = .ok target →
        (tree c.disk').get? target.place = (tree c.disk).get? target.place) ∧
      ∀ d : σ, (c.after.flushCall d c.now).answer ≠ .ok false

namespace Registry

variable {r : Registry} {path : Path} {override : Option UInt64} {tree : σ → FileTree}

/-- All that a request can come to, where the registry writes a document. -/
theorem exists_flush_of_flushCall (hr : r.Writes path override) (d : σ) (now : Millis) :
    ∃ result, r.flushCall d now = .ofResult r d now result ∧ r.Flush path now d result :=
  ⟨_, rfl, flush_flushIfDue hr now d⟩

/-- A request is only turned down before the next flush is due. -/
theorem answer_ne_of_due (hr : r.Writes path override) {now : Millis} (hdue : ¬now < r.nextFlush)
    (d : σ) : (r.flushCall d now).answer ≠ .ok false := by
  obtain ⟨result, hcall, hflush⟩ := exists_flush_of_flushCall hr d now
  rw [hcall]
  cases hflush with
  | quiet hearly => exact absurd hearly hdue
  | refused => exact nofun
  | wrote => exact nofun

/-- **One request.** -/
theorem onSchedule_flushCall (htree : Disk.Tracks tree) (hr : r.Writes path override) (d : σ)
    (now : Millis) : (r.flushCall d now).OnSchedule tree path r.interval := by
  obtain ⟨result, hcall, hflush⟩ := exists_flush_of_flushCall hr d now
  have hsave := hr.saveAt_eq now d
  rw [hcall]
  cases hflush with
  | quiet hearly =>
    exact ⟨rfl, ⟨fun _ => hearly, fun _ => rfl⟩, fun _ => ⟨rfl, rfl⟩, nofun, nofun⟩
  -- what is refused has touched the sibling alone, and leaves the registry to try again
  | @refused hdue fault d' hreplace =>
    rw [hreplace] at hsave
    refine ⟨rfl, ⟨nofun, fun hearly => absurd hearly hdue⟩, nofun, nofun, ?_⟩
    rintro e ⟨⟩
    exact ⟨congrArg Prod.fst hsave, rfl,
      fun target => (htree.agrees_of_replaceText hreplace).get?_target, answer_ne_of_due hr hdue⟩
  | @wrote hdue d' hreplace =>
    refine ⟨rfl, ⟨nofun, fun hearly => absurd hearly hdue⟩, nofun, fun _ => ?_, nofun⟩
    have hnext := hr.nextFlush_resaved (r.flushDocument now).nodes now
    have hstorable : Document.Storable (r.flushDocument now).nodes :=
      storable_pinned hr.storable (r.flushTicks now)
    have hdocument : r.flushDocument now = ⟨some r.interval, pinned r.nodes (Ticks.ofMillis
        (r.resaved (r.flushDocument now).nodes now).nextFlush)⟩ := by
      rw [hnext]
      rfl
    intro document
    -- the nodes are pinned at the time of the next flush, which is only set with them
    rw [show document = r.flushDocument now from hdocument.symm]
    refine ⟨?_, (htree.replaced_of_replaceText hreplace).holds, fun sequence =>
      Document.ofText_text sequence hstorable⟩
    show (r.resaved _ now).nextFlush.toInt = _
    rw [hnext, toInt_after]
    rfl

/-! ## One request after the other -/

/-- What a registry that writes a document has become: it writes it at the same interval, and its
next flush is not due earlier. -/
structure GoesOn (path : Path) (override : Option UInt64) (r r' : Registry) : Prop where
  writes : r'.Writes path override
  interval : r'.interval = r.interval
  nextFlush : r.nextFlush ≤ r'.nextFlush

theorem GoesOn.refl (hr : r.Writes path override) : GoesOn path override r r :=
  ⟨hr, rfl, Int64.le_refl _⟩

theorem GoesOn.trans {r' r'' : Registry} (h : GoesOn path override r r')
    (h' : GoesOn path override r' r'') : GoesOn path override r r'' :=
  ⟨h'.writes, h'.interval.trans h.interval, Int64.le_trans h.nextFlush h'.nextFlush⟩

/-- A timestamp between two requests puts nothing off. -/
theorem goesOn_asked (hr : r.Writes path override) (i : Nat) (reading : Reading) :
    GoesOn path override r (r.asked i reading) := by
  refine ⟨hr.asked i reading, ?_, ?_⟩
  · unfold interval
    rw [store_asked]
  · rw [nextFlush_asked]
    exact Int64.le_refl _

/-- A request puts the next flush off, or leaves it where it is. -/
theorem goesOn_flushCall (hr : r.Writes path override) (d : σ) (now : Millis) :
    GoesOn path override r (r.flushCall d now).after := by
  obtain ⟨result, hcall, hflush⟩ := exists_flush_of_flushCall hr d now
  rw [hcall]
  cases hflush with
  | quiet => exact .refl hr
  | refused => exact .refl hr
  | wrote hdue hreplace =>
    refine ⟨hr.resaved _ now, resaved_interval r _ now, ?_⟩
    show r.nextFlush ≤ (r.resaved _ now).nextFlush
    rw [hr.nextFlush_resaved]
    exact Int64.le_trans (Int64.not_lt.1 hdue) (le_after now r.interval)

/-- A save comes at the time of the next flush or later, and puts that off by an interval. -/
theorem times_of_wrote (hr : r.Writes path override) {d : σ} {now : Millis}
    (h : (r.flushCall d now).answer = .ok true) :
    r.nextFlush ≤ now ∧ (r.flushCall d now).after.nextFlush = after now r.interval := by
  obtain ⟨result, hcall, hflush⟩ := exists_flush_of_flushCall hr d now
  rw [hcall] at h ⊢
  cases hflush with
  | quiet => cases h
  | refused => cases h
  | wrote hdue hreplace => exact ⟨Int64.not_lt.1 hdue, hr.nextFlush_resaved _ now⟩

end Registry

/-- What happens to an open registry and to its files. -/
inductive Turn (σ : Type)
  | issue (position : Nat) (reading : Reading)
  /-- Others change the files. -/
  | outside (change : σ → σ)
  | flushIfDue (now : Millis)

namespace Registry

/-- The requests to flush. -/
def flushCalls (r : Registry) (d : σ) : List (Turn σ) → List (FlushCall σ)
  | [] => []
  | .issue i reading :: rest => flushCalls (r.asked i reading) d rest
  | .outside change :: rest => flushCalls r (change d) rest
  | .flushIfDue now :: rest =>
    r.flushCall d now :: flushCalls (r.flushCall d now).after (r.flushCall d now).disk' rest

variable {r : Registry} {path : Path} {override : Option UInt64}

/-- Each request is put to what the registry has become. -/
theorem exists_of_mem_flushCalls (hr : r.Writes path override) {d : σ} {turns : List (Turn σ)}
    {c : FlushCall σ} (hc : c ∈ r.flushCalls d turns) :
    ∃ r' d' now, c = r'.flushCall d' now ∧ GoesOn path override r r' := by
  induction turns generalizing r d with
  | nil => cases hc
  | cons turn rest ih =>
    cases turn with
    | issue i reading =>
      obtain ⟨r', d', now, rfl, hgoes⟩ := ih (hr.asked i reading) hc
      exact ⟨r', d', now, rfl, (goesOn_asked hr i reading).trans hgoes⟩
    | outside change => exact ih hr hc
    | flushIfDue now =>
      rcases List.mem_cons.1 hc with rfl | hc
      · exact ⟨r, d, now, rfl, .refl hr⟩
      · have hfirst := goesOn_flushCall hr d now
        obtain ⟨r', d', now', rfl, hgoes⟩ := ih hfirst.writes hc
        exact ⟨r', d', now', rfl, hfirst.trans hgoes⟩

/-- **Saves are an interval apart**, whatever is asked in between. -/
theorem pairwise_flushCalls (hr : r.Writes path override) (d : σ) (turns : List (Turn σ)) :
    (r.flushCalls d turns).Pairwise fun a b => a.answer = .ok true → b.answer = .ok true →
      after a.now r.interval ≤ b.now := by
  induction turns generalizing r d with
  | nil => exact .nil
  | cons turn rest ih =>
    cases turn with
    | issue i reading =>
      have hgoes := goesOn_asked hr i reading
      have hrest := ih hgoes.writes d
      rw [hgoes.interval] at hrest
      exact hrest
    | outside change => exact ih hr (change d)
    | flushIfDue now =>
      have hgoes := goesOn_flushCall hr d now
      have hrest := ih hgoes.writes (r.flushCall d now).disk'
      rw [hgoes.interval] at hrest
      refine List.pairwise_cons.2 ⟨fun b hb hfirst hsecond => ?_, hrest⟩
      -- the first save puts the next flush off, and nothing until the second brings it forward
      obtain ⟨r', d', now', rfl, hlater⟩ := exists_of_mem_flushCalls hgoes.writes hb
      have hnext : after now r.interval ≤ r'.nextFlush := by
        rw [← (times_of_wrote hr hfirst).2]
        exact hlater.nextFlush
      exact Int64.le_trans hnext (times_of_wrote hlater.writes hsecond).1

/-! ## Registries that may be written -/

/-- Only a store that writes a document gives a registry that may be written. -/
theorem exists_file_of_load {store : Store} {draws : Draws} {wall : Millis} {d₀ d : σ}
    (hload : (load store draws wall : OnDisk σ (Except IdError Registry)) d₀ = (.ok r, d))
    (hwritable : r.isReadOnly = false) : ∃ f, store = .file f := by
  obtain ⟨loaded, hloaded, rfl⟩ := exists_store_of_load hload
  unfold isReadOnly at hwritable
  rw [store_ofStore] at hwritable
  cases Store.loaded_of_load hloaded with
  | memory nodes => cases hwritable
  | resource path nodes hfound => cases hwritable
  | file hpath hfound => exact ⟨_, rfl⟩

end Registry

namespace Session

/-- A session on a document that may be written goes on writing it. -/
theorem writes_after {s : Session σ} {path : Path} {override : Option UInt64}
    (hs : s.registry.Writes path override) (actions : List Action) :
    (s.after actions).registry.Writes path override := by
  induction actions generalizing s with
  | nil => exact hs
  | cons a rest ih =>
    obtain ⟨i, reading, heffect⟩ := s.step_effect a
    exact ih (heffect.writes (hs.asked i reading))

/-- **A registry is saved on schedule.** Take one that may be written, at any time after it was
loaded, on any file system that does to its files what a tree does, with failures of its own. It is
asked to flush at any times, and in between timestamps are issued and others change the files. A
request changes no live node. It does nothing if and only if it is made before the next flush is
due. Otherwise it saves, puts the next flush off by an interval, and leaves a document that reads as
the live nodes at the tick of that time; or it fails as the store does, the registry and the
document are as they were, and a request at the same time tries again. Each save comes at least an
interval after every earlier one, or at the last time there is. -/
theorem flushes_on_schedule {tree : σ → FileTree} (htree : Disk.Tracks tree) {store : Store}
    {draws : Draws} {wall : Millis} {d₀ d : σ} {r : Registry}
    (hload : (Registry.load store draws wall : OnDisk σ (Except IdError Registry)) d₀ =
      (.ok r, d)) (hwritable : r.isReadOnly = false) (earlier : List Action)
    (turns : List (Turn σ)) :
    let s := (⟨.free r, d⟩ : Session σ).after earlier
    let calls := s.registry.flushCalls s.disk turns
    ∃ path, store.path? = some path ∧
      (∀ c ∈ calls, c.OnSchedule tree path r.interval) ∧
      calls.Pairwise fun a b => a.answer = .ok true → b.answer = .ok true →
        a.now ≤ b.now ∧
          (min (a.now.toInt + min r.interval.toNat (2 ^ 63 - 1)) (2 ^ 63 - 1) : Int) ≤
            b.now.toInt := by
  intro s calls
  obtain ⟨f, rfl⟩ := Registry.exists_file_of_load hload hwritable
  have hs : s.registry.Writes f.path f.override :=
    writes_after (s := ⟨.free r, d⟩) (Registry.writes_of_load hload hwritable) earlier
  have hinterval : s.registry.interval = r.interval :=
    store_after Store.interval_holding ⟨.free r, d⟩ earlier
  refine ⟨f.path, rfl, fun c hc => ?_, ?_⟩
  · obtain ⟨r', d', now, rfl, hgoes⟩ := Registry.exists_of_mem_flushCalls hs hc
    rw [← hinterval, ← hgoes.interval]
    exact Registry.onSchedule_flushCall htree hgoes.writes d' now
  · -- that a save comes an interval later is said in milliseconds, cut where the time ends
    refine (Registry.pairwise_flushCalls hs s.disk turns).imp ?_
    intro a b happart hfirst hsecond
    have hafter := happart hfirst hsecond
    rw [hinterval] at hafter
    refine ⟨Int64.le_trans (Registry.le_after a.now r.interval) hafter, ?_⟩
    rw [← Registry.toInt_after]
    exact Int64.le_iff_toInt_le.1 hafter

/-- A request too early, one while a directory stands in the way of the new text, one more at the
same time, and one at the last time there is. -/
def refusedOnce : List (Turn FileTree) :=
  [.flushIfDue 500, .outside (·.insert ["s.json.tmp"] .directory), .flushIfDue 2000,
    .outside (·.erase ["s.json.tmp"]), .flushIfDue 2000, .issue 0 (some 3),
    .flushIfDue Int64.maxValue]

/-- Of the four requests the first is too early, the second is refused, and the third and the last
save. -/
theorem flushes_on_schedule_after_a_refusal :
    ∃ r, (Registry.load (.file { path := ⟨"s.json"⟩, override := some 1000 })
          ⟨⟨2, 0, 0, 0, 0, 1⟩, fun _ => 5⟩ 0 : OnTree (Except IdError Registry)) {} = (.ok r, {}) ∧
      r.isReadOnly = false ∧
      let s := (⟨.free r, {}⟩ : Session FileTree).after [.ask (.issue 0 (some 9))]
      let calls := s.registry.flushCalls s.disk refusedOnce
      calls.map (·.answer.toOption) = [some false, none, some true, some true] ∧
        calls.map (·.after.nextFlush) = [1000, 1000, 3000, Int64.maxValue] ∧
        (∀ c ∈ calls, c.OnSchedule id ⟨"s.json"⟩ 1000) ∧
        calls.Pairwise fun a b => a.answer = .ok true → b.answer = .ok true →
          a.now ≤ b.now ∧
            (min (a.now.toInt + min (1000 : UInt64).toNat (2 ^ 63 - 1)) (2 ^ 63 - 1) : Int) ≤
              b.now.toInt := by
  have hload : (Registry.load (.file { path := ⟨"s.json"⟩, override := some 1000 })
      ⟨⟨2, 0, 0, 0, 0, 1⟩, fun _ => 5⟩ 0 : OnTree (Except IdError Registry)) {} = (.ok _, {}) := rfl
  obtain ⟨path, hpath, hcalls, happart⟩ := flushes_on_schedule Disk.tracks_tree hload rfl
    [.ask (.issue 0 (some 9))] refusedOnce
  cases hpath
  exact ⟨_, hload, rfl, by decide +kernel, by decide +kernel, hcalls, happart⟩

end Session
end TimeIds
