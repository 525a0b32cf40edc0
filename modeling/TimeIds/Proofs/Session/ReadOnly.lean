import TimeIds.Proofs.Session.Nodes

/-!
# Registries that are read-only

A registry is read-only if its store says that the time between flushes is the longest there is. A
document that may be written can say so too, or the one who opens it. Then no flush is ever due, and
neither closing nor dropping the registry saves anything. A save by hand does not look at the
interval: on a document that may be written it goes ahead.

* **`Session.disk_after_of_isReadOnly`** – without a save by hand the files are left alone;
* **`Session.readOnly_writes_only_by_hand`** – and what such a save does.
-/

namespace TimeIds

namespace Registry

variable {σ : Type} [Disk (StateM σ)]

/-- A save by hand puts the document in place, whatever the interval. -/
theorem disk_flush_of_file {r : Registry} (hr : Document.Storable r.nodes) {f : FileStore}
    (hstore : r.store = .file f) (wall : Millis) (d : σ) :
    (r.kept ((r.flush wall : OnDisk σ (Except IdError Registry)) d)).disk =
      ((Disk.replaceText f.path (Document.text ⟨some r.interval, r.nodes⟩) :
        OnDisk σ (Except FileFault Unit)) d).2 := by
  have hdocument : f.document r.nodes = ⟨some r.interval, r.nodes⟩ := by
    unfold interval
    rw [hstore]
    rfl
  rw [kept_flush, disk_saving, hstore, ← hdocument]
  exact Store.disk_save_file (ensureDistinct_eq_ok_iff.2 hr.distinct) d

end Registry

namespace Session

variable {σ : Type} [Disk (StateM σ)] {s : Session σ}

/-- A registry that is read-only leaves the files alone in every action but a save by hand. -/
theorem disk_step_of_isReadOnly (hreadOnly : s.registry.isReadOnly = true) {a : Action}
    (hquiet : ∀ wall, a ≠ .ask (.flush wall)) : (s.step a).disk = s.disk := by
  obtain ⟨i, reading, heffect⟩ := s.step_effect a
  refine heffect.disk_of_isReadOnly ?_ fun ⟨wall, hflush⟩ => hquiet wall hflush
  rw [Registry.isReadOnly_asked]
  exact hreadOnly

/-- **Without a save by hand the files are left alone**, however long the session. -/
theorem disk_after_of_isReadOnly (hreadOnly : s.registry.isReadOnly = true)
    {actions : List Action} (hquiet : ∀ wall, .ask (.flush wall) ∉ actions) :
    (s.after actions).disk = s.disk := by
  induction actions generalizing s with
  | nil => rfl
  | cons a rest ih =>
    have hfirst : ∀ wall, a ≠ .ask (.flush wall) :=
      fun wall heq => hquiet wall (heq ▸ List.mem_cons_self)
    have hrest : ∀ wall, .ask (.flush wall) ∉ rest :=
      fun wall hmem => hquiet wall (List.mem_cons_of_mem _ hmem)
    have hstill : (s.step a).registry.isReadOnly = true := by rwa [isReadOnly_step]
    rw [after_cons, ih hstill hrest, disk_step_of_isReadOnly hreadOnly hfirst]

/-- Nor does it write when the process lets go. -/
theorem ended_of_isReadOnly (hreadOnly : s.registry.isReadOnly = true) (ending : Ending) :
    s.ended ending = s.disk := by
  obtain ⟨r, heffect⟩ := s.ended_effect ending
  exact heffect.disk_of_isReadOnly hreadOnly not_false

/-- A store that writes no document leaves the files alone, saves by hand or not. -/
theorem ended_of_no_path (hpath : s.registry.store.path? = none) (actions : List Action)
    (ending : Ending) : (s.after actions).ended ending = s.disk := by
  -- that nothing changes is itself a relation that every save keeps
  have hwithin : s.registry.store.Within (σ := σ) Eq :=
    ⟨fun _ => rfl, fun h h' => h.trans h', by rw [hpath]; exact nofun⟩
  exact (within_ended hwithin actions ending).symm

/-- A save by hand puts the live nodes in the document, read-only or not. -/
theorem disk_step_flush {r : Registry} (hholder : s.holder = .free r)
    (hr : Document.Storable r.nodes) {f : FileStore} (hstore : r.store = .file f) (time : Millis) :
    (s.step (.ask (.flush time))).disk =
      ((Disk.replaceText f.path (Document.text ⟨some r.interval, r.nodes⟩) :
        OnDisk σ (Except FileFault Unit)) s.disk).2 := by
  have hstep : (s.step (.ask (.flush time))).disk =
      (r.kept ((r.flush time : OnDisk σ (Except IdError Registry)) s.disk)).disk := by
    unfold step
    dsimp only
    rw [hholder]
    rfl
  rw [hstep, Registry.disk_flush_of_file hr hstore]

/-- **A registry that is read-only writes by hand alone.** Whatever store it was loaded from, it stays
read-only. If that is no document that may be written, or nobody saves by hand, the file system is as
it was when the registry was opened, at any time and however the process lets go. A save by hand on
such a document, though, puts the live nodes into it. -/
theorem readOnly_writes_only_by_hand {store : Store} {draws : Draws} {wall : Millis} {d₀ d : σ}
    {r : Registry}
    (hload : (Registry.load store draws wall : OnDisk σ (Except IdError Registry)) d₀ =
      (.ok r, d)) (hreadOnly : r.isReadOnly = true) (actions : List Action) :
    let s := (⟨.free r, d⟩ : Session σ).after actions
    s.registry.isReadOnly = true ∧
      ((∀ f, store ≠ .file f) ∨ (∀ time, .ask (.flush time) ∉ actions) →
        s.disk = d ∧ ∀ ending, s.ended ending = d) ∧
      ∀ f r', store = .file f → s.holder = .free r' → ∀ time,
        (s.step (.ask (.flush time))).disk =
          ((Disk.replaceText f.path (Document.text ⟨some readOnlyInterval, r'.nodes⟩) :
            OnDisk σ (Except FileFault Unit)) s.disk).2 := by
  intro s
  have hstill : s.registry.isReadOnly = true := by
    rw [show s.registry.isReadOnly = r.isReadOnly from isReadOnly_after _ _]
    exact hreadOnly
  refine ⟨hstill, ?_, ?_⟩
  · intro hquiet
    suffices h : ∀ ending, s.ended ending = d from ⟨h .left, h⟩
    intro ending
    -- either there is no document that could be written, or nobody asks for it
    rcases hquiet with hkind | hquiet
    · have hpath : r.store.path? = none := by
        rw [Registry.path?_of_load hload]
        cases store with
        | file f => exact absurd rfl (hkind f)
        | memory nodes => rfl
        | resource path nodes => rfl
      exact ended_of_no_path (s := ⟨.free r, d⟩) hpath actions ending
    · rw [ended_of_isReadOnly hstill]
      exact disk_after_of_isReadOnly (s := ⟨.free r, d⟩) hreadOnly hquiet
  · rintro f r' rfl hholder time
    have hregistry : s.registry = r' := by
      unfold registry
      rw [hholder]
      rfl
    -- the document is still the one that was opened
    have hpath : r'.store.path? = some f.path := by
      rw [← hregistry, show s.registry.store.path? = r.store.path? from path?_after _ _,
        Registry.path?_of_load hload]
      rfl
    obtain ⟨f', hstore, hsame⟩ := Store.exists_file_of_path? hpath
    -- nodes that were loaded pass the check, so the save goes through to the files
    have hkeeps : r.Keeps (r.nodes.map Node.id) :=
      ⟨Registry.storable_of_load (.file f) hload, rfl⟩
    have hstorable : Document.Storable r'.nodes := by
      rw [← hregistry]
      exact (keeps_after (s := ⟨.free r, d⟩) hkeeps actions).storable
    have hinterval : r'.interval = readOnlyInterval := by
      rw [hregistry] at hstill
      exact eq_of_beq hstill
    rw [disk_step_flush hholder hstorable hstore, hinterval, hsame]

/-- A document that asks never to be flushed. -/
def neverFlushed : FileTree where
  entries := [(["s.json"],
    .file (.text (Document.text ⟨some readOnlyInterval, [⟨⟨130, 0, 0, 0, 0, 1⟩, 0, 5⟩]⟩)))]

/-- The registry that opens it. -/
def neverFlushing : Registry :=
  { store := .file
      { path := ⟨"s.json"⟩
        documented := readOnlyInterval
        nodes := [⟨⟨130, 0, 0, 0, 0, 1⟩, 0, 5⟩] }
    primary := ⟨⟨130, 0, 0, 0, 0, 1⟩, 0, 5⟩
    lastFlush := 0 }

/-- It opens: an interval so long is an interval like any other. -/
theorem load_neverFlushed :
    (Registry.load (.file { path := ⟨"s.json"⟩ }) ⟨⟨2, 0, 0, 0, 0, 1⟩, fun _ => 7⟩ 0 :
      OnTree (Except IdError Registry)) neverFlushed = (.ok neverFlushing, neverFlushed) := by
  have hholds : neverFlushed.Holds ⟨"s.json"⟩
      (Document.text ⟨some readOnlyInterval, [⟨⟨130, 0, 0, 0, 0, 1⟩, 0, 5⟩]⟩) := ⟨rfl, rfl⟩
  have hstorable : Document.Storable [(⟨⟨130, 0, 0, 0, 0, 1⟩, 0, 5⟩ : Node)] :=
    Document.storable_iff.2 (by decide)
  exact Registry.load_of_holds (f := { path := ⟨"s.json"⟩ }) hholds hstorable _ 0

/-- Timestamps, flushes at the last time there is, and a generator. -/
theorem readOnly_writes_only_by_hand_to_the_last_time :
    (Registry.load (.file { path := ⟨"s.json"⟩ }) ⟨⟨2, 0, 0, 0, 0, 1⟩, fun _ => 7⟩ 0 :
        OnTree (Except IdError Registry)) neverFlushed = (.ok neverFlushing, neverFlushed) ∧
      neverFlushing.isReadOnly = true ∧
      ((⟨.free neverFlushing, neverFlushed⟩ : Session FileTree).after
          [.ask (.issue 0 (some 9)), .ask (.flushIfDue Int64.maxValue), .adopt,
            .call ⟨some 9, Int64.maxValue⟩]).ended (.closed 0) = neverFlushed := by
  have hreadOnly : neverFlushing.isReadOnly = true := rfl
  obtain ⟨-, hunchanged, -⟩ := readOnly_writes_only_by_hand load_neverFlushed hreadOnly
    [.ask (.issue 0 (some 9)), .ask (.flushIfDue Int64.maxValue), .adopt,
      .call ⟨some 9, Int64.maxValue⟩]
  exact ⟨load_neverFlushed, hreadOnly, (hunchanged (.inr (by simp))).2 (.closed 0)⟩

/-- A registry that is read-only, and a save by hand that changes its document. -/
theorem readOnly_flush_writes :
    (Registry.load (.file { path := ⟨"s.json"⟩ }) ⟨⟨2, 0, 0, 0, 0, 1⟩, fun _ => 7⟩ 0 :
        OnTree (Except IdError Registry)) neverFlushed = (.ok neverFlushing, neverFlushed) ∧
      neverFlushing.isReadOnly = true ∧
      ((⟨.free neverFlushing, neverFlushed⟩ : Session FileTree).after
        [.ask (.issue 0 (some 9)), .ask (.flush 0)]).disk ≠ neverFlushed :=
  ⟨load_neverFlushed, rfl, by decide +kernel⟩

end Session
end TimeIds
