import TimeIds.Proofs.Uuid.Run

/-!
# UUIDs and the file system

A generator writes its nodes away while it issues UUIDs. Nothing of that comes back into them: its
answers, and the primary node after each of them, are those of a node alone that is given the same
readings. So two generators on one primary node answer alike, whatever stores they keep, whatever is
in the files, and whichever of their flushes fail.

The file system may be any state at all with any four operations on it, so that its refusals are
arbitrary.

* **`UuidGenerator.answer_eq`** – one call;
* **`UuidGenerator.answers_eq`** – a whole run;
* **`UuidGenerator.answers_independent`** – two runs for the same readings.
-/

namespace TimeIds

/-- What a call for a UUID came to, and the primary node after it. -/
structure Answer where
  result : Except IdError Uuid
  primary : Node

namespace Node

/-- The answer of a node that is not kept anywhere. -/
def answer (n : Node) (reading : Reading) : Answer where
  result := (n.mark reading).outcome.map (Uuid.ofTimestamp · n.id)
  primary := n.step reading

def answers (n : Node) : List Reading → List Answer
  | [] => []
  | reading :: rest => n.answer reading :: (n.step reading).answers rest

end Node

namespace UuidGenerator

section Calls

variable {m : Type → Type} [Monad m] [Disk m]

/-- The answer to a call, and the generator after it. A call that is refused leaves the generator
as it is. -/
def answer (g : UuidGenerator) (c : Call) : m (Answer × UuidGenerator) := do
  match ← g.next c.reading c.now with
  | .ok (uuid, g') => pure (⟨.ok uuid, g'.registry.primary⟩, g')
  | .error e => pure (⟨.error e, g.registry.primary⟩, g)

/-- The answers to a run of calls, and the generator after them. -/
def answers (g : UuidGenerator) : List Call → m (List Answer × UuidGenerator)
  | [] => pure ([], g)
  | c :: rest => do
    let (first, g) ← g.answer c
    let (later, g) ← g.answers rest
    pure (first :: later, g)

end Calls

variable {σ : Type} [Disk (StateM σ)]

/-- The answer to a call is that of the primary node, and the generator goes on from there. -/
theorem answer_eq (g : UuidGenerator) (c : Call) (d : σ) :
    ((g.answer c : OnDisk σ _) d).1.1 = g.registry.primary.answer c.reading ∧
      ((g.answer c : OnDisk σ _) d).1.2.registry.primary = g.registry.primary.step c.reading := by
  have hanswer : (g.answer c : OnDisk σ _) d = _ := OnDisk.bind_apply (g.next c.reading c.now) _ d
  rw [hanswer]
  cases hc : c.reading with
  | none =>
    rw [next_none]
    exact ⟨rfl, rfl⟩
  | some ticks =>
    rw [next_some]
    -- the flush is the one step that meets the file system, and it leaves the nodes alone
    have hflushed := (List.cons.inj
      ((g.issued (some ticks)).effect_flushIfDue c.now d True).nodes).1
    refine ⟨?_, hflushed⟩
    unfold Node.answer
    rw [Node.mark_some]
    exact congrArg (Answer.mk _) hflushed

/-- The answers to a run are those of the primary node. -/
theorem answers_eq (g : UuidGenerator) (calls : List Call) (d : σ) :
    ((g.answers calls : OnDisk σ _) d).1.1 =
      g.registry.primary.answers (calls.map Call.reading) := by
  induction calls generalizing g d with
  | nil => rfl
  | cons c rest ih =>
    obtain ⟨hanswer, hprimary⟩ := answer_eq g c d
    have hrun : ((g.answers (c :: rest) : OnDisk σ _) d).1.1 =
        ((g.answer c : OnDisk σ _) d).1.1 ::
          ((((g.answer c : OnDisk σ _) d).1.2.answers rest : OnDisk σ _)
            ((g.answer c : OnDisk σ _) d).2).1.1 := rfl
    rw [hrun, ih, hanswer, hprimary]
    rfl

/-- **UUIDs do not depend on what is kept of the nodes.** Two runs on the same primary node, for the
same clock readings, give the same answers and leave the same node after each of them. -/
theorem answers_independent {σ' : Type} [Disk (StateM σ')] {g g' : UuidGenerator}
    (hprimary : g.registry.primary = g'.registry.primary) {calls calls' : List Call}
    (hreadings : calls.map Call.reading = calls'.map Call.reading) (d : σ) (d' : σ') :
    ((g.answers calls : OnDisk σ _) d).1.1 = ((g'.answers calls' : OnDisk σ' _) d').1.1 := by
  rw [answers_eq, answers_eq, hprimary, hreadings]

/-- One run writes its document, the other has another node, another interval and other times, and
is refused every write. -/
theorem answers_independent_of_refused_writes :
    let n : Node := ⟨⟨2, 0, 0, 0, 0, 1⟩, 10, 5⟩
    let other : Node := ⟨⟨4, 0, 0, 0, 0, 1⟩, 99, 7⟩
    let g := ofRegistry ⟨.file { path := ⟨"s.json"⟩ }, n, [], 0⟩
    let g' := ofRegistry ⟨.file { path := ⟨"away/s.json"⟩, override := some 7 }, n, [other], 0⟩
    let calls : List Call := [⟨some 11, 5000⟩, ⟨none, 6000⟩, ⟨some 11, 6000⟩]
    let calls' : List Call := [⟨some 11, 100⟩, ⟨none, 200⟩, ⟨some 11, 300⟩]
    g.registry.primary = g'.registry.primary ∧
      calls.map Call.reading = calls'.map Call.reading ∧
      ((g.answers calls : OnDisk FileTree _) {}).1.1 =
        ((g'.answers calls' : OnDisk FileTree _) {}).1.1 ∧
      ((g.answers calls : OnDisk FileTree _) {}).2.isPresent ⟨"s.json"⟩ = true ∧
      ((g'.answers calls' : OnDisk FileTree _) {}).2 = {} := by
  intro n other g g' calls calls'
  have hprimary : g.registry.primary = g'.registry.primary := rfl
  have hreadings : calls.map Call.reading = calls'.map Call.reading := rfl
  have hsame := answers_independent hprimary hreadings ({} : FileTree) ({} : FileTree)
  exact ⟨hprimary, hreadings, hsame, by decide +kernel, by decide +kernel⟩

end UuidGenerator
end TimeIds
