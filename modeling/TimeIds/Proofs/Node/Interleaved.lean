import TimeIds.Proofs.Node.Marks

/-!
# Interleaved runs of several nodes

Calls for timestamps go to several nodes in any order. `Node.events` is the log of such a run, and
the entries of one node in it are the run of that node alone (`filter_events`); so what is known of
single runs carries over, and neither failed calls nor calls on other nodes matter.

* **`Node.filter_events`** – the log of one node;
* **`Node.events_eq_append_cons`** – an event of the log is a call on a node in a known state;
* **`Node.run_between`** – two calls on one node are the ends of a run of that node;
* **`Node.nodup_of_few_bumps`** – nothing is issued twice within a round of bumps;
* **`Node.events_repeat_iff`** – when two calls on a node issue the same timestamp.
-/

namespace TimeIds

/-- The record of a call, with the node it was made on. -/
structure Event extends Mark where
  node : NodeId

namespace Event

/-- The node, the tick and the clock sequence that a call issued. -/
def issue? (e : Event) : Option (NodeId × Timestamp) :=
  e.outcome.toOption.map fun t => (e.node, t)

/-- What an event issued is the timestamp of its outcome, on its own node. -/
theorem outcome_of_issue? {e : Event} {id : NodeId} {t : Timestamp}
    (h : e.issue? = some (id, t)) : e.node = id ∧ e.outcome = .ok t := by
  obtain ⟨t', ht', heq⟩ := Option.map_eq_some_iff.1 h
  obtain ⟨hid, rfl⟩ := Prod.mk.inj heq
  refine ⟨hid, ?_⟩
  cases hout : e.outcome with
  | error fault => rw [hout] at ht'; cases ht'
  | ok t => rw [hout] at ht'; cases ht'; rfl

end Event

/-- How many calls moved the clock sequence of one node on. -/
def bumpsOn (id : NodeId) (log : List Event) : Nat :=
  log.countP fun e => e.node == id && e.bumped

namespace Node

variable {k : Nat}

/-- The readings of the calls on one node. -/
def readingsOf (p : Fin k) (calls : List (Fin k × Reading)) : List Reading :=
  calls.filterMap fun c => if c.1 = p then some c.2 else none

/-- The nodes after a call on one of them. -/
def stepAt (nodes : Vector Node k) (c : Fin k × Reading) : Vector Node k :=
  nodes.set c.1 (nodes[c.1].step c.2)

/-- The nodes after a run of calls. -/
def afterCalls (nodes : Vector Node k) (calls : List (Fin k × Reading)) : Vector Node k :=
  calls.foldl stepAt nodes

/-- The log of a run of calls. -/
def events (nodes : Vector Node k) : List (Fin k × Reading) → List Event
  | [] => []
  | c :: rest => ⟨nodes[c.1].mark c.2, nodes[c.1].id⟩ :: events (stepAt nodes c) rest

/-- No two nodes have one identifier. -/
def Distinct (nodes : Vector Node k) : Prop :=
  ∀ p q : Fin k, nodes[p].id = nodes[q].id → p = q

/-! ## One call -/

theorem readingsOf_cons_same (p : Fin k) (reading : Reading) (rest : List (Fin k × Reading)) :
    readingsOf p ((p, reading) :: rest) = reading :: readingsOf p rest := by
  simp [readingsOf]

theorem readingsOf_cons_other {p q : Fin k} (hne : q ≠ p) (reading : Reading)
    (rest : List (Fin k × Reading)) : readingsOf p ((q, reading) :: rest) = readingsOf p rest := by
  simp [readingsOf, hne]

theorem stepAt_same (nodes : Vector Node k) (p : Fin k) (reading : Reading) :
    (stepAt nodes (p, reading))[p] = nodes[p].step reading := by
  simp [stepAt]

theorem stepAt_other (nodes : Vector Node k) {p q : Fin k} (hne : q ≠ p) (reading : Reading) :
    (stepAt nodes (q, reading))[p] = nodes[p] := by
  have hval : q.val ≠ p.val := fun h => hne (Fin.ext h)
  simp [stepAt, hval]

/-- A call leaves the identifiers as they are. -/
theorem stepAt_id (nodes : Vector Node k) (c : Fin k × Reading) (p : Fin k) :
    (stepAt nodes c)[p].id = nodes[p].id := by
  obtain ⟨q, reading⟩ := c
  by_cases hq : q = p
  · subst hq
    rw [stepAt_same, step_id]
  · rw [stepAt_other nodes hq]

/-- A call keeps identifiers distinct. -/
theorem Distinct.stepAt {nodes : Vector Node k} (h : Distinct nodes) (c : Fin k × Reading) :
    Distinct (stepAt nodes c) := by
  intro p q hid
  rw [stepAt_id, stepAt_id] at hid
  exact h p q hid

/-! ## Whole runs -/

/-- Each node is left by a run where its own readings lead it. -/
theorem afterCalls_get (nodes : Vector Node k) (calls : List (Fin k × Reading)) (p : Fin k) :
    (afterCalls nodes calls)[p] = nodes[p].after (readingsOf p calls) := by
  induction calls generalizing nodes with
  | nil => rfl
  | cons c rest ih =>
    obtain ⟨q, reading⟩ := c
    have hcons : afterCalls nodes ((q, reading) :: rest) =
        afterCalls (Node.stepAt nodes (q, reading)) rest := rfl
    rw [hcons, ih]
    by_cases hq : q = p
    · subst hq
      rw [stepAt_same, readingsOf_cons_same, after_cons]
    · -- neither this node nor its readings see the call
      rw [stepAt_other nodes hq, readingsOf_cons_other hq]

theorem Distinct.afterCalls {nodes : Vector Node k} (h : Distinct nodes)
    (calls : List (Fin k × Reading)) : Distinct (afterCalls nodes calls) := by
  intro p q hid
  rw [afterCalls_get, afterCalls_get, after_id, after_id] at hid
  exact h p q hid

/-- **The log of one node** is the run of that node alone. -/
theorem filter_events {nodes : Vector Node k} (h : Distinct nodes)
    (calls : List (Fin k × Reading)) (p : Fin k) :
    (events nodes calls).filter (·.node == nodes[p].id) =
      (nodes[p].marks (readingsOf p calls)).map fun m => ⟨m, nodes[p].id⟩ := by
  induction calls generalizing nodes with
  | nil => rfl
  | cons c rest ih =>
    obtain ⟨q, reading⟩ := c
    -- a call on another node is filtered out and leaves this node alone
    have hrest := ih (h.stepAt (q, reading))
    rw [stepAt_id] at hrest
    by_cases hq : q = p
    · subst hq
      rw [events, List.filter_cons_of_pos (by simp), hrest, stepAt_same, readingsOf_cons_same,
        marks, List.map_cons]
    · have hid : nodes[q].id ≠ nodes[p].id := fun heq => hq (h q p heq)
      rw [events, List.filter_cons_of_neg (by simpa using hid), hrest, stepAt_other nodes hq,
        readingsOf_cons_other hq]

/-- The bumps of a node in the log are those of its own run. -/
theorem bumpsOn_events {nodes : Vector Node k} (h : Distinct nodes)
    (calls : List (Fin k × Reading)) (p : Fin k) :
    bumpsOn nodes[p].id (events nodes calls) =
      bumpCount (nodes[p].marks (readingsOf p calls)) := by
  have hfilter : bumpsOn nodes[p].id (events nodes calls) =
      ((events nodes calls).filter (·.node == nodes[p].id)).countP (·.bumped) := by
    rw [List.countP_filter]
    simp only [bumpsOn, Bool.and_comm]
  rw [hfilter, filter_events h, List.countP_map]
  rfl

/-! ## Cuts of the log -/

theorem events_append (nodes : Vector Node k) (cs ds : List (Fin k × Reading)) :
    events nodes (cs ++ ds) = events nodes cs ++ events (afterCalls nodes cs) ds := by
  induction cs generalizing nodes with
  | nil => rfl
  | cons c cs ih =>
    rw [List.cons_append, events, ih (Node.stepAt nodes c), events, List.cons_append]
    rfl

/-- A cut of the log is a cut of the calls. -/
theorem events_eq_append {nodes : Vector Node k} {calls : List (Fin k × Reading)}
    {before rest : List Event} (h : events nodes calls = before ++ rest) :
    ∃ cs ds, calls = cs ++ ds ∧ events nodes cs = before ∧
      events (afterCalls nodes cs) ds = rest := by
  induction before generalizing nodes calls with
  | nil => exact ⟨[], calls, rfl, rfl, h⟩
  | cons e before ih =>
    cases calls with
    | nil => cases h
    | cons c calls =>
      rw [events, List.cons_append, List.cons.injEq] at h
      obtain ⟨hhead, htail⟩ := h
      obtain ⟨cs, ds, hcalls, hcs, hds⟩ := ih htail
      refine ⟨c :: cs, ds, by rw [hcalls, List.cons_append], ?_, hds⟩
      rw [events, hhead, hcs]

/-- **An event of the log is a call on a node** in the state that the earlier readings of this node
lead to. What follows in the log is the run from there. -/
theorem events_eq_append_cons {nodes : Vector Node k} {calls : List (Fin k × Reading)}
    {before rest : List Event} {e : Event} (h : events nodes calls = before ++ e :: rest) :
    ∃ (p : Fin k) (reading : Reading) (cs ds : List (Fin k × Reading)),
      e = ⟨(nodes[p].after (readingsOf p cs)).mark reading, nodes[p].id⟩ ∧
        events nodes cs = before ∧
        events (afterCalls nodes (cs ++ [(p, reading)])) ds = rest := by
  obtain ⟨cs, ds, -, hcs, hds⟩ := events_eq_append h
  cases ds with
  | nil => cases hds
  | cons c ds =>
    obtain ⟨p, reading⟩ := c
    rw [events, List.cons.injEq] at hds
    obtain ⟨he, hrest⟩ := hds
    refine ⟨p, reading, cs, ds, ?_, hcs, ?_⟩
    · rw [← he, ← afterCalls_get, afterCalls_get, after_id]
    · rw [← hrest, afterCalls, List.foldl_append]
      rfl

/-! ## Two calls on one node -/

/-- Between two calls of the log that issued timestamps on one node, that node makes a run of its own:
it begins in the state that the first call issued, ends with the tick of the second, and its bumps are
those that the log counts for the node after the first call. -/
theorem run_between {nodes : Vector Node k} (hdistinct : Distinct nodes)
    (hmasked : ∀ p : Fin k, nodes[p].Masked) {calls : List (Fin k × Reading)}
    {before between rest : List Event} {a b : Event} {s t : Timestamp}
    (hlog : events nodes calls = before ++ a :: (between ++ b :: rest)) (hnode : a.node = b.node)
    (hs : a.outcome = .ok s) (ht : b.outcome = .ok t) :
    ∃ (n : Node) (readings : List Reading) (ticks : Ticks), n.Masked ∧ s = n.stamp ∧
      t = (n.after (readings ++ [some ticks])).stamp ∧
      bumpsOn a.node (between ++ [b]) = bumpCount (n.marks (readings ++ [some ticks])) := by
  obtain ⟨p, reading, cs, es, ha, -, hes⟩ := events_eq_append_cons hlog
  let nodes₁ := afterCalls nodes (cs ++ [(p, reading)])
  have hdistinct₁ : Distinct nodes₁ := hdistinct.afterCalls _
  have hes : events nodes₁ es = between ++ b :: rest := hes
  obtain ⟨q, reading₁, cs₁, -, hb, hbetween, -⟩ := events_eq_append_cons hes
  -- the second call is on the node of the first
  have hpid : nodes₁[p].id = a.node := by rw [afterCalls_get, after_id, ha]
  have hqp : q = p := by
    have hqid : nodes₁[q].id = b.node := by rw [hb]
    exact hdistinct₁ q p (by rw [hqid, hpid, hnode])
  subst hqp
  have hmasked₁ : nodes₁[q].Masked := by
    rw [afterCalls_get]
    exact masked_after (hmasked q) _
  -- the state between the calls is the one that the first call left
  have hstart : nodes₁[q] = (nodes[q].after (readingsOf q cs)).step reading := by
    rw [afterCalls_get, readingsOf, List.filterMap_append, after_append]
    simp [readingsOf]
  rw [ha] at hs
  rw [hb] at ht
  -- it has a tick, since it issued a timestamp
  cases reading₁ with
  | none => cases ht
  | some ticks =>
    have hreadings : readingsOf q (cs₁ ++ [(q, some ticks)]) = readingsOf q cs₁ ++ [some ticks] := by
      simp [readingsOf]
    have hend : events nodes₁ (cs₁ ++ [(q, some ticks)]) = between ++ [b] := by
      rw [events_append, hbetween, hb, events, events, afterCalls_get, after_id]
    refine ⟨nodes₁[q], readingsOf q cs₁, ticks, hmasked₁, ?_, ?_, ?_⟩
    · rw [stamp_of_mark hs, hstart]
    · rw [stamp_of_mark ht, after_append, after_cons, after_nil]
    · rw [← hend, ← hpid, bumpsOn_events hdistinct₁, hreadings]

/-- A relation that holds across every two cuts of a list holds pairwise. -/
theorem pairwise_of_cuts {α : Type} {R : α → α → Prop} {l : List α}
    (h : ∀ before a between b rest, l = before ++ a :: (between ++ b :: rest) → R a b) :
    l.Pairwise R := by
  induction l with
  | nil => exact List.Pairwise.nil
  | cons x l ih =>
    refine List.pairwise_cons.2 ⟨?_, ?_⟩
    · intro b hb
      obtain ⟨between, rest, rfl⟩ := List.append_of_mem hb
      exact h [] x between b rest rfl
    · refine ih ?_
      rintro before a between b rest rfl
      exact h (x :: before) a between b rest rfl

/-- Restoring keeps identifiers, so nodes that have distinct ones before it have them afterwards. -/
theorem distinct_restore {nodes : Vector Node k} (h : (nodes.toList.map Node.id).Nodup) :
    Distinct (nodes.map restore) := by
  intro p q hid
  have hget : ∀ i : Fin k, (nodes.map restore)[i].id = nodes[i].id := by
    intro i
    simp
  rw [hget, hget] at hid
  have hp : p.val < (nodes.toList.map Node.id).length := by simp
  have hq : q.val < (nodes.toList.map Node.id).length := by simp
  have heq : (nodes.toList.map Node.id)[p.val] = (nodes.toList.map Node.id)[q.val] := by
    simpa using hid
  exact Fin.ext ((List.getElem_inj h).1 heq)

/-- Two calls of the log issued timestamps on one node. They issued the same one if the ticks are equal
and the bumps in between make whole rounds of the sequence; and equal ticks take a bump. -/
theorem stamp_eq_iff_of_events {nodes : Vector Node k} (hdistinct : Distinct nodes)
    (hmasked : ∀ p : Fin k, nodes[p].Masked) {calls : List (Fin k × Reading)}
    {before between rest : List Event} {a b : Event} {s t : Timestamp}
    (hlog : events nodes calls = before ++ a :: (between ++ b :: rest)) (hnode : a.node = b.node)
    (hs : a.outcome = .ok s) (ht : b.outcome = .ok t) :
    (s = t ↔ s.ticks = t.ticks ∧ 2 ^ 14 ∣ bumpsOn a.node (between ++ [b])) ∧
      (s.ticks = t.ticks → 0 < bumpsOn a.node (between ++ [b])) := by
  obtain ⟨n, readings, ticks, hn, rfl, rfl, hcount⟩ :=
    run_between hdistinct hmasked hlog hnode hs ht
  rw [hcount]
  refine ⟨stamp_eq_after_iff hn _, fun heq => bumpCount_pos_of_lastTicks_eq ?_⟩
  exact heq.trans (lastTicks_after_append n readings ticks)

/-- Two calls that issue the same are a full round of bumps of their node apart, and a stretch with
fewer of them has no room for that. -/
theorem nodup_of_few_bumps {nodes : Vector Node k} (hdistinct : Distinct nodes)
    (hmasked : ∀ p : Fin k, nodes[p].Masked) {calls : List (Fin k × Reading)}
    {stretch : List Event} (hstretch : stretch <:+: events nodes calls)
    (hfew : ∀ id, bumpsOn id stretch < 2 ^ 14) : (stretch.filterMap Event.issue?).Nodup := by
  obtain ⟨pre, post, hstretch⟩ := hstretch
  -- suppose that two calls of the stretch issued the same
  refine List.pairwise_filterMap.2 (pairwise_of_cuts ?_)
  intro before a between b rest hcut x hx y hy hxy
  obtain ⟨id, s⟩ := x
  subst hxy
  obtain ⟨ha, hs⟩ := Event.outcome_of_issue? hx
  obtain ⟨hb, ht⟩ := Event.outcome_of_issue? hy
  have hlog : events nodes calls = (pre ++ before) ++ a :: (between ++ b :: (rest ++ post)) := by
    rw [← hstretch, hcut]
    simp
  obtain ⟨hiff, hpos⟩ := stamp_eq_iff_of_events hdistinct hmasked hlog (ha.trans hb.symm) hs ht
  -- then their node has a full round of bumps between them, all of them within the stretch
  obtain ⟨hticks, hdvd⟩ := hiff.1 rfl
  have hround : 2 ^ 14 ≤ bumpsOn a.node (between ++ [b]) := Nat.le_of_dvd (hpos hticks) hdvd
  have hle : bumpsOn a.node (between ++ [b]) ≤ bumpsOn a.node stretch := by
    rw [hcut]
    simp only [bumpsOn, List.countP_append, List.countP_cons, List.countP_nil]
    omega
  have := hfew a.node
  omega

/-- Without the failed calls the log of a node is its run on the readings that have a tick. -/
theorem filter_issued_events {nodes : Vector Node k} (hdistinct : Distinct nodes)
    (calls : List (Fin k × Reading)) (p : Fin k) :
    ((events nodes calls).filter fun e => e.node == nodes[p].id && e.issued).map Event.toMark =
      nodes[p].marks ((readingsOf p calls).filter Option.isSome) := by
  -- one filter for both conditions is a filter for the node and then one for the successes
  have hsplit : ((events nodes calls).filter fun e => e.node == nodes[p].id && e.issued) =
      ((events nodes calls).filter (·.node == nodes[p].id)).filter (·.issued) := by
    rw [List.filter_filter]
    simp only [Bool.and_comm]
  rw [hsplit, filter_events hdistinct, List.filter_map, List.map_map, ← filter_issued_marks]
  exact List.map_id _

/-- **When a timestamp is issued again.** Nodes with distinct identifiers are restored and then
called in any order, with any readings and with failures in between. Two calls on one node issue the
same timestamp exactly if their ticks are equal and the sequence of the node was bumped a multiple of
`2 ^ 14` times after the first of them up to the second; and equal ticks take at least one bump. So
in a stretch of the log in which each node has fewer than `2 ^ 14` bumps no node issues a timestamp
twice. What a node issues is what it issues alone on those of its readings that have a tick: failed
calls and calls on other nodes change nothing. -/
theorem events_repeat_iff (nodes : Vector Node k) (hdistinct : (nodes.toList.map Node.id).Nodup)
    (calls : List (Fin k × Reading)) :
    let log := events (nodes.map restore) calls
    (∀ before between rest a b s t, log = before ++ a :: (between ++ b :: rest) →
      a.node = b.node → a.outcome = .ok s → b.outcome = .ok t →
      (s = t ↔ s.ticks = t.ticks ∧ 2 ^ 14 ∣ bumpsOn a.node (between ++ [b])) ∧
        (s.ticks = t.ticks → 0 < bumpsOn a.node (between ++ [b]))) ∧
    (∀ stretch, stretch <:+: log → (∀ id, bumpsOn id stretch < 2 ^ 14) →
      (stretch.filterMap Event.issue?).Nodup) ∧
    ∀ p : Fin k, (log.filter fun e => e.node == nodes[p].id && e.issued).map Event.toMark =
      nodes[p].restore.marks ((readingsOf p calls).filter Option.isSome) := by
  intro log
  have hdistinct' : Distinct (nodes.map restore) := distinct_restore hdistinct
  have hget : ∀ p : Fin k, (nodes.map restore)[p] = nodes[p].restore := by
    intro p
    simp
  have hmasked : ∀ p : Fin k, (nodes.map restore)[p].Masked := by
    intro p
    rw [hget]
    exact masked_restore _
  refine ⟨?_, ?_, ?_⟩
  · intro before between rest a b s t hlog hnode hs ht
    exact stamp_eq_iff_of_events hdistinct' hmasked hlog hnode hs ht
  · intro stretch hstretch hfew
    exact nodup_of_few_bumps hdistinct' hmasked hstretch hfew
  · intro p
    have hissued := filter_issued_events hdistinct' calls p
    rw [hget, restore_id] at hissued
    exact hissued

/-- Two nodes, the second restored from a sequence of more than 14 bits, under a clock that stands
still, goes back and once has no tick. -/
theorem events_repeat_iff_two_nodes :
    let nodes : Vector Node 2 := #v[⟨⟨2, 0, 0, 0, 0, 1⟩, 5, 7⟩, ⟨⟨2, 0, 0, 0, 0, 2⟩, 9, 0xFFFF⟩]
    let calls : List (Fin 2 × Reading) :=
      [(0, some 6), (1, none), (0, some 6), (1, some 3), (0, some 5), (1, some 3), (0, some 6)]
    (nodes.toList.map Node.id).Nodup ∧
      ((events (nodes.map restore) calls).filterMap Event.issue?).Nodup := by
  intro nodes calls
  have hdistinct : (nodes.toList.map Node.id).Nodup := by decide
  refine ⟨hdistinct, ?_⟩
  refine (events_repeat_iff nodes hdistinct calls).2.1 _ (List.infix_refl _) ?_
  -- seven calls cannot make a round
  intro id
  exact Nat.lt_of_le_of_lt List.countP_le_length (by decide +kernel)

end Node
end TimeIds
