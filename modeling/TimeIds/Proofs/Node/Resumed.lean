import TimeIds.Proofs.Node.Marks

/-!
# A node taken up again

A node is kept while it runs, and what was kept is taken up later by a second run. What was kept has
the clock sequence that the first run ended with, but a last tick that may lie further on. As long
as the two runs together do not bump the sequence all the way round, no timestamp is issued in both.

* **`Node.exists_of_mem_marks`** – a timestamp of a run is a state of the run;
* **`Node.issued_ne_of_resumed`** – the timestamps of both runs differ;
* **`Node.covers_iff`** – what was kept covers the first run exactly if its last tick is no less
  than the one that the run ended with.
-/

namespace TimeIds.Node

/-- A timestamp of a run is the state that the node is in after one of the readings. -/
theorem exists_of_mem_marks {n : Node} {readings : List Reading} {m : Mark} {a : Timestamp}
    (hm : m ∈ n.marks readings) (ha : m.outcome = .ok a) :
    ∃ before ticks later, readings = before ++ some ticks :: later ∧
      a = (n.after (before ++ [some ticks])).stamp := by
  induction readings generalizing n with
  | nil => cases hm
  | cons reading rest ih =>
    rcases List.mem_cons.1 hm with rfl | hm
    · cases reading with
      | none => cases ha
      | some ticks => exact ⟨[], ticks, rest, rfl, stamp_of_mark ha⟩
    · obtain ⟨before, ticks, later, rfl, hstamp⟩ := ih hm
      exact ⟨reading :: before, ticks, later, rfl, hstamp⟩

/-- The bumps of a run, those up to a call and those after it. -/
theorem bumpCount_split (n : Node) (before later : List Reading) (reading : Reading) :
    bumpCount (n.marks (before ++ reading :: later)) =
      bumpCount (n.marks (before ++ [reading])) +
        bumpCount ((n.after (before ++ [reading])).marks later) := by
  rw [List.append_cons, marks_append, bumpCount_append]

/-- A state that a node is taken up from, at the end of `later`, does not come back to the state
before `later` within a round of bumps. -/
theorem stamp_ne_of_resumed {n kept : Node} (hmasked : n.Masked) {later before' : List Reading}
    {ticks' : Ticks} (hsequence : kept.clockSequence = (n.after later).clockSequence)
    (hticks : (n.after later).lastTicks ≤ kept.lastTicks)
    (hbumps : bumpCount (n.marks later) +
      bumpCount (kept.marks (before' ++ [some ticks'])) < 2 ^ 14) :
    n.stamp ≠ (kept.after (before' ++ [some ticks'])).stamp := by
  intro heq
  rw [stamp, stamp, Timestamp.mk.injEq, lastTicks_after_append] at heq
  obtain ⟨hticksEq, hsequenceEq⟩ := heq
  have hkept : kept.Masked := by
    have hafter := masked_after hmasked later
    unfold Masked at hafter ⊢
    rw [hsequence]
    exact hafter
  -- the sequence comes back, so nothing is bumped on the way
  have hfirst := toNat_after hmasked later
  have hsecond := toNat_after hkept (before' ++ [some ticks'])
  have hlt := masked_iff.1 hmasked
  rw [hsequence, hfirst, ← hsequenceEq] at hsecond
  have hquiet : bumpCount (n.marks later) = 0 ∧
      bumpCount (kept.marks (before' ++ [some ticks'])) = 0 := by
    omega
  have hle := lastTicks_le_after hquiet.1
  have hgt := lastTicks_lt_of_quiet hquiet.2
  rw [hticksEq] at hle
  exact UInt64.lt_irrefl _ (UInt64.lt_of_lt_of_le hgt (UInt64.le_trans hle hticks))

/-- **No timestamp is issued before and after a node is taken up again** under the sequence it ended
with and a last tick no less than its own, if fewer than `2 ^ 14` bumps happen in both runs. -/
theorem issued_ne_of_resumed {n : Node} (hmasked : n.Masked) {readings readings' : List Reading}
    {kept : Node} (hsequence : kept.clockSequence = (n.after readings).clockSequence)
    (hticks : (n.after readings).lastTicks ≤ kept.lastTicks)
    (hbumps : bumpCount (n.marks readings) + bumpCount (kept.marks readings') < 2 ^ 14)
    {m m' : Mark} (hm : m ∈ n.marks readings) (hm' : m' ∈ kept.marks readings')
    {a b : Timestamp} (ha : m.outcome = .ok a) (hb : m'.outcome = .ok b) : a ≠ b := by
  obtain ⟨before, ticks, later, rfl, rfl⟩ := exists_of_mem_marks hm ha
  obtain ⟨before', ticks', later', rfl, rfl⟩ := exists_of_mem_marks hm' hb
  -- both runs are cut at the two calls
  rw [bumpCount_split n, bumpCount_split kept] at hbumps
  rw [List.append_cons, after_append] at hsequence hticks
  exact stamp_ne_of_resumed (masked_after hmasked _) hsequence hticks (by omega)

/-! ## What a record covers -/

/-- The timestamp that a node holds before a run, and those that the run issues. -/
def stamps (n : Node) (readings : List Reading) : List Timestamp :=
  n.stamp :: (n.marks readings).filterMap (·.outcome.toOption)

/-- A node taken up from a record issues none of the timestamps before it bumps its sequence. -/
def Covers (kept : Node) (issued : List Timestamp) : Prop :=
  ∀ readings, bumpCount (kept.marks readings) = 0 →
    ∀ m ∈ kept.marks readings, ∀ a ∈ issued, m.outcome ≠ .ok a

/-- The timestamp of the first call is the one that the node holds after it. -/
theorem stamps_cons_some (n : Node) (ticks : Ticks) (rest : List Reading) :
    n.stamps (some ticks :: rest) = n.stamp :: (n.step (some ticks)).stamps rest := by
  unfold stamps
  rw [marks, mark_some]
  rfl

/-- The timestamps of a run are states of it. -/
theorem exists_of_mem_stamps {n : Node} {readings : List Reading} {a : Timestamp}
    (h : a ∈ n.stamps readings) :
    ∃ before later, readings = before ++ later ∧ a = (n.after before).stamp := by
  induction readings generalizing n with
  | nil => exact ⟨[], [], rfl, List.mem_singleton.1 h⟩
  | cons reading rest ih =>
    cases reading with
    | none =>
      obtain ⟨before, later, rfl, ha⟩ := ih h
      exact ⟨none :: before, later, rfl, ha⟩
    | some ticks =>
      rw [stamps_cons_some] at h
      rcases List.mem_cons.1 h with rfl | h
      · exact ⟨[], some ticks :: rest, rfl, rfl⟩
      · obtain ⟨before, later, rfl, ha⟩ := ih h
        exact ⟨some ticks :: before, later, rfl, ha⟩

/-- What a node holds after a run is among the timestamps of the run. -/
theorem stamp_after_mem_stamps (n : Node) (readings : List Reading) :
    (n.after readings).stamp ∈ n.stamps readings := by
  induction readings generalizing n with
  | nil => exact List.mem_cons_self
  | cons reading rest ih =>
    cases reading with
    | none => exact ih n
    | some ticks =>
      rw [after_cons, stamps_cons_some]
      exact List.mem_cons_of_mem _ (ih _)

/-- A node taken up from before its last tick issues that tick again, without a bump. -/
theorem mark_lastTicks_of_lt {n kept : Node} (hsequence : kept.clockSequence = n.clockSequence)
    (hlt : kept.lastTicks < n.lastTicks) :
    kept.mark (some n.lastTicks) = ⟨.ok n.stamp, false⟩ := by
  have hquiet : kept.bumps (some n.lastTicks) = false := by simpa [bumps] using hlt
  rw [mark_some, step_some, hquiet, if_neg Bool.false_ne_true]
  unfold stamp
  rw [hsequence]

/-- **When a record covers a run.** A record with the sequence that the run ended with covers it
exactly if its tick is no less than the one that the run ended with. -/
theorem covers_iff {n kept : Node} (hmasked : n.Masked) {readings : List Reading}
    (hfew : bumpCount (n.marks readings) < 2 ^ 14)
    (hsequence : kept.clockSequence = (n.after readings).clockSequence) :
    kept.Covers (n.stamps readings) ↔ (n.after readings).lastTicks ≤ kept.lastTicks := by
  constructor
  · intro hcovers
    rw [← UInt64.not_lt]
    intro hlt
    -- otherwise the tick that the run ended with is issued again, without a bump
    have hreissued := mark_lastTicks_of_lt hsequence hlt
    refine hcovers [some (n.after readings).lastTicks] ?_ _ (List.mem_singleton_self _) _
      (stamp_after_mem_stamps n readings) (congrArg Mark.outcome hreissued)
    exact bumpCount_cons_eq_zero.2 ⟨congrArg Mark.bumped hreissued, rfl⟩
  · -- a timestamp of the run and one issued without a bump are the two ends of a quiet stretch
    intro hticks readings' hquiet m hm a ha hout
    obtain ⟨before, later, rfl, rfl⟩ := exists_of_mem_stamps ha
    obtain ⟨before', ticks', later', rfl, hstamp⟩ := exists_of_mem_marks hm hout
    rw [marks_append, bumpCount_append] at hfew
    rw [bumpCount_split] at hquiet
    rw [after_append] at hsequence hticks
    exact stamp_ne_of_resumed (masked_after hmasked before) hsequence hticks (by omega) hstamp

end TimeIds.Node
