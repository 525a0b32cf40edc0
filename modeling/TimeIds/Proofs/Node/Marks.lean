import TimeIds.Node.Basic

/-!
# Runs of one node

A node answers one clock reading after the other. `Node.mark` records what one call did and
`Node.marks` what a whole run did; `Node.step` and `Node.after` are the node afterwards. The
timestamp that a call issues is the clock state the node is left in (`stamp_of_mark`), so to compare
two timestamps is to compare two states of one run, and two counts decide that:

* **`Node.toNat_after`** – the sequence moves on by the number of bumps, modulo `2 ^ 14`;
* **`Node.lastTicks_le_after`**, **`Node.lastTicks_lt_of_quiet`** – without a bump the last tick
  never falls, and every issued tick lies above it;
* **`Node.stamp_eq_after_iff`**, **`Node.bumpCount_pos_of_lastTicks_eq`** – when a run comes back to
  the state it began in.
-/

namespace TimeIds

/-- What a call for a timestamp did. -/
structure Mark where
  outcome : Except IdError Timestamp
  /-- Whether the clock sequence moved on before the timestamp was issued. -/
  bumped : Bool

/-- Whether the call issued a timestamp. -/
def Mark.issued (m : Mark) : Bool := m.outcome.toBool

/-- How many calls moved the clock sequence on. -/
def bumpCount (marks : List Mark) : Nat := marks.countP Mark.bumped

theorem bumpCount_append (l l' : List Mark) : bumpCount (l ++ l') = bumpCount l + bumpCount l' :=
  List.countP_append

/-- The bumps of a run, the first call counted by itself. -/
theorem bumpCount_cons (m : Mark) (l : List Mark) :
    bumpCount (m :: l) = (if m.bumped then 1 else 0) + bumpCount l := by
  unfold bumpCount
  rw [List.countP_cons, Nat.add_comm]

theorem bumpCount_cons_eq_zero {m : Mark} {l : List Mark} :
    bumpCount (m :: l) = 0 ↔ m.bumped = false ∧ bumpCount l = 0 := by
  rw [bumpCount_cons]
  cases m.bumped <;> simp

namespace Node

/-! ## One call -/

/-- Whether a reading moves the clock sequence on: its tick does not lie past the last one. -/
def bumps (n : Node) (reading : Reading) : Bool := reading.any (· ≤ n.lastTicks)

/-- The record of a call. -/
def mark (n : Node) (reading : Reading) : Mark := ⟨(n.issue reading).map Prod.fst, n.bumps reading⟩

/-- The node after a call; one that issued nothing leaves it as it is. -/
def step (n : Node) (reading : Reading) : Node :=
  match n.issue reading with
  | .ok (_, n') => n'
  | .error _ => n

/-- The tick and the clock sequence that a node holds. -/
def stamp (n : Node) : Timestamp := ⟨n.lastTicks, n.clockSequence⟩

/-- A clock sequence of at most 14 bits. -/
def Masked (n : Node) : Prop := n.clockSequence ≤ clockSequenceMax

@[simp] theorem step_none (n : Node) : n.step none = n := rfl

/-- What a reading does: the sequence moves on first, if it has to, and the tick is kept. -/
@[simp] theorem step_some (n : Node) (ticks : Ticks) :
    n.step (some ticks) =
      { (if n.bumps (some ticks) then n.bump else n) with lastTicks := ticks } := by
  simp [step, issue, bumps]

@[simp] theorem step_id (n : Node) (reading : Reading) : (n.step reading).id = n.id := by
  cases reading with
  | none => rfl
  | some ticks =>
    rw [step_some]
    by_cases h : n.bumps (some ticks)
    · rw [if_pos h]; rfl
    · rw [if_neg h]

/-- A call with a tick issues the state it leaves the node in. -/
theorem issue_some (n : Node) (ticks : Ticks) :
    n.issue (some ticks) = .ok ((n.step (some ticks)).stamp, n.step (some ticks)) := by
  rw [step_some]
  simp [issue, stamp, bumps]

/-- The record of a call with a tick, which never fails. -/
theorem mark_some (n : Node) (ticks : Ticks) :
    n.mark (some ticks) = ⟨.ok (n.step (some ticks)).stamp, n.bumps (some ticks)⟩ := by
  unfold mark
  rw [issue_some]
  rfl

/-- The timestamp of a call is the state it leaves the node in. -/
theorem stamp_of_mark {n : Node} {reading : Reading} {s : Timestamp}
    (h : (n.mark reading).outcome = .ok s) : s = (n.step reading).stamp := by
  cases reading with
  | none => cases h
  | some ticks =>
    rw [mark_some] at h
    cases h
    rfl

/-- The timestamp of a call has the tick of its reading. -/
theorem reading_of_mark {n : Node} {reading : Reading} {s : Timestamp}
    (h : (n.mark reading).outcome = .ok s) : reading = some s.ticks := by
  cases reading with
  | none => cases h
  | some ticks =>
    rw [stamp_of_mark h, step_some]
    rfl

/-- A call issues a timestamp exactly if its reading has a tick. -/
theorem issued_mark (n : Node) (reading : Reading) : (n.mark reading).issued = reading.isSome := by
  cases reading <;> rfl

/-! ## Clock sequences -/

/-- Masking is the remainder modulo `2 ^ 14`. -/
theorem toNat_maskSequence (s : UInt16) : (maskSequence s).toNat = s.toNat % 2 ^ 14 := by
  rw [maskSequence, UInt16.toNat_and]
  exact Nat.and_two_pow_sub_one_eq_mod s.toNat 14

theorem masked_iff {n : Node} : n.Masked ↔ n.clockSequence.toNat < 2 ^ 14 := by
  unfold Masked
  rw [UInt16.le_iff_toNat_le]
  show n.clockSequence.toNat ≤ 0x3FFF ↔ _
  omega

/-- Masking does nothing to a sequence of at most 14 bits. -/
theorem restore_of_masked {n : Node} (h : n.Masked) : n.restore = n := by
  have hmask : maskSequence n.clockSequence = n.clockSequence := by
    rw [← UInt16.toNat_inj, toNat_maskSequence]
    exact Nat.mod_eq_of_lt (masked_iff.1 h)
  unfold restore
  rw [hmask]

theorem masked_restore (n : Node) : n.restore.Masked := maskSequence_le n.clockSequence

@[simp] theorem restore_id (n : Node) : n.restore.id = n.id := rfl

/-- A call moves the low 14 bits of the sequence on by one or not at all. -/
theorem toNat_step_mod (n : Node) (reading : Reading) :
    (n.step reading).clockSequence.toNat % 2 ^ 14 =
      (n.clockSequence.toNat + if n.bumps reading then 1 else 0) % 2 ^ 14 := by
  cases reading with
  | none => rfl
  | some ticks =>
    rw [step_some]
    by_cases h : n.bumps (some ticks)
    · rw [if_pos h, if_pos h]
      show (maskSequence (n.clockSequence + 1)).toNat % 2 ^ 14 = _
      rw [toNat_maskSequence, UInt16.toNat_add]
      -- the addition wraps at 16 bits, which is a multiple of 14
      show (n.clockSequence.toNat + 1) % 2 ^ 16 % 2 ^ 14 % 2 ^ 14 = _
      omega
    · rw [if_neg h, if_neg h]
      rfl

theorem masked_step {n : Node} (hmasked : n.Masked) (reading : Reading) :
    (n.step reading).Masked := by
  cases reading with
  | none => exact hmasked
  | some ticks =>
    rw [step_some]
    by_cases h : n.bumps (some ticks)
    · rw [if_pos h]
      exact maskSequence_le _
    · rw [if_neg h]
      exact hmasked

/-- Without a bump, the tick of a call lies above the last one. -/
theorem lastTicks_lt_of_not_bumps {n : Node} {ticks : Ticks} (h : n.bumps (some ticks) = false) :
    n.lastTicks < ticks := by
  simpa [bumps] using h

/-! ## Runs -/

/-- The records of a run. -/
def marks (n : Node) : List Reading → List Mark
  | [] => []
  | reading :: rest => n.mark reading :: (n.step reading).marks rest

/-- The node after a run. -/
def after (n : Node) (readings : List Reading) : Node := readings.foldl step n

@[simp] theorem after_nil (n : Node) : n.after [] = n := rfl

@[simp] theorem after_cons (n : Node) (reading : Reading) (rest : List Reading) :
    n.after (reading :: rest) = (n.step reading).after rest := rfl

theorem after_append (n : Node) (rs rs' : List Reading) :
    n.after (rs ++ rs') = (n.after rs).after rs' := List.foldl_append

theorem marks_append (n : Node) (rs rs' : List Reading) :
    n.marks (rs ++ rs') = n.marks rs ++ (n.after rs).marks rs' := by
  induction rs generalizing n with
  | nil => rfl
  | cons reading rest ih => simp [marks, ih]

@[simp] theorem after_id (n : Node) (readings : List Reading) : (n.after readings).id = n.id := by
  induction readings generalizing n with
  | nil => rfl
  | cons reading rest ih => rw [after_cons, ih, step_id]

theorem masked_after {n : Node} (hmasked : n.Masked) (readings : List Reading) :
    (n.after readings).Masked := by
  induction readings generalizing n with
  | nil => exact hmasked
  | cons reading rest ih => exact ih (masked_step hmasked reading)

/-- Readings without a tick leave no trace: the calls that issue something are those of the run
without the others. -/
theorem filter_issued_marks (n : Node) (readings : List Reading) :
    (n.marks readings).filter Mark.issued = n.marks (readings.filter Option.isSome) := by
  induction readings generalizing n with
  | nil => rfl
  | cons reading rest ih =>
    cases reading with
    | none =>
      rw [marks, List.filter_cons_of_neg (by rw [issued_mark]; simp), step_none, ih,
        List.filter_cons_of_neg (by simp)]
    | some ticks =>
      rw [marks, List.filter_cons_of_pos (by rw [issued_mark]; rfl), ih,
        List.filter_cons_of_pos (by simp)]
      rfl

/-- The low 14 bits of the sequence count the bumps. -/
theorem toNat_after_mod (n : Node) (readings : List Reading) :
    (n.after readings).clockSequence.toNat % 2 ^ 14 =
      (n.clockSequence.toNat + bumpCount (n.marks readings)) % 2 ^ 14 := by
  induction readings generalizing n with
  | nil => rfl
  | cons reading rest ih =>
    have hbumped : (n.mark reading).bumped = n.bumps reading := rfl
    -- the first call counts by itself, and the others from where it leaves the sequence
    have hstep := toNat_step_mod n reading
    rw [after_cons, ih, marks, bumpCount_cons, hbumped]
    omega

/-- **The sequence counts the bumps**, modulo `2 ^ 14`. -/
theorem toNat_after {n : Node} (hmasked : n.Masked) (readings : List Reading) :
    (n.after readings).clockSequence.toNat =
      (n.clockSequence.toNat + bumpCount (n.marks readings)) % 2 ^ 14 := by
  rw [← toNat_after_mod, Nat.mod_eq_of_lt (masked_iff.1 (masked_after hmasked readings))]

/-- Without a bump the last tick never falls. -/
theorem lastTicks_le_after {n : Node} {readings : List Reading}
    (hquiet : bumpCount (n.marks readings) = 0) : n.lastTicks ≤ (n.after readings).lastTicks := by
  induction readings generalizing n with
  | nil => exact UInt64.le_refl _
  | cons reading rest ih =>
    rw [marks, bumpCount_cons_eq_zero] at hquiet
    obtain ⟨hbumps, hrest⟩ := hquiet
    -- the first call does not lower the tick, and the others do not by induction
    refine UInt64.le_trans ?_ (ih hrest)
    cases reading with
    | none => exact UInt64.le_refl _
    | some ticks =>
      have hlt := lastTicks_lt_of_not_bumps hbumps
      rw [step_some]
      exact UInt64.le_of_lt hlt

/-- Without a bump every issued tick lies above the last one before the run. -/
theorem lastTicks_lt_of_quiet {n : Node} {readings : List Reading} {ticks : Ticks}
    (hquiet : bumpCount (n.marks (readings ++ [some ticks])) = 0) : n.lastTicks < ticks := by
  rw [marks_append, bumpCount_append, Nat.add_eq_zero_iff] at hquiet
  obtain ⟨hbefore, hlast⟩ := hquiet
  have hbumps : (n.after readings).bumps (some ticks) = false :=
    (bumpCount_cons_eq_zero.1 hlast).1
  -- the tick does not fall up to the last call, and that call raises it
  have hle := lastTicks_le_after hbefore
  have hlt := lastTicks_lt_of_not_bumps hbumps
  rw [UInt64.le_iff_toNat_le] at hle
  rw [UInt64.lt_iff_toNat_lt] at hlt ⊢
  omega

/-- The node after a run that ends in a tick holds that tick. -/
theorem lastTicks_after_append (n : Node) (readings : List Reading) (ticks : Ticks) :
    (n.after (readings ++ [some ticks])).lastTicks = ticks := by
  rw [after_append, after_cons, after_nil, step_some]

/-! ## Coming back to a state -/

/-- **A run comes back to the state it began in** exactly if it comes back to the tick and bumps the
sequence all the way round, any number of times. -/
theorem stamp_eq_after_iff {n : Node} (hmasked : n.Masked) (readings : List Reading) :
    n.stamp = (n.after readings).stamp ↔
      n.lastTicks = (n.after readings).lastTicks ∧ 2 ^ 14 ∣ bumpCount (n.marks readings) := by
  have hsequence : n.clockSequence = (n.after readings).clockSequence ↔
      2 ^ 14 ∣ bumpCount (n.marks readings) := by
    -- both sequences lie below `2 ^ 14`, so they agree if and only if the bumps make whole rounds
    have hlt := masked_iff.1 hmasked
    rw [← UInt16.toNat_inj, toNat_after hmasked, Nat.dvd_iff_mod_eq_zero]
    omega
  rw [stamp, stamp, Timestamp.mk.injEq, hsequence]

/-- Coming back to a tick takes at least one bump. -/
theorem bumpCount_pos_of_lastTicks_eq {n : Node} {readings : List Reading} {ticks : Ticks}
    (heq : n.lastTicks = ticks) : 0 < bumpCount (n.marks (readings ++ [some ticks])) := by
  rw [Nat.pos_iff_ne_zero]
  intro hquiet
  have hlt := lastTicks_lt_of_quiet hquiet
  rw [heq] at hlt
  exact UInt64.lt_irrefl _ hlt

end Node
end TimeIds
