import TimeIds.Clock.System

/-!
# Runs of a tick clock

A millisecond numbers its ticks, and a call hands out the tick of the next number in the millisecond
that the wall clock shows, or none if the numbers are used up (`answer_eq`). So a clock is known by
its next number for each millisecond, its `serial`:

* **`serial_step`** – what a call does to the next number of any millisecond;
* **`getElem?_outcomes`** – a call inside a run;
* **`outcomes_eraseIdx`** – a refused call might as well not have been made.

Nothing is asked here of the readings; they may go back.
-/

namespace TimeIds

/-- The tick of a number within its millisecond. -/
def Ticks.numbered (millis : Millis) (serial : Nat) : Ticks :=
  clamp ((ofMillis millis).toNat + serial)

namespace SystemClock

/-! ## One call -/

/-- The number of the tick that comes next while the wall clock shows `now`. -/
def serial (c : SystemClock) (now : Millis) : Nat :=
  if now = c.millis then c.issued + 1 else 0

theorem serial_of_ne {c : SystemClock} {now : Millis} (h : now ≠ c.millis) : c.serial now = 0 :=
  if_neg h

/-- What the clock answers while the wall clock shows `now`. -/
def answer (c : SystemClock) (now : Millis) : Except IdError Ticks := (c.next now).map Prod.fst

/-- The clock after a call; a refusal leaves it as it is. -/
def step (c : SystemClock) (now : Millis) : SystemClock :=
  match c.next now with
  | .ok (_, c') => c'
  | .error _ => c

/-- A call gives the tick of the next number and holds it, or refuses if that number is past the
millisecond. -/
theorem next_eq (c : SystemClock) (now : Millis) :
    c.next now =
      if c.serial now < Ticks.perMilli then
        .ok (Ticks.numbered now (c.serial now), ⟨now, c.serial now⟩)
      else .error .overClocked := by
  unfold next serial
  by_cases hsame : now = c.millis
  · subst hsame
    by_cases hroom : c.issued + 1 < Ticks.perMilli
    · -- the same millisecond, with a tick left
      rw [if_neg (by simp), if_neg (by omega), if_pos rfl, if_pos hroom]
      rfl
    · rw [if_neg (by simp), if_pos (by omega), if_pos rfl, if_neg hroom]
      rfl
  · -- another millisecond, which starts at its first tick
    rw [if_pos hsame, if_neg hsame, if_pos (by decide)]
    rfl

/-- A call is served if its tick has a number within the millisecond. -/
theorem answer_eq (c : SystemClock) (now : Millis) :
    c.answer now =
      if c.serial now < Ticks.perMilli then .ok (Ticks.numbered now (c.serial now))
      else .error .overClocked := by
  unfold answer
  rw [next_eq]
  split <;> rfl

/-- The clock after a call, by the next number alone. -/
theorem step_eq (c : SystemClock) (now : Millis) :
    c.step now = if c.serial now < Ticks.perMilli then ⟨now, c.serial now⟩ else c := by
  unfold step
  rw [next_eq]
  by_cases hroom : c.serial now < Ticks.perMilli
  · rw [if_pos hroom, if_pos hroom]
  · rw [if_neg hroom, if_neg hroom]

theorem step_of_refused {c : SystemClock} {now : Millis} {e : IdError}
    (h : c.answer now = .error e) : c.step now = c := by
  rw [answer_eq] at h
  rw [step_eq]
  split at h
  · cases h
  · next hfull => rw [if_neg hfull]

/-- The last tick has a number within its millisecond. -/
def InMilli (c : SystemClock) : Prop := c.issued < Ticks.perMilli

theorem InMilli.step {c : SystemClock} (hc : c.InMilli) (now : Millis) : (c.step now).InMilli := by
  rw [step_eq]
  split
  · assumption
  · exact hc

/-- **What a call does to the numbers**: that of its own millisecond goes up until all are used, and
every other millisecond would start at its first tick. -/
theorem serial_step {c : SystemClock} (hc : c.InMilli) (now later : Millis) :
    (c.step now).serial later =
      if later = now then min (c.serial now + 1) Ticks.perMilli else 0 := by
  rw [step_eq]
  by_cases hroom : c.serial now < Ticks.perMilli
  · rw [if_pos hroom]
    show (if later = now then c.serial now + 1 else 0) = _
    split
    · omega
    · rfl
  · -- refused, so the clock stands at this millisecond and has handed out its last tick
    have hsame : now = c.millis := by
      refine Decidable.byContradiction fun hother => hroom ?_
      rw [serial_of_ne hother]
      decide
    subst hsame
    unfold InMilli at hc
    rw [if_neg hroom]
    unfold serial at hroom ⊢
    rw [if_pos rfl] at hroom ⊢
    split <;> omega

/-! ## Runs -/

/-- The answer to each reading, refusals in their place. -/
def outcomes (c : SystemClock) : List Millis → List (Except IdError Ticks)
  | [] => []
  | now :: rest => c.answer now :: (c.step now).outcomes rest

/-- The clock after a run. -/
def after (c : SystemClock) (readings : List Millis) : SystemClock := readings.foldl step c

@[simp] theorem after_nil (c : SystemClock) : c.after [] = c := rfl

@[simp] theorem after_cons (c : SystemClock) (now : Millis) (rest : List Millis) :
    c.after (now :: rest) = (c.step now).after rest := rfl

theorem after_append (c : SystemClock) (rs rs' : List Millis) :
    c.after (rs ++ rs') = (c.after rs).after rs' := List.foldl_append

theorem outcomes_append (c : SystemClock) (rs rs' : List Millis) :
    c.outcomes (rs ++ rs') = c.outcomes rs ++ (c.after rs).outcomes rs' := by
  induction rs generalizing c with
  | nil => rfl
  | cons now rest ih => rw [List.cons_append, outcomes, outcomes, ih, after_cons, List.cons_append]

theorem length_outcomes (c : SystemClock) (readings : List Millis) :
    (c.outcomes readings).length = readings.length := by
  induction readings generalizing c with
  | nil => rfl
  | cons now rest ih => rw [outcomes, List.length_cons, List.length_cons, ih]

theorem InMilli.after {c : SystemClock} (hc : c.InMilli) (readings : List Millis) :
    (c.after readings).InMilli := by
  induction readings generalizing c with
  | nil => exact hc
  | cons now rest ih => exact ih (hc.step now)

/-- **Each outcome of a run** is the answer of the clock that the earlier readings lead to. -/
theorem getElem?_outcomes (c : SystemClock) (readings : List Millis) (i : Nat) :
    (c.outcomes readings)[i]? = readings[i]?.map (c.after (readings.take i)).answer := by
  induction readings generalizing c i with
  | nil => rfl
  | cons now rest ih =>
    cases i with
    | zero => rfl
    | succ i =>
      rw [outcomes, List.getElem?_cons_succ, List.getElem?_cons_succ, List.take_succ_cons,
        after_cons, ih]

variable {c : SystemClock} {readings : List Millis}

/-- The readings around one call. -/
theorem eq_cut {i : Nat} {now : Millis} (hi : readings[i]? = some now) :
    readings = readings.take i ++ now :: readings.drop (i + 1) := by
  obtain ⟨hlt, rfl⟩ := List.getElem?_eq_some_iff.1 hi
  rw [← List.drop_eq_getElem_cons hlt, List.take_append_drop]

/-! ## Refused calls -/

/-- The reading of a refused call, and the clock that refused it. -/
theorem exists_of_refused {i : Nat} {e : IdError}
    (h : (c.outcomes readings)[i]? = some (.error e)) :
    ∃ now, readings[i]? = some now ∧ (c.after (readings.take i)).answer now = .error e := by
  rw [getElem?_outcomes] at h
  exact Option.map_eq_some_iff.1 h

/-- A refused call leaves the clock of the run as it is. -/
theorem after_take_succ_of_refused {i : Nat} {e : IdError}
    (h : (c.outcomes readings)[i]? = some (.error e)) :
    c.after (readings.take (i + 1)) = c.after (readings.take i) := by
  obtain ⟨now, hi, hanswer⟩ := exists_of_refused h
  rw [List.take_add_one, hi, Option.toList_some, after_append, after_cons, after_nil,
    step_of_refused hanswer]

/-- **A refused call changes nothing**: without it the other calls come out the same. -/
theorem outcomes_eraseIdx {i : Nat} {e : IdError}
    (h : (c.outcomes readings)[i]? = some (.error e)) :
    c.outcomes (readings.eraseIdx i) = (c.outcomes readings).eraseIdx i := by
  obtain ⟨now, hi, hanswer⟩ := exists_of_refused h
  have hlength : (c.outcomes (readings.take i)).length = i := by
    obtain ⟨hlt, -⟩ := List.getElem?_eq_some_iff.1 hi
    rw [length_outcomes, List.length_take_of_le (Nat.le_of_lt hlt)]
  calc c.outcomes (readings.eraseIdx i)
      = c.outcomes (readings.take i) ++
          (c.after (readings.take i)).outcomes (readings.drop (i + 1)) := by
        rw [List.eraseIdx_eq_take_drop_succ, outcomes_append]
    _ = (c.outcomes (readings.take i) ++ (c.after (readings.take i)).outcomes
          (now :: readings.drop (i + 1))).eraseIdx i := by
        rw [List.eraseIdx_append_of_length_le (Nat.le_of_eq hlength), hlength, Nat.sub_self,
          outcomes, List.eraseIdx_cons_zero, step_of_refused hanswer]
    _ = (c.outcomes readings).eraseIdx i := by rw [← outcomes_append, ← eq_cut hi]

/-- The only reason for a refusal is that the ticks of a millisecond are used up. -/
theorem overClocked_of_refused {i : Nat} {e : IdError}
    (h : (c.outcomes readings)[i]? = some (.error e)) : e = .overClocked := by
  obtain ⟨now, -, hanswer⟩ := exists_of_refused h
  rw [answer_eq] at hanswer
  split at hanswer
  · cases hanswer
  · exact (Except.error.inj hanswer).symm

end SystemClock
end TimeIds
