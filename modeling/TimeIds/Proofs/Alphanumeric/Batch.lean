import TimeIds.Proofs.Alphanumeric.Consecutive

/-!
# Batches

While the clock stands at one reading, a generator runs through one segment. The first call may move
the position, but then the position is where the reading stands, so every later call takes the next
serial number (`upNext_holding`). What a batch gives is thus settled by the segment that comes next
(`Generator.upNext`) and by the room that the suffix leaves from there on, and a batch that is too
large uses up that room before it fails.

* **`Generator.upNext_cases`** – which segment comes next;
* **`Generator.batchOnto_eq`** – what a batch gives, and that it leaves what single calls leave;
* **`Generator.upNext_after_replicate`** – which segment comes next after calls at one reading;
* **`Generator.batches_run_through_segments`** – batches in every state of a run.
-/

namespace TimeIds.Alphanumeric

/-- A reading that stands at the position does not move it. -/
theorem advance?_of_ofNat_eq {position : Nat} {ring : UInt64}
    (h : UInt64.ofNat position = ring) : advance? position ring = none := by
  rw [advance?_eq, lead_eq_zero_iff.2 h, if_neg (by omega)]

namespace Generator

variable {g : Generator} {readings : List Millis} {now : Millis}

/-! ## The segment that comes next -/

/-- The segment that comes next while the clock shows `now`, if the suffix has room for it. -/
def upNext (g : Generator) (now : Millis) : Segment :=
  match g.held with
  | none => ⟨(g.ringAt now).toNat, 0⟩
  | some held =>
    match advance? held.position (g.ringAt now) with
    | some position => ⟨position, 0⟩
    | none => ⟨held.position, held.serial + 1⟩

/-- A reading leads to the first identifier on a new segment, or to the next one on the segment that
is held. -/
theorem upNext_cases (g : Generator) (now : Millis) :
    (∃ position, g.movesTo? now = some position ∧ g.upNext now = ⟨position, 0⟩) ∨
      ∃ a, g.held = some a ∧ g.movesTo? now = none ∧
        g.upNext now = ⟨a.position, a.serial + 1⟩ := by
  unfold movesTo? upNext
  cases g.held with
  | none => exact .inl ⟨_, rfl, rfl⟩
  | some a =>
    dsimp only
    cases advance? a.position (g.ringAt now) with
    | some position => exact .inl ⟨position, rfl, rfl⟩
    | none => exact .inr ⟨a, rfl, rfl, rfl⟩

/-- What comes next is served if the suffix has room for it. -/
theorem serve?_eq (g : Generator) (now : Millis) :
    g.serve? now =
      if (g.upNext now).serial ≤ Base36.capacity g.suffixDigits then some (g.upNext now)
      else none := by
  rcases upNext_cases g now with ⟨position, hmove, hnext⟩ | ⟨a, ha, hstay, hnext⟩
  · rw [hnext, if_pos (Nat.zero_le _), serve?_of_movesTo? hmove]
  · rw [hnext, serve?_of_stays ha hstay]

theorem serve?_of_full (hfull : ¬ (g.upNext now).serial ≤ Base36.capacity g.suffixDigits) :
    g.serve? now = none := by
  rw [serve?_eq, if_neg hfull]

theorem step_of_room (hroom : (g.upNext now).serial ≤ Base36.capacity g.suffixDigits) :
    g.step now = g.holding (g.upNext now) :=
  step_of_serve?_some (by rw [serve?_eq, if_pos hroom])

/-- A call leaves the position of the segment that was next, whether or not it was served. -/
theorem position?_step_eq_upNext (g : Generator) (now : Millis) :
    (g.step now).position? = some (g.upNext now).position := by
  rcases upNext_cases g now with ⟨position, hmove, hnext⟩ | ⟨a, ha, hstay, hnext⟩
  · rw [position?_step_of_movesTo? hmove, hnext]
  · rw [position?_step_of_stays hstay, position?_of_held ha, hnext]

/-- The reading does not move the position it has led to. -/
theorem advance?_upNext (g : Generator) (now : Millis) :
    advance? (g.upNext now).position (g.ringAt now) = none := by
  unfold upNext
  cases g.held with
  | none => exact advance?_of_ofNat_eq UInt64.ofNat_toNat
  | some a =>
    dsimp only
    cases hmove : advance? a.position (g.ringAt now) with
    | some position => exact advance?_of_ofNat_eq (ofNat_of_advance? hmove)
    | none => exact hmove

/-- **Once a segment is held, the same reading leads to its next serial number.** -/
theorem upNext_holding (g : Generator) (now : Millis) :
    (g.holding (g.upNext now)).upNext now =
      ⟨(g.upNext now).position, (g.upNext now).serial + 1⟩ := by
  have hstay : advance? (g.upNext now).position ((g.holding (g.upNext now)).ringAt now) = none :=
    advance?_upNext g now
  rw [upNext]
  show (match advance? (g.upNext now).position ((g.holding (g.upNext now)).ringAt now) with
    | some position => (⟨position, 0⟩ : Segment)
    | none => ⟨(g.upNext now).position, (g.upNext now).serial + 1⟩) = _
  rw [hstay]

/-- The suffix has room for all numbers before the next one. -/
theorem Fits.upNext_serial_le (hfits : g.Fits) (now : Millis) :
    (g.upNext now).serial ≤ Base36.capacity g.suffixDigits + 1 := by
  rcases upNext_cases g now with ⟨position, -, hnext⟩ | ⟨a, ha, -, hnext⟩
  · rw [hnext]
    exact Nat.zero_le _
  · have hserial := (hfits a ha).2
    rw [hnext]
    show a.serial + 1 ≤ _
    omega

/-- In a run of a new generator, the number that comes next tells how many identifiers were issued
on its segment. -/
theorem serial_upNext (hheld : g.held = none) (readings : List Millis) (now : Millis) :
    ((g.after readings).upNext now).serial =
      g.issuedOn readings
        (Base36.encode ((g.after readings).upNext now).position Base36.timeDigits) := by
  rcases upNext_cases (g.after readings) now with ⟨position, hmove, hnext⟩ | ⟨a, ha, -, hnext⟩
  · rw [hnext, issuedOn_of_movesTo? hheld hmove]
  · rw [hnext, issuedOn_held hheld ha]

/-! ## Calls at one reading -/

/-- A refusal is repeated for as long as the clock stands. -/
theorem outcomes_replicate_of_refused (hrefused : g.serve? now = none) (calls : Nat) :
    g.outcomes (List.replicate calls now) =
      (List.replicate calls (.error (.capacityExhausted g.suffixDigits)), g) := by
  have hnext : g.next now = .error (.capacityExhausted g.suffixDigits) := by
    rw [next_eq, hrefused]
  induction calls with
  | zero => rfl
  | succ n ih =>
    rw [List.replicate_succ, List.replicate_succ, outcomes_cons, step_of_serve?_none hrefused, ih,
      hnext]
    rfl

/-- **A batch** gives the identifiers of one segment from the next serial number on, if the suffix
has room for all of them, and leaves the generator as that many single calls do. Induction on the
calls; each takes one number off the room. -/
theorem batchOnto_eq (now : Millis) (issued : List String) (g : Generator) (count : Nat) :
    batchOnto now issued g count =
      (if count ≤ Base36.capacity g.suffixDigits + 1 - (g.upNext now).serial then
        .ok (issued.reverse ++ (List.range count).map fun k =>
          idText g.suffixDigits (g.upNext now).position ((g.upNext now).serial + k))
      else .error (.capacityExhausted g.suffixDigits), g.after (List.replicate count now)) := by
  induction count generalizing issued g with
  | zero => simp [batchOnto]
  | succ n ih =>
    rw [batchOnto, next_eq, serve?_eq]
    by_cases hroom : (g.upNext now).serial ≤ Base36.capacity g.suffixDigits
    · -- the first call is served, and the batch goes on with one less to give and to take
      have hsuffix : (g.holding (g.upNext now)).suffixDigits = g.suffixDigits := rfl
      have hcount : n ≤ Base36.capacity g.suffixDigits + 1 - ((g.upNext now).serial + 1) ↔
          n + 1 ≤ Base36.capacity g.suffixDigits + 1 - (g.upNext now).serial := by omega
      rw [if_pos hroom]
      dsimp only
      rw [ih, hsuffix, upNext_holding, List.replicate_succ, after_cons, step_of_room hroom]
      dsimp only
      simp only [hcount, List.range_succ_eq_map, List.map_cons, List.map_map, List.reverse_cons,
        List.append_assoc, List.singleton_append, Function.comp_def, Nat.add_zero, Nat.add_assoc,
        Nat.succ_eq_add_one, Nat.add_comm 1]
    · -- the first call is refused, and single calls would all be
      have hsame : g.after (List.replicate (n + 1) now) = g :=
        congrArg Prod.snd (outcomes_replicate_of_refused (serve?_of_full hroom) (n + 1))
      rw [if_neg hroom]
      dsimp only
      rw [if_neg (by omega), hsame]

/-- Calls at one reading keep the position and take one serial number each, until the suffix has no
room for more. -/
theorem upNext_after_replicate (hfits : g.Fits) (now : Millis) (count : Nat) :
    (g.after (List.replicate count now)).upNext now =
      ⟨(g.upNext now).position,
        min ((g.upNext now).serial + count) (Base36.capacity g.suffixDigits + 1)⟩ := by
  induction count generalizing g with
  | zero =>
    rw [List.replicate_zero, after_nil, Nat.add_zero, Nat.min_eq_left (hfits.upNext_serial_le now)]
  | succ n ih =>
    rw [List.replicate_succ, after_cons, ih (hfits.step now), suffixDigits_step]
    by_cases hroom : (g.upNext now).serial ≤ Base36.capacity g.suffixDigits
    · rw [step_of_room hroom, upNext_holding]
      simp only [Segment.mk.injEq, true_and]
      omega
    · rw [step_of_serve?_none (serve?_of_full hroom)]
      simp only [Segment.mk.injEq, true_and]
      omega

/-- However many calls there are at one reading, they leave the position that is next. -/
theorem position?_after_replicate (hfits : g.Fits) (now : Millis) (count : Nat) :
    (g.after (List.replicate (count + 1) now)).position? = some (g.upNext now).position := by
  rw [List.replicate_succ', after_concat, position?_step_eq_upNext, upNext_after_replicate hfits]

/-- More calls at one reading than the suffix has room for leave its segment full. -/
theorem upNext_of_overrun (hfits : g.Fits) {count : Nat}
    (hcount : Base36.capacity g.suffixDigits + 1 - (g.upNext now).serial < count) :
    (g.after (List.replicate count now)).upNext now =
      ⟨(g.upNext now).position, Base36.capacity g.suffixDigits + 1⟩ := by
  rw [upNext_after_replicate hfits, Nat.min_eq_right (by omega)]

/-- On a full segment every further call at that reading is refused. -/
theorem serve?_of_overrun (hfits : g.Fits) {count : Nat}
    (hcount : Base36.capacity g.suffixDigits + 1 - (g.upNext now).serial < count) :
    (g.after (List.replicate count now)).serve? now = none := by
  apply serve?_of_full
  rw [upNext_of_overrun hfits hcount, suffixDigits_after]
  exact Nat.not_succ_le_self _

/-! ## Batches in a run -/

/-- **Batches run through segments.** In every state that a run of a new generator leads to, and at
any reading, let `position` be where the reading leaves the generator and `first` the number of
identifiers issued on that segment before, which is 0 if the reading moves the position. A batch of
no more than the rest of the suffixes gives the identifiers from `first` on and leaves what that
many single calls leave. A larger one gives none, but leaves the segment used up: every further call
at that reading is refused, and a reading less than half a ring ahead opens a new segment, if that
fits thirteen digits. As a batch leaves what single calls leave, the states after batches are among
those of a run. -/
theorem batches_run_through_segments {suffixDigits : Nat} (hwidth : suffixDigits ≤ 13)
    (offset : Millis) :
    ∃ g, create suffixDigits offset = .ok g ∧ ∀ (readings : List Millis) (now : Millis),
      ∃ position first available,
        (g.after (readings ++ [now])).position? = some position ∧
        g.issuedOn readings (Base36.encode position 13) = first ∧
        first + available = min (36 ^ suffixDigits) (2 ^ 64) ∧
        ((g.after (readings ++ [now])).position? ≠ (g.after readings).position? → first = 0) ∧
        (∀ count ≤ available, (g.after readings).batch now count =
          (.ok ((List.range count).map fun k => idText suffixDigits position (first + k)),
            g.after (readings ++ List.replicate count now))) ∧
        ∀ count > available, ∃ left, (g.after readings).batch now count =
            (.error (.capacityExhausted suffixDigits), left) ∧
          left = g.after (readings ++ List.replicate count now) ∧
          g.issuedOn (readings ++ List.replicate count now) (Base36.encode position 13) =
            min (36 ^ suffixDigits) (2 ^ 64) ∧
          (∀ calls, left.outcomes (List.replicate calls now) =
            (List.replicate calls (.error (.capacityExhausted suffixDigits)), left)) ∧
          ∀ (distance : Nat) (later : Millis), 1 ≤ distance → distance < 2 ^ 63 →
            position + distance ≤ 36 ^ 13 - 1 →
            (later.toInt - offset.toInt) % 2 ^ 64 = (position + distance) % 2 ^ 64 →
            ∃ g', left.next later = .ok (idText suffixDigits (position + distance) 0, g') := by
  obtain ⟨g, hg, hheld, rfl, rfl⟩ := exists_create hwidth offset
  refine ⟨g, hg, ?_⟩
  intro readings now
  have hfits : (g.after readings).Fits := (fits_of_held_none hheld).after readings
  have hroom := hfits.upNext_serial_le now
  have hbatch (count : Nat) := batchOnto_eq now [] (g.after readings) count
  have hposition := position?_step_eq_upNext (g.after readings) now
  have hfirst := serial_upNext hheld readings now
  rw [suffixDigits_after] at hroom
  simp only [suffixDigits_after, ← after_append] at hbatch
  generalize hnext : (g.after readings).upNext now = next at hroom hbatch hposition hfirst
  refine ⟨next.position, next.serial, Base36.capacity g.suffixDigits + 1 - next.serial, ?_,
    hfirst.symm, ?_, ?_, ?_, ?_⟩
  · rw [after_concat]
    exact hposition
  · rw [limit_eq]
    omega
  · intro hmoved
    rw [after_concat] at hmoved
    rcases upNext_cases (g.after readings) now with ⟨position, -, hupNext⟩ | ⟨a, -, hstay, -⟩
    · rw [← hnext, hupNext]
    · exact absurd (position?_step_of_stays hstay) hmoved
  · intro count hcount
    rw [batch, hbatch, if_pos hcount, List.reverse_nil, List.nil_append]
  · intro count hcount
    have hover : Base36.capacity (g.after readings).suffixDigits + 1 -
        ((g.after readings).upNext now).serial < count := by
      rwa [suffixDigits_after, hnext]
    have hleft : (g.after (readings ++ List.replicate count now)).upNext now =
        ⟨next.position, Base36.capacity g.suffixDigits + 1⟩ := by
      rw [after_append, upNext_of_overrun hfits hover, suffixDigits_after, hnext]
    refine ⟨_, ?_, rfl, ?_, ?_, ?_⟩
    · rw [batch, hbatch, if_neg (by omega)]
    · have hissued := serial_upNext hheld (readings ++ List.replicate count now) now
      rw [hleft] at hissued
      rw [limit_eq]
      exact hissued.symm
    · intro calls
      have hrefused : (g.after (readings ++ List.replicate count now)).serve? now = none := by
        rw [after_append]
        exact serve?_of_overrun hfits hover
      have hcalls := outcomes_replicate_of_refused hrefused calls
      rw [suffixDigits_after] at hcalls
      exact hcalls
    · intro distance later hahead hhalf hfit hring
      obtain ⟨calls, rfl⟩ := Nat.exists_eq_succ_of_ne_zero (Nat.ne_zero_of_lt hcount)
      -- the segment is used up but still held, and only a reading at another point opens a new one
      have hstands : (g.after (readings ++ List.replicate (calls + 1) now)).position? =
          some next.position := by
        rw [after_append, position?_after_replicate hfits, hnext]
      rw [← offset_after g (readings ++ List.replicate (calls + 1) now)] at hring
      have hopens := next_of_distance hstands hahead hhalf hfit hring
      rw [suffixDigits_after] at hopens
      exact ⟨_, hopens⟩

/-- After five identifiers a batch takes the other 31 of the millisecond, but one of 40 takes none;
the millisecond after that starts from serial 0. -/
theorem batches_run_through_segments_of_one_digit :
    1 ≤ 13 ∧ ∃ g, create 1 0 = .ok g ∧
      (∃ g', (g.after (List.replicate 5 7)).batch 7 31 =
        (.ok ((List.range 31).map fun k => idText 1 7 (5 + k)), g')) ∧
      ∃ left, (g.after (List.replicate 5 7)).batch 7 40 =
        (.error (.capacityExhausted 1), left) ∧
        ∃ g', left.next 8 = .ok ("00000000000080", g') := by
  obtain ⟨g, hg, hruns⟩ := batches_run_through_segments (show 1 ≤ 13 by decide) 0
  obtain rfl := eq_of_create (by decide) hg
  obtain ⟨position, first, available, hposition, hfirst, havailable, -, hserved, hrefused⟩ :=
    hruns (List.replicate 5 7) 7
  have hseven : position = 7 := by
    rw [show (after ⟨1, 0, none, by decide⟩ (List.replicate 5 7 ++ [7])).position? = some 7 by
      decide +kernel] at hposition
    cases hposition
    rfl
  subst hseven
  have hfive : first = 5 := by
    rw [← hfirst]
    decide +kernel
  subst hfive
  have hrest : available = 31 := by omega
  subst hrest
  obtain ⟨left, hbatch, -, -, -, hopens⟩ := hrefused 40 (by decide)
  exact ⟨by decide, _, hg, ⟨_, hserved 31 (by decide)⟩, left, hbatch,
    hopens 1 8 (by decide) (by decide) (by decide) (by decide)⟩

end Generator
end TimeIds.Alphanumeric
