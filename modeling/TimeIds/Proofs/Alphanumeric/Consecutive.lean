import TimeIds.Proofs.Alphanumeric.Recovered

/-!
# Serial numbers are consecutive

A reading either moves the position, and then its identifier is the first on a new segment, or it
takes the next serial number of the held one, as long as the suffix has room. So the serial number
of an identifier is the number of identifiers issued on its segment before
(`Generator.serial_eq_issuedOn`), and a refusal, which issues nothing, leaves no gap.

* **`advance?_of_distance`** – the readings that move the position, by their distance on the ring;
* **`Generator.issued_filter`** – the identifiers of a run on one segment, as a list;
* **`Generator.outcomes_consecutive`** – what every next reading does in every state of a run.
-/

namespace TimeIds.Alphanumeric

/-- A suffix has as many numbers as its digits write, and no more than a word counts. -/
theorem limit_eq (suffixDigits : Nat) :
    min (36 ^ suffixDigits) (2 ^ 64) = Base36.capacity suffixDigits + 1 := by
  have hpow : 0 < 36 ^ suffixDigits := Nat.pow_pos (by decide)
  rw [Base36.capacity_eq]
  omega

theorem lt_limit_iff {suffixDigits k : Nat} :
    k < min (36 ^ suffixDigits) (2 ^ 64) ↔ k ≤ Base36.capacity suffixDigits := by
  rw [limit_eq, Nat.lt_succ_iff]

/-- A reading less than half a ring ahead moves the position by its distance, if the segment fits. -/
theorem advance?_of_distance {position distance : Nat} {ring : UInt64} (hahead : 1 ≤ distance)
    (hhalf : distance < 2 ^ 63) (hfit : position + distance ≤ maxPosition)
    (hring : ring.toNat = (position + distance) % 2 ^ 64) :
    advance? position ring = some (position + distance) := by
  have hlead : lead position ring = distance := lead_eq (by omega) (by omega) (by omega)
  rw [advance?_eq, hlead, Int.toNat_natCast, if_pos ⟨by omega, hfit⟩]

namespace Generator

variable {g : Generator} {readings : List Millis} {now : Millis}

/-! ## The next call -/

/-- The position that a reading moves the generator to, if it moves it. -/
def movesTo? (g : Generator) (now : Millis) : Option Nat :=
  match g.held with
  | none => some (g.ringAt now).toNat
  | some held => advance? held.position (g.ringAt now)

theorem movesTo?_of_held {a : Segment} (hheld : g.held = some a) (now : Millis) :
    g.movesTo? now = advance? a.position (g.ringAt now) := by
  unfold movesTo?
  rw [hheld]

/-- A reading that moves the position is served at serial 0. -/
theorem serve?_of_movesTo? {position : Nat} (hmove : g.movesTo? now = some position) :
    g.serve? now = some ⟨position, 0⟩ := by
  unfold movesTo? at hmove
  unfold serve?
  cases hheld : g.held with
  | none =>
    rw [hheld] at hmove
    cases hmove
    rfl
  | some a =>
    rw [hheld] at hmove
    dsimp only at hmove ⊢
    rw [hmove]

/-- Any other reading is served at the next serial number, if the suffix has room for it. -/
theorem serve?_of_stays {a : Segment} (hheld : g.held = some a) (hstay : g.movesTo? now = none) :
    g.serve? now =
      if a.serial + 1 ≤ Base36.capacity g.suffixDigits then some ⟨a.position, a.serial + 1⟩
      else none := by
  rw [movesTo?_of_held hheld] at hstay
  unfold serve?
  rw [hheld]
  dsimp only
  rw [hstay]

/-- Only a held segment can keep a reading from moving the position. -/
theorem exists_held_of_stays (hstay : g.movesTo? now = none) : ∃ a, g.held = some a := by
  unfold movesTo? at hstay
  cases hheld : g.held with
  | none =>
    rw [hheld] at hstay
    cases hstay
  | some a => exact ⟨a, rfl⟩

theorem position?_step_of_movesTo? {position : Nat} (hmove : g.movesTo? now = some position) :
    (g.step now).position? = some position := by
  rw [step_of_serve?_some (serve?_of_movesTo? hmove)]
  rfl

/-- A reading that does not move the position leaves it, also if it is refused. -/
theorem position?_step_of_stays (hstay : g.movesTo? now = none) :
    (g.step now).position? = g.position? := by
  obtain ⟨a, ha⟩ := exists_held_of_stays hstay
  rw [movesTo?_of_held ha] at hstay
  rw [position?_step ha, hstay, position?_of_held ha, Option.getD_none]

/-- A reading that moves the position moves it to another one. -/
theorem position?_ne_of_movesTo? {position : Nat} (hmove : g.movesTo? now = some position) :
    g.position? ≠ some position := by
  cases hheld : g.held with
  | none =>
    rw [position?_of_held_none hheld]
    simp
  | some a =>
    rw [movesTo?_of_held hheld] at hmove
    have hlt : a.position < position := (advance?_bounds hmove).1
    rw [position?_of_held hheld, Ne, Option.some.injEq]
    omega

/-! ## Counting -/

/-- **The serial number of an identifier** is the number of those issued on its segment before. -/
theorem serial_eq_issuedOn (hheld : g.held = none) {b : Segment}
    (hserve : (g.after readings).serve? now = some b) :
    b.serial = g.issuedOn readings (Base36.encode b.position Base36.timeDigits) := by
  have hfits : g.Fits := fits_of_held_none hheld
  have hb : b.Fits (g.after readings).suffixDigits := fits_of_serve? (hfits.after readings) hserve
  have hafter : (g.after (readings ++ [now])).held = some b := by
    rw [after_concat, step_of_serve?_some hserve]
    rfl
  -- with this call its segment has one more than the serial number, so it had as many before
  have hcounted := (trace_after hheld hafter).counted
  rw [served_concat, hserve, List.countP_append] at hcounted
  rw [issuedOn_encode hfits readings hb.position_lt]
  simpa using hcounted.symm

/-- On the held segment one more identifier was issued than its serial number tells. -/
theorem issuedOn_held (hheld : g.held = none) {a : Segment}
    (hafter : (g.after readings).held = some a) :
    g.issuedOn readings (Base36.encode a.position Base36.timeDigits) = a.serial + 1 := by
  have hfits : g.Fits := fits_of_held_none hheld
  have ha : a.Fits (g.after readings).suffixDigits := hfits.after readings a hafter
  rw [issuedOn_encode hfits readings ha.position_lt]
  exact (trace_after hheld hafter).counted

/-- A segment that a reading moves to is new. -/
theorem issuedOn_of_movesTo? (hheld : g.held = none) {position : Nat}
    (hmove : (g.after readings).movesTo? now = some position) :
    g.issuedOn readings (Base36.encode position Base36.timeDigits) = 0 :=
  (serial_eq_issuedOn hheld (serve?_of_movesTo? hmove)).symm

/-- One call more: its identifier, if there is one, comes after those of the run. -/
theorem issued_concat (g : Generator) (readings : List Millis) (now : Millis) :
    (g.outcomes (readings ++ [now])).1.filterMap Except.toOption =
      (g.outcomes readings).1.filterMap Except.toOption ++
        ((g.after readings).serve? now).toList.map fun s =>
          idText g.suffixDigits s.position s.serial := by
  rw [toOption_outcomes, toOption_outcomes, served_concat, List.map_append]

theorem issuedOn_concat_of_refused (hserve : (g.after readings).serve? now = none)
    (segment : String) : g.issuedOn (readings ++ [now]) segment = g.issuedOn readings segment := by
  unfold issuedOn
  rw [issued_concat, hserve, Option.toList_none, List.map_nil, List.append_nil]

theorem issuedOn_concat {b : Segment} (hserve : (g.after readings).serve? now = some b)
    (segment : String) :
    g.issuedOn (readings ++ [now]) segment = g.issuedOn readings segment +
      if Base36.encode b.position Base36.timeDigits = segment then 1 else 0 := by
  unfold issuedOn
  rw [issued_concat, hserve, List.countP_append]
  simp [timeSegment_idText]

/-- No segment has more identifiers than its suffix has numbers. -/
theorem issuedOn_le (hheld : g.held = none) (readings : List Millis) (segment : String) :
    g.issuedOn readings segment ≤ min (36 ^ g.suffixDigits) (2 ^ 64) := by
  induction readings using List.reverseRecOn with
  | nil => exact Nat.zero_le _
  | append_singleton readings now ih =>
    cases hserve : (g.after readings).serve? now with
    | none =>
      rw [issuedOn_concat_of_refused hserve]
      exact ih
    | some b =>
      rw [issuedOn_concat hserve]
      split
      · next hsegment =>
        have hfits : g.Fits := fits_of_held_none hheld
        have hb : b.Fits (g.after readings).suffixDigits :=
          fits_of_serve? (hfits.after readings) hserve
        have hroom : b.serial < min (36 ^ g.suffixDigits) (2 ^ 64) := by
          rw [lt_limit_iff, ← suffixDigits_after g readings]
          exact hb.2
        -- the segment had room for its serial number, which is the number issued before
        rw [serial_eq_issuedOn hheld hserve, hsegment] at hroom
        omega
      · exact ih

/-- **The identifiers on one segment** are the first serial numbers in their order, without a gap.
Induction on the calls, the last one split off. -/
theorem issued_filter (hheld : g.held = none) (readings : List Millis) (segment : String) :
    ((g.outcomes readings).1.filterMap Except.toOption).filter (timeSegment · == segment) =
      (List.range (g.issuedOn readings segment)).map fun k =>
        segment ++ Base36.encode k g.suffixDigits := by
  induction readings using List.reverseRecOn with
  | nil => rfl
  | append_singleton readings now ih =>
    rw [issued_concat, List.filter_append, ih]
    cases hserve : (g.after readings).serve? now with
    | none =>
      rw [issuedOn_concat_of_refused hserve]
      simp
    | some b =>
      rw [issuedOn_concat hserve]
      by_cases hb : Base36.encode b.position Base36.timeDigits = segment
      · -- the identifier takes the number that comes next on the segment
        have hserial := serial_eq_issuedOn hheld hserve
        rw [hb] at hserial
        have htext : idText g.suffixDigits b.position b.serial =
            segment ++ Base36.encode b.serial g.suffixDigits := by
          rw [← hb]
          rfl
        simpa [timeSegment_idText, hb, ← hserial, List.range_succ] using htext
      · simp [timeSegment_idText, hb]

/-! ## Refusals -/

/-- Calls that are all refused leave the generator as it is. -/
theorem after_of_refused {refused : List Millis}
    (hrefused : ∀ outcome ∈ (g.outcomes refused).1, outcome.toOption = none) :
    g.after refused = g := by
  induction refused generalizing g with
  | nil => rfl
  | cons now rest ih =>
    rw [outcomes_cons] at hrefused
    have hnone : g.serve? now = none := by
      have hfirst := hrefused _ List.mem_cons_self
      rw [next_eq] at hfirst
      cases hserve : g.serve? now with
      | none => rfl
      | some s =>
        rw [hserve] at hfirst
        cases hfirst
    have hstep : g.step now = g := step_of_serve?_none hnone
    rw [hstep] at hrefused
    rw [after_cons, hstep]
    exact ih fun outcome h => hrefused outcome (List.mem_cons_of_mem _ h)

/-! ## Every next reading -/

/-- What a reading that moves the position gives. -/
theorem next_of_movesTo? {position : Nat} (hmove : g.movesTo? now = some position) :
    g.next now = .ok (idText g.suffixDigits position 0, g.holding ⟨position, 0⟩) := by
  rw [next_eq, serve?_of_movesTo? hmove]

/-- What a reading less than half a ring ahead of the held segment gives. -/
theorem next_of_distance {position distance : Nat} (hposition : g.position? = some position)
    (hahead : 1 ≤ distance) (hhalf : distance < 2 ^ 63) (hfit : position + distance ≤ maxPosition)
    (hdistance : (now.toInt - g.offset.toInt) % 2 ^ 64 = (position + distance) % 2 ^ 64) :
    g.next now =
      .ok (idText g.suffixDigits (position + distance) 0, g.holding ⟨position + distance, 0⟩) := by
  obtain ⟨a, ha, rfl⟩ := Option.map_eq_some_iff.1 hposition
  have hpoint : (g.ringAt now).toNat = (a.position + distance) % 2 ^ 64 := by
    have hreading := toNat_ringAt g now
    omega
  apply next_of_movesTo?
  rw [movesTo?_of_held ha]
  exact advance?_of_distance hahead hhalf hfit hpoint

/-- What any other reading gives, told by the number of identifiers on the held segment. -/
theorem next_of_stays (hheld : g.held = none) {a : Segment}
    (hafter : (g.after readings).held = some a)
    (hstay : (g.after readings).movesTo? now = none) :
    let k := g.issuedOn readings (Base36.encode a.position Base36.timeDigits)
    (g.after readings).next now =
      if k < min (36 ^ g.suffixDigits) (2 ^ 64) then
        .ok (idText g.suffixDigits a.position k, (g.after readings).holding ⟨a.position, k⟩)
      else .error (.capacityExhausted g.suffixDigits) := by
  intro k
  have hk : k = a.serial + 1 := issuedOn_held hheld hafter
  have hserve := serve?_of_stays hafter hstay
  rw [suffixDigits_after, ← hk] at hserve
  rw [next_eq, hserve, suffixDigits_after]
  by_cases hroom : k ≤ Base36.capacity g.suffixDigits
  · rw [if_pos hroom, if_pos (lt_limit_iff.2 hroom)]
  · rw [if_neg hroom, if_neg fun h => hroom (lt_limit_iff.1 h)]

/-- **Serial numbers are consecutive.** In every state that a run of a new generator leads to, with
any readings and with refusals in between, a reading that moves the position gives the first
identifier on a new segment. Any other reading gives the identifier whose serial number is the
number of those issued on the held segment before, or is refused once that has come to the number of
suffixes. Refusals change nothing: after any of them, a reading less than half a ring ahead of the
held segment opens a new one, if that fits thirteen digits. So the identifiers of a run on any one
segment have the serial numbers from 0 on, in their order. -/
theorem outcomes_consecutive {suffixDigits : Nat} (hwidth : suffixDigits ≤ 13) (offset : Millis) :
    ∃ g, create suffixDigits offset = .ok g ∧ ∀ readings : List Millis,
      (∀ now, (g.after (readings ++ [now])).position? ≠ (g.after readings).position? →
        ∃ position, (g.after (readings ++ [now])).position? = some position ∧
          g.issuedOn readings (Base36.encode position 13) = 0 ∧
          ∃ g', (g.after readings).next now = .ok (idText suffixDigits position 0, g')) ∧
      (∀ now, (g.after (readings ++ [now])).position? = (g.after readings).position? →
        ∃ position, (g.after readings).position? = some position ∧
          let k := g.issuedOn readings (Base36.encode position 13)
          k ≤ min (36 ^ suffixDigits) (2 ^ 64) ∧
          (k < min (36 ^ suffixDigits) (2 ^ 64) →
            ∃ g', (g.after readings).next now = .ok (idText suffixDigits position k, g')) ∧
          (k = min (36 ^ suffixDigits) (2 ^ 64) →
            (g.after readings).next now = .error (.capacityExhausted suffixDigits))) ∧
      (∀ refused : List Millis,
        (∀ outcome ∈ ((g.after readings).outcomes refused).1, outcome.toOption = none) →
        g.after (readings ++ refused) = g.after readings ∧
        ∀ (position distance : Nat) (now : Millis),
          (g.after readings).position? = some position → 1 ≤ distance → distance < 2 ^ 63 →
          position + distance ≤ 36 ^ 13 - 1 →
          (now.toInt - offset.toInt) % 2 ^ 64 = (position + distance) % 2 ^ 64 →
          ∃ g', (g.after (readings ++ refused)).next now =
            .ok (idText suffixDigits (position + distance) 0, g')) ∧
      ∀ segment : String,
        ((g.outcomes readings).1.filterMap Except.toOption).filter (timeSegment · == segment) =
          (List.range (g.issuedOn readings segment)).map fun k =>
            segment ++ Base36.encode k suffixDigits := by
  obtain ⟨g, hg, hheld, hoffset, hdigits⟩ := exists_create hwidth offset
  refine ⟨g, hg, ?_⟩
  intro readings
  refine ⟨?_, ?_, ?_, ?_⟩
  · intro now hmoved
    rw [after_concat] at hmoved ⊢
    cases hmove : (g.after readings).movesTo? now with
    | none => exact absurd (position?_step_of_stays hmove) hmoved
    | some position =>
      have hnext := next_of_movesTo? hmove
      rw [suffixDigits_after, hdigits] at hnext
      exact ⟨position, position?_step_of_movesTo? hmove, issuedOn_of_movesTo? hheld hmove, _, hnext⟩
  · intro now hsame
    rw [after_concat] at hsame
    have hstay : (g.after readings).movesTo? now = none := by
      cases hmove : (g.after readings).movesTo? now with
      | none => rfl
      | some position =>
        rw [position?_step_of_movesTo? hmove] at hsame
        exact absurd hsame.symm (position?_ne_of_movesTo? hmove)
    obtain ⟨a, ha⟩ := exists_held_of_stays hstay
    have hnext := next_of_stays hheld ha hstay
    have hle := issuedOn_le hheld readings (Base36.encode a.position Base36.timeDigits)
    rw [hdigits] at hnext hle
    refine ⟨a.position, position?_of_held ha, hle, ?_, ?_⟩
    · intro hroom
      exact ⟨_, hnext.trans (if_pos hroom)⟩
    · intro hfull
      exact hnext.trans (if_neg fun hroom => absurd hfull (Nat.ne_of_lt hroom))
  · intro refused hrefused
    have hsame : g.after (readings ++ refused) = g.after readings := by
      rw [after_append, after_of_refused hrefused]
    refine ⟨hsame, ?_⟩
    intro position distance now hposition hahead hhalf hfit hring
    rw [← hoffset, ← offset_after g readings] at hring
    have hnext := next_of_distance hposition hahead hhalf hfit hring
    rw [suffixDigits_after, hdigits] at hnext
    rw [hsame]
    exact ⟨_, hnext⟩
  · intro segment
    have hids := issued_filter hheld readings segment
    rw [hdigits] at hids
    exact hids

/-- All 36 identifiers of a millisecond are issued, two calls are refused, one of them at an earlier
time, and the millisecond after that starts from serial 0 again. -/
theorem outcomes_consecutive_after_exhaustion :
    1 ≤ 13 ∧ ∃ g, create 1 0 = .ok g ∧
      (g.after (List.replicate 36 7)).position? = some 7 ∧
      (∀ outcome ∈ ((g.after (List.replicate 36 7)).outcomes [7, 3]).1,
        outcome.toOption = none) ∧
      ∃ g', (g.after (List.replicate 36 7 ++ [7, 3])).next 8 = .ok ("00000000000080", g') := by
  obtain ⟨g, hg, hruns⟩ := outcomes_consecutive (show 1 ≤ 13 by decide) 0
  obtain rfl := eq_of_create (by decide) hg
  obtain ⟨-, -, hrefusals, -⟩ := hruns (List.replicate 36 7)
  have hposition : (after ⟨1, 0, none, by decide⟩ (List.replicate 36 7)).position? = some 7 := by
    decide +kernel
  have hrefused : ∀ outcome ∈ ((after ⟨1, 0, none, by decide⟩ (List.replicate 36 7)).outcomes
      [7, 3]).1, outcome.toOption = none := by
    decide +kernel
  refine ⟨by decide, _, hg, hposition, hrefused, ?_⟩
  exact (hrefusals [7, 3] hrefused).2 7 1 8 hposition (by decide) (by decide) (by decide)
    (by decide)

end Generator
end TimeIds.Alphanumeric
