import TimeIds.Clock.Manual
import TimeIds.Proofs.Alphanumeric.Calls

/-!
# The ring against time without end

A clock moved by hand runs on a ring of 64 bits, and a generator reads it on another. The exact sum
of the movements knows no ring. As long as the clock stays within half a ring of the farthest point
it has reached, the generator follows the exact sum: its position is the first reading plus the
farthest point reached so far (`position?_after_readings`), however many laps that takes.

* **`reach_le_iff`** – the farthest point reached is the running maximum of the displacements;
* **`Generator.position?_step_of_near`** – one call, for a reading within half a ring;
* **`Generator.outcomes_follow_reach`** – the time segments of a run.
-/

namespace TimeIds

/-- What a clock moved by hand shows at each call: as it stands at the first one, and after one more
movement at each later one. -/
def ManualClock.readings (clock : ManualClock) (movements : List Millis) : List Millis :=
  (movements.scanl advance clock).map millis

namespace Alphanumeric

/-- The exact sum of the movements before a call. The first call comes before all of them. -/
def displacement (movements : List Millis) (i : Nat) : Int :=
  ((movements.take i).map Int64.toInt).sum

/-- The farthest point reached up to a call. -/
def reach (movements : List Millis) : Nat → Int
  | 0 => displacement movements 0
  | i + 1 => max (reach movements i) (displacement movements (i + 1))

/-! ## Displacements -/

@[simp] theorem displacement_zero (movements : List Millis) : displacement movements 0 = 0 := by
  simp [displacement]

/-- The farthest point reached is the least bound on the displacements so far. -/
theorem reach_le_iff {movements : List Millis} {i : Nat} {bound : Int} :
    reach movements i ≤ bound ↔ ∀ k, k ≤ i → displacement movements k ≤ bound := by
  induction i with
  | zero => simp [reach]
  | succ i ih =>
    rw [reach, Int.max_le, ih]
    constructor
    · rintro ⟨hbefore, hlast⟩ k hk
      by_cases h : k = i + 1
      · rw [h]; exact hlast
      · exact hbefore k (by omega)
    · intro h
      exact ⟨fun k hk => h k (by omega), h (i + 1) (by omega)⟩

theorem displacement_le_reach (movements : List Millis) {i k : Nat} (h : k ≤ i) :
    displacement movements k ≤ reach movements i :=
  reach_le_iff.1 (Int.le_refl _) k h

/-- The farthest point is not behind the start, which the first call stands at. -/
theorem reach_nonneg (movements : List Millis) (i : Nat) : 0 ≤ reach movements i := by
  simpa using displacement_le_reach movements (Nat.zero_le i)

/-- The clock wraps where it must, and agrees with the exact sum modulo the ring. -/
theorem toInt_millis_foldl_advance (clock : ManualClock) (movements : List Millis) :
    (movements.foldl ManualClock.advance clock).millis.toInt % 2 ^ 64 =
      (clock.millis.toInt + (movements.map Int64.toInt).sum) % 2 ^ 64 := by
  induction movements generalizing clock with
  | nil => simp
  | cons d rest ih =>
    have hstep : (clock.advance d).millis.toInt % ((2 ^ 64 : Nat) : Int) =
        (clock.millis.toInt + d.toInt) % ((2 ^ 64 : Nat) : Int) := by
      show (clock.millis + d).toInt % ((2 ^ 64 : Nat) : Int) = _
      rw [Int64.toInt_add]
      exact Int.bmod_emod
    rw [List.foldl_cons, ih, List.map_cons, List.sum_cons]
    omega

theorem length_readings (clock : ManualClock) (movements : List Millis) :
    (clock.readings movements).length = movements.length + 1 := by
  simp [ManualClock.readings]

theorem getElem_readings (clock : ManualClock) (movements : List Millis) {i : Nat}
    (hi : i < (clock.readings movements).length) :
    (clock.readings movements)[i] =
      ((movements.take i).foldl ManualClock.advance clock).millis := by
  simp [ManualClock.readings, List.getElem_scanl]

namespace Generator

/-- Where the first reading of a clock stands on the ring of a generator. -/
def startOf (offset first : Millis) : Int := (first.toInt - offset.toInt) % 2 ^ 64

/-- On the ring of the generator a reading lies past the start by the displacement, whatever laps
the clock made. -/
theorem toNat_ringAt_readings (g : Generator) (clock : ManualClock) (movements : List Millis)
    {i : Nat} (hi : i < (clock.readings movements).length) :
    ((g.ringAt (clock.readings movements)[i]).toNat : Int) =
      (startOf g.offset clock.millis + displacement movements i) % 2 ^ 64 := by
  have hmillis := toInt_millis_foldl_advance clock (movements.take i)
  rw [toNat_ringAt, getElem_readings]
  unfold startOf displacement
  omega

/-! ## One call -/

/-- A reading within half a ring of the position moves it to the farther of the two points. The
hypotheses speak of plain integers: `reached` is where the position stands and `displaced` where the
clock stands, both counted from `start`. -/
theorem position?_step_of_near {g : Generator} {now : Millis} {start reached displaced : Int}
    (hposition : g.position? = some (start + reached).toNat) (hnonneg : 0 ≤ start + reached)
    (hring : ((g.ringAt now).toNat : Int) = (start + displaced) % 2 ^ 64)
    (hlow : -2 ^ 63 ≤ displaced - reached) (hhigh : displaced - reached < 2 ^ 63)
    (hfits : start + max reached displaced ≤ maxPosition) :
    (g.step now).position? = some (start + max reached displaced).toNat := by
  obtain ⟨a, hheld, ha⟩ := Option.map_eq_some_iff.1 hposition
  have hlead : lead a.position (g.ringAt now) = displaced - reached :=
    lead_eq hlow hhigh (by rw [hring]; congr 1; omega)
  rw [position?_step hheld, advance?_eq, hlead]
  by_cases hahead : reached < displaced
  · rw [Int.max_eq_right (by omega)] at hfits ⊢
    -- the clock is past the position, which moves to it
    rw [if_pos ⟨by omega, by omega⟩, Option.getD_some]
    congr 1
    omega
  · rw [Int.max_eq_left (by omega)]
    rw [if_neg (by omega), Option.getD_none, ha]

/-! ## Runs -/

section Run

variable {g : Generator} {movements : List Millis} (clock : ManualClock) (hheld : g.held = none)
  (hnear : ∀ i, i < movements.length →
    -2 ^ 63 ≤ displacement movements (i + 1) - reach movements i ∧
      displacement movements (i + 1) - reach movements i < 2 ^ 63)
  (hfits : ∀ i, i ≤ movements.length →
    startOf g.offset clock.millis + reach movements i ≤ maxPosition)
include hheld hnear hfits

/-- **The position follows the farthest point reached.** Induction on the calls: before the first
one nothing is held, and its reading is taken as it stands on the ring. -/
theorem position?_after_readings {i : Nat} (hi : i ≤ movements.length) :
    (g.after ((clock.readings movements).take (i + 1))).position? =
      some (startOf g.offset clock.millis + reach movements i).toNat := by
  have hlength := length_readings clock movements
  have hstart : 0 ≤ startOf g.offset clock.millis := Int.emod_nonneg _ (by decide)
  induction i with
  | zero =>
    have hring := toNat_ringAt_readings g clock movements (by omega : 0 < _)
    have hlt : startOf g.offset clock.millis < 2 ^ 64 := Int.emod_lt_of_pos _ (by decide)
    rw [after_take_succ g (by omega), List.take_zero, after_nil, position?_step_of_held_none hheld]
    rw [displacement_zero] at hring
    rw [reach, displacement_zero]
    congr 1
    omega
  | succ i ih =>
    -- the position stands at the farthest point so far, and the next reading is near it
    have hreach := reach_nonneg movements i
    have hfar := hfits (i + 1) hi
    rw [after_take_succ g (by omega)]
    rw [reach] at hfar ⊢
    refine position?_step_of_near (ih (by omega)) (by omega) ?_ (hnear i (by omega)).1
      (hnear i (by omega)).2 hfar
    rw [ringAt_after]
    exact toNat_ringAt_readings g clock movements (by omega)

/-- The time segment of an identifier is the numeral of the farthest point reached at its call. -/
theorem timeSegment_of_reach {i : Nat} {id : String}
    (hid : (g.outcomes (clock.readings movements)).1[i]? = some (.ok id)) :
    i ≤ movements.length ∧ timeSegment id =
      Base36.encode (startOf g.offset clock.millis + reach movements i).toNat Base36.timeDigits := by
  obtain ⟨hi, -, -⟩ := exists_next_of_outcome hid
  rw [length_readings] at hi
  obtain ⟨position, hat, hsegment⟩ := timeSegment_of_outcome hid
  rw [position?_after_readings clock hheld hnear hfits (by omega)] at hat
  cases hat
  exact ⟨by omega, hsegment⟩

/-- A call is served if the position was not yet at the farthest point reached. -/
theorem exists_outcome_of_reach {i : Nat} (hi : i ≤ movements.length)
    (hmoved : (g.after ((clock.readings movements).take i)).position? ≠
      some (startOf g.offset clock.millis + reach movements i).toNat) :
    ∃ id, (g.outcomes (clock.readings movements)).1[i]? = some (.ok id) := by
  have hlength := length_readings clock movements
  refine exists_outcome_of_moved (by omega) ?_
  rw [position?_after_readings clock hheld hnear hfits hi]
  exact hmoved.symm

end Run

/-- **The ring follows time without end.** A new generator reads a clock that is moved by hand
between the calls, forwards or backwards, and both wrap on rings of 64 bits. As long as the exact
displacement of the clock stays within half a ring of the farthest point reached before, and the
farthest point fits thirteen digits, the time segment of every identifier is the numeral of the
start plus the farthest point reached. So a segment stays while the clock is not past that point,
and the call at which it gets past it is served under a new one. -/
theorem outcomes_follow_reach {suffixDigits : Nat} (hwidth : suffixDigits ≤ 13)
    (offset first : Millis) (movements : List Millis)
    (hnear : ∀ i, i < movements.length →
      -2 ^ 63 ≤ displacement movements (i + 1) - reach movements i ∧
        displacement movements (i + 1) - reach movements i < 2 ^ 63)
    (hfits : ∀ i, i ≤ movements.length → startOf offset first + reach movements i ≤ 36 ^ 13 - 1) :
    ∃ g, create suffixDigits offset = .ok g ∧
      let outcomes := (g.outcomes ((ManualClock.startingAt first).readings movements)).1
      outcomes.length = movements.length + 1 ∧
      (∀ i id, outcomes[i]? = some (.ok id) →
        timeSegment id = Base36.encode (startOf offset first + reach movements i).toNat 13) ∧
      (∀ i j id id', i ≤ j → outcomes[i]? = some (.ok id) → outcomes[j]? = some (.ok id') →
        (timeSegment id = timeSegment id' ↔
          ∀ k, k ≤ j → displacement movements k ≤ reach movements i)) ∧
      (∃ id, outcomes[0]? = some (.ok id)) ∧
      ∀ i, i < movements.length → reach movements i < displacement movements (i + 1) →
        ∃ id, outcomes[i + 1]? = some (.ok id) := by
  obtain ⟨g, hg, hheld, rfl, -⟩ := exists_create hwidth offset
  refine ⟨g, hg, ?_⟩
  intro outcomes
  let clock := ManualClock.startingAt first
  have hsegment {i : Nat} {id : String} (hid : outcomes[i]? = some (.ok id)) :
      i ≤ movements.length ∧
        timeSegment id = Base36.encode (startOf g.offset first + reach movements i).toNat 13 :=
    timeSegment_of_reach clock hheld hnear hfits hid
  have hserved {i : Nat} (hi : i ≤ movements.length) :=
    exists_outcome_of_reach clock hheld hnear hfits hi
  have hstart : 0 ≤ startOf g.offset first := Int.emod_nonneg _ (by decide)
  refine ⟨by rw [length_outcomes, length_readings], fun i id hid => (hsegment hid).2, ?_, ?_, ?_⟩
  · intro i j id id' hij hid hid'
    obtain ⟨hi, hsegi⟩ := hsegment hid
    obtain ⟨hj, hsegj⟩ := hsegment hid'
    have hfiti := hfits i hi
    have hfitj := hfits j hj
    have hreachi := reach_nonneg movements i
    have hreachj := reach_nonneg movements j
    have hmono : reach movements i ≤ reach movements j :=
      reach_le_iff.2 fun k hk => displacement_le_reach movements (by omega)
    -- the numerals are equal if the farthest points are, and the later one is no less
    rw [hsegi, hsegj, Base36.encode_inj (by omega) (by omega), ← reach_le_iff]
    omega
  · -- before the first call there is no position
    refine hserved (Nat.zero_le _) ?_
    rw [List.take_zero, after_nil, position?_of_held_none hheld]
    simp
  · intro i hi hpast
    -- before a call past the farthest point, the position stands at that point
    refine hserved hi ?_
    have hreach := reach_nonneg movements i
    rw [position?_after_readings clock hheld hnear hfits (Nat.le_of_lt hi), reach, Ne,
      Option.some.injEq]
    show ¬ (startOf g.offset first + reach movements i).toNat =
      (startOf g.offset first + max (reach movements i) (displacement movements (i + 1))).toNat
    omega

/-- One millisecond before the clock wraps and two before the ring does: the clock passes both ends,
goes back over them and passes them again. -/
theorem outcomes_follow_reach_past_both_ends :
    let movements : List Millis := [1, -3, 7, 0]
    (∀ i, i < movements.length →
      -2 ^ 63 ≤ displacement movements (i + 1) - reach movements i ∧
        displacement movements (i + 1) - reach movements i < 2 ^ 63) ∧
      (∀ i, i ≤ movements.length →
        startOf (Int64.minValue + 1) Int64.maxValue + reach movements i ≤ 36 ^ 13 - 1) ∧
      ∃ g, create 1 (Int64.minValue + 1) = .ok g ∧
        let outcomes := (g.outcomes ((ManualClock.startingAt Int64.maxValue).readings movements)).1
        ∃ id, outcomes[3]? = some (.ok id) ∧ timeSegment id = "3w5e11264sgsj" := by
  intro movements
  have hnear : ∀ i, i < movements.length →
      -2 ^ 63 ≤ displacement movements (i + 1) - reach movements i ∧
        displacement movements (i + 1) - reach movements i < 2 ^ 63 := by decide +kernel
  have hfits : ∀ i, i ≤ movements.length →
      startOf (Int64.minValue + 1) Int64.maxValue + reach movements i ≤ 36 ^ 13 - 1 := by
    decide +kernel
  obtain ⟨g, hg, -, hsegment, -, -, hserved⟩ :=
    outcomes_follow_reach (show 1 ≤ 13 by decide) (Int64.minValue + 1) Int64.maxValue movements
      hnear hfits
  obtain ⟨id, hid⟩ := hserved 2 (by decide) (by decide +kernel)
  refine ⟨hnear, hfits, g, hg, id, hid, ?_⟩
  rw [hsegment 3 id hid]
  decide +kernel

end Generator
end Alphanumeric
end TimeIds
