import TimeIds.Calendar

/-!
# Instants and ticks

An instant has a place on the unbounded scale of ticks, its `position`, and its tick is that place
taken to the nearest end of the 64-bit scale. So everything that is said here about ticks is said
first about positions, where nothing is lost but the part of 100 ns; and a place on the scale is
its own tick (`Ticks.toNat_clamp`).

The way back is settled by its graph: a tick is read as the one instant at its position that is a
multiple of 100 ns and no leap second (`ofTicks?_eq_some_iff`). An instant may lie in a leap second
after any second, and is then at the position of an instant of the second that follows.

* **`position_le`** – earlier instants have no later positions, leap seconds apart;
* **`position_eq_ofMillis`** – a position counted by milliseconds;
* **`ticks_and_instants`** – both ways between ticks and instants, and the order they keep;
* **`routes_agree`** – the tick of an instant and the tick of its millisecond.
-/

namespace TimeIds

namespace Ticks

/-- The positions that are ticks. -/
def OnScale (position : Int) : Prop := 0 ≤ position ∧ position < 2 ^ 64

instance (position : Int) : Decidable (OnScale position) :=
  inferInstanceAs (Decidable (_ ∧ _))

/-- On the scale nothing is clamped. -/
theorem toNat_clamp_of_onScale {position : Int} (h : OnScale position) :
    ((clamp position).toNat : Int) = position := by
  obtain ⟨hlow, hhigh⟩ := h
  rw [toNat_clamp]
  omega

/-- A tick taken as a position is that tick. -/
theorem clamp_toNat (ticks : Ticks) : clamp ticks.toNat = ticks := by
  have hlt := ticks.toNat_lt
  rw [← UInt64.toNat_inj, toNat_clamp]
  omega

/-- Milliseconds whose positions are ticks keep their order strictly: one of them is 10000 ticks. -/
theorem ofMillis_lt {a b : Millis} (h : a < b) (ha : OnScale (a.toInt * perMilli + gregorianOffset))
    (hb : OnScale (b.toInt * perMilli + gregorianOffset)) : ofMillis a < ofMillis b := by
  have hticksA := toNat_clamp_of_onScale ha
  have hticksB := toNat_clamp_of_onScale hb
  rw [Int64.lt_iff_toInt_lt] at h
  rw [UInt64.lt_iff_toNat_lt]
  unfold ofMillis
  simp only [perMilli] at hticksA hticksB ⊢
  omega

end Ticks

namespace Instant

/-! ## The order of instants -/

/-- An instant of an earlier second, or earlier in the same second, comes before. -/
instance : LT Instant := ⟨fun i j => i.secs < j.secs ∨ i.secs = j.secs ∧ i.nanos < j.nanos⟩

instance : LE Instant := ⟨fun i j => i.secs < j.secs ∨ i.secs = j.secs ∧ i.nanos ≤ j.nanos⟩

theorem lt_iff {i j : Instant} :
    i < j ↔ i.secs < j.secs ∨ i.secs = j.secs ∧ i.nanos < j.nanos := Iff.rfl

theorem le_iff {i j : Instant} :
    i ≤ j ↔ i.secs < j.secs ∨ i.secs = j.secs ∧ i.nanos ≤ j.nanos := Iff.rfl

theorem lt_or_le (i j : Instant) : i < j ∨ j ≤ i := by
  rw [lt_iff, le_iff]
  omega

/-- An instant that is no leap second. -/
def IsPlain (i : Instant) : Prop := i.nanos < 1000000000

instance (i : Instant) : Decidable i.IsPlain := inferInstanceAs (Decidable (i.nanos < _))

/-! ## Positions -/

/-- The position, with the ticks of a second written out for `omega`. -/
theorem position_eq (i : Instant) :
    i.position = i.secs * 10000000 + (i.nanos / 100 : Nat) + Ticks.gregorianOffset := rfl

/-- Earlier instants have no later positions. In a leap second the positions run on into those of
the next second, so the earlier instant must not lie in one. -/
theorem position_le {i j : Instant} (hi : i.IsPlain) (h : i ≤ j) : i.position ≤ j.position := by
  unfold IsPlain at hi
  rw [le_iff] at h
  rw [position_eq, position_eq]
  omega

/-- The millisecond of an instant. In a leap second the milliseconds run on as well. -/
def millis (i : Instant) : Millis := Int64.ofInt (i.secs * 1000 + (i.nanos / 1000000 : Nat))

/-- The calendar ends long before the milliseconds do. -/
theorem toInt_millis (i : Instant) :
    i.millis.toInt = i.secs * 1000 + (i.nanos / 1000000 : Nat) := by
  obtain ⟨hfirst, hlast, hnanos⟩ := i.valid
  exact Int64.toInt_ofInt_of_le (by omega) (by omega)

/-- The position of an instant is that of its millisecond, and the ticks since. -/
theorem position_eq_ofMillis (i : Instant) :
    i.position = i.millis.toInt * Ticks.perMilli + Ticks.gregorianOffset +
      (i.nanos % 1000000 / 100 : Nat) := by
  rw [position_eq, toInt_millis]
  simp only [Ticks.perMilli]
  omega

/-! ## From ticks to instants -/

/-- A tick is read as the instant at its position that has no part of 100 ns and is no leap
second. -/
theorem ofTicks?_eq_some_iff {ticks : Ticks} {i : Instant} :
    ofTicks? ticks = some i ↔ i.IsPlain ∧ i.nanos % 100 = 0 ∧ i.position = ticks.toNat := by
  obtain ⟨j, hj⟩ := Option.isSome_iff_exists.1 (isSome_ofTicks? ticks)
  -- what the reader makes of the tick, by its two divisions
  have hparts : j.secs = ((ticks.toNat : Int) - Ticks.gregorianOffset) / 10000000 ∧
      j.nanos = (((ticks.toNat : Int) - Ticks.gregorianOffset) % 10000000).toNat * 100 := by
    unfold ofTicks? ofUnix? at hj
    dsimp only at hj
    split at hj
    · cases hj
      exact ⟨rfl, rfl⟩
    · cases hj
  obtain ⟨hsecs, hnanos⟩ := hparts
  rw [hj, Option.some.injEq, position_eq]
  unfold IsPlain
  constructor
  · rintro rfl
    omega
  · -- a position is a second and a part of it in one way only, once leap seconds are left out
    rintro ⟨hplain, hgrid, hposition⟩
    rw [Instant.mk.injEq]
    omega

/-- No tick is lost on the way to an instant and back. -/
theorem toTicks_ofTicks? {ticks : Ticks} {i : Instant} (h : ofTicks? ticks = some i) :
    i.toTicks = ticks := by
  obtain ⟨-, -, hposition⟩ := ofTicks?_eq_some_iff.1 h
  unfold toTicks
  rw [hposition, Ticks.clamp_toNat]

/-- Later ticks are read as later instants. -/
theorem ofTicks?_lt {ticks later : Ticks} {i j : Instant} (h : ticks < later)
    (hi : ofTicks? ticks = some i) (hj : ofTicks? later = some j) : i < j := by
  obtain ⟨-, -, hposition⟩ := ofTicks?_eq_some_iff.1 hi
  obtain ⟨hplain, -, hpositionLater⟩ := ofTicks?_eq_some_iff.1 hj
  rw [UInt64.lt_iff_toNat_lt] at h
  rcases lt_or_le i j with hlt | hle
  · exact hlt
  · -- positions would go back, and here they are the ticks
    have hback : j.position ≤ i.position := position_le hplain hle
    omega

/-! ## From instants to ticks -/

/-- An instant cut to a multiple of 100 ns. -/
def cut (i : Instant) : Instant where
  secs := i.secs
  nanos := i.nanos / 100 * 100
  valid := by
    obtain ⟨hfirst, hlast, hnanos⟩ := i.valid
    exact ⟨hfirst, hlast, by omega⟩

/-- On the scale, the way to ticks and back cuts an instant to a multiple of 100 ns. -/
theorem ofTicks?_toTicks {i : Instant} (hi : i.IsPlain) (hscale : Ticks.OnScale i.position) :
    ofTicks? i.toTicks = some i.cut := by
  have hposition : i.cut.position = i.position := by
    show i.secs * 10000000 + (i.nanos / 100 * 100 / 100 : Nat) + _ = _
    rw [Nat.mul_div_cancel _ (by decide), position_eq]
  rw [ofTicks?_eq_some_iff]
  refine ⟨?_, Nat.mul_mod_left _ _, ?_⟩
  · exact Nat.lt_of_le_of_lt (Nat.div_mul_le_self i.nanos 100) hi
  · unfold toTicks
    rw [hposition, Ticks.toNat_clamp_of_onScale hscale]

/-- Clamping keeps the order of positions, so instants keep theirs as ticks. -/
theorem toTicks_mono {i j : Instant} (hi : i.IsPlain) (h : i ≤ j) : i.toTicks ≤ j.toTicks :=
  Ticks.clamp_mono (position_le hi h)

/-- **Ticks and instants.** Every tick is an instant, within the second and no leap second, whose
tick it is, and later ticks are later instants. An instant that is no leap second and lies on the
scale is, taken to its tick and back, cut to a multiple of 100 ns. Instants that are no leap seconds
keep their order as ticks, those off the scale included. -/
theorem ticks_and_instants :
    (∀ ticks : Ticks, ∃ i, ofTicks? ticks = some i ∧ i.nanos < 1000000000 ∧ i.toTicks = ticks) ∧
    (∀ (ticks later : Ticks) (i j : Instant), ticks < later → ofTicks? ticks = some i →
      ofTicks? later = some j → i < j) ∧
    (∀ i : Instant, i.IsPlain → Ticks.OnScale i.position →
      ∃ j, ofTicks? i.toTicks = some j ∧ j.secs = i.secs ∧ j.nanos = i.nanos - i.nanos % 100) ∧
    ∀ i j : Instant, i.IsPlain → j.IsPlain → i ≤ j → i.toTicks ≤ j.toTicks := by
  refine ⟨?_, ?_, ?_, ?_⟩
  · intro ticks
    obtain ⟨i, hi⟩ := Option.isSome_iff_exists.1 (isSome_ofTicks? ticks)
    exact ⟨i, hi, (ofTicks?_eq_some_iff.1 hi).1, toTicks_ofTicks? hi⟩
  · intro ticks later i j hlt hi hj
    exact ofTicks?_lt hlt hi hj
  · intro i hplain hscale
    refine ⟨i.cut, ofTicks?_toTicks hplain hscale, rfl, ?_⟩
    show i.nanos / 100 * 100 = i.nanos - i.nanos % 100
    omega
  · intro i j hplain _ hle
    exact toTicks_mono hplain hle

/-- The last nanosecond before 1970 loses 99 of them, and the ends of the calendar lie off the scale
at both ends. -/
theorem ticks_and_instants_around_the_ends :
    (∃ i, ofTicks? 0 = some i ∧ i.nanos < 1000000000 ∧ i.toTicks = 0) ∧
    (∃ i j, ofTicks? 0 = some i ∧ ofTicks? 0xFFFFFFFFFFFFFFFF = some j ∧ i < j) ∧
    (∃ j, ofTicks? (Instant.mk (-1) 999999999 (by decide)).toTicks = some j ∧ j.secs = -1 ∧
      j.nanos = 999999900) ∧
    (Instant.mk (-8334601228800) 0 (by decide)).toTicks ≤
      (Instant.mk 8210266876799 999999999 (by decide)).toTicks := by
  obtain ⟨htotal, hlater, hback, hmono⟩ := ticks_and_instants
  obtain ⟨first, hfirst, hnanos, hticks⟩ := htotal 0
  obtain ⟨last, hlast, -, -⟩ := htotal 0xFFFFFFFFFFFFFFFF
  refine ⟨⟨first, hfirst, hnanos, hticks⟩, ⟨first, last, hfirst, hlast, ?_⟩, ?_, ?_⟩
  · exact hlater 0 0xFFFFFFFFFFFFFFFF first last (by decide) hfirst hlast
  · exact hback ⟨-1, 999999999, by decide⟩ (by decide) (by decide)
  · exact hmono _ _ (by decide) (by decide) (.inl (by decide))

/-! ## Two routes to a tick -/

/-- **The two routes agree.** The tick of an instant, of a leap second too, is that of its millisecond
and the ticks since, if both lie on the scale. Later milliseconds have no earlier ticks, those off the
scale included, and on the scale they have later ones. -/
theorem routes_agree :
    (∀ i : Instant, i.millis.toInt = i.secs * 1000 + (i.nanos / 1000000 : Nat) ∧
      (Ticks.OnScale (i.millis.toInt * Ticks.perMilli + Ticks.gregorianOffset) →
        Ticks.OnScale i.position →
        i.toTicks.toNat = (Ticks.ofMillis i.millis).toNat + i.nanos % 1000000 / 100)) ∧
    (∀ a b : Millis, a ≤ b → Ticks.ofMillis a ≤ Ticks.ofMillis b) ∧
    ∀ a b : Millis, a < b → Ticks.OnScale (a.toInt * Ticks.perMilli + Ticks.gregorianOffset) →
      Ticks.OnScale (b.toInt * Ticks.perMilli + Ticks.gregorianOffset) →
      Ticks.ofMillis a < Ticks.ofMillis b := by
  refine ⟨fun i => ⟨toInt_millis i, ?_⟩, fun a b => Ticks.ofMillis_mono, fun a b => Ticks.ofMillis_lt⟩
  intro hmillis hscale
  -- on the scale both ticks are positions, and the two positions differ by the ticks since
  have hinstant : (i.toTicks.toNat : Int) = i.position := Ticks.toNat_clamp_of_onScale hscale
  have hmilli : ((Ticks.ofMillis i.millis).toNat : Int) =
      i.millis.toInt * Ticks.perMilli + Ticks.gregorianOffset := Ticks.toNat_clamp_of_onScale hmillis
  rw [position_eq_ofMillis, ← hmilli] at hinstant
  omega

/-- The end of a leap second before 1970, nearly a second past its second; a leap second in the middle
of a minute; and times beyond the last tick. -/
theorem routes_agree_in_a_leap_second :
    (Instant.mk (-1) 1999999999 (by decide)).toTicks.toNat =
      (Ticks.ofMillis (Instant.mk (-1) 1999999999 (by decide)).millis).toNat + 9999 ∧
    (Instant.mk 4 1333333333 (by decide)).toTicks.toNat =
      (Ticks.ofMillis (Instant.mk 4 1333333333 (by decide)).millis).toNat + 3333 ∧
    Ticks.ofMillis (-1) < Ticks.ofMillis 999 ∧
    Ticks.ofMillis 9000000000000000000 ≤ Ticks.ofMillis 9000000000000000001 := by
  obtain ⟨hroutes, hmono, hstrict⟩ := routes_agree
  refine ⟨?_, ?_, ?_, ?_⟩
  · exact (hroutes ⟨-1, 1999999999, by decide⟩).2 (by decide) (by decide)
  · exact (hroutes ⟨4, 1333333333, by decide⟩).2 (by decide) (by decide)
  · exact hstrict (-1) 999 (by decide) (by decide) (by decide)
  · exact hmono 9000000000000000000 9000000000000000001 (by decide)

end Instant
end TimeIds
