import Mathlib.Data.List.Induction
import TimeIds.Proofs.Calendar.Instants
import TimeIds.Proofs.Clock.Run

/-!
# Ticks over a wall clock

A wall clock may stand still and jump ahead, but it does not go back. A tick clock changes its
millisecond only when it is asked at another one, so with readings in order all that a call depends
on is how often its own reading came before:

* **`serial_after`** – the number of the tick that comes next after a run;
* **`outcome_eq`** – each call of a run by that number;
* **`pairwise_ticks`**, **`served_eq`** – ticks increase, and how many there are at one reading;
* **`ticks_follow_wall_clock`** – what a new clock hands out.

A new clock stands at millisecond 0 as if the first tick there had been handed out. That tick is
lost, unless the readings come to 0 from before it (`lost`).
-/

namespace TimeIds

namespace Ticks

/-! ## The ticks of a millisecond -/

/-- A millisecond whose ticks all lie on the scale. -/
def Whole (millis : Millis) : Prop :=
  0 ≤ millis.toInt * perMilli + gregorianOffset ∧
    millis.toInt * perMilli + gregorianOffset + 9999 < 2 ^ 64

instance (millis : Millis) : Decidable (Whole millis) := inferInstanceAs (Decidable (_ ∧ _))

/-- The first tick of a millisecond on the scale is not clamped. -/
theorem Whole.toNat_ofMillis {millis : Millis} (h : Whole millis) :
    ((ofMillis millis).toNat : Int) = millis.toInt * perMilli + gregorianOffset := by
  obtain ⟨hfirst, hlast⟩ := h
  exact toNat_clamp_of_onScale ⟨hfirst, by omega⟩

/-- No tick of a millisecond on the scale is clamped. -/
theorem Whole.toNat_numbered {millis : Millis} {serial : Nat} (h : Whole millis)
    (hserial : serial < perMilli) :
    (numbered millis serial).toNat = (ofMillis millis).toNat + serial := by
  have hmillis := h.toNat_ofMillis
  obtain ⟨-, hlast⟩ := h
  unfold numbered
  rw [toNat_clamp]
  unfold perMilli at hserial
  omega

/-- A millisecond is over before the next one begins. -/
theorem Whole.ofMillis_add_le {a b : Millis} (ha : Whole a) (hb : Whole b) (h : a < b) :
    (ofMillis a).toNat + perMilli ≤ (ofMillis b).toNat := by
  have hticksA := ha.toNat_ofMillis
  have hticksB := hb.toNat_ofMillis
  rw [Int64.lt_iff_toInt_lt] at h
  unfold perMilli at hticksA hticksB ⊢
  omega

/-- Ticks come in the order of their milliseconds and, within one, of their numbers. -/
theorem Whole.numbered_lt {a b : Millis} {m n : Nat} (ha : Whole a) (hb : Whole b)
    (hm : m < perMilli) (hn : n < perMilli) (h : a < b ∨ a = b ∧ m < n) :
    numbered a m < numbered b n := by
  -- without clamping, ticks are compared as numbers
  rw [UInt64.lt_iff_toNat_lt, ha.toNat_numbered hm, hb.toNat_numbered hn]
  rcases h with hlt | ⟨rfl, hlt⟩
  · have hover := ha.ofMillis_add_le hb hlt
    omega
  · omega

end Ticks

namespace SystemClock

variable {c : SystemClock} {readings : List Millis}

/-! ## Readings in order -/

/-- How many ticks of a millisecond no run on these readings gets, because the clock had handed them
out before: those of the millisecond it stands at, if the readings do not lead to it from before. -/
def lost (c : SystemClock) (readings : List Millis) (now : Millis) : Nat :=
  if readings.all (now ≤ ·) then c.serial now else 0

/-- A further call at a millisecond does not change what was lost there. -/
theorem lost_concat (rs : List Millis) (now : Millis) :
    c.lost (rs ++ [now]) now = c.lost rs now := by
  unfold lost
  rw [List.all_append, List.all_cons, List.all_nil, decide_eq_true (Int64.le_refl now),
    Bool.and_true, Bool.and_true]

/-- Readings in order do not come to a millisecond from before after it was there. -/
theorem lost_append {rs rs' : List Millis} {now : Millis}
    (hsorted : (rs ++ rs').Pairwise (· ≤ ·)) (hmem : now ∈ rs) :
    c.lost (rs ++ rs') now = c.lost rs now := by
  have hlater : ∀ r ∈ rs', now ≤ r := (List.pairwise_append.1 hsorted).2.2 now hmem
  have hall : rs'.all (now ≤ ·) = true := by simpa using hlater
  unfold lost
  rw [List.all_append, hall, Bool.and_true]

/-- **The number of the next tick**, after readings in order that do not lie behind its own: the
ticks that were lost and one for each call at the same reading, until all are used. -/
theorem serial_after (hc : c.InMilli) {rs : List Millis} {now : Millis}
    (hsorted : (rs ++ [now]).Pairwise (· ≤ ·)) :
    (c.after rs).serial now = min (c.lost rs now + rs.count now) Ticks.perMilli := by
  induction rs using List.reverseRecOn with
  | nil =>
    have hle : c.serial now ≤ Ticks.perMilli := by
      unfold InMilli at hc
      unfold serial
      split <;> omega
    have hlost : c.lost [] now = c.serial now := rfl
    rw [hlost, List.count_nil, Nat.add_zero, after_nil, Nat.min_eq_left hle]
  | append_singleton rs last ih =>
    obtain ⟨hrs, -, hbound⟩ := List.pairwise_append.1 hsorted
    rw [after_append, after_cons, after_nil, serial_step (hc.after rs)]
    by_cases hsame : now = last
    · subst hsame
      rw [if_pos rfl, ih hrs, lost_concat, List.count_append, List.count_singleton_self]
      omega
    · -- this is the first call at its millisecond, and an earlier one came before
      have hlast : last ≤ now := hbound last (by simp) now (by simp)
      have hnot : ¬now ≤ last := fun h => hsame (Int64.le_antisymm h hlast)
      have hnew : now ∉ rs ++ [last] := by
        intro hmem
        rcases List.mem_append.1 hmem with hmem | hmem
        · exact hnot ((List.pairwise_append.1 hrs).2.2 now hmem last (List.mem_singleton_self _))
        · exact hsame (List.mem_singleton.1 hmem)
      have hlost : c.lost (rs ++ [last]) now = 0 :=
        if_neg fun h => hnot (of_decide_eq_true (List.all_eq_true.1 h last (by simp)))
      rw [if_neg hsame, hlost, List.count_eq_zero_of_not_mem hnew, Nat.add_zero, Nat.zero_min]

/-- How many ticks of its millisecond the run has passed before call `i`: those that were lost, and
one for each earlier call at the same reading. -/
def passed (c : SystemClock) (readings : List Millis) (i : Nat) (now : Millis) : Nat :=
  c.lost readings now + (readings.take i).count now

/-- **What a call of a run comes to**, with readings in order. -/
theorem outcome_eq (hc : c.InMilli) (hsorted : readings.Pairwise (· ≤ ·)) {i : Nat} {now : Millis}
    (hi : readings[i]? = some now) :
    (c.outcomes readings)[i]? =
      some (if c.passed readings i now < Ticks.perMilli then
        .ok (Ticks.numbered now (c.passed readings i now)) else .error .overClocked) := by
  have hcut : readings = readings.take i ++ [now] ++ readings.drop (i + 1) :=
    (eq_cut hi).trans (List.append_cons _ _ _)
  have hsortedCut := hsorted
  rw [hcut] at hsortedCut
  -- the calls from this one on have no part in what was lost before
  have hlost : c.lost readings now = c.lost (readings.take i) now := by
    conv_lhs => rw [hcut]
    rw [lost_append hsortedCut (by simp), lost_concat]
  have hserial : (c.after (readings.take i)).serial now =
      min (c.passed readings i now) Ticks.perMilli := by
    unfold passed
    rw [hlost]
    exact serial_after hc (List.pairwise_append.1 hsortedCut).1
  rw [getElem?_outcomes, hi, Option.map_some, answer_eq, hserial]
  by_cases hroom : c.passed readings i now < Ticks.perMilli
  · rw [Nat.min_eq_left (Nat.le_of_lt hroom)]
  · rw [if_neg (by omega), if_neg hroom]

/-- The call behind a tick of a run. -/
theorem exists_of_served (hc : c.InMilli) (hsorted : readings.Pairwise (· ≤ ·)) {i : Nat}
    {t : Ticks} (h : (c.outcomes readings)[i]? = some (.ok t)) :
    ∃ now, readings[i]? = some now ∧ c.passed readings i now < Ticks.perMilli ∧
      t = Ticks.numbered now (c.passed readings i now) := by
  obtain ⟨now, hi, -⟩ := Option.map_eq_some_iff.1 ((getElem?_outcomes c readings i).symm.trans h)
  refine ⟨now, hi, ?_⟩
  rw [outcome_eq hc hsorted hi, Option.some.injEq] at h
  split at h
  · next hroom => exact ⟨hroom, (Except.ok.inj h).symm⟩
  · cases h

/-- A later call at the same reading has more ticks behind it, whatever came of the earlier one. -/
theorem passed_lt_passed {i j : Nat} {now : Millis} (hi : readings[i]? = some now) (hij : i < j) :
    c.passed readings i now < c.passed readings j now := by
  have hnext : (readings.take (i + 1)).count now = (readings.take i).count now + 1 := by
    rw [List.take_add_one, hi, Option.toList_some, List.count_append, List.count_singleton_self]
  have hle : (readings.take (i + 1)).count now ≤ (readings.take j).count now :=
    (List.take_prefix_take_left hij).sublist.count_le _
  unfold passed
  omega

/-- **Ticks increase** from one served call to the next. -/
theorem pairwise_ticks (hc : c.InMilli) (hsorted : readings.Pairwise (· ≤ ·))
    (hwhole : ∀ now ∈ readings, Ticks.Whole now) :
    ((c.outcomes readings).filterMap Except.toOption).Pairwise (· < ·) := by
  rw [List.pairwise_filterMap, List.pairwise_iff_getElem]
  intro i j hi hj hij t ht u hu
  have hservedI : (c.outcomes readings)[i]? = some (.ok t) := by
    rw [List.getElem?_eq_getElem hi, eq_ok_of_toOption ht]
  have hservedJ : (c.outcomes readings)[j]? = some (.ok u) := by
    rw [List.getElem?_eq_getElem hj, eq_ok_of_toOption hu]
  obtain ⟨a, ha, hroomA, rfl⟩ := exists_of_served hc hsorted hservedI
  obtain ⟨b, hb, hroomB, rfl⟩ := exists_of_served hc hsorted hservedJ
  have hle : a ≤ b := by
    obtain ⟨hltA, rfl⟩ := List.getElem?_eq_some_iff.1 ha
    obtain ⟨hltB, rfl⟩ := List.getElem?_eq_some_iff.1 hb
    exact List.pairwise_iff_getElem.1 hsorted i j hltA hltB hij
  refine (hwhole a (List.mem_of_getElem? ha)).numbered_lt (hwhole b (List.mem_of_getElem? hb))
    hroomA hroomB ?_
  by_cases hsame : a = b
  · subst hsame
    exact .inr ⟨rfl, passed_lt_passed ha hij⟩
  · exact .inl (Int64.lt_of_le_of_ne hle hsame)

/-! ## Calls at one reading -/

/-- How many calls at a reading are served. -/
def served (c : SystemClock) (readings : List Millis) (now : Millis) : Nat :=
  (readings.zip (c.outcomes readings)).countP fun call => call.1 == now && call.2.isOk

theorem isOk_answer (c : SystemClock) (now : Millis) :
    (c.answer now).isOk = decide (c.serial now < Ticks.perMilli) := by
  rw [answer_eq]
  split
  · next hroom => exact (decide_eq_true hroom).symm
  · next hfull => exact (decide_eq_false hfull).symm

theorem served_concat (rs : List Millis) (last now : Millis) :
    c.served (rs ++ [last]) now = c.served rs now +
      if last = now ∧ (c.after rs).serial now < Ticks.perMilli then 1 else 0 := by
  unfold served
  rw [outcomes_append, List.zip_append (length_outcomes c rs).symm, List.countP_append]
  congr 1
  show List.countP _ [(last, (c.after rs).answer last)] = _
  rw [List.countP_singleton, isOk_answer]
  by_cases hsame : last = now
  · subst hsame
    simp
  · simp [hsame]

/-- **How many calls at a reading are served**: all of them, until the ticks of the millisecond that
were not lost are used up. -/
theorem served_eq (hc : c.InMilli) (hsorted : readings.Pairwise (· ≤ ·)) (now : Millis) :
    c.served readings now = min (readings.count now) (Ticks.perMilli - c.lost readings now) := by
  induction readings using List.reverseRecOn with
  | nil => exact (Nat.zero_min _).symm
  | append_singleton rs last ih =>
    have hrs := ih (List.pairwise_append.1 hsorted).1
    rw [served_concat, List.count_append, hrs]
    by_cases hsame : last = now
    · subst hsame
      rw [serial_after hc hsorted, lost_concat, List.count_singleton_self]
      simp only [true_and]
      split <;> omega
    · rw [if_neg fun h => hsame h.1, List.count_singleton, if_neg (by simpa using hsame)]
      by_cases hmem : now ∈ rs
      · -- the reading came before, and what was lost there is settled
        rw [lost_append hsorted hmem]
        rfl
      · rw [List.count_eq_zero_of_not_mem hmem]
        omega

/-! ## A new clock -/

/-- A new clock has lost the first tick of millisecond 0, unless the readings come there from
before. -/
theorem lost_new (readings : List Millis) (now : Millis) :
    lost {} readings now = if now = 0 ∧ readings.all (0 ≤ ·) then 1 else 0 := by
  unfold lost serial
  by_cases hzero : now = 0
  · subst hzero
    simp
  · simp [hzero]

/-- **Ticks over a wall clock.** A new clock is asked for a tick at each reading of a wall clock that
does not go back and shows milliseconds within the scale. The ticks handed out strictly increase,
and each lies in the millisecond of its reading. At one reading all calls are served until its 10000
ticks are used up; at millisecond 0 the first of them is lost, unless a reading from before it came
first. A call is only refused because no tick is left; it leaves the clock as it is and has no part
in what the others come to. And the first call at each millisecond is served. -/
theorem ticks_follow_wall_clock {readings : List Millis} (hsorted : readings.Pairwise (· ≤ ·))
    (hwhole : ∀ now ∈ readings, Ticks.Whole now) :
    let c : SystemClock := {}
    ((c.outcomes readings).filterMap Except.toOption).Pairwise (· < ·) ∧
    (∀ (i : Nat) (now : Millis) (t : Ticks), readings[i]? = some now →
      (c.outcomes readings)[i]? = some (.ok t) →
      (Ticks.ofMillis now).toNat ≤ t.toNat ∧ t.toNat ≤ (Ticks.ofMillis now).toNat + 9999) ∧
    (∀ now : Millis, c.served readings now =
      min (readings.count now) (if now = 0 ∧ readings.all (0 ≤ ·) then 9999 else 10000)) ∧
    (∀ (i : Nat) (e : IdError), (c.outcomes readings)[i]? = some (.error e) →
      e = .overClocked ∧ c.after (readings.take (i + 1)) = c.after (readings.take i) ∧
        c.outcomes (readings.eraseIdx i) = (c.outcomes readings).eraseIdx i) ∧
    ∀ (i : Nat) (now : Millis), readings[i]? = some now → now ∉ readings.take i →
      ∃ t : Ticks, (c.outcomes readings)[i]? = some (.ok t) := by
  intro c
  have hc : c.InMilli := by
    show 0 < Ticks.perMilli
    decide
  refine ⟨pairwise_ticks hc hsorted hwhole, ?_, ?_, ?_, ?_⟩
  · intro i now t hi ht
    obtain ⟨now', hi', hroom, rfl⟩ := exists_of_served hc hsorted ht
    obtain rfl : now = now' := Option.some.inj (hi.symm.trans hi')
    rw [(hwhole now (List.mem_of_getElem? hi)).toNat_numbered hroom]
    unfold Ticks.perMilli at hroom
    omega
  · intro now
    rw [served_eq hc hsorted, lost_new]
    unfold Ticks.perMilli
    split <;> rfl
  · intro i e he
    exact ⟨overClocked_of_refused he, after_take_succ_of_refused he, outcomes_eraseIdx he⟩
  · intro i now hi hnew
    have hfew : c.passed readings i now < Ticks.perMilli := by
      unfold passed
      rw [List.count_eq_zero_of_not_mem hnew, lost_new]
      unfold Ticks.perMilli
      split <;> omega
    exact ⟨_, by rw [outcome_eq hc hsorted hi, if_pos hfew]⟩

/-- Ten thousand calls at millisecond 0, one more than a new clock serves, and one at the next. -/
theorem ticks_follow_wall_clock_from_zero :
    let readings : List Millis := List.replicate 10000 0 ++ [1]
    let c : SystemClock := {}
    (readings.Pairwise (· ≤ ·) ∧ ∀ now ∈ readings, Ticks.Whole now) ∧
    ((c.outcomes readings).filterMap Except.toOption).Pairwise (· < ·) ∧
    c.served readings 0 = 9999 ∧ ∃ t : Ticks, (c.outcomes readings)[10000]? = some (.ok t) := by
  intro readings c
  have hsorted : readings.Pairwise (· ≤ ·) := by
    refine List.pairwise_append.2 ⟨List.pairwise_replicate.2 (.inr (by decide)), by simp, ?_⟩
    intro a ha b hb
    rw [List.eq_of_mem_replicate ha, List.mem_singleton.1 hb]
    decide
  have hwhole : ∀ now ∈ readings, Ticks.Whole now := by
    intro now hnow
    rcases List.mem_append.1 hnow with hzero | hone
    · rw [List.eq_of_mem_replicate hzero]
      decide
    · rw [List.mem_singleton.1 hone]
      decide
  obtain ⟨hincreasing, -, hserved, -, hfirst⟩ := ticks_follow_wall_clock hsorted hwhole
  have hcount : readings.count 0 = 10000 := by
    rw [List.count_append, List.count_replicate_self]
    decide
  have hfrom : readings.all (0 ≤ ·) = true := by
    rw [List.all_append, List.all_replicate]
    decide
  refine ⟨⟨hsorted, hwhole⟩, hincreasing, ?_, hfirst 10000 1 ?_ ?_⟩
  · rw [hserved, hcount, if_pos ⟨rfl, hfrom⟩]
    rfl
  · rw [List.getElem?_append_right (Nat.le_of_eq List.length_replicate), List.length_replicate]
    rfl
  · rw [List.take_left' List.length_replicate]
    intro hmem
    exact absurd (List.eq_of_mem_replicate hmem) (by decide)

end SystemClock
end TimeIds
