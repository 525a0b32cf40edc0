import TimeIds.Proofs.Alphanumeric.Order
import TimeIds.Proofs.Alphanumeric.Run

/-!
# Identifiers increase

Texts compare like their segments (`idText_lt_iff`). The segments of a run ascend, and with them its
identifiers:

* **`Generator.outcomes_increasing`** – the identifiers of a run have one length, consist of base-36
  digits and strictly increase, whatever the clock shows.
-/

namespace TimeIds.Alphanumeric

/-! ## The order of identifiers -/

theorem Segment.Fits.position_lt {suffixDigits : Nat} {s : Segment} (h : s.Fits suffixDigits) :
    s.position < 36 ^ Base36.timeDigits := by
  have hpos : s.position ≤ 36 ^ Base36.timeDigits - 1 := h.1
  have hpow : 0 < 36 ^ Base36.timeDigits := Nat.pow_pos (by decide)
  omega

/-- A serial number that fits has a numeral in the suffix. -/
theorem Segment.Fits.serial_lt {suffixDigits : Nat} {s : Segment} (h : s.Fits suffixDigits) :
    s.serial < 36 ^ suffixDigits := by
  have hserial := h.2
  rw [Base36.capacity_eq] at hserial
  have hpow : 0 < 36 ^ suffixDigits := Nat.pow_pos (by decide)
  omega

/-- Identifiers of segments that fit compare as texts the way their segments do. -/
theorem idText_lt_iff {suffixDigits : Nat} {a b : Segment} (ha : a.Fits suffixDigits)
    (hb : b.Fits suffixDigits) :
    idText suffixDigits a.position a.serial < idText suffixDigits b.position b.serial ↔
      a.Before b :=
  idText_lt_idText_iff ha.position_lt hb.position_lt ha.serial_lt hb.serial_lt

namespace Generator

/-! ## Runs of a new generator -/

/-- A generator is made for every suffix up to the width of a time segment, and has issued
nothing. -/
theorem create_of_le {suffixDigits : Nat} (hwidth : suffixDigits ≤ Base36.timeDigits)
    (offset : Millis) :
    create suffixDigits offset = .ok ⟨suffixDigits, offset, none, hwidth⟩ := by
  unfold create
  rw [dif_pos hwidth]

/-- Whatever `create` returned is that generator. -/
theorem eq_of_create {suffixDigits : Nat} (hwidth : suffixDigits ≤ Base36.timeDigits)
    {offset : Millis} {g : Generator} (h : create suffixDigits offset = .ok g) :
    g = ⟨suffixDigits, offset, none, hwidth⟩ := by
  rw [create_of_le hwidth] at h
  exact (Except.ok.inj h).symm

/-- A new generator has the width and the offset that were chosen, and holds no segment. -/
theorem exists_create {suffixDigits : Nat} (hwidth : suffixDigits ≤ Base36.timeDigits)
    (offset : Millis) :
    ∃ g, create suffixDigits offset = .ok g ∧ g.held = none ∧ g.offset = offset ∧
      g.suffixDigits = suffixDigits :=
  ⟨_, create_of_le hwidth offset, rfl, rfl, rfl⟩

/-- **The identifiers of one generator increase.** A new generator is asked once for each clock
reading, and the readings may repeat, go back and cross any end of their scale; some calls may be
refused. The identifiers that are issued all have thirteen digits and the suffix, consist of digits
and lower-case letters, and each is lexically greater than every earlier one. So none comes twice. -/
theorem outcomes_increasing {suffixDigits : Nat} (hwidth : suffixDigits ≤ 13) (offset : Millis)
    (readings : List Millis) :
    ∃ g, create suffixDigits offset = .ok g ∧
      let ids := (g.outcomes readings).1.filterMap Except.toOption
      (∀ id ∈ ids, id.length = 13 + suffixDigits ∧ ∀ c ∈ id.toList, isIdChar c = true) ∧
      ids.Pairwise (· < ·) ∧ ids.Nodup := by
  obtain ⟨g, hg, hheld, -, rfl⟩ := exists_create hwidth offset
  refine ⟨g, hg, ?_⟩
  have hserved := served_fits (fits_of_held_none hheld) readings
  have hbefore : (g.served readings).Pairwise Segment.Before := by
    -- nothing is held at first, so all segments of the run are its own
    have hall := served_pairwise_before g readings
    rwa [hheld, Option.toList_none, List.nil_append] at hall
  have hincreasing : ((g.outcomes readings).1.filterMap Except.toOption).Pairwise (· < ·) := by
    rw [toOption_outcomes, List.pairwise_map]
    refine hbefore.imp_of_mem ?_
    intro a b ha hb hab
    exact (idText_lt_iff (hserved a ha) (hserved b hb)).2 hab
  refine ⟨?_, hincreasing, hincreasing.imp (fun hlt => String.ne_of_lt hlt)⟩
  intro id hid
  rw [toOption_outcomes] at hid
  obtain ⟨s, -, rfl⟩ := List.mem_map.1 hid
  exact ⟨length_idText _ _ _, fun c hc => isIdChar_of_mem_idText hc⟩

/-- One digit of suffix under an offset that the readings pass on both sides: the clock stands still,
goes back, and runs over the largest reading to the smallest. -/
theorem outcomes_increasing_over_the_ring :
    1 ≤ 13 ∧ ∃ g, create 1 5 = .ok g ∧
      let ids := (g.outcomes [4, 4, 7, 3, Int64.maxValue, Int64.minValue, 8]).1.filterMap
        Except.toOption
      (∀ id ∈ ids, id.length = 13 + 1 ∧ ∀ c ∈ id.toList, isIdChar c = true) ∧
      ids.Pairwise (· < ·) ∧ ids.Nodup :=
  ⟨by decide, outcomes_increasing (by decide) 5 [4, 4, 7, 3, Int64.maxValue, Int64.minValue, 8]⟩

end Generator
end TimeIds.Alphanumeric
