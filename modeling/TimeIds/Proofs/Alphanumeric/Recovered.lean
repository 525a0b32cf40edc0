import Mathlib.Data.List.Basic
import Mathlib.Data.List.Induction
import TimeIds.Proofs.Alphanumeric.Calls
import TimeIds.Proofs.Alphanumeric.ReadBack

/-!
# Times are recovered

The position of a generator stands for the reading that moved it last, so that reading is what an
identifier gives back, also when its own call stalled. `Generator.Trace` ties the held segment to
the run that led to it: no earlier position lies past it, its serial number counts the identifiers
issued on it, and on the ring it is the last reading that moved the position.

* **`Generator.trace_after`** – every run leaves such a trace;
* **`Generator.outcomes_recovered`** – what both readers of identifiers find in those of a run.
-/

namespace TimeIds.Alphanumeric

/-! ## Positions and the ring -/

/-- A reading that moves the position is where the new position stands on the ring. -/
theorem ofNat_of_advance? {position next : Nat} {ring : UInt64}
    (h : advance? position ring = some next) : UInt64.ofNat next = ring := by
  rw [advance?_eq] at h
  split at h
  · next hmove =>
    cases h
    have hmod := lead_emod position ring
    have hlt := ring.toNat_lt
    rw [← UInt64.toNat_inj, UInt64.toNat_ofNat']
    omega
  · cases h

/-- A reading has no lead where the position stands on the ring, and nowhere else. -/
theorem lead_eq_zero_iff {position : Nat} {ring : UInt64} :
    lead position ring = 0 ↔ UInt64.ofNat position = ring := by
  have hlt := ring.toNat_lt
  rw [← UInt64.toNat_inj, UInt64.toNat_ofNat']
  constructor
  · intro h
    have hmod := lead_emod position ring
    omega
  · intro h
    exact lead_eq (by omega) (by omega) (by omega)

namespace Generator

/-- The offset and the point on the ring give the reading back. -/
theorem timeAt_ringAt (g : Generator) (now : Millis) : timeAt g.offset (g.ringAt now) = now := by
  unfold timeAt ringAt
  rw [Int64.toInt64_toUInt64, Int64.add_comm, Int64.sub_add_cancel]

/-- Readings keep apart on the ring, which has as many points as there are readings. -/
theorem ringAt_inj {g : Generator} {now now' : Millis} :
    g.ringAt now = g.ringAt now' ↔ now = now' := by
  constructor
  · intro h
    rw [← timeAt_ringAt g now, h, timeAt_ringAt]
  · intro h
    rw [h]

/-! ## What a run leaves behind -/

/-- The readings of a run that moved the position. -/
def moving (g : Generator) : List Millis → List Millis
  | [] => []
  | now :: rest =>
    if (g.step now).position? = g.position? then (g.step now).moving rest
    else now :: (g.step now).moving rest

/-- How many identifiers of a run have a time segment. -/
def issuedOn (g : Generator) (readings : List Millis) (segment : String) : Nat :=
  ((g.outcomes readings).1.filterMap Except.toOption).countP fun id => timeSegment id == segment

/-- What the held segment tells of the run that led to it. -/
structure Trace (g : Generator) (readings : List Millis) (s : Segment) : Prop where
  bounded : ∀ b ∈ g.served readings, b.position ≤ s.position
  counted : (g.served readings).countP (·.position == s.position) = s.serial + 1
  moved : ∃ now, (g.moving readings).getLast? = some now ∧ UInt64.ofNat s.position = g.ringAt now

theorem served_concat (g : Generator) (readings : List Millis) (now : Millis) :
    g.served (readings ++ [now]) =
      g.served readings ++ ((g.after readings).serve? now).toList := by
  induction readings generalizing g with
  | nil =>
    have hone : g.served [now] = (g.serve? now).toList := by
      rw [served]
      cases g.serve? now <;> rfl
    rw [List.nil_append, hone]
    rfl
  | cons now' rest ih =>
    rw [List.cons_append, served, served, after_cons]
    unfold step
    cases g.serve? now' with
    | none => exact ih g
    | some s =>
      dsimp only
      rw [ih, List.cons_append]

/-- The readings that moved the position, with one call more. -/
theorem moving_concat (g : Generator) (readings : List Millis) (now : Millis) :
    g.moving (readings ++ [now]) =
      g.moving readings ++
        if ((g.after readings).step now).position? = (g.after readings).position? then []
        else [now] := by
  induction readings generalizing g with
  | nil => rfl
  | cons now' rest ih =>
    rw [List.cons_append, moving, moving, after_cons, ih]
    split <;> rfl

/-- **A call keeps the trace.** A call that moves the position opens a segment past all earlier
ones, and one that takes the next serial number counts on. -/
theorem Trace.step {g : Generator} {readings : List Millis} {a b : Segment}
    (htrace : g.Trace readings a) (hheld : (g.after readings).held = some a) (now : Millis)
    (hheld' : ((g.after readings).step now).held = some b) :
    g.Trace (readings ++ [now]) b := by
  have hserved := served_concat g readings now
  have hmoving := moving_concat g readings now
  rw [position?_of_held hheld, position?_of_held hheld'] at hmoving
  cases hserve : (g.after readings).serve? now with
  | none =>
    -- a refusal adds nothing
    rw [step_of_serve?_none hserve, hheld] at hheld'
    cases hheld'
    rw [hserve, Option.toList_none, List.append_nil] at hserved
    rw [if_pos rfl, List.append_nil] at hmoving
    obtain ⟨hbounded, hcounted, hmoved⟩ := htrace
    exact ⟨by rw [hserved]; exact hbounded, by rw [hserved]; exact hcounted,
      by rw [hmoving]; exact hmoved⟩
  | some s =>
    rw [step_of_serve?_some hserve] at hheld'
    cases hheld'
    rw [hserve, Option.toList_some] at hserved
    rcases serve?_eq_some_of_held hheld hserve with ⟨hmove, hserial⟩ | ⟨-, hkeep, hserial, -⟩
    · -- the position moves past all earlier ones
      have hlt : a.position < b.position := (advance?_bounds hmove).1
      rw [if_neg (by simp only [Option.some.injEq]; omega)] at hmoving
      refine ⟨?_, ?_, now, by rw [hmoving, List.getLast?_concat], ?_⟩
      · intro c hc
        rw [hserved, List.mem_append, List.mem_singleton] at hc
        rcases hc with hc | rfl
        · have := htrace.bounded c hc
          omega
        · exact Nat.le_refl _
      · -- nothing was served there before, so this is the first one
        have hnone : (g.served readings).countP (·.position == b.position) = 0 := by
          rw [List.countP_eq_zero]
          intro c hc
          have := htrace.bounded c hc
          simp only [beq_iff_eq]
          omega
        rw [hserved, List.countP_append, hnone, hserial]
        simp
      · rw [ofNat_of_advance? hmove, ringAt_after]
    · -- the position stays, and its count goes on
      rw [if_pos (by rw [hkeep]), List.append_nil] at hmoving
      refine ⟨?_, ?_, by rw [hmoving, hkeep]; exact htrace.moved⟩
      · intro c hc
        rw [hserved, List.mem_append, List.mem_singleton] at hc
        rcases hc with hc | rfl
        · rw [hkeep]
          exact htrace.bounded c hc
        · exact Nat.le_refl _
      · rw [hserved, List.countP_append, hkeep, htrace.counted, hserial]
        simp [hkeep]

/-- The first call takes the point of its reading on the ring. -/
theorem trace_first {g : Generator} (hheld : g.held = none) {now : Millis} {s : Segment}
    (hheld' : (g.step now).held = some s) : g.Trace [now] s := by
  have hserve := serve?_of_held_none hheld now
  rw [step_of_serve?_some hserve] at hheld'
  cases hheld'
  have hserved : g.served [now] = [⟨(g.ringAt now).toNat, 0⟩] := by
    rw [← List.nil_append [now], served_concat, after_nil, hserve]
    rfl
  have hmoving : g.moving [now] = [now] := by
    rw [← List.nil_append [now], moving_concat, after_nil, position?_step_of_held_none hheld,
      position?_of_held_none hheld, if_neg (by simp)]
    rfl
  refine ⟨by rw [hserved]; simp, by rw [hserved]; simp, now, by rw [hmoving]; rfl, ?_⟩
  exact UInt64.ofNat_toNat

/-- **Every run leaves a trace**, if nothing is held before it. Induction on the calls, the last one
split off. -/
theorem trace_after {g : Generator} (hheld : g.held = none) {readings : List Millis} {s : Segment}
    (hafter : (g.after readings).held = some s) : g.Trace readings s := by
  induction readings using List.reverseRecOn generalizing s with
  | nil =>
    rw [after_nil, hheld] at hafter
    cases hafter
  | append_singleton readings now ih =>
    rw [after_concat] at hafter
    rcases List.eq_nil_or_concat' readings with rfl | ⟨before, now', rfl⟩
    · exact trace_first hheld hafter
    · obtain ⟨a, ha⟩ := exists_held_step (g.after before) now'
      rw [← after_concat] at ha
      exact (ih ha).step ha now hafter

/-! ## What the readers find -/

/-- The identifiers on a time segment are the segments served at its position. -/
theorem issuedOn_encode {g : Generator} (hfits : g.Fits) (readings : List Millis) {position : Nat}
    (hposition : position < 36 ^ Base36.timeDigits) :
    g.issuedOn readings (Base36.encode position Base36.timeDigits) =
      (g.served readings).countP (·.position == position) := by
  unfold issuedOn
  rw [toOption_outcomes, List.countP_map]
  apply List.countP_congr
  intro s hs
  have hs := served_fits hfits readings s hs
  simp only [Function.comp_apply, beq_iff_eq, timeSegment_idText]
  exact Base36.encode_inj hs.position_lt hposition

/-- The position of an identifier is that of its own reading on the ring, unless the reading lay
behind the held segment or too far ahead of it. -/
theorem ofNat_position_eq_iff {g : Generator} (hfits : g.Fits) {now : Millis} {s : Segment}
    (hserve : g.serve? now = some s) :
    UInt64.ofNat s.position = g.ringAt now ↔
      ∀ a, g.held = some a → 0 ≤ lead a.position (g.ringAt now) ∧
        a.position + (lead a.position (g.ringAt now)).toNat ≤ maxPosition := by
  cases hheld : g.held with
  | none =>
    rw [serve?_of_held_none hheld] at hserve
    cases hserve
    simp
  | some a =>
    have hle : a.position ≤ maxPosition := (hfits a hheld).1
    simp only [Option.some.injEq, forall_eq']
    rcases serve?_eq_some_of_held hheld hserve with ⟨hmove, -⟩ | ⟨hstay, hkeep, -, -⟩
    · rw [ofNat_of_advance? hmove]
      rw [advance?_eq] at hmove
      split at hmove
      · next hahead => exact ⟨fun _ => ⟨by omega, hahead.2⟩, fun _ => rfl⟩
      · cases hmove
    · rw [hkeep, ← lead_eq_zero_iff]
      rw [advance?_eq] at hstay
      split at hstay
      · cases hstay
      · next hbehind => omega

/-- **Times are recovered.** In a run of a new generator, with any readings and with refusals in
between, every identifier gives back, under the offset of the generator, the reading of the last
call that moved the position, its own call included; and taken apart it gives besides the number of
identifiers issued on its time segment before. That reading is the one of its own call, unless that
one lay behind the held segment or too far ahead for thirteen digits. -/
theorem outcomes_recovered {suffixDigits : Nat} (hwidth : suffixDigits ≤ 13) (offset : Millis) :
    ∃ g, create suffixDigits offset = .ok g ∧
      ∀ (readings : List Millis) (i : Nat) (id : String),
        (g.outcomes readings).1[i]? = some (.ok id) →
        ∃ now moved, readings[i]? = some now ∧
          (g.moving (readings.take (i + 1))).getLast? = some moved ∧
          Alphanumeric.millisOf id offset = .ok moved ∧
          (∃ p, parse id suffixDigits = .ok p ∧ p.raw = id ∧
            p.serial.toNat = g.issuedOn (readings.take i) (timeSegment id) ∧
            p.millis offset = moved) ∧
          (moved = now ↔ ∀ a, (g.after (readings.take i)).held = some a →
            0 ≤ lead a.position (g.ringAt now) ∧
              a.position + (lead a.position (g.ringAt now)).toNat ≤ maxPosition) := by
  obtain ⟨g, hg, hheld, hoffset, hdigits⟩ := exists_create hwidth offset
  refine ⟨g, hg, ?_⟩
  have hfits : g.Fits := fits_of_held_none hheld
  intro readings i id hid
  obtain ⟨hi, g', hnext⟩ := exists_next_of_outcome hid
  obtain ⟨s, hserve, rfl, rfl, hs⟩ := next_eq_ok hnext
  have hserved : g.served (readings.take (i + 1)) = g.served (readings.take i) ++ [s] := by
    rw [← List.take_append_getElem hi, served_concat, hserve]
    rfl
  have hsegment : s.Fits suffixDigits := by
    rw [← hdigits]
    exact served_fits hfits (readings.take (i + 1)) s (by rw [hserved]; simp)
  have htrace : g.Trace (readings.take (i + 1)) s :=
    trace_after hheld (by rw [after_take_succ g hi]; exact hs)
  obtain ⟨moved, hlast, hring⟩ := htrace.moved
  -- the position stands for the last reading that moved it
  have htime : timeAt offset (UInt64.ofNat s.position) = moved := by
    rw [hring, ← hoffset, timeAt_ringAt]
  have hcount : g.issuedOn (readings.take i)
      (timeSegment (idText suffixDigits s.position s.serial)) = s.serial := by
    have hcounted := htrace.counted
    rw [hserved, List.countP_append] at hcounted
    rw [timeSegment_idText, issuedOn_encode hfits _ hsegment.position_lt]
    simpa using hcounted
  rw [suffixDigits_after, hdigits]
  refine ⟨readings[i], moved, List.getElem?_eq_getElem hi, hlast, ?_, ?_, ?_⟩
  · rw [millisOf_idText hsegment, htime]
  · refine ⟨_, parse_idText hwidth hsegment, rfl, ?_, htime⟩
    rw [hcount]
    exact UInt64.toNat_ofNat_of_lt' hsegment.serial_lt_word
  · have hiff := ofNat_position_eq_iff (hfits.after (readings.take i)) hserve
    rw [hring, ringAt_after, ringAt_inj] at hiff
    exact hiff

/-- The clock passes the offset, so that the position passes the ring, and then steps back: the last
identifier is the second on its segment and gives back the reading before. -/
theorem outcomes_recovered_after_a_step_back :
    ∃ g id p, create 1 5 = .ok g ∧ (g.outcomes [4, 4, 7, 3]).1[3]? = some (.ok id) ∧
      Alphanumeric.millisOf id 5 = .ok 7 ∧ parse id 1 = .ok p ∧ p.serial = 1 ∧ p.millis 5 = 7 := by
  obtain ⟨g, hg, hrecovered⟩ := outcomes_recovered (show 1 ≤ 13 by decide) 5
  obtain rfl := eq_of_create (by decide) hg
  have hid : (outcomes ⟨1, 5, none, by decide⟩ [4, 4, 7, 3]).1[3]? =
      some (.ok "3w5e11264sgsi1") := by decide +kernel
  obtain ⟨now, moved, -, hlast, htime, ⟨p, hp, -, hserial, hmillis⟩, -⟩ :=
    hrecovered [4, 4, 7, 3] 3 _ hid
  have hmoved : moved = 7 := by
    have hseven : (moving ⟨1, 5, none, by decide⟩ [4, 4, 7, 3]).getLast? = some 7 := by
      decide +kernel
    exact Option.some.inj (hlast.symm.trans hseven)
  subst hmoved
  have hcount : issuedOn ⟨1, 5, none, by decide⟩ [4, 4, 7] (timeSegment "3w5e11264sgsi1") = 1 := by
    decide +kernel
  refine ⟨_, _, p, hg, hid, htime, hp, ?_, hmillis⟩
  rw [← UInt64.toNat_inj, hserial]
  exact hcount

end Generator
end TimeIds.Alphanumeric
