import TimeIds.Proofs.Alphanumeric.Increasing

/-!
# The calls of a run, one by one

`Generator.step` is the generator after one call and `Generator.after` the generator after a run.
Each call of a run is a call on the state that the calls before it lead to (`getElem?_outcomes`),
and all that a call does to the position is in one equation (`position?_step`). The ring is read
against plain integers: a reading is the time since the offset modulo `2 ^ 64` (`toNat_ringAt`), and
its lead over a position is the exact distance where that fits 64 bits (`lead_eq`).
-/

namespace TimeIds.Alphanumeric

/-! ## The ring and the integers -/

/-- A word read without a sign is the integer modulo `2 ^ 64`. -/
theorem toNat_toUInt64 (x : Int64) : (x.toUInt64.toNat : Int) = x.toInt % 2 ^ 64 := by
  have hlt := x.toBitVec.isLt
  have hint : x.toInt = (x.toBitVec.toNat : Int).bmod (2 ^ 64) :=
    BitVec.toInt_eq_toNat_bmod x.toBitVec
  have hmod : (x.toBitVec.toNat : Int).bmod (2 ^ 64) % ((2 ^ 64 : Nat) : Int) =
      (x.toBitVec.toNat : Int) % ((2 ^ 64 : Nat) : Int) := Int.bmod_emod
  show (x.toBitVec.toNat : Int) = _
  rw [hint]
  omega

/-- The lead is the difference as a signed word. -/
theorem lead_eq_bmod (position : Nat) (ring : UInt64) :
    lead position ring = ((ring.toNat : Int) - position).bmod (2 ^ 64) := by
  have hsub : lead position ring = ((ring - UInt64.ofNat position).toNat : Int).bmod (2 ^ 64) :=
    BitVec.toInt_eq_toNat_bmod _
  have hmod : ((ring - UInt64.ofNat position).toNat : Int) % ((2 ^ 64 : Nat) : Int) =
      ((ring.toNat : Int) - position) % ((2 ^ 64 : Nat) : Int) := by
    rw [UInt64.toNat_sub, UInt64.toNat_ofNat']
    omega
  -- the two differences agree modulo the ring, and `bmod` sees no more than that
  rw [hsub, ← Int.emod_bmod, hmod, Int.emod_bmod]

/-- On the ring the lead is the distance. -/
theorem lead_emod (position : Nat) (ring : UInt64) :
    lead position ring % 2 ^ 64 = ((ring.toNat : Int) - position) % 2 ^ 64 := by
  rw [lead_eq_bmod]
  exact Int.bmod_emod

/-- A reading that lies at a distance of less than half the ring leads by exactly that distance. -/
theorem lead_eq {position : Nat} {ring : UInt64} {distance : Int} (hlow : -2 ^ 63 ≤ distance)
    (hhigh : distance < 2 ^ 63) (hring : (ring.toNat : Int) = (position + distance) % 2 ^ 64) :
    lead position ring = distance := by
  have hmod : ((ring.toNat : Int) - position) % ((2 ^ 64 : Nat) : Int) =
      distance % ((2 ^ 64 : Nat) : Int) := by omega
  rw [lead_eq_bmod, ← Int.emod_bmod, hmod, Int.emod_bmod]
  exact Int.bmod_eq_of_le (by omega) (by omega)

theorem toNat_ringAt (g : Generator) (now : Millis) :
    ((g.ringAt now).toNat : Int) = (now.toInt - g.offset.toInt) % 2 ^ 64 := by
  unfold Generator.ringAt
  rw [toNat_toUInt64, Int64.toInt_sub]
  exact Int.bmod_emod

/-! ## The time segment of an identifier -/

/-- The first thirteen characters of an identifier. -/
def timeSegment (id : String) : String := String.ofList (id.toList.take Base36.timeDigits)

/-- The time segment of an identifier is the numeral of its position. -/
theorem timeSegment_idText (suffixDigits position serial : Nat) :
    timeSegment (idText suffixDigits position serial) =
      Base36.encode position Base36.timeDigits := by
  unfold timeSegment Base36.encode
  rw [toList_idText, List.take_left' (Base36.length_encodeChars _ _)]

namespace Generator

/-! ## One call -/

/-- The generator after a call; a refusal leaves it as it is. -/
def step (g : Generator) (now : Millis) : Generator :=
  match g.serve? now with
  | some s => g.holding s
  | none => g

/-- The time segment of the last identifier, if there is one. -/
def position? (g : Generator) : Option Nat := g.held.map Segment.position

theorem position?_of_held {g : Generator} {s : Segment} (hheld : g.held = some s) :
    g.position? = some s.position := by
  unfold position?
  rw [hheld]
  rfl

theorem position?_of_held_none {g : Generator} (hheld : g.held = none) : g.position? = none := by
  unfold position?
  rw [hheld]
  rfl

@[simp] theorem suffixDigits_step (g : Generator) (now : Millis) :
    (g.step now).suffixDigits = g.suffixDigits := by
  unfold step
  split <;> rfl

@[simp] theorem offset_step (g : Generator) (now : Millis) :
    (g.step now).offset = g.offset := by
  unfold step
  split <;> rfl

theorem Fits.step {g : Generator} (hfits : g.Fits) (now : Millis) : (g.step now).Fits := by
  unfold Generator.step
  cases hserve : g.serve? now with
  | none => exact hfits
  | some s =>
    have hs : s.Fits g.suffixDigits := fits_of_serve? hfits hserve
    intro a ha
    cases ha
    exact hs

/-- An identifier that is issued is the text of the segment that is held from then on. -/
theorem next_eq_ok {g g' : Generator} {now : Millis} {id : String}
    (h : g.next now = .ok (id, g')) :
    ∃ s, g.serve? now = some s ∧ id = idText g.suffixDigits s.position s.serial ∧
      g' = g.step now ∧ g'.held = some s := by
  rw [next_eq] at h
  unfold step
  cases hserve : g.serve? now with
  | none =>
    rw [hserve] at h
    cases h
  | some s =>
    rw [hserve] at h
    cases h
    exact ⟨s, rfl, rfl, rfl, rfl⟩

/-- A call that serves no segment is refused and leaves the generator as it is. -/
theorem step_of_serve?_none {g : Generator} {now : Millis} (h : g.serve? now = none) :
    g.step now = g := by
  unfold step
  rw [h]

theorem step_of_serve?_some {g : Generator} {now : Millis} {s : Segment}
    (h : g.serve? now = some s) : g.step now = g.holding s := by
  unfold step
  rw [h]

theorem position?_step_of_held_none {g : Generator} (hheld : g.held = none) (now : Millis) :
    (g.step now).position? = some (g.ringAt now).toNat := by
  rw [step_of_serve?_some (serve?_of_held_none hheld now)]
  rfl

/-- **What a call does to the position**: it goes where the reading leads, if the reading leads
anywhere, and stays otherwise, whether or not the call is refused. -/
theorem position?_step {g : Generator} {a : Segment} (hheld : g.held = some a) (now : Millis) :
    (g.step now).position? =
      some ((advance? a.position (g.ringAt now)).getD a.position) := by
  cases hserve : g.serve? now with
  | none =>
    -- a call is refused only after the reading turned out to lead nowhere
    have hstay : advance? a.position (g.ringAt now) = none := by
      unfold serve? at hserve
      rw [hheld] at hserve
      dsimp only at hserve
      split at hserve
      · cases hserve
      · assumption
    rw [step_of_serve?_none hserve, hstay, position?_of_held hheld, Option.getD_none]
  | some b =>
    have hheld' : (g.step now).held = some b := by
      rw [step_of_serve?_some hserve]
      rfl
    rw [position?_of_held hheld']
    -- a served call either went where the reading leads or kept the position
    rcases serve?_eq_some_of_held hheld hserve with ⟨hmove, -⟩ | ⟨hstay, hkeep, -, -⟩
    · rw [hmove, Option.getD_some]
    · rw [hstay, hkeep, Option.getD_none]

/-- A call that moves the position is served. -/
theorem exists_next_of_moved {g : Generator} {now : Millis}
    (hmoved : (g.step now).position? ≠ g.position?) : ∃ id, (g.next now).map Prod.fst = .ok id := by
  rw [next_eq]
  cases hserve : g.serve? now with
  | none => exact absurd (by rw [step_of_serve?_none hserve]) hmoved
  | some s => exact ⟨_, rfl⟩

/-- Once a call was made, a segment is held. -/
theorem exists_held_step (g : Generator) (now : Millis) : ∃ s, (g.step now).held = some s := by
  cases hserve : g.serve? now with
  | some s => exact ⟨s, by rw [step_of_serve?_some hserve]; rfl⟩
  | none =>
    rw [step_of_serve?_none hserve]
    cases hheld : g.held with
    | some a => exact ⟨a, rfl⟩
    | none =>
      rw [serve?_of_held_none hheld] at hserve
      cases hserve

/-! ## Runs -/

/-- The generator after a run. -/
def after (g : Generator) (readings : List Millis) : Generator := (g.outcomes readings).2

theorem outcomes_cons (g : Generator) (now : Millis) (rest : List Millis) :
    g.outcomes (now :: rest) =
      ((g.next now).map Prod.fst :: ((g.step now).outcomes rest).1,
        ((g.step now).outcomes rest).2) := by
  rw [outcomes, next_eq]
  unfold step
  cases g.serve? now <;> rfl

@[simp] theorem after_nil (g : Generator) : g.after [] = g := rfl

@[simp] theorem after_cons (g : Generator) (now : Millis) (rest : List Millis) :
    g.after (now :: rest) = (g.step now).after rest := by
  unfold after
  rw [outcomes_cons]

theorem after_append (g : Generator) (rs rs' : List Millis) :
    g.after (rs ++ rs') = (g.after rs).after rs' := by
  induction rs generalizing g with
  | nil => rfl
  | cons now rest ih => rw [List.cons_append, after_cons, ih, after_cons]

theorem after_concat (g : Generator) (rs : List Millis) (now : Millis) :
    g.after (rs ++ [now]) = (g.after rs).step now := by
  rw [after_append, after_cons, after_nil]

theorem after_take_succ (g : Generator) {readings : List Millis} {i : Nat}
    (hi : i < readings.length) :
    g.after (readings.take (i + 1)) = (g.after (readings.take i)).step readings[i] := by
  rw [← List.take_append_getElem hi, after_concat]

@[simp] theorem suffixDigits_after (g : Generator) (readings : List Millis) :
    (g.after readings).suffixDigits = g.suffixDigits := by
  induction readings generalizing g with
  | nil => rfl
  | cons now rest ih => rw [after_cons, ih, suffixDigits_step]

@[simp] theorem offset_after (g : Generator) (readings : List Millis) :
    (g.after readings).offset = g.offset := by
  induction readings generalizing g with
  | nil => rfl
  | cons now rest ih => rw [after_cons, ih, offset_step]

@[simp] theorem ringAt_after (g : Generator) (readings : List Millis) (now : Millis) :
    (g.after readings).ringAt now = g.ringAt now := by
  unfold ringAt
  rw [offset_after]

theorem Fits.after {g : Generator} (hfits : g.Fits) (readings : List Millis) :
    (g.after readings).Fits := by
  induction readings generalizing g with
  | nil => exact hfits
  | cons now rest ih =>
    rw [after_cons]
    exact ih (hfits.step now)

/-- **Each outcome of a run** is that of a call on the state that the earlier readings lead to. -/
theorem getElem?_outcomes (g : Generator) (readings : List Millis) (i : Nat) :
    (g.outcomes readings).1[i]? =
      readings[i]?.map fun now => ((g.after (readings.take i)).next now).map Prod.fst := by
  induction readings generalizing g i with
  | nil => rfl
  | cons now rest ih =>
    rw [outcomes_cons]
    cases i with
    | zero => rfl
    | succ i =>
      rw [List.getElem?_cons_succ, List.getElem?_cons_succ, List.take_succ_cons, after_cons, ih]

theorem length_outcomes (g : Generator) (readings : List Millis) :
    (g.outcomes readings).1.length = readings.length := by
  induction readings generalizing g with
  | nil => rfl
  | cons now rest ih => rw [outcomes_cons, List.length_cons, List.length_cons, ih]

/-- The call behind an outcome of a run. -/
theorem exists_next_of_outcome {g : Generator} {readings : List Millis} {i : Nat} {id : String}
    (h : (g.outcomes readings).1[i]? = some (.ok id)) :
    ∃ (hi : i < readings.length) (g' : Generator),
      (g.after (readings.take i)).next readings[i] = .ok (id, g') := by
  rw [getElem?_outcomes] at h
  obtain ⟨now, hnow, hnext⟩ := Option.map_eq_some_iff.1 h
  obtain ⟨hi, rfl⟩ := List.getElem?_eq_some_iff.1 hnow
  refine ⟨hi, ?_⟩
  cases hcall : (g.after (readings.take i)).next readings[i] with
  | error e =>
    rw [hcall] at hnext
    cases hnext
  | ok issued =>
    rw [hcall] at hnext
    cases hnext
    exact ⟨issued.2, rfl⟩

/-- An identifier carries the position that its call leaves. -/
theorem timeSegment_of_outcome {g : Generator} {readings : List Millis} {i : Nat} {id : String}
    (h : (g.outcomes readings).1[i]? = some (.ok id)) :
    ∃ position, (g.after (readings.take (i + 1))).position? = some position ∧
      timeSegment id = Base36.encode position Base36.timeDigits := by
  obtain ⟨hi, g', hnext⟩ := exists_next_of_outcome h
  obtain ⟨s, -, rfl, rfl, hheld⟩ := next_eq_ok hnext
  refine ⟨s.position, ?_, timeSegment_idText _ _ _⟩
  rw [after_take_succ g hi, position?_of_held hheld]

/-- A call of a run that moves the position has an identifier for its outcome. -/
theorem exists_outcome_of_moved {g : Generator} {readings : List Millis} {i : Nat}
    (hi : i < readings.length)
    (hmoved : (g.after (readings.take (i + 1))).position? ≠
      (g.after (readings.take i)).position?) :
    ∃ id, (g.outcomes readings).1[i]? = some (.ok id) := by
  rw [after_take_succ g hi] at hmoved
  obtain ⟨id, hid⟩ := exists_next_of_moved hmoved
  refine ⟨id, ?_⟩
  rw [getElem?_outcomes, List.getElem?_eq_getElem hi, Option.map_some, hid]

end Generator
end TimeIds.Alphanumeric
