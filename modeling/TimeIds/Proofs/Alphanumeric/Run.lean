import TimeIds.Alphanumeric.Generator

/-!
# Runs of an identifier generator

A generator answers a clock reading with a segment or with a refusal, and the text of the segment is
the identifier. This module takes the two apart: `Generator.serve?` is the segment for one reading,
`Generator.served` the segments of a whole run, and the identifiers are the texts of these
(`toOption_outcomes`).

* **`lead`**, **`advance?_eq`** – how far a reading lies ahead, and when it moves the position;
* **`Generator.next_eq`** – a call is `serve?` followed by `issue`;
* **`Generator.serve?_eq_some_of_held`** – all that a served reading can do to a held segment;
* **`Generator.served_pairwise_before`** – the segments of a run ascend;
* **`Generator.served_fits`** – the segments of a run fit the digits they are written in.
-/

namespace TimeIds.Alphanumeric

/-! ## Readings of the ring -/

/-- How far a reading of the ring lies ahead of a position, by the shorter way round; negative where
it lies behind. -/
def lead (position : Nat) (ring : UInt64) : Int :=
  (ring - UInt64.ofNat position).toInt64.toInt

/-- A reading moves the position by its lead if that is ahead and the segment still fits. -/
theorem advance?_eq (position : Nat) (ring : UInt64) :
    advance? position ring =
      if 0 < lead position ring ∧ position + (lead position ring).toNat ≤ maxPosition then
        some (position + (lead position ring).toNat)
      else none := by
  have hunfold : advance? position ring =
      if lead position ring ≤ 0 then none
      else if position + (lead position ring).toNat ≤ maxPosition then
        some (position + (lead position ring).toNat)
      else none := rfl
  rw [hunfold]
  by_cases hahead : lead position ring ≤ 0
  · rw [if_pos hahead, if_neg (by omega)]
  · by_cases hfit : position + (lead position ring).toNat ≤ maxPosition
    · rw [if_neg hahead, if_pos hfit, if_pos ⟨by omega, hfit⟩]
    · rw [if_neg hahead, if_neg hfit, if_neg (fun h => hfit h.2)]

/-- A position only moves forwards, and stays within thirteen digits. -/
theorem advance?_bounds {position next : Nat} {ring : UInt64}
    (h : advance? position ring = some next) : position < next ∧ next ≤ maxPosition := by
  rw [advance?_eq] at h
  split at h
  · next hmove =>
    cases h
    omega
  · cases h

/-! ## Segments -/

/-- A segment comes before another: at an earlier position, or earlier at the same one. -/
def Segment.Before (a b : Segment) : Prop :=
  a.position < b.position ∨ a.position = b.position ∧ a.serial < b.serial

/-- Position and serial number lie within the digits they are written in. -/
def Segment.Fits (suffixDigits : Nat) (s : Segment) : Prop :=
  s.position ≤ maxPosition ∧ s.serial ≤ Base36.capacity suffixDigits

theorem Segment.Before.trans {a b c : Segment} (hab : a.Before b) (hbc : b.Before c) :
    a.Before c := by
  unfold Segment.Before at hab hbc ⊢
  omega

namespace Generator

/-! ## One call -/

/-- The point on the ring that the generator reads from the clock. -/
def ringAt (g : Generator) (now : Millis) : UInt64 := (now - g.offset).toUInt64

/-- The segment of the next identifier while the clock shows `now`; none if it is refused. -/
def serve? (g : Generator) (now : Millis) : Option Segment :=
  match g.held with
  | none => some ⟨(g.ringAt now).toNat, 0⟩
  | some held =>
    match advance? held.position (g.ringAt now) with
    | some position => some ⟨position, 0⟩
    | none =>
      if held.serial + 1 ≤ Base36.capacity g.suffixDigits then
        some { held with serial := held.serial + 1 }
      else none

/-- The generator once it holds a segment. -/
def holding (g : Generator) (s : Segment) : Generator := { g with held := some s }

/-- A call issues the segment that it serves, and refuses where there is none. -/
theorem next_eq (g : Generator) (now : Millis) :
    g.next now =
      match g.serve? now with
      | some s => .ok (idText g.suffixDigits s.position s.serial, g.holding s)
      | none => .error (.capacityExhausted g.suffixDigits) := by
  unfold next serve? ringAt
  cases g.held with
  | none => rfl
  | some held =>
    dsimp only
    cases advance? held.position (now - g.offset).toUInt64 with
    | some position => rfl
    | none =>
      dsimp only
      split <;> rfl

/-- The first reading is served at its own point on the ring. -/
theorem serve?_of_held_none {g : Generator} (hheld : g.held = none) (now : Millis) :
    g.serve? now = some ⟨(g.ringAt now).toNat, 0⟩ := by
  unfold serve?
  rw [hheld]

/-- All that a served reading can do to a held segment: move it on and start at serial 0, or keep
its position and take the next serial number, which the suffix has room for. -/
theorem serve?_eq_some_of_held {g : Generator} {now : Millis} {a b : Segment}
    (hheld : g.held = some a) (hserve : g.serve? now = some b) :
    (advance? a.position (g.ringAt now) = some b.position ∧ b.serial = 0) ∨
      (advance? a.position (g.ringAt now) = none ∧ b.position = a.position ∧
        b.serial = a.serial + 1 ∧ b.serial ≤ Base36.capacity g.suffixDigits) := by
  unfold serve? at hserve
  rw [hheld] at hserve
  dsimp only at hserve
  split at hserve
  · next position hmove =>
    cases hserve
    exact Or.inl ⟨hmove, rfl⟩
  · next hstay =>
    split at hserve
    · next hroom =>
      cases hserve
      exact Or.inr ⟨hstay, rfl, rfl, hroom⟩
    · cases hserve

/-- A served segment comes after the one held. -/
theorem before_of_serve? {g : Generator} {now : Millis} {a b : Segment}
    (hheld : g.held = some a) (hserve : g.serve? now = some b) : a.Before b := by
  rcases serve?_eq_some_of_held hheld hserve with ⟨hmove, -⟩ | ⟨-, hpos, hserial, -⟩
  · exact Or.inl (advance?_bounds hmove).1
  · exact Or.inr ⟨hpos.symm, by omega⟩

/-- What the generator holds, if anything, fits its digits. -/
def Fits (g : Generator) : Prop := ∀ s, g.held = some s → s.Fits g.suffixDigits

theorem fits_of_held_none {g : Generator} (hheld : g.held = none) : g.Fits := by
  intro s hs
  rw [hheld] at hs
  cases hs

/-- A served segment fits if the held one does: the first lies on the ring, a moved one is bounded by
`advance?`, and a stalled one keeps its position and is bounded by the suffix. -/
theorem fits_of_serve? {g : Generator} {now : Millis} {b : Segment} (hfits : g.Fits)
    (hserve : g.serve? now = some b) : b.Fits g.suffixDigits := by
  cases hheld : g.held with
  | none =>
    rw [serve?_of_held_none hheld] at hserve
    cases hserve
    -- the ring of 64 bits is smaller than the space of thirteen digits
    have hring := (g.ringAt now).toNat_lt
    refine ⟨?_, Nat.zero_le _⟩
    show (g.ringAt now).toNat ≤ maxPosition
    unfold maxPosition Base36.timeDigits
    omega
  | some a =>
    rcases serve?_eq_some_of_held hheld hserve with ⟨hmove, hserial⟩ | ⟨-, hpos, -, hroom⟩
    · exact ⟨(advance?_bounds hmove).2, by omega⟩
    · exact ⟨by rw [hpos]; exact (hfits a hheld).1, hroom⟩

/-! ## Runs -/

/-- The segments served for a sequence of readings; refused readings leave nothing. -/
def served (g : Generator) : List Millis → List Segment
  | [] => []
  | now :: rest =>
    match g.serve? now with
    | some s => s :: (g.holding s).served rest
    | none => g.served rest

/-- The identifiers of a run are the texts of its segments. -/
theorem toOption_outcomes (g : Generator) (readings : List Millis) :
    (g.outcomes readings).1.filterMap Except.toOption =
      (g.served readings).map fun s => idText g.suffixDigits s.position s.serial := by
  induction readings generalizing g with
  | nil => rfl
  | cons now rest ih =>
    rw [outcomes, served, next_eq]
    cases g.serve? now with
    | none =>
      dsimp only
      rw [List.filterMap_cons_none rfl]
      exact ih g
    | some s =>
      dsimp only
      have hhead : Except.toOption
          (.ok (idText g.suffixDigits s.position s.serial) : Except IdError String) =
          some (idText g.suffixDigits s.position s.serial) := rfl
      rw [List.filterMap_cons_some hhead, List.map_cons, ih (g.holding s)]
      rfl

/-- **The segments of a run ascend**, and all come after the one held before it. -/
theorem served_pairwise_before (g : Generator) (readings : List Millis) :
    (g.held.toList ++ g.served readings).Pairwise Segment.Before := by
  induction readings generalizing g with
  | nil => cases hheld : g.held <;> simp [served]
  | cons now rest ih =>
    rw [served]
    cases hserve : g.serve? now with
    | none => exact ih g
    | some s =>
      -- the run goes on from the segment just served, so the induction covers it and all later ones
      have hrest : (s :: (g.holding s).served rest).Pairwise Segment.Before := ih (g.holding s)
      cases hheld : g.held with
      | none => exact hrest
      | some a =>
        have has : a.Before s := before_of_serve? hheld hserve
        refine List.pairwise_cons.2 ⟨?_, hrest⟩
        intro b hb
        rcases List.mem_cons.1 hb with rfl | hb
        · exact has
        · exact has.trans ((List.pairwise_cons.1 hrest).1 b hb)

/-- The segments of a run fit the digits they are written in. -/
theorem served_fits {g : Generator} (hfits : g.Fits) (readings : List Millis) :
    ∀ s ∈ g.served readings, s.Fits g.suffixDigits := by
  induction readings generalizing g with
  | nil => simp [served]
  | cons now rest ih =>
    rw [served]
    cases hserve : g.serve? now with
    | none => exact ih hfits
    | some s =>
      have hs : s.Fits g.suffixDigits := fits_of_serve? hfits hserve
      have hnext : (g.holding s).Fits := by
        intro a ha
        cases ha
        exact hs
      intro b hb
      rcases List.mem_cons.1 hb with rfl | hb
      · exact hs
      · exact ih hnext b hb

end Generator
end TimeIds.Alphanumeric
