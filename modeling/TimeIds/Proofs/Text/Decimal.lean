import TimeIds.Text.Numeral

/-!
# Decimal numerals

A text writes a number if it is decimal digits, at least one, behind at most one sign. The readers
take exactly such texts, as long as the number lies in their range. A reader looks at the range
after every digit, but reading on never makes a value smaller, so only the last look counts.

* **`digits?_eq_some_iff`** – the digits that are read below a bound;
* **`natural?_eq_some_iff`**, **`integer?_eq_some_iff`** – the texts that are read.
-/

namespace TimeIds.Text

/-! ## Numerals -/

/-- Decimal digits, at least one, and their value. -/
structure Decimal (cs : List Char) (value : Nat) : Prop where
  ne_nil : cs ≠ []
  digits : ∀ c ∈ cs, c.isDigit = true
  value_eq : Nat.ofDigitChars 10 cs 0 = value

/-- The text is digits of the number, with `+` before them or without. -/
def WritesNatural (s : String) (n : Nat) : Prop :=
  ∃ cs, Decimal cs n ∧ (s.toList = cs ∨ s.toList = '+' :: cs)

/-- The text writes the number as a natural one, or its negative behind `-`. -/
def WritesInteger (s : String) (z : Int) : Prop :=
  ∃ n : Nat, WritesNatural s n ∧ z = n ∨ ∃ cs, Decimal cs n ∧ s.toList = '-' :: cs ∧ z = -n

/-! ## Digits -/

/-- Reading on never makes a value smaller. -/
theorem le_ofDigitChars (cs : List Char) (n : Nat) : n ≤ Nat.ofDigitChars 10 cs n := by
  induction cs generalizing n with
  | nil => simp
  | cons c cs ih =>
    rw [Nat.ofDigitChars_cons]
    have h := ih (10 * n + (c.toNat - '0'.toNat))
    omega

/-- Digits are read to their value as long as that stays below the bound. -/
theorem digitsBelow?_eq {bound n : Nat} {cs : List Char} (hdigits : ∀ c ∈ cs, c.isDigit = true)
    (hbound : Nat.ofDigitChars 10 cs n < bound) :
    digitsBelow? bound n cs = some (Nat.ofDigitChars 10 cs n) := by
  induction cs generalizing n with
  | nil => simp [digitsBelow?]
  | cons c cs ih =>
    rw [Nat.ofDigitChars_cons] at hbound ⊢
    have happend : appendDigit n c = 10 * n + (c.toNat - '0'.toNat) := rfl
    -- the value so far is at most the final one, so it stays below the bound as well
    have hle := le_ofDigitChars cs (10 * n + (c.toNat - '0'.toNat))
    have hc : c.isDigit = true ∧ appendDigit n c < bound :=
      ⟨hdigits c (by simp), by rw [happend]; omega⟩
    rw [digitsBelow?, if_pos hc, happend]
    exact ih (fun d hd => hdigits d (by simp [hd])) hbound

/-- What is read is digits of that value. Induction along the reader. -/
theorem of_digitsBelow? {bound n m : Nat} {cs : List Char} (h : digitsBelow? bound n cs = some m) :
    (∀ c ∈ cs, c.isDigit = true) ∧ Nat.ofDigitChars 10 cs n = m := by
  fun_induction digitsBelow? bound n cs with
  | case1 n =>
    cases h
    exact ⟨by simp, rfl⟩
  | case2 n c rest hc ih =>
    obtain ⟨hrest, hvalue⟩ := ih h
    refine ⟨?_, by rw [Nat.ofDigitChars_cons]; exact hvalue⟩
    intro d hd
    rcases List.mem_cons.1 hd with rfl | hd
    · exact hc.1
    · exact hrest d hd
  | case3 => cases h

/-- Digits read, as their value, if there are any and the value lies below the bound. -/
theorem digits?_eq_some_iff {bound n : Nat} {cs : List Char} :
    digits? bound cs = some n ↔ Decimal cs n ∧ n < bound := by
  constructor
  · intro h
    have hlt := digits?_lt h
    unfold digits? at h
    split at h
    · cases h
    · next hne =>
      obtain ⟨hdigits, hvalue⟩ := of_digitsBelow? h
      exact ⟨⟨by simpa using hne, hdigits, hvalue⟩, hlt⟩
  · rintro ⟨⟨hne, hdigits, rfl⟩, hlt⟩
    unfold digits?
    rw [if_neg (by simpa using hne), digitsBelow?_eq hdigits hlt]

/-- Digits do not begin with a sign. -/
theorem Decimal.ne_cons {c : Char} {cs rest : List Char} {n : Nat} (h : Decimal cs n)
    (hc : c.isDigit = false) : cs ≠ c :: rest := by
  rintro rfl
  have hdigit := h.digits c (by simp)
  rw [hc] at hdigit
  cases hdigit

/-! ## Signs -/

/-- A text is read as a natural number if and only if it writes one below the bound. -/
theorem natural?_eq_some_iff {bound n : Nat} {s : String} :
    natural? bound s = some n ↔ WritesNatural s n ∧ n < bound := by
  unfold natural? WritesNatural
  split
  · next rest hplus =>
    rw [digits?_eq_some_iff, hplus]
    constructor
    · rintro ⟨hrest, hlt⟩
      exact ⟨⟨rest, hrest, .inr rfl⟩, hlt⟩
    · rintro ⟨⟨cs, hcs, hsame | hsame⟩, hlt⟩
      · -- behind the sign no second one can stand
        exact absurd hsame.symm (hcs.ne_cons (by decide))
      · cases hsame
        exact ⟨hcs, hlt⟩
  · next hplain =>
    rw [digits?_eq_some_iff]
    constructor
    · rintro ⟨hcs, hlt⟩
      exact ⟨⟨s.toList, hcs, .inl rfl⟩, hlt⟩
    · rintro ⟨⟨cs, hcs, hsame | hsame⟩, hlt⟩
      · rw [hsame]
        exact ⟨hcs, hlt⟩
      · exact absurd hsame (hplain cs)

/-- Digits are read as an integer, under either sign, if the bound on them keeps it in range. -/
theorem map_digits?_eq_some_iff {bound : Nat} {signed : Nat → Int}
    (hrange : ∀ n, n < bound ↔ -2 ^ 63 ≤ signed n ∧ signed n < 2 ^ 63) {cs : List Char}
    {z : Int64} :
    ((digits? bound cs).map fun n => Int64.ofInt (signed n)) = some z ↔
      ∃ n, Decimal cs n ∧ z.toInt = signed n := by
  rw [Option.map_eq_some_iff]
  constructor
  · rintro ⟨n, hread, rfl⟩
    obtain ⟨hcs, hlt⟩ := digits?_eq_some_iff.1 hread
    obtain ⟨hlow, hhigh⟩ := (hrange n).1 hlt
    exact ⟨n, hcs, Int64.toInt_ofInt_of_le hlow hhigh⟩
  · rintro ⟨n, hcs, hz⟩
    have hlow := z.le_toInt
    have hhigh := z.toInt_lt
    refine ⟨n, digits?_eq_some_iff.2 ⟨hcs, (hrange n).2 ⟨by omega, by omega⟩⟩, ?_⟩
    rw [← hz, Int64.ofInt_toInt]

/-- A text is read as an integer of 64 bits if and only if it writes it. -/
theorem integer?_eq_some_iff {s : String} {z : Int64} :
    integer? s = some z ↔ WritesInteger s z.toInt := by
  have hpositive (n : Nat) : n < 2 ^ 63 ↔ -2 ^ 63 ≤ (n : Int) ∧ (n : Int) < 2 ^ 63 := by omega
  have hnegative (n : Nat) : n < 2 ^ 63 + 1 ↔ -2 ^ 63 ≤ -(n : Int) ∧ -(n : Int) < 2 ^ 63 := by
    omega
  unfold integer? WritesInteger WritesNatural
  split
  · next rest hminus =>
    rw [map_digits?_eq_some_iff hnegative, hminus]
    constructor
    · rintro ⟨n, hrest, hz⟩
      exact ⟨n, .inr ⟨rest, hrest, rfl, hz⟩⟩
    · rintro ⟨n, ⟨⟨cs, hcs, hsame | hsame⟩, hz⟩ | ⟨cs, hcs, hsame, hz⟩⟩
      · exact absurd hsame.symm (hcs.ne_cons (by decide))
      · simp at hsame
      · cases hsame
        exact ⟨n, hcs, hz⟩
  · next rest hplus =>
    rw [map_digits?_eq_some_iff hpositive, hplus]
    constructor
    · rintro ⟨n, hrest, hz⟩
      exact ⟨n, .inl ⟨⟨rest, hrest, .inr rfl⟩, hz⟩⟩
    · rintro ⟨n, ⟨⟨cs, hcs, hsame | hsame⟩, hz⟩ | ⟨cs, hcs, hsame, hz⟩⟩
      · exact absurd hsame.symm (hcs.ne_cons (by decide))
      · cases hsame
        exact ⟨n, hcs, hz⟩
      · simp at hsame
  · -- without a sign only the first way of writing is left
    next hminus hplus =>
    rw [map_digits?_eq_some_iff hpositive]
    constructor
    · rintro ⟨n, hcs, hz⟩
      exact ⟨n, .inl ⟨⟨s.toList, hcs, .inl rfl⟩, hz⟩⟩
    · rintro ⟨n, ⟨⟨cs, hcs, hsame | hsame⟩, hz⟩ | ⟨cs, hcs, hsame, hz⟩⟩
      · rw [hsame]
        exact ⟨n, hcs, hz⟩
      · exact absurd hsame (hplus cs)
      · exact absurd hsame (hminus cs)

end TimeIds.Text
