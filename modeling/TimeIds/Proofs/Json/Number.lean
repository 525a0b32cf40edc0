import TimeIds.Json.Value
import TimeIds.Proofs.Text.Decimal

/-!
# Numbers of printed documents

A document writes its numbers as plain decimal digits. The reader takes exactly these digits, finds
them to be a whole number in range, and gives the number back.

* **`Text.digits?_toDigits`** – the digits of a number below the bound are read as the number;
* **`Json.numeral_toDigits`** – the reader of numbers stops where the digits end;
* **`Json.value_toDigits`**, **`Json.optionalValue_toDigits`** – such a number is kept as a word.
-/

namespace TimeIds

/-! ## Printed digits -/

namespace Text

/-- A number is written in digits alone. -/
theorem isDigit_of_mem_toDigits {n : Nat} {c : Char} (hc : c ∈ Nat.toDigits 10 n) :
    c.isDigit = true :=
  Nat.isDigit_of_mem_toDigits (by decide) (by decide) hc

/-- The digits of a number below the bound are read as the number. -/
theorem digits?_toDigits {bound n : Nat} (hn : n < bound) :
    digits? bound (Nat.toDigits 10 n) = some n := by
  have hdecimal : Decimal (Nat.toDigits 10 n) n :=
    ⟨Nat.toDigits_ne_nil, fun c hc => isDigit_of_mem_toDigits hc, Nat.ofDigitChars_ten_toDigits⟩
  exact digits?_eq_some_iff.2 ⟨hdecimal, hn⟩

/-- Only zero begins with the digit zero. Induction over the quotients by ten, since all digits but
the last are those of the quotient. -/
theorem head?_toDigits_ne_zero {n : Nat} (hn : 0 < n) : (Nat.toDigits 10 n).head? ≠ some '0' := by
  induction n using Nat.strongRecOn with
  | ind n ih =>
    rw [Nat.toDigits_eq_if (by decide)]
    by_cases hlt : n < 10
    · rw [if_pos hlt]
      have key : ∀ d : Fin 10, 0 < d.val → [Nat.digitChar d.val].head? ≠ some '0' := by decide
      exact key ⟨n, hlt⟩ hn
    · have hquotient := ih (n / 10) (by omega) (by omega)
      rw [if_neg hlt]
      cases hdigits : Nat.toDigits 10 (n / 10) with
      | nil => exact absurd hdigits Nat.toDigits_ne_nil
      | cons d ds =>
        rw [hdigits] at hquotient
        exact hquotient

end Text

namespace Json

/-! ## Taking a number off a text -/

/-- A character at which the digits of a printed number end. -/
def EndsNumber (c : Char) : Prop := c = ',' ∨ c = '\n'

/-- What the reader of numbers makes of the digits of a number. -/
def plainNumeral (n : Nat) : Numeral := ⟨false, Nat.toDigits 10 n, [], none⟩

/-- The digits of a printed number end where its text does. -/
theorem takeWhile_toDigits (n : Nat) {c : Char} (hc : EndsNumber c) (rest : List Char) :
    (Nat.toDigits 10 n ++ c :: rest).takeWhile Char.isDigit = Nat.toDigits 10 n ∧
      (Nat.toDigits 10 n ++ c :: rest).dropWhile Char.isDigit = c :: rest := by
  have hdigits : ∀ d ∈ Nat.toDigits 10 n, Char.isDigit d = true :=
    fun d hd => Text.isDigit_of_mem_toDigits hd
  have hstop : c.isDigit = false := by rcases hc with rfl | rfl <;> decide
  rw [List.takeWhile_append_of_pos hdigits, List.dropWhile_append_of_pos hdigits,
    List.takeWhile_cons_of_neg (by simp [hstop]), List.dropWhile_cons_of_neg (by simp [hstop]),
    List.append_nil]
  exact ⟨rfl, rfl⟩

/-- A number has a first digit, and that is a zero only if it is the last as well. -/
theorem toDigits_eq_cons (n : Nat) :
    ∃ d ds, Nat.toDigits 10 n = d :: ds ∧ d.isDigit = true ∧ (d = '0' → ds = []) := by
  cases hdigits : Nat.toDigits 10 n with
  | nil => exact absurd hdigits Nat.toDigits_ne_nil
  | cons d ds =>
    have hd : d.isDigit = true := Text.isDigit_of_mem_toDigits (n := n) (by rw [hdigits]; simp)
    refine ⟨d, ds, rfl, hd, ?_⟩
    intro hzero
    rcases Nat.eq_zero_or_pos n with hn | hn
    · rw [hn, Nat.toDigits_zero] at hdigits
      exact (List.cons.inj hdigits).2.symm
    · have hhead := Text.head?_toDigits_ne_zero hn
      rw [hdigits, List.head?_cons, hzero] at hhead
      exact absurd rfl hhead

/-- The reader of whole digits takes them and nothing else. -/
theorem wholeDigits_toDigits (atEnd : Fault) (n : Nat) {c : Char} (hc : EndsNumber c)
    (rest : List Char) :
    wholeDigits atEnd (Nat.toDigits 10 n ++ c :: rest) = .ok (Nat.toDigits 10 n, c :: rest) := by
  obtain ⟨htake, hdrop⟩ := takeWhile_toDigits n hc rest
  obtain ⟨d, ds, hdigits, hd, hzero⟩ := toDigits_eq_cons n
  have hrun : digitRun atEnd (Nat.toDigits 10 n ++ c :: rest) =
      .ok (Nat.toDigits 10 n, c :: rest) := by
    rw [hdigits, List.cons_append] at htake hdrop ⊢
    rw [List.takeWhile_cons_of_pos hd] at htake
    rw [List.dropWhile_cons_of_pos hd] at hdrop
    rw [digitRun, if_pos hd, htake, hdrop]
  unfold wholeDigits
  rw [hrun, hdigits]
  simp only [bind, Except.bind]
  split
  -- a zero before further digits would be refused, but only zero begins with a zero
  · next e e' heq =>
    obtain ⟨rfl, htail⟩ := List.cons.inj heq
    rw [hzero rfl] at htail
    cases htail
  · rfl

/-- The reader of numbers takes the digits and nothing else. -/
theorem numeral_toDigits (atEnd : Fault) (n : Nat) {c : Char} (hc : EndsNumber c)
    (rest : List Char) :
    numeral atEnd (Nat.toDigits 10 n ++ c :: rest) = .ok (plainNumeral n, c :: rest) := by
  have hwhole := wholeDigits_toDigits atEnd n hc rest
  -- neither a fraction nor an exponent begins with a character that ends the number
  have hfraction : fractionDigits atEnd (c :: rest) = .ok ([], c :: rest) := by
    rcases hc with rfl | rfl <;> rfl
  have hexponent : exponentDigits atEnd (c :: rest) = .ok (none, c :: rest) := by
    rcases hc with rfl | rfl <;> rfl
  obtain ⟨d, ds, hdigits, hd, -⟩ := toDigits_eq_cons n
  have hsign : d ≠ '-' := by
    rintro rfl
    revert hd
    decide
  unfold numeral
  rw [hdigits, List.cons_append] at hwhole ⊢
  simp [hsign, hwhole, hfraction, hexponent, plainNumeral, hdigits, bind, Except.bind, pure,
    Except.pure]

/-! ## Keeping a number -/

/-- A number below the bound is taken into the significand with all its digits. -/
theorem significandOfWhole_eq {n : Nat} {cs : List Char}
    (hbound : Nat.ofDigitChars 10 cs n < 2 ^ 64) :
    significandOfWhole n cs = (Nat.ofDigitChars 10 cs n, 0) := by
  induction cs generalizing n with
  | nil => simp [significandOfWhole]
  | cons c cs ih =>
    rw [Nat.ofDigitChars_cons] at hbound ⊢
    -- the value only grows with more digits, so it stays within the bound on the way
    have happend : Text.appendDigit n c = 10 * n + (c.toNat - '0'.toNat) := rfl
    have hle := Text.le_ofDigitChars cs (10 * n + (c.toNat - '0'.toNat))
    rw [significandOfWhole, happend, if_pos (by omega)]
    exact ih hbound

/-- Rounding a word to 53 binary digits at most doubles it. -/
theorem roundTo53_le (n : Nat) : roundTo53 n ≤ 2 * n + 1 := by
  have hunit : 2 ^ (n.log2 - 52) ≤ n + 1 := by
    rcases Nat.eq_zero_or_pos n with rfl | hn
    · decide
    · have hself : 2 ^ n.log2 ≤ n := Nat.log2_self_le (by omega)
      have hpow : 2 ^ (n.log2 - 52) ≤ 2 ^ n.log2 := Nat.pow_le_pow_right (by decide) (by omega)
      omega
  -- the unit of rounding is at most one more than the number, and rounding adds one unit at most
  have hquotient : n / 2 ^ (n.log2 - 52) * 2 ^ (n.log2 - 52) ≤ n := Nat.div_mul_le_self _ _
  unfold roundTo53
  dsimp only
  split
  · rw [Nat.add_mul]
    omega
  · omega

/-- A whole number of at most 64 bits is in range. -/
theorem isOutOfRange_plainNumeral {n : Nat} (hn : n < 2 ^ 64) :
    (plainNumeral n).isOutOfRange = false := by
  have hvalue : Nat.ofDigitChars 10 (Nat.toDigits 10 n) 0 = n := Nat.ofDigitChars_ten_toDigits
  have hwhole : significandOfWhole 0 (Nat.toDigits 10 n) = (n, 0) := by
    rw [significandOfWhole_eq (by rw [hvalue]; exact hn), hvalue]
  -- the exponent is 0, so the rounded significand alone decides
  have hround : roundTo53 n * roundTo53 1 < overflowBound := by
    have hone : roundTo53 1 = 1 := by decide
    have hle := roundTo53_le n
    have hbound : 2 ^ 65 ≤ overflowBound := by decide +kernel
    rw [hone]
    omega
  unfold Numeral.isOutOfRange plainNumeral
  dsimp only
  rw [hwhole]
  simp [significandOfFraction, exponentCap]
  exact fun _ => hround

/-- A printed word is in range, so it is kept. -/
theorem keptNumeral_toDigits {n : Nat} (hn : n < 2 ^ 64) {c : Char} (hc : EndsNumber c)
    (rest : List Char) :
    keptNumeral (Nat.toDigits 10 n ++ c :: rest) = .ok (plainNumeral n, c :: rest) := by
  unfold keptNumeral
  rw [numeral_toDigits .truncated n hc rest]
  simp [bind, Except.bind, isOutOfRange_plainNumeral hn, pure, Except.pure]

/-- It is a whole number, and so the word that it was. -/
theorem word?_plainNumeral {n : Nat} (hn : n < 2 ^ 64) :
    (plainNumeral n).word? = some (UInt64.ofNat n) := by
  unfold Numeral.word? Numeral.isWhole plainNumeral
  simp [Text.digits?_toDigits hn]

/-- A digit is no white space. -/
theorem skipSpace_of_digit {d : Char} (hd : d.isDigit = true) (cs : List Char) :
    skipSpace (d :: cs) = d :: cs := by
  have hspace : isSpace d = false := by
    by_cases h : isSpace d = true
    · simp only [isSpace, Bool.or_eq_true, beq_iff_eq] at h
      rcases h with ((rfl | rfl) | rfl) | rfl <;> revert hd <;> decide
    · simpa using h
  unfold skipSpace
  rw [List.dropWhile_cons_of_neg (by simp [hspace])]

/-- **A printed number is kept as a word**, whatever white space stands before it. -/
theorem value_toDigits (size depth : Nat) {n : Nat} (hn : n < 2 ^ 64) {c : Char}
    (hc : EndsNumber c) (rest : List Char) :
    value size depth (Nat.toDigits 10 n ++ c :: rest) =
      .ok (.word (UInt64.ofNat n), c :: rest) := by
  have hkept := keptNumeral_toDigits hn hc rest
  obtain ⟨d, ds, hdigits, hd, -⟩ := toDigits_eq_cons n
  have hquote : d ≠ '"' := by
    rintro rfl
    revert hd
    decide
  -- a number begins with no quote, and not like a word
  have hstarts : startsNumeral d = true := by simp [startsNumeral, hd]
  rw [hdigits, List.cons_append] at hkept ⊢
  unfold value
  rw [skipSpace_of_digit hd]
  dsimp only
  rw [if_neg hquote, if_pos hstarts, hkept]
  simp [Except.map, word?_plainNumeral hn]

/-- A printed number after a blank is there, and is kept as a word. -/
theorem optionalValue_toDigits (size depth : Nat) {n : Nat} (hn : n < 2 ^ 64) {c : Char}
    (hc : EndsNumber c) (rest : List Char) :
    optionalValue size depth (' ' :: (Nat.toDigits 10 n ++ c :: rest)) =
      .ok (some (.word (UInt64.ofNat n)), c :: rest) := by
  have hvalue := value_toDigits size depth hn hc rest
  obtain ⟨d, ds, hdigits, hd, -⟩ := toDigits_eq_cons n
  -- only a text that begins like `null` is read in another way
  have hnull : d ≠ 'n' := by
    rintro rfl
    revert hd
    decide
  have hskip : ∀ cs, skipSpace (' ' :: d :: cs) = d :: cs := fun cs => skipSpace_of_digit hd cs
  rw [hdigits, List.cons_append] at hvalue ⊢
  unfold optionalValue
  rw [hskip]
  split
  · next heq => exact absurd (List.cons.inj heq).1 hnull
  · rw [hvalue]
    rfl

end Json
end TimeIds
