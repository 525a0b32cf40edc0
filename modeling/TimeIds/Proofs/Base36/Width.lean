import Mathlib.Order.Bounds.Defs
import TimeIds.Proofs.Base36.RoundTrip

/-!
# How many digits a value needs

A value needs as many digits as it takes divisions by 36 to use it up, and a width has room for as
many values as 36 multiplied by itself. Both ends meet at the powers of 36: a value needs no more
digits than the width if and only if it is below the power (`digitCount_le_iff`). For 64-bit words
the capacity of the width says the same (`le_capacity_iff`), also where the power is no word, and so
does writing in that width and reading back (`decodeWord_encode_eq_ok_iff`).

* **`isLeast_digitCount`** – the digits of a value are the fewest that hold it;
* **`widths_agree`** – length, capacity, writer and reader draw one boundary.
-/

namespace TimeIds.Base36

/-! ## Length and capacity -/

theorem one_le_digitCount (value : Nat) : 1 ≤ digitCount value := by
  unfold digitCount
  split <;> omega

/-- A value fits a width if and only if the width has the digits that the value needs. Induction
along the divisions; each takes one digit off the width. -/
theorem digitCount_le_iff {value digits : Nat} (hdigits : 1 ≤ digits) :
    digitCount value ≤ digits ↔ value < 36 ^ digits := by
  fun_induction digitCount value generalizing digits with
  | case1 value hsmall =>
    have hpow : 36 ^ 1 ≤ 36 ^ digits := Nat.pow_le_pow_right (by decide) hdigits
    omega
  | case2 value hlarge ih =>
    obtain ⟨d, rfl⟩ : ∃ d, digits = d + 1 := ⟨digits - 1, by omega⟩
    rcases Nat.eq_zero_or_pos d with rfl | hd
    · -- one digit is too few for both
      have hcount := one_le_digitCount (value / 36)
      omega
    · have hquotient : value / 36 < 36 ^ d ↔ value < 36 ^ (d + 1) := by
        rw [Nat.div_lt_iff_lt_mul (by decide), Nat.pow_succ]
      rw [← hquotient, ← ih hd]
      omega

/-- **The digits of a value are the fewest that hold it**, but for zero, which has one. -/
theorem isLeast_digitCount (value : Nat) :
    IsLeast {n | 1 ≤ n ∧ value < 36 ^ n} (digitCount value) := by
  have hpos := one_le_digitCount value
  refine ⟨⟨hpos, (digitCount_le_iff hpos).1 (Nat.le_refl _)⟩, ?_⟩
  rintro n ⟨hn, hfits⟩
  exact (digitCount_le_iff hn).2 hfits

/-- A word is at most the capacity of a width if and only if it fits the width. -/
theorem le_capacity_iff {value : Nat} (hword : value < 2 ^ 64) (digits : Nat) :
    value ≤ capacity digits ↔ value < 36 ^ digits := by
  have hpow : 0 < 36 ^ digits := Nat.pow_pos (by decide)
  rw [capacity_eq]
  omega

/-! ## Writing and reading -/

/-- A word that is written in some width reads back if and only if no digit was dropped. -/
theorem decodeWord_encode_eq_ok_iff {value digits : Nat} (hdigits : 1 ≤ digits)
    (hword : value < 2 ^ 64) :
    decodeWord (encode value digits) = .ok value ↔ value < 36 ^ digits := by
  have hlow : value % 36 ^ digits < 2 ^ 64 := Nat.lt_of_le_of_lt (Nat.mod_le _ _) hword
  rw [decodeWord_encode hdigits hlow, Except.ok.injEq]
  constructor
  · intro hsame
    rw [← hsame]
    exact Nat.mod_lt _ (Nat.pow_pos (by decide))
  · exact Nat.mod_eq_of_lt

/-- **Length, capacity, writer and reader draw one boundary.** The capacity of a width is its
largest value, capped at the largest word; the length of a value is the least width, of one digit or
more, that holds it. So a word needs no more digits than a width has if and only if it is at most
the capacity of the width, and in that case alone writing it in that width loses no digit: it reads
back. -/
theorem widths_agree :
    (∀ digits, capacity digits = min (36 ^ digits - 1) (2 ^ 64 - 1)) ∧
    (∀ value, IsLeast {n | 1 ≤ n ∧ value < 36 ^ n} (digitCount value)) ∧
    ∀ digits value, 1 ≤ digits → value < 2 ^ 64 →
      (digitCount value ≤ digits ↔ value ≤ capacity digits) ∧
      (decodeWord (encode value digits) = .ok value ↔ value ≤ capacity digits) := by
  refine ⟨capacity_eq, isLeast_digitCount, ?_⟩
  intro digits value hdigits hword
  rw [le_capacity_iff hword]
  exact ⟨digitCount_le_iff hdigits, decodeWord_encode_eq_ok_iff hdigits hword⟩

/-- The largest word needs all thirteen digits of a time segment, and the first value of thirteen
digits loses one in twelve. -/
theorem widths_agree_at_thirteen_digits :
    IsLeast {n | 1 ≤ n ∧ 2 ^ 64 - 1 < 36 ^ n} (digitCount (2 ^ 64 - 1)) ∧
      digitCount (2 ^ 64 - 1) ≤ 13 ∧
      decodeWord (encode (2 ^ 64 - 1) 13) = .ok (2 ^ 64 - 1) ∧
      12 < digitCount (36 ^ 12) ∧ decodeWord (encode (36 ^ 12) 12) ≠ .ok (36 ^ 12) := by
  obtain ⟨hcapacity, hleast, hboundary⟩ := widths_agree
  have hwide : 2 ^ 64 - 1 ≤ capacity 13 := by
    rw [hcapacity]
    decide
  have hnarrow : ¬ 36 ^ 12 ≤ capacity 12 := by
    rw [hcapacity]
    decide
  obtain ⟨hlength, hread⟩ := hboundary 13 (2 ^ 64 - 1) (by decide) (by decide)
  obtain ⟨hlength', hread'⟩ := hboundary 12 (36 ^ 12) (by decide) (by decide)
  refine ⟨hleast _, hlength.2 hwide, hread.2 hwide, ?_, ?_⟩
  · exact Nat.lt_of_not_le fun h => hnarrow (hlength'.1 h)
  · exact fun h => hnarrow (hread'.1 h)

end TimeIds.Base36
