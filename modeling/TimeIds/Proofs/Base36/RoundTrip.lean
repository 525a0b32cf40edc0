import TimeIds.Base36.Numeral

/-!
# Numerals read back

Reading a numeral gives the value that was written, up to the digits that its width dropped. The
reader carries the value of the digits before it, so the statement for a part of a numeral
(`readDigits_encodeChars`) leaves both that value and the rest of the text open.
-/

namespace TimeIds.Base36

theorem digitValue?_digit {d : Nat} (hd : d < 36) : digitValue? (digit d) = some d := by
  have key : ∀ d : Fin 36, digitValue? (digit d.val) = some d.val := by decide +kernel
  exact key ⟨d, hd⟩

theorem encodeChars_ne_nil {value width : Nat} (hwidth : 0 < width) :
    encodeChars value width ≠ [] := by
  apply List.ne_nil_of_length_pos
  rw [length_encodeChars]
  exact hwidth

theorem toList_encode (value width : Nat) : (encode value width).toList = encodeChars value width :=
  String.toList_ofList

/-- Reading the digits of a width shifts the value before them by that width and adds theirs.
Induction on the width; the last digit is read last. -/
theorem readDigits_encodeChars (numeral : String) (before : Nat) {value width : Nat}
    (rest : List Char) (hfits : before * 36 ^ width + value % 36 ^ width < 2 ^ 128) :
    readDigits numeral before (encodeChars value width ++ rest) =
      readDigits numeral (before * 36 ^ width + value % 36 ^ width) rest := by
  induction width generalizing value rest with
  | zero => simp [encodeChars_zero, Nat.mod_one]
  | succ w ih =>
    have hshift : before * 36 ^ (w + 1) + value % 36 ^ (w + 1) =
        36 * (before * 36 ^ w + value / 36 % 36 ^ w) + value % 36 := by
      rw [Nat.pow_succ', Nat.mod_mul, Nat.mul_left_comm, Nat.mul_add]
      omega
    -- the value bound at the end bounds every value on the way
    rw [hshift] at hfits ⊢
    rw [encodeChars_succ, List.append_assoc, ih _ (by omega), List.singleton_append, readDigits,
      digitValue?_digit (Nat.mod_lt _ (by decide))]
    dsimp only
    rw [if_pos hfits]

/-- A numeral reads back as its value modulo the width, if that is below `2 ^ 128`. -/
theorem decode_encode {value width : Nat} (hwidth : 0 < width)
    (hfits : value % 36 ^ width < 2 ^ 128) :
    decode (encode value width) = .ok (value % 36 ^ width) := by
  have hread := readDigits_encodeChars (encode value width) 0 [] (by simpa using hfits)
  rw [List.append_nil, Nat.zero_mul, Nat.zero_add] at hread
  unfold decode
  rw [toList_encode]
  split
  · next hnil => exact absurd hnil (encodeChars_ne_nil hwidth)
  · rw [hread]
    rfl

/-- A value that fits the width is read back whole. -/
theorem decode_encode_of_lt {value width : Nat} (hwidth : 0 < width) (hfits : value < 36 ^ width)
    (hlt : value < 2 ^ 128) : decode (encode value width) = .ok value := by
  have hmod : value % 36 ^ width = value := Nat.mod_eq_of_lt hfits
  rw [decode_encode hwidth (by rw [hmod]; exact hlt), hmod]

theorem decodeWord_encode {value width : Nat} (hwidth : 0 < width)
    (hfits : value % 36 ^ width < 2 ^ 64) :
    decodeWord (encode value width) = .ok (value % 36 ^ width) := by
  unfold decodeWord
  rw [decode_encode hwidth (by omega)]
  dsimp only
  rw [if_pos hfits]

end TimeIds.Base36
