import TimeIds.Proofs.Base36.RoundTrip

/-!
# Reading and writing numerals are inverse

What a numeral reads as, written in as many digits as the numeral has, is the numeral again with its
letters in lower case. A text that reads is therefore settled by its length and its value, up to the
case of its letters.

The reader takes digits from the left and the writer gives them from the right, so the step from one
to the other is the *first* digit of a numeral (`encodeChars_succ_left`): it is the value above the
digits behind it.

* **`encode_of_decode`** – a numeral that reads is written again in lower case;
* **`decode_eq_ok_iff_of_lower`** – on lower-case numerals of one width, reading undoes writing and
  writing undoes reading;
* **`writing_and_reading_inverse`** – both directions, for every width.
-/

namespace TimeIds.Base36

/-! ## Digits and letter case -/

theorem toNat_lt_of_le {c last : Char} {bound : Nat} (h : c ≤ last) (hlast : last.toNat < bound) :
    c.toNat < bound :=
  Nat.lt_of_le_of_lt (UInt32.le_iff_toNat_le.1 (Char.le_def.1 h)) hlast

/-- The digits are ASCII. -/
theorem toNat_lt_of_digitValue? {c : Char} {d : Nat} (h : digitValue? c = some d) :
    c.toNat < 128 := by
  unfold digitValue? at h
  split at h
  · next hc => exact toNat_lt_of_le hc.2 (by decide)
  · split at h
    · next hc => exact toNat_lt_of_le hc.2 (by decide)
    · split at h
      · next hc => exact toNat_lt_of_le hc.2 (by decide)
      · cases h

/-- What a table says of the 128 ASCII characters. -/
theorem forall_ascii (p : Char → Prop) (table : ∀ n : Fin 128, p (Char.ofNat n.val)) {c : Char}
    (hc : c.toNat < 128) : p c := by
  have hentry := table ⟨c.toNat, hc⟩
  rw [show Char.ofNat c.toNat = c from Char.ofNat_toNat c] at hentry
  exact hentry

/-- A character that has a value is the digit of that value, up to its case. -/
theorem digit_of_digitValue? {c : Char} {d : Nat} (h : digitValue? c = some d) :
    d < 36 ∧ digit d = c.toLower := by
  have hascii := toNat_lt_of_digitValue? h
  exact forall_ascii (fun c => ∀ d ∈ digitValue? c, d < 36 ∧ digit d = c.toLower)
    (by decide +kernel) hascii d h

theorem toLower_digit {d : Nat} (hd : d < 36) : (digit d).toLower = digit d := by
  rw [← (digit_of_digitValue? (digitValue?_digit hd)).2]

/-- A numeral that is written is in lower case. -/
theorem map_toLower_encodeChars (value width : Nat) :
    (encodeChars value width).map Char.toLower = encodeChars value width := by
  induction width generalizing value with
  | zero => rfl
  | succ w ih =>
    have hlast : value % 36 < 36 := Nat.mod_lt _ (by decide)
    rw [encodeChars_succ, List.map_append, ih, List.map_singleton, toLower_digit hlast]

/-! ## The first digit of a numeral -/

/-- The first of the digits of a width is what the value has above the other digits. -/
theorem encodeChars_succ_left (value width : Nat) :
    encodeChars value (width + 1) =
      digit (value / 36 ^ width % 36) :: encodeChars value width := by
  induction width generalizing value with
  | zero => simp [encodeChars_succ, encodeChars_zero]
  | succ w ih =>
    have hquotient : value / 36 / 36 ^ w = value / 36 ^ (w + 1) := by
      rw [Nat.div_div_eq_div_mul, Nat.pow_succ']
    rw [encodeChars_succ, ih, hquotient, List.cons_append, ← encodeChars_succ]

/-! ## What was read is written again -/

/-- Of a value that was read onto the one before it, the digits read are the last, and the value
before it is what they leave. Induction along the reader. -/
theorem encodeChars_of_readDigits {numeral : String} {before value : Nat} {cs : List Char}
    (h : readDigits numeral before cs = .ok value) :
    value / 36 ^ cs.length = before ∧ encodeChars value cs.length = cs.map Char.toLower := by
  fun_induction readDigits numeral before cs with
  | case1 before =>
    cases h
    exact ⟨by simp, rfl⟩
  | case2 => cases h
  | case3 before c rest d hdigit hfits ih =>
    obtain ⟨habove, hrest⟩ := ih h
    obtain ⟨hd, hlower⟩ := digit_of_digitValue? hdigit
    have hbefore : value / 36 ^ (c :: rest).length = before := by
      rw [List.length_cons, Nat.pow_succ, ← Nat.div_div_eq_div_mul, habove]
      omega
    -- the digit in front is what the value has above the rest, on its last place
    have hfirst : value / 36 ^ rest.length % 36 = d := by
      rw [habove]
      omega
    refine ⟨hbefore, ?_⟩
    rw [List.length_cons, encodeChars_succ_left, hfirst, hrest, hlower, List.map_cons]
  | case4 => cases h

theorem readDigits_of_decode {numeral : String} {value : Nat} (h : decode numeral = .ok value) :
    numeral.toList ≠ [] ∧ readDigits numeral 0 numeral.toList = .ok value := by
  unfold decode at h
  split at h
  · cases h
  · next hne => exact ⟨hne, h⟩

/-- **A numeral that reads is written again in lower case**, whatever zeros it starts with. -/
theorem encode_of_decode {numeral : String} {value : Nat} (h : decode numeral = .ok value) :
    encode value numeral.length = numeral.toLower := by
  obtain ⟨-, hread⟩ := readDigits_of_decode h
  have hchars := (encodeChars_of_readDigits hread).2
  rw [String.length_toList] at hchars
  apply String.toList_injective
  rw [toList_encode, hchars]
  exact String.toList_map.symm

/-- A value has no more digits than the numeral it was read from. -/
theorem lt_of_decode {numeral : String} {value : Nat} (h : decode numeral = .ok value) :
    value < 36 ^ numeral.length := by
  obtain ⟨-, hread⟩ := readDigits_of_decode h
  have habove := (encodeChars_of_readDigits hread).1
  rw [String.length_toList] at habove
  exact (Nat.div_eq_zero_iff_lt (Nat.pow_pos (by decide))).1 habove

theorem toLower_encode (value width : Nat) : (encode value width).toLower = encode value width := by
  apply String.toList_injective
  rw [toList_encode, ← map_toLower_encodeChars, ← toList_encode]
  exact String.toList_map

/-! ## Characters and bytes -/

theorem utf8Size_of_digitValue? {c : Char} {d : Nat} (h : digitValue? c = some d) :
    c.utf8Size = 1 := by
  have hlt : c.val.toNat < 128 := toNat_lt_of_digitValue? h
  have hle : c.val ≤ 0x7f := UInt32.le_iff_toNat_le.2 (Nat.le_of_lt_succ hlt)
  exact if_pos hle

theorem size_utf8Encode_of_readDigits {numeral : String} {before value : Nat} {cs : List Char}
    (h : readDigits numeral before cs = .ok value) : cs.utf8Encode.size = cs.length := by
  fun_induction readDigits numeral before cs with
  | case1 => rfl
  | case2 => cases h
  | case3 before c rest d hdigit hfits ih =>
    rw [List.utf8Encode_cons, ByteArray.size_append, ih h, List.utf8Encode_singleton,
      List.size_toByteArray, String.length_utf8EncodeChar, utf8Size_of_digitValue? hdigit,
      List.length_cons, Nat.add_comm]
  | case4 => cases h

/-- A numeral that reads has as many bytes as characters. -/
theorem utf8ByteSize_of_decode {numeral : String} {value : Nat} (h : decode numeral = .ok value) :
    numeral.utf8ByteSize = numeral.length := by
  obtain ⟨-, hread⟩ := readDigits_of_decode h
  have hsize := size_utf8Encode_of_readDigits hread
  rw [← String.toByteArray_ofList, String.ofList_toList, String.length_toList] at hsize
  exact hsize

/-! ## Both directions -/

/-- **On lower-case numerals of one width reading and writing are inverse.** -/
theorem decode_eq_ok_iff_of_lower {numeral : String} {value width : Nat} (hwidth : 0 < width) :
    numeral.length = width ∧ numeral.toLower = numeral ∧ decode numeral = .ok value ↔
      value < 36 ^ width ∧ value < 2 ^ 128 ∧ numeral = encode value width := by
  constructor
  · rintro ⟨rfl, hlower, hread⟩
    refine ⟨lt_of_decode hread, decode_lt hread, ?_⟩
    rw [encode_of_decode hread, hlower]
  · rintro ⟨hfits, hlt, rfl⟩
    exact ⟨length_encode value width, toLower_encode value width,
      decode_encode_of_lt hwidth hfits hlt⟩

/-- **Reading and writing numerals are inverse.** A value below `2 ^ 128` is written in exactly the
digits of the width and reads back modulo the width, and a 64-bit word likewise through the reader of
words. A numeral that reads, of any length, in either case and with any zeros in front, is written
again in lower case. So on lower-case numerals of one width each direction undoes the other. -/
theorem writing_and_reading_inverse :
    (∀ value width : Nat, value < 2 ^ 128 → 1 ≤ width →
      (encode value width).length = width ∧
        decode (encode value width) = .ok (value % 36 ^ width)) ∧
    (∀ value width : Nat, value < 2 ^ 64 → 1 ≤ width →
      (encode value width).length = width ∧
        decodeWord (encode value width) = .ok (value % 36 ^ width)) ∧
    (∀ (numeral : String) (value : Nat), decode numeral = .ok value →
      encode value numeral.length = numeral.toLower ∧
        numeral.utf8ByteSize = numeral.length) ∧
    ∀ (numeral : String) (value width : Nat), 1 ≤ width →
      (numeral.length = width ∧ numeral.toLower = numeral ∧ decode numeral = .ok value ↔
        value < 36 ^ width ∧ value < 2 ^ 128 ∧ numeral = encode value width) := by
  refine ⟨?_, ?_, ?_, fun numeral value width => decode_eq_ok_iff_of_lower⟩
  · intro value width hvalue hwidth
    have hfits : value % 36 ^ width < 2 ^ 128 := Nat.lt_of_le_of_lt (Nat.mod_le _ _) hvalue
    exact ⟨length_encode value width, decode_encode hwidth hfits⟩
  · intro value width hvalue hwidth
    have hfits : value % 36 ^ width < 2 ^ 64 := Nat.lt_of_le_of_lt (Nat.mod_le _ _) hvalue
    exact ⟨length_encode value width, decodeWord_encode hwidth hfits⟩
  · intro numeral value hread
    exact ⟨encode_of_decode hread, utf8ByteSize_of_decode hread⟩

/-- Beyond 24 digits a width has room for more than the reader takes, and only zeros in front keep
the value below `2 ^ 128`. -/
theorem writing_and_reading_inverse_past_24_digits :
    (encode (2 ^ 128 - 1) 30).length = 30 ∧
    decode (encode (2 ^ 128 - 1) 30) = .ok (2 ^ 128 - 1) ∧
    decodeWord (encode (2 ^ 64 - 1) 12) = .ok ((2 ^ 64 - 1) % 36 ^ 12) ∧
    decode "00000000000003W5E11264sgsG" = .ok (2 ^ 64) ∧
    encode (2 ^ 64) 26 = "00000000000003w5e11264sgsg" ∧
    decode "3w5e11264sgsg" = .ok (2 ^ 64) ∧ "3w5e11264sgsg" = encode (2 ^ 64) 13 := by
  obtain ⟨hwrite, hwriteWord, hread, hlower⟩ := writing_and_reading_inverse
  have hmixed : decode "00000000000003W5E11264sgsG" = .ok (2 ^ 64) := rfl
  have hlap : decode "3w5e11264sgsg" = .ok (2 ^ 64) := rfl
  obtain ⟨hlength, hwide⟩ := hwrite (2 ^ 128 - 1) 30 (by decide) (by decide)
  refine ⟨hlength, hwide, (hwriteWord _ 12 (by decide) (by decide)).2, hmixed, ?_, hlap, ?_⟩
  · have hagain := (hread _ _ hmixed).1
    rw [show "00000000000003W5E11264sgsG".toLower = "00000000000003w5e11264sgsg" by
      decide +kernel] at hagain
    exact hagain
  · have hsame : "3w5e11264sgsg".toLower = "3w5e11264sgsg" := by decide +kernel
    exact ((hlower _ _ 13 (by decide)).1 ⟨rfl, hsame, hlap⟩).2.2

end TimeIds.Base36
