import TimeIds.Proofs.Alphanumeric.Increasing
import TimeIds.Proofs.Base36.Inverse

/-!
# Identifiers read back

Both readers of identifiers find in an identifier the segment it was written for: `parse` the
position and the serial number (`parse_idText`), `millisOf` the time of the position
(`millisOf_idText`). A position past the ring is folded back onto it by both.
-/

namespace TimeIds.Alphanumeric

/-! ## Bytes of the time segment -/

theorem digitValue?_of_isIdChar {c : Char} (h : isIdChar c = true) :
    (Base36.digitValue? c).isSome := by
  unfold isIdChar at h
  rw [Bool.or_eq_true, Bool.and_eq_true, Bool.and_eq_true, decide_eq_true_eq, decide_eq_true_eq,
    decide_eq_true_eq, decide_eq_true_eq] at h
  unfold Base36.digitValue?
  split
  · rfl
  · next hfigure =>
    rcases h with h | h
    · exact absurd h hfigure
    · rw [if_pos h]
      rfl

/-- Digits and lower-case letters take one byte each. -/
theorem utf8Size_of_isIdChar {c : Char} (h : isIdChar c = true) : c.utf8Size = 1 := by
  obtain ⟨d, hd⟩ := Option.isSome_iff_exists.1 (digitValue?_of_isIdChar h)
  exact Base36.utf8Size_of_digitValue? hd

/-- Characters of one byte each are taken by their number. -/
theorem takeBytes?_append {cs : List Char} (hcs : ∀ c ∈ cs, c.utf8Size = 1) (rest : List Char) :
    takeBytes? cs.length (cs ++ rest) = some cs := by
  induction cs with
  | nil => simp [takeBytes?]
  | cons c cs ih =>
    have hc : c.utf8Size = 1 := hcs c (by simp)
    rw [List.length_cons, List.cons_append, takeBytes?, hc, if_pos (by omega), Nat.add_sub_cancel,
      ih fun c' hc' => hcs c' (by simp [hc'])]
    rfl

/-! ## Both readers -/

theorem Segment.Fits.serial_lt_word {suffixDigits : Nat} {s : Segment} (h : s.Fits suffixDigits) :
    s.serial < 2 ^ 64 := by
  have hserial := h.2
  rw [Base36.capacity_eq] at hserial
  omega

theorem decode_position {suffixDigits : Nat} {s : Segment} (h : s.Fits suffixDigits) :
    Base36.decode (Base36.encode s.position Base36.timeDigits) = .ok s.position := by
  have hlt := h.position_lt
  have hbound : 36 ^ Base36.timeDigits < 2 ^ 128 := by decide
  exact Base36.decode_encode_of_lt (by decide) hlt (by omega)

/-- A suffix of at least one digit is read as a word. -/
theorem suffixValue_encode {suffixDigits : Nat} (hwidth : 0 < suffixDigits) (serial : Nat) :
    suffixValue (Base36.encode serial suffixDigits) =
      Base36.decodeWord (Base36.encode serial suffixDigits) := by
  apply if_neg
  rw [String.isEmpty_iff]
  intro hempty
  have hlength := Base36.length_encode serial suffixDigits
  rw [hempty] at hlength
  exact absurd hlength (Nat.ne_of_lt hwidth)

/-- The suffix reads back as the serial number, also if it has no digits. -/
theorem suffixValue_serial {suffixDigits : Nat} {s : Segment} (h : s.Fits suffixDigits) :
    suffixValue (Base36.encode s.serial suffixDigits) = .ok s.serial := by
  have hlt := h.serial_lt
  have hmod : s.serial % 36 ^ suffixDigits = s.serial := Nat.mod_eq_of_lt hlt
  cases suffixDigits with
  | zero =>
    -- a suffix of no digits has room for the serial number 0 alone
    have hzero : s.serial = 0 := by simpa using hlt
    rw [hzero]
    rfl
  | succ w =>
    rw [suffixValue_encode (Nat.succ_pos w),
      Base36.decodeWord_encode (Nat.succ_pos w) (by rw [hmod]; exact h.serial_lt_word), hmod]

/-- **The time of an identifier** is that of its position on the ring. -/
theorem millisOf_idText {suffixDigits : Nat} {s : Segment} (h : s.Fits suffixDigits)
    (offset : Millis) :
    millisOf (idText suffixDigits s.position s.serial) offset =
      .ok (timeAt offset (UInt64.ofNat s.position)) := by
  -- the bytes that are taken are the characters of the time segment
  have hbytes : takeBytes? Base36.timeDigits (idText suffixDigits s.position s.serial).toList =
      some (Base36.encodeChars s.position Base36.timeDigits) := by
    have hone : ∀ c ∈ Base36.encodeChars s.position Base36.timeDigits, c.utf8Size = 1 :=
      fun c hc => utf8Size_of_isIdChar (isIdChar_of_mem_encodeChars hc)
    have htake := takeBytes?_append hone (Base36.encodeChars s.serial suffixDigits)
    rw [Base36.length_encodeChars] at htake
    rw [toList_idText]
    exact htake
  have hdecode : Base36.decode (String.ofList (Base36.encodeChars s.position Base36.timeDigits)) =
      .ok s.position := decode_position h
  unfold millisOf
  rw [hbytes]
  dsimp only
  rw [hdecode]
  rfl

/-- An identifier is taken apart into its two numerals. -/
theorem parse_idText_eq {suffixDigits : Nat} (hwidth : suffixDigits ≤ Base36.timeDigits)
    (position serial : Nat) :
    parse (idText suffixDigits position serial) suffixDigits =
      ((Base36.decode (Base36.encode position Base36.timeDigits)).bind fun elapsed =>
        (suffixValue (Base36.encode serial suffixDigits)).map fun n =>
          (⟨idText suffixDigits position serial, UInt64.ofNat elapsed, UInt64.ofNat n⟩ :
            ParsedId)).mapError .invalidArgument := by
  have hlength : (idText suffixDigits position serial).toList.length =
      Base36.timeDigits + suffixDigits := by
    rw [String.length_toList, length_idText]
  have hchars : (idText suffixDigits position serial).toList.all isIdChar = true :=
    List.all_eq_true.2 fun c hc => isIdChar_of_mem_idText hc
  have htime : (idText suffixDigits position serial).toList.take Base36.timeDigits =
      Base36.encodeChars position Base36.timeDigits := by
    rw [toList_idText, List.take_left' (Base36.length_encodeChars _ _)]
  have hsuffix : (idText suffixDigits position serial).toList.drop Base36.timeDigits =
      Base36.encodeChars serial suffixDigits := by
    rw [toList_idText, List.drop_left' (Base36.length_encodeChars _ _)]
  unfold parse checkSuffix
  rw [if_neg (by omega)]
  dsimp only [Except.bind]
  rw [if_pos ⟨hlength, hchars⟩, htime, hsuffix]
  rfl

/-- **The parts of an identifier** are the position on the ring and the serial number. -/
theorem parse_idText {suffixDigits : Nat} (hwidth : suffixDigits ≤ Base36.timeDigits) {s : Segment}
    (h : s.Fits suffixDigits) :
    parse (idText suffixDigits s.position s.serial) suffixDigits =
      .ok ⟨idText suffixDigits s.position s.serial, UInt64.ofNat s.position,
        UInt64.ofNat s.serial⟩ := by
  rw [parse_idText_eq hwidth, decode_position h, suffixValue_serial h]
  rfl

end TimeIds.Alphanumeric
