import TimeIds.Proofs.Alphanumeric.ReadBack
import TimeIds.Proofs.Base36.Acceptance

/-!
# Which texts are identifiers

`parse` takes exactly the texts that two numerals write: a position in thirteen digits and a serial
number of at most 64 bits in the digits of the suffix. A text that has the shape of an identifier is
always a position and some number behind it (`exists_segment_of_shaped`), and what becomes of it is
decided by that number alone: it is accepted below `2 ^ 64`, and is out of range from there on, which
takes thirteen digits.

* **`parse_of_shaped`** – what a text of the right shape reads as;
* **`parse_eq_error`** – when a text is refused, and with which fault;
* **`parse_accepts_written`** – the texts that are accepted, their only reading, and the faults of
  the others.
-/

namespace TimeIds.Alphanumeric

/-- A text of thirteen lower-case digits and as many as the suffix has. -/
def Shaped (suffixDigits : Nat) (id : String) : Prop :=
  id.length = 13 + suffixDigits ∧ ∀ c ∈ id.toList, isIdChar c = true

/-- The text writes the segment: the position in thirteen digits, then the serial number, of at most
64 bits, in the digits of the suffix. -/
structure Segment.Writes (s : Segment) (suffixDigits : Nat) (id : String) : Prop where
  position_lt : s.position < 36 ^ 13
  serial_lt : s.serial < 36 ^ suffixDigits
  serial_lt_word : s.serial < 2 ^ 64
  text : id = Base36.encode s.position 13 ++ Base36.encode s.serial suffixDigits

/-! ## Lower-case digits -/

theorem toLower_of_isIdChar {c : Char} (h : isIdChar c = true) : c.toLower = c := by
  obtain ⟨d, hd⟩ := Option.isSome_iff_exists.1 (digitValue?_of_isIdChar h)
  have hascii := Base36.toNat_lt_of_digitValue? hd
  exact Base36.forall_ascii (fun c => isIdChar c = true → c.toLower = c) (by decide +kernel) hascii h

/-- Lower-case digits, up to thirteen of them, are the numeral of a value. -/
theorem exists_encode (text : String) (hchars : ∀ c ∈ text.toList, isIdChar c = true)
    (hlength : text.length ≤ 13) :
    ∃ value < 36 ^ text.length, text = Base36.encode value text.length := by
  by_cases hempty : text = ""
  · -- no digits write 0
    subst hempty
    exact ⟨0, by decide, rfl⟩
  · have hroom : 36 ^ text.length ≤ 2 ^ 128 :=
      Nat.le_trans (Nat.pow_le_pow_right (by decide) hlength) (by decide)
    have hdigits : ∀ c ∈ text.toList, c.isAlphanum = true :=
      fun c hc => Base36.isAlphanum_of_isSome (digitValue?_of_isIdChar (hchars c hc))
    obtain ⟨value, hread⟩ := Base36.exists_decode hempty hdigits hroom
    have hlower : text.toLower = text := by
      apply String.toList_injective
      show (String.map Char.toLower text).toList = text.toList
      rw [String.toList_map, List.map_congr_left (fun c hc => toLower_of_isIdChar (hchars c hc)),
        List.map_id']
    exact ⟨value, Base36.lt_of_decode hread, by rw [Base36.encode_of_decode hread, hlower]⟩

/-! ## The two numerals of a text -/

/-- A text of the right shape is a position and a number that the suffix writes. -/
theorem exists_segment_of_shaped {suffixDigits : Nat} {id : String}
    (hwidth : suffixDigits ≤ 13) (hshape : Shaped suffixDigits id) :
    ∃ s : Segment, s.position < 36 ^ 13 ∧ s.serial < 36 ^ suffixDigits ∧
      id = idText suffixDigits s.position s.serial := by
  obtain ⟨hlength, hchars⟩ := hshape
  rw [← String.length_toList] at hlength
  have htime : (String.ofList (id.toList.take 13)).length = 13 := by
    rw [String.length_ofList, List.length_take]
    omega
  have hsuffix : (String.ofList (id.toList.drop 13)).length = suffixDigits := by
    rw [String.length_ofList, List.length_drop]
    omega
  obtain ⟨position, hposition, hfirst⟩ := exists_encode (String.ofList (id.toList.take 13))
    (fun c hc => hchars c (List.mem_of_mem_take (String.toList_ofList ▸ hc))) (by omega)
  obtain ⟨serial, hserial, hlast⟩ := exists_encode (String.ofList (id.toList.drop 13))
    (fun c hc => hchars c (List.mem_of_mem_drop (String.toList_ofList ▸ hc))) (by omega)
  rw [htime] at hposition hfirst
  rw [hsuffix] at hserial hlast
  refine ⟨⟨position, serial⟩, hposition, hserial, ?_⟩
  apply String.toList_injective
  show id.toList = (Base36.encode position 13 ++ Base36.encode serial suffixDigits).toList
  rw [← hfirst, ← hlast, String.toList_append, String.toList_ofList, String.toList_ofList,
    List.take_append_drop]

/-- The bounds on a segment, as those on the two numerals that write it. -/
theorem fits_iff {suffixDigits : Nat} {s : Segment} :
    s.Fits suffixDigits ↔
      s.position < 36 ^ 13 ∧ s.serial < 36 ^ suffixDigits ∧ s.serial < 2 ^ 64 := by
  constructor
  · intro h
    exact ⟨h.position_lt, h.serial_lt, h.serial_lt_word⟩
  · rintro ⟨hposition, hserial, hword⟩
    constructor
    · show s.position ≤ 36 ^ 13 - 1
      omega
    · rw [Base36.capacity_eq]
      omega

/-- Only a suffix of thirteen digits holds numbers of more than 64 bits. -/
theorem eq_thirteen_of_le_serial {suffixDigits serial : Nat} (hwidth : suffixDigits ≤ 13)
    (hserial : serial < 36 ^ suffixDigits) (hword : 2 ^ 64 ≤ serial) : suffixDigits = 13 := by
  have hnot : ¬ suffixDigits ≤ 12 := by
    intro hle
    have hpow : 36 ^ suffixDigits ≤ 36 ^ 12 := Nat.pow_le_pow_right (by decide) hle
    omega
  omega

/-! ## What becomes of a text -/

theorem parse_of_not_shaped {suffixDigits : Nat} {id : String} (hwidth : suffixDigits ≤ 13)
    (hshape : ¬ Shaped suffixDigits id) :
    parse id suffixDigits = .error (.invalidArgument (.malformedId id)) := by
  have hcheck : checkSuffix suffixDigits = .ok () := if_neg (Nat.not_lt.2 hwidth)
  unfold parse
  rw [hcheck]
  refine if_neg fun h => hshape ⟨?_, List.all_eq_true.1 h.2⟩
  rw [← String.length_toList]
  exact h.1

/-- A position of thirteen digits before a number of more than 64 bits is refused for the number. -/
theorem parse_idText_of_le_serial {suffixDigits : Nat} (hwidth : suffixDigits ≤ 13) {s : Segment}
    (hposition : s.position < 36 ^ 13) (hserial : s.serial < 36 ^ suffixDigits)
    (hword : 2 ^ 64 ≤ s.serial) :
    parse (idText suffixDigits s.position s.serial) suffixDigits =
      .error (.invalidArgument (.numeralTooLarge (Base36.encode s.serial suffixDigits))) := by
  obtain rfl := eq_thirteen_of_le_serial hwidth hserial hword
  have hbound : 36 ^ 13 < 2 ^ 128 := by decide
  have htime : Base36.decode (Base36.encode s.position Base36.timeDigits) = .ok s.position :=
    Base36.decode_encode_of_lt (by decide) hposition (by omega)
  have hsuffix : Base36.decodeWord (Base36.encode s.serial 13) =
      .error (.numeralTooLarge (Base36.encode s.serial 13)) := by
    unfold Base36.decodeWord
    rw [Base36.decode_encode_of_lt (by decide) hserial (by omega)]
    exact if_neg (Nat.not_lt.2 hword)
  rw [parse_idText_eq (by decide), htime, suffixValue_encode (by decide), hsuffix]
  rfl

theorem parse_of_wide {suffixDigits : Nat} (hwidth : ¬ suffixDigits ≤ 13) (id : String) :
    parse id suffixDigits = .error (.invalidArgument (.suffixTooWide suffixDigits)) := by
  have hcheck : checkSuffix suffixDigits =
      .error (.invalidArgument (.suffixTooWide suffixDigits)) := if_pos (Nat.lt_of_not_le hwidth)
  unfold parse
  rw [hcheck]
  rfl

theorem Segment.Writes.fits {s : Segment} {suffixDigits : Nat} {id : String}
    (h : s.Writes suffixDigits id) : s.Fits suffixDigits :=
  fits_iff.2 ⟨h.position_lt, h.serial_lt, h.serial_lt_word⟩

/-- What a text writes is what `parse` makes of it. -/
theorem Segment.Writes.parse_eq {s : Segment} {suffixDigits : Nat} {id : String}
    (hwidth : suffixDigits ≤ 13) (h : s.Writes suffixDigits id) :
    parse id suffixDigits = .ok ⟨id, UInt64.ofNat s.position, UInt64.ofNat s.serial⟩ := by
  obtain rfl : id = idText suffixDigits s.position s.serial := h.text
  exact parse_idText hwidth h.fits

/-- A text writes at most one segment: fixed widths keep the two numerals apart. -/
theorem Segment.Writes.unique {s s' : Segment} {suffixDigits : Nat} {id : String}
    (h : s.Writes suffixDigits id) (h' : s'.Writes suffixDigits id) : s = s' := by
  -- both are the text, and the first numerals have one length
  have hchars : Base36.encodeChars s.position 13 ++ Base36.encodeChars s.serial suffixDigits =
      Base36.encodeChars s'.position 13 ++ Base36.encodeChars s'.serial suffixDigits := by
    have hid : idText suffixDigits s.position s.serial =
        idText suffixDigits s'.position s'.serial := h.text.symm.trans h'.text
    have := congrArg String.toList hid
    rw [toList_idText, toList_idText] at this
    exact this
  have hlength : (Base36.encodeChars s.position 13).length =
      (Base36.encodeChars s'.position 13).length := by
    rw [Base36.length_encodeChars, Base36.length_encodeChars]
  obtain ⟨hposition, hserial⟩ := List.append_inj hchars hlength
  cases s
  cases s'
  rw [Segment.mk.injEq]
  exact ⟨Base36.encodeChars_injOn h.position_lt h'.position_lt hposition,
    Base36.encodeChars_injOn h.serial_lt h'.serial_lt hserial⟩

/-- **What a text of the right shape reads as**: it writes a segment, or the number in its suffix of
thirteen digits has more than 64 bits. -/
theorem parse_of_shaped {suffixDigits : Nat} {id : String} (hwidth : suffixDigits ≤ 13)
    (hshape : Shaped suffixDigits id) :
    (∃ s : Segment, s.Writes suffixDigits id) ∨
      suffixDigits = 13 ∧ parse id suffixDigits =
        .error (.invalidArgument (.numeralTooLarge (String.ofList (id.toList.drop 13)))) := by
  obtain ⟨s, hposition, hserial, rfl⟩ := exists_segment_of_shaped hwidth hshape
  by_cases hword : s.serial < 2 ^ 64
  · exact .inl ⟨s, hposition, hserial, hword, rfl⟩
  · right
    have hle : 2 ^ 64 ≤ s.serial := Nat.le_of_not_lt hword
    have hsuffix : (idText suffixDigits s.position s.serial).toList.drop 13 =
        Base36.encodeChars s.serial suffixDigits := by
      rw [toList_idText]
      exact List.drop_left' (Base36.length_encodeChars _ _)
    refine ⟨eq_thirteen_of_le_serial hwidth hserial hle, ?_⟩
    rw [hsuffix]
    exact parse_idText_of_le_serial hwidth hposition hserial hle

/-- A text is accepted exactly if it writes a segment with a suffix of at most thirteen digits. -/
theorem exists_parse_iff {id : String} {suffixDigits : Nat} :
    (∃ parsed, parse id suffixDigits = .ok parsed) ↔
      suffixDigits ≤ 13 ∧ ∃ s : Segment, s.Writes suffixDigits id := by
  constructor
  · rintro ⟨parsed, hparse⟩
    by_cases hwidth : suffixDigits ≤ 13
    · refine ⟨hwidth, ?_⟩
      by_cases hshape : Shaped suffixDigits id
      · rcases parse_of_shaped hwidth hshape with hwrites | ⟨-, herror⟩
        · exact hwrites
        · rw [herror] at hparse
          cases hparse
      · rw [parse_of_not_shaped hwidth hshape] at hparse
        cases hparse
    · rw [parse_of_wide hwidth] at hparse
      cases hparse
  · rintro ⟨hwidth, s, hs⟩
    exact ⟨_, hs.parse_eq hwidth⟩

theorem isValid_iff {id : String} {suffixDigits : Nat} :
    isValid id suffixDigits = true ↔ ∃ parsed, parse id suffixDigits = .ok parsed := by
  unfold isValid
  cases parse id suffixDigits with
  | ok parsed => exact ⟨fun _ => ⟨parsed, rfl⟩, fun _ => rfl⟩
  | error e => exact ⟨fun h => (nomatch h), fun ⟨_, h⟩ => (nomatch h)⟩

/-- A refused text is malformed, exactly if it has the wrong shape, or its suffix is out of range. -/
theorem parse_eq_error {id : String} {suffixDigits : Nat} (hwidth : suffixDigits ≤ 13) {e : IdError}
    (h : parse id suffixDigits = .error e) :
    (e = .invalidArgument (.malformedId id) ∧ ¬ Shaped suffixDigits id) ∨
      (e = .invalidArgument (.numeralTooLarge (String.ofList (id.toList.drop 13))) ∧
        Shaped suffixDigits id ∧ suffixDigits = 13) := by
  by_cases hshape : Shaped suffixDigits id
  · rcases parse_of_shaped hwidth hshape with ⟨s, hs⟩ | ⟨hthirteen, herror⟩
    · rw [hs.parse_eq hwidth] at h
      cases h
    · rw [herror] at h
      cases h
      exact .inr ⟨rfl, hshape, hthirteen⟩
  · rw [parse_of_not_shaped hwidth hshape] at h
    cases h
    exact .inl ⟨rfl, hshape⟩

/-- **The texts that `parse` accepts.** With a suffix of at most thirteen digits they are the texts
that write a segment; the segment is the only one that the text writes, and its position, folded onto
the ring, and its serial number are the result. Of the others a text is malformed if it is not of
thirteen digits and the suffix, digits and lower-case letters alone; and if it is, then its suffix of
thirteen digits is out of range. -/
theorem parse_accepts_written (id : String) (suffixDigits : Nat) :
    ((∃ parsed, parse id suffixDigits = .ok parsed) ↔
      suffixDigits ≤ 13 ∧ ∃ s : Segment, s.Writes suffixDigits id) ∧
    (isValid id suffixDigits = true ↔
      suffixDigits ≤ 13 ∧ ∃ s : Segment, s.Writes suffixDigits id) ∧
    (∀ parsed, parse id suffixDigits = .ok parsed →
      ∃ s : Segment, s.Writes suffixDigits id ∧ (∀ s', s'.Writes suffixDigits id → s' = s) ∧
        parsed.raw = id ∧ parsed.elapsed.toNat = s.position % 2 ^ 64 ∧
        parsed.serial.toNat = s.serial) ∧
    (suffixDigits ≤ 13 →
      (parse id suffixDigits = .error (.invalidArgument (.malformedId id)) ↔
        ¬ Shaped suffixDigits id) ∧
      ∀ e, parse id suffixDigits = .error e → Shaped suffixDigits id → suffixDigits = 13 ∧
        e = .invalidArgument (.numeralTooLarge (String.ofList (id.toList.drop 13)))) := by
  refine ⟨exists_parse_iff, isValid_iff.trans exists_parse_iff, ?_, ?_⟩
  · intro parsed hparse
    obtain ⟨hwidth, s, hs⟩ := exists_parse_iff.1 ⟨parsed, hparse⟩
    rw [hs.parse_eq hwidth] at hparse
    cases hparse
    refine ⟨s, hs, fun s' hs' => hs'.unique hs, rfl, UInt64.toNat_ofNat', ?_⟩
    show (UInt64.ofNat s.serial).toNat = s.serial
    rw [UInt64.toNat_ofNat', Nat.mod_eq_of_lt hs.serial_lt_word]
  · intro hwidth
    refine ⟨⟨?_, parse_of_not_shaped hwidth⟩, ?_⟩
    · intro hmalformed
      rcases parse_eq_error hwidth hmalformed with ⟨-, hshape⟩ | ⟨hrange, -⟩
      · exact hshape
      · cases hrange
    · intro e herror hshape
      rcases parse_eq_error hwidth herror with ⟨-, hnot⟩ | ⟨hrange, -, hthirteen⟩
      · exact absurd hshape hnot
      · exact ⟨hthirteen, hrange⟩

/-- A time segment nine laps past the ring; a letter in upper case; and thirteen digits of suffix
that hold more than 64 bits. -/
theorem parse_accepts_written_past_the_ring :
    parse "zzzzzzzzzzzzz0z" 2 = .ok ⟨"zzzzzzzzzzzzz0z", 4561031516192243711, 35⟩ ∧
    (∃ s : Segment, s.Writes 2 "zzzzzzzzzzzzz0z" ∧ s.position % 2 ^ 64 = 4561031516192243711 ∧
      s.serial = 35) ∧
    ¬ Shaped 2 "zzzzzzzzzzzzz0Z" ∧
    parse "zzzzzzzzzzzzz0Z" 2 = .error (.invalidArgument (.malformedId "zzzzzzzzzzzzz0Z")) ∧
    ∃ e, parse "zzzzzzzzzzzzzzzzzzzzzzzzzz" 13 = .error e ∧
      Shaped 13 "zzzzzzzzzzzzzzzzzzzzzzzzzz" ∧
      e = .invalidArgument (.numeralTooLarge
        (String.ofList ("zzzzzzzzzzzzzzzzzzzzzzzzzz".toList.drop 13))) := by
  have hread : parse "zzzzzzzzzzzzz0z" 2 =
      .ok ⟨"zzzzzzzzzzzzz0z", 4561031516192243711, 35⟩ := by rfl
  have hrange : parse "zzzzzzzzzzzzzzzzzzzzzzzzzz" 13 =
      .error (.invalidArgument (.numeralTooLarge "zzzzzzzzzzzzz")) := by rfl
  have hmixed : ¬ Shaped 2 "zzzzzzzzzzzzz0Z" := fun h =>
    absurd (List.all_eq_true.2 h.2) (by decide)
  have hshape : Shaped 13 "zzzzzzzzzzzzzzzzzzzzzzzzzz" :=
    ⟨rfl, List.all_eq_true.1 rfl⟩
  obtain ⟨-, -, hresult, -⟩ := parse_accepts_written "zzzzzzzzzzzzz0z" 2
  obtain ⟨-, -, -, hupper⟩ := parse_accepts_written "zzzzzzzzzzzzz0Z" 2
  obtain ⟨-, -, -, hlarge⟩ := parse_accepts_written "zzzzzzzzzzzzzzzzzzzzzzzzzz" 13
  obtain ⟨s, hs, -, -, hposition, hserial⟩ := hresult _ hread
  exact ⟨hread, ⟨s, hs, hposition.symm, hserial.symm⟩, hmixed, (hupper (by decide)).1.2 hmixed, _,
    hrange, hshape, ((hlarge (by decide)).2 _ hrange hshape).2⟩

end TimeIds.Alphanumeric
