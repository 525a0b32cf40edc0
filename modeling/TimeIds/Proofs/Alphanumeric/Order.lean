import Mathlib.Data.Prod.Lex
import TimeIds.Alphanumeric.Id
import TimeIds.Proofs.Base36.Order

/-!
# The order of identifiers

The text of an identifier is two numerals of fixed width, first the position in time and then the
serial number. Texts are compared from the left, so the positions decide, and the serial numbers
between equal positions: sorting texts sorts the pairs that they write.

* **`idText_lt_idText_iff`**, **`idText_inj`** – texts against positions and serial numbers;
* **`texts_in_order`** – numerals compare like their values, and identifiers like their pairs.
-/

namespace TimeIds.Alphanumeric

/-! ## The text of a segment -/

theorem toList_idText (suffixDigits position serial : Nat) :
    (idText suffixDigits position serial).toList =
      Base36.encodeChars position Base36.timeDigits ++ Base36.encodeChars serial suffixDigits := by
  simp [idText, Base36.encode]

/-- An identifier has thirteen digits of time and then its suffix. -/
theorem length_idText (suffixDigits position serial : Nat) :
    (idText suffixDigits position serial).length = Base36.timeDigits + suffixDigits := by
  rw [← String.length_toList, toList_idText, List.length_append, Base36.length_encodeChars,
    Base36.length_encodeChars]

theorem isIdChar_digit {d : Nat} (hd : d < 36) : isIdChar (Base36.digit d) = true := by
  have key : ∀ d : Fin 36, isIdChar (Base36.digit d.val) = true := by decide +kernel
  exact key ⟨d, hd⟩

theorem isIdChar_of_mem_encodeChars {value width : Nat} {c : Char}
    (hc : c ∈ Base36.encodeChars value width) : isIdChar c = true := by
  induction width generalizing value with
  | zero => simp [Base36.encodeChars_zero] at hc
  | succ w ih =>
    rw [Base36.encodeChars_succ, List.mem_append, List.mem_singleton] at hc
    rcases hc with hc | rfl
    · exact ih hc
    · exact isIdChar_digit (Nat.mod_lt _ (by decide))

/-- An identifier consists of lower-case base-36 digits. -/
theorem isIdChar_of_mem_idText {suffixDigits position serial : Nat} {c : Char}
    (hc : c ∈ (idText suffixDigits position serial).toList) : isIdChar c = true := by
  rw [toList_idText, List.mem_append] at hc
  rcases hc with hc | hc <;> exact isIdChar_of_mem_encodeChars hc

/-! ## Texts and pairs -/

section Pairs

variable {suffixDigits p p' c c' : Nat} (hp : p < 36 ^ Base36.timeDigits)
  (hp' : p' < 36 ^ Base36.timeDigits) (hc : c < 36 ^ suffixDigits) (hc' : c' < 36 ^ suffixDigits)
include hp hp' hc hc'

/-- The position is compared first, and the serial number where the positions are the same. -/
theorem idText_lt_idText_iff :
    idText suffixDigits p c < idText suffixDigits p' c' ↔ p < p' ∨ p = p' ∧ c < c' := by
  have htoList : idText suffixDigits p c < idText suffixDigits p' c' ↔
      (idText suffixDigits p c).toList < (idText suffixDigits p' c').toList := Iff.rfl
  have hposition : Base36.encodeChars p Base36.timeDigits =
      Base36.encodeChars p' Base36.timeDigits ↔ p = p' :=
    ⟨Base36.encodeChars_injOn hp hp', fun h => by rw [h]⟩
  rw [htoList, toList_idText, toList_idText,
    Base36.append_lt_append_iff (by rw [Base36.length_encodeChars, Base36.length_encodeChars]),
    Base36.encodeChars_lt_iff hp hp', Base36.encodeChars_lt_iff hc hc', hposition]

/-- Fixed widths keep the numerals apart, so equal texts write equal numbers. -/
theorem idText_inj :
    idText suffixDigits p c = idText suffixDigits p' c' ↔ p = p' ∧ c = c' := by
  constructor
  · intro h
    rw [← String.toList_inj, toList_idText, toList_idText] at h
    obtain ⟨hposition, hserial⟩ := List.append_inj h
      (by rw [Base36.length_encodeChars, Base36.length_encodeChars])
    exact ⟨Base36.encodeChars_injOn hp hp' hposition, Base36.encodeChars_injOn hc hc' hserial⟩
  · rintro ⟨rfl, rfl⟩
    rfl

end Pairs

/-- **Texts are in the order of what they write.** Of two numerals of one width the lexically
smaller text is that of the smaller value. So two identifiers with suffixes of one width compare as
texts the way their pairs of a position and a serial number compare as numbers, the position first,
and they are equal only if both numbers are. -/
theorem texts_in_order :
    (∀ width a b : Nat, a < 36 ^ width → b < 36 ^ width →
      (Base36.encode a width < Base36.encode b width ↔ a < b)) ∧
    ∀ suffixDigits p p' c c' : Nat, p < 36 ^ 13 → p' < 36 ^ 13 →
      c < 36 ^ suffixDigits → c' < 36 ^ suffixDigits →
        (idText suffixDigits p c < idText suffixDigits p' c' ↔ toLex (p, c) < toLex (p', c')) ∧
        (idText suffixDigits p c = idText suffixDigits p' c' ↔ (p, c) = (p', c')) := by
  refine ⟨fun width a b ha hb => Base36.encode_lt_iff ha hb, ?_⟩
  intro suffixDigits p p' c c' hp hp' hc hc'
  rw [Prod.Lex.toLex_lt_toLex, Prod.mk.injEq]
  exact ⟨idText_lt_idText_iff hp hp' hc hc', idText_inj hp hp' hc hc'⟩

/-- Values on either side of the sign of a word, and the last serial number of a lap of the ring
before the first one of the next lap. -/
theorem texts_in_order_across_a_lap :
    Base36.encode (2 ^ 63 - 1) 13 < Base36.encode (2 ^ 63) 13 ∧
      idText 13 (2 ^ 64 - 1) (36 ^ 13 - 1) < idText 13 (2 ^ 64) 0 ∧
      ¬idText 0 7 0 < idText 0 7 0 := by
  obtain ⟨hnumerals, hids⟩ := texts_in_order
  refine ⟨(hnumerals 13 _ _ (by decide) (by decide)).2 (by decide), ?_, ?_⟩
  · exact (hids 13 _ _ _ _ (by decide) (by decide) (by decide) (by decide)).1.2
      (Prod.Lex.toLex_lt_toLex.2 (.inl (by decide)))
  · rw [(hids 0 7 7 0 0 (by decide) (by decide) (by decide) (by decide)).1]
    exact lt_irrefl _

end TimeIds.Alphanumeric
