import Mathlib.Data.List.Induction
import Mathlib.Data.Nat.Digits.Defs
import TimeIds.Proofs.Base36.Inverse

/-!
# Which numerals read

A text reads if it is made of digits and its value fits, and that is said here without the reader:
the digits are the letters and figures of ASCII, and the value is the sum of their places in the
alphabet by powers of 36. A part of a readable text from the left is readable, so a text that does
not read has a shortest part that does not, and its last character decides the fault.

* **`digitValue?_eq`** – what the digits are;
* **`readDigits_spec`** – where the reader stops;
* **`decode_eq_ok_iff`**, **`decode_eq_error_iff`** – the outcomes of reading, and of reading words
  in **`decodeWord_eq_ok_iff`**, **`decodeWord_eq_error_iff`**;
* **`reading_outcomes`** – all of them.
-/

namespace TimeIds.Base36

/-! ## Digits and values -/

/-- The digits in ascending order. -/
def alphabet : List Char := "0123456789abcdefghijklmnopqrstuvwxyz".toList

/-- The place of a digit in the alphabet, whatever its case. -/
def weight (c : Char) : Nat := alphabet.idxOf c.toLower

/-- The value of a text of digits, the last of which counts ones. -/
def valueOf (cs : List Char) : Nat := Nat.ofDigits 36 (cs.reverse.map weight)

/-- Digits whose value lies below a bound. -/
structure Readable (bound : Nat) (cs : List Char) : Prop where
  digits : ∀ c ∈ cs, c.isAlphanum = true
  fits : valueOf cs < bound

theorem toNat_lt_of_isAlphanum {c : Char} (h : c.isAlphanum = true) : c.toNat < 128 := by
  rcases Bool.or_eq_true_iff.1 h with hletter | hdigit
  · rcases Bool.or_eq_true_iff.1 hletter with hupper | hlower
    · have hlast : c ≤ 'Z' := (of_decide_eq_true hupper).2
      exact toNat_lt_of_le hlast (by decide)
    · have hlast : c ≤ 'z' := of_decide_eq_true (Bool.and_eq_true_iff.1 hlower).2
      exact toNat_lt_of_le hlast (by decide)
  · have hlast : c ≤ '9' := of_decide_eq_true (Bool.and_eq_true_iff.1 hdigit).2
    exact toNat_lt_of_le hlast (by decide)

/-- The digits are the letters and figures of ASCII, and count as their place in the alphabet. -/
theorem digitValue?_eq (c : Char) :
    digitValue? c = if c.isAlphanum then some (weight c) else none := by
  by_cases hascii : c.toNat < 128
  · exact forall_ascii (fun c => digitValue? c = if c.isAlphanum then some (weight c) else none)
      (by decide +kernel) hascii
  · have hnone : digitValue? c = none := by
      cases hdigit : digitValue? c with
      | none => rfl
      | some d => exact absurd (toNat_lt_of_digitValue? hdigit) hascii
    rw [hnone, if_neg fun h => hascii (toNat_lt_of_isAlphanum h)]

theorem isAlphanum_of_isSome {c : Char} (h : (digitValue? c).isSome) : c.isAlphanum = true := by
  rw [digitValue?_eq] at h
  split at h
  · assumption
  · cases h

theorem valueOf_nil : valueOf [] = 0 := rfl

/-- One digit more at the end shifts the others. -/
theorem valueOf_concat (cs : List Char) (c : Char) :
    valueOf (cs ++ [c]) = 36 * valueOf cs + weight c := by
  unfold valueOf
  rw [List.reverse_append, List.reverse_singleton, List.singleton_append, List.map_cons,
    Nat.ofDigits_cons, Nat.add_comm]

example : valueOf "3W5e11264sgsg".toList = 2 ^ 64 := by decide +kernel

theorem valueOf_le_append (cs more : List Char) : valueOf cs ≤ valueOf (cs ++ more) := by
  induction more using List.reverseRecOn with
  | nil => rw [List.append_nil]
  | append_singleton more c ih =>
    rw [← List.append_assoc, valueOf_concat]
    omega

theorem weight_lt {c : Char} (h : c.isAlphanum = true) : weight c < 36 := by
  have hdigit := digitValue?_eq c
  rw [if_pos h] at hdigit
  exact (digit_of_digitValue? hdigit).1

/-- A value is bounded by the number of its digits. -/
theorem valueOf_lt {cs : List Char} (h : ∀ c ∈ cs, c.isAlphanum = true) :
    valueOf cs < 36 ^ cs.length := by
  have hdigits : ∀ d ∈ cs.reverse.map weight, d < 36 := by
    intro d hd
    obtain ⟨c, hc, rfl⟩ := List.mem_map.1 hd
    exact weight_lt (h c (List.mem_reverse.1 hc))
  have hlt := Nat.ofDigits_lt_base_pow_length (by decide) hdigits
  rwa [List.length_map, List.length_reverse] at hlt

/-! ### Letter case -/

theorem isAlphanum_toLower (c : Char) : c.toLower.isAlphanum = c.isAlphanum := by
  by_cases hascii : c.toNat < 128
  · exact forall_ascii (fun c => c.toLower.isAlphanum = c.isAlphanum) (by decide +kernel) hascii
  · have hupper : ¬ (c.val ≥ 'A'.val ∧ c.val ≤ 'Z'.val) := fun h =>
      hascii (toNat_lt_of_le (Char.le_def.2 h.2) (by decide))
    have hlower : c.toLower = c := dif_neg hupper
    rw [hlower]

/-- The value does not depend on the case of the letters. -/
theorem valueOf_congr {cs cs' : List Char} (h : cs.map Char.toLower = cs'.map Char.toLower) :
    valueOf cs = valueOf cs' := by
  have hweights (l : List Char) :
      l.reverse.map weight = ((l.map Char.toLower).map (alphabet.idxOf ·)).reverse := by
    rw [List.map_reverse, List.map_map]
    rfl
  unfold valueOf
  rw [hweights, h, ← hweights]

/-! ## Readable parts of a text -/

theorem readable_nil {bound : Nat} (h : 0 < bound) : Readable bound [] := ⟨by simp, h⟩

/-- What stands at the beginning of a readable text is readable. -/
theorem Readable.of_append {bound : Nat} {cs more : List Char} (h : Readable bound (cs ++ more)) :
    Readable bound cs :=
  ⟨fun c hc => h.digits c (List.mem_append_left _ hc),
    Nat.lt_of_le_of_lt (valueOf_le_append cs more) h.fits⟩

/-- A readable text stays readable with one digit more, if the value still fits. -/
theorem Readable.concat {bound : Nat} {cs : List Char} {c : Char} (h : Readable bound cs)
    (hc : c.isAlphanum = true) (hfits : valueOf (cs ++ [c]) < bound) :
    Readable bound (cs ++ [c]) := by
  refine ⟨fun x hx => ?_, hfits⟩
  rcases List.mem_append.1 hx with hx | hx
  · exact h.digits x hx
  · rwa [List.mem_singleton.1 hx]

/-- Where a text stops being readable: after digits whose value fits. -/
structure StopsAt (bound : Nat) (cs before : List Char) (c : Char) : Prop where
  split : ∃ after, cs = before ++ c :: after
  readable : Readable bound before
  stops : ¬Readable bound (before ++ [c])

theorem StopsAt.not_readable {bound : Nat} {cs before : List Char} {c : Char}
    (h : StopsAt bound cs before c) : ¬Readable bound cs := by
  obtain ⟨after, rfl⟩ := h.split
  intro hcs
  rw [List.append_cons before c after] at hcs
  exact h.stops hcs.of_append

/-- A text stops being readable at one place. -/
theorem StopsAt.unique {bound : Nat} {cs before before' : List Char} {c c' : Char}
    (h : StopsAt bound cs before c) (h' : StopsAt bound cs before' c') :
    before = before' ∧ c = c' := by
  obtain ⟨after, hsplit⟩ := h.split
  obtain ⟨after', hsplit'⟩ := h'.split
  -- a part that is readable is no longer than the part before the other place
  have hshort {u v : List Char} {x : Char} {w w' : List Char} (hcut : u ++ x :: w = v ++ w')
      (hstops : ¬Readable bound (u ++ [x])) (hv : Readable bound v) : v.length ≤ u.length := by
    by_contra hlong
    have hpart : u ++ [x] <+: v ++ w' := ⟨w, by rw [← hcut, ← List.append_cons]⟩
    have hlength : (u ++ [x]).length ≤ v.length := by
      rw [List.length_append, List.length_singleton]
      omega
    obtain ⟨more, rfl⟩ := List.prefix_of_prefix_length_le hpart (List.prefix_append v w') hlength
    exact hstops hv.of_append
  have hcuts : before ++ c :: after = before' ++ c' :: after' := hsplit.symm.trans hsplit'
  have hlength : before.length = before'.length :=
    Nat.le_antisymm (hshort hcuts.symm h'.stops h.readable) (hshort hcuts h.stops h'.readable)
  obtain ⟨hbefore, hrest⟩ := List.append_inj hcuts hlength
  exact ⟨hbefore, (List.cons.inj hrest).1⟩

/-! ## The reader -/

/-- The fault of a text that stops being readable at a character. -/
def faultAt (numeral : String) (c : Char) : ArgumentFault :=
  if c.isAlphanum then .numeralTooLarge numeral else .badDigit c

/-- **Where the reader stops.** It has read digits whose value fits, and reads on for as long as
that stays so. Induction on what is left to read. -/
theorem readDigits_spec (numeral : String) {before : List Char}
    (hbefore : Readable (2 ^ 128) before) (rest : List Char) :
    match readDigits numeral (valueOf before) rest with
    | .ok value => Readable (2 ^ 128) (before ++ rest) ∧ value = valueOf (before ++ rest)
    | .error fault => ∃ digits c,
        StopsAt (2 ^ 128) (before ++ rest) digits c ∧ fault = faultAt numeral c := by
  induction rest generalizing before with
  | nil =>
    rw [readDigits, List.append_nil]
    exact ⟨hbefore, rfl⟩
  | cons c rest ih =>
    have hsplit : ∃ after, before ++ c :: rest = before ++ c :: after := ⟨rest, rfl⟩
    rw [readDigits, digitValue?_eq]
    by_cases hc : c.isAlphanum
    · rw [if_pos hc]
      dsimp only
      rw [← valueOf_concat]
      -- one digit more is read if the value with it still fits
      by_cases hfits : valueOf (before ++ [c]) < 2 ^ 128
      · rw [if_pos hfits, List.append_cons before c rest]
        exact ih (hbefore.concat hc hfits)
      · rw [if_neg hfits]
        exact ⟨before, c, ⟨hsplit, hbefore, fun h => hfits h.fits⟩, (if_pos hc).symm⟩
    · rw [if_neg hc]
      have hstops : ¬Readable (2 ^ 128) (before ++ [c]) := fun h => hc (h.digits c (by simp))
      exact ⟨before, c, ⟨hsplit, hbefore, hstops⟩, (if_neg hc).symm⟩

/-! ## Outcomes -/

/-- What becomes of a text, said without the reader. -/
inductive Outcome (numeral : String) : Except ArgumentFault Nat → Prop
  | empty (h : numeral = "") : Outcome numeral (.error .emptyNumeral)
  | read (hne : numeral ≠ "") (h : Readable (2 ^ 128) numeral.toList) :
      Outcome numeral (.ok (valueOf numeral.toList))
  | stopped {before : List Char} {c : Char} (h : StopsAt (2 ^ 128) numeral.toList before c) :
      Outcome numeral (.error (faultAt numeral c))

theorem StopsAt.ne_empty {bound : Nat} {numeral : String} {before : List Char} {c : Char}
    (h : StopsAt bound numeral.toList before c) : numeral ≠ "" := by
  rintro rfl
  obtain ⟨after, hsplit⟩ := h.split
  simp at hsplit

/-- A text has one outcome: the three cases exclude each other, and within each the outcome is
settled. -/
theorem Outcome.unique {numeral : String} {outcome outcome' : Except ArgumentFault Nat}
    (h : Outcome numeral outcome) (h' : Outcome numeral outcome') : outcome = outcome' := by
  cases h with
  | empty h =>
    cases h' with
    | empty => rfl
    | read hne => exact absurd h hne
    | stopped hstops => exact absurd h hstops.ne_empty
  | read hne h =>
    cases h' with
    | empty h' => exact absurd h' hne
    | read => rfl
    | stopped hstops => exact absurd h hstops.not_readable
  | stopped hstops =>
    cases h' with
    | empty h' => exact absurd h' hstops.ne_empty
    | read _ h' => exact absurd h' hstops.not_readable
    | stopped hstops' => rw [(hstops.unique hstops').2]

/-- What the reader says is an outcome of the text. -/
theorem outcome_decode (numeral : String) : Outcome numeral (decode numeral) := by
  have hspec := readDigits_spec numeral (readable_nil (by decide : 0 < 2 ^ 128)) numeral.toList
  rw [valueOf_nil, List.nil_append] at hspec
  unfold decode
  split
  · next hnil => exact .empty (String.toList_injective hnil)
  · next hne =>
    cases hread : readDigits numeral 0 numeral.toList with
    | ok value =>
      rw [hread] at hspec
      obtain ⟨hreadable, rfl⟩ := hspec
      exact .read (fun h => hne (by rw [h]; rfl)) hreadable
    | error fault =>
      rw [hread] at hspec
      obtain ⟨before, c, hstops, rfl⟩ := hspec
      exact .stopped hstops

/-- The reader gives the outcome of the text, which has only one. -/
theorem decode_eq_iff {numeral : String} {outcome : Except ArgumentFault Nat} :
    decode numeral = outcome ↔ Outcome numeral outcome :=
  ⟨fun h => h ▸ outcome_decode numeral, (outcome_decode numeral).unique⟩

/-! ### Values -/

variable {numeral : String} {value : Nat} {fault : ArgumentFault}

/-- A text reads if and only if it is made of digits, at least one, and its value is below
`2 ^ 128`. -/
theorem decode_eq_ok_iff :
    decode numeral = .ok value ↔
      numeral ≠ "" ∧ (∀ c ∈ numeral.toList, c.isAlphanum = true) ∧
        value = valueOf numeral.toList ∧ value < 2 ^ 128 := by
  rw [decode_eq_iff]
  constructor
  · intro h
    cases h with
    | read hne hreadable => exact ⟨hne, hreadable.digits, rfl, hreadable.fits⟩
  · rintro ⟨hne, hdigits, rfl, hfits⟩
    exact .read hne ⟨hdigits, hfits⟩

/-- Digits that are few enough always read. -/
theorem exists_decode (hne : numeral ≠ "") (hdigits : ∀ c ∈ numeral.toList, c.isAlphanum = true)
    (hroom : 36 ^ numeral.length ≤ 2 ^ 128) : ∃ value, decode numeral = .ok value := by
  have hlt := valueOf_lt hdigits
  rw [String.length_toList] at hlt
  exact ⟨_, decode_eq_ok_iff.2 ⟨hne, hdigits, rfl, Nat.lt_of_lt_of_le hlt hroom⟩⟩

/-- Texts that differ in letter case alone read alike. -/
theorem decode_congr {cs cs' : List Char} (h : cs.map Char.toLower = cs'.map Char.toLower)
    (hread : decode (String.ofList cs) = .ok value) : decode (String.ofList cs') = .ok value := by
  rw [decode_eq_ok_iff, String.toList_ofList] at hread ⊢
  obtain ⟨hne, hdigits, hvalue, hfits⟩ := hread
  refine ⟨?_, ?_, ?_, hfits⟩
  · intro hempty
    apply hne
    have hnil : cs' = [] := by simpa using congrArg String.toList hempty
    rw [hnil, List.map_nil, List.map_eq_nil_iff] at h
    rw [h, ← hempty, hnil]
  · intro c' hc'
    have hmem : c'.toLower ∈ cs.map Char.toLower := h ▸ List.mem_map_of_mem hc'
    obtain ⟨c, hc, hlower⟩ := List.mem_map.1 hmem
    rw [← isAlphanum_toLower, ← hlower, isAlphanum_toLower]
    exact hdigits c hc
  · rw [hvalue, valueOf_congr h]

/-- A word reads as any numeral does, if its value is one of 64 bits. -/
theorem decodeWord_eq_ok_iff :
    decodeWord numeral = .ok value ↔ decode numeral = .ok value ∧ value < 2 ^ 64 := by
  unfold decodeWord
  cases decode numeral with
  | error fault => simp
  | ok found =>
    dsimp only
    split
    · next hfits =>
      refine ⟨fun h => ?_, And.left⟩
      cases h
      exact ⟨rfl, hfits⟩
    · next hlarge =>
      refine ⟨nofun, fun ⟨h, hfits⟩ => ?_⟩
      cases h
      exact absurd hfits hlarge

/-! ### Faults -/

/-- A readable text stops being readable at a character that is no digit or takes the value out of
bounds. -/
theorem stops_iff {before : List Char} {c : Char} (hbefore : Readable (2 ^ 128) before) :
    (¬Readable (2 ^ 128) (before ++ [c]) ∧ fault = faultAt numeral c) ↔
      c.isAlphanum = false ∧ fault = .badDigit c ∨
        c.isAlphanum = true ∧ 2 ^ 128 ≤ valueOf (before ++ [c]) ∧
          fault = .numeralTooLarge numeral := by
  have hreadable : Readable (2 ^ 128) (before ++ [c]) ↔
      c.isAlphanum = true ∧ valueOf (before ++ [c]) < 2 ^ 128 :=
    ⟨fun h => ⟨h.digits c (by simp), h.fits⟩, fun h => hbefore.concat h.1 h.2⟩
  unfold faultAt
  rw [hreadable]
  cases c.isAlphanum <;> simp

/-- A text that does not read is empty, or stops being readable at a character that decides the
fault. -/
theorem decode_eq_error_iff :
    decode numeral = .error fault ↔
      numeral = "" ∧ fault = .emptyNumeral ∨
        ∃ before c after, numeral.toList = before ++ c :: after ∧ Readable (2 ^ 128) before ∧
          (c.isAlphanum = false ∧ fault = .badDigit c ∨
            c.isAlphanum = true ∧ 2 ^ 128 ≤ valueOf (before ++ [c]) ∧
              fault = .numeralTooLarge numeral) := by
  rw [decode_eq_iff]
  constructor
  · intro h
    cases h with
    | empty h => exact .inl ⟨h, rfl⟩
    | @stopped before c h =>
      obtain ⟨after, hsplit⟩ := h.split
      exact .inr ⟨before, c, after, hsplit, h.readable, (stops_iff h.readable).1 ⟨h.stops, rfl⟩⟩
  · rintro (⟨h, rfl⟩ | ⟨before, c, after, hsplit, hbefore, hfault⟩)
    · exact .empty h
    · obtain ⟨hstops, rfl⟩ := (stops_iff hbefore).2 hfault
      exact .stopped ⟨⟨after, hsplit⟩, hbefore, hstops⟩

/-- Where a word is wanted, a value past 64 bits is a fault as well. -/
theorem decodeWord_eq_error_iff :
    decodeWord numeral = .error fault ↔
      decode numeral = .error fault ∨
        ∃ value, decode numeral = .ok value ∧ 2 ^ 64 ≤ value ∧
          fault = .numeralTooLarge numeral := by
  unfold decodeWord
  cases decode numeral with
  | error found => simp
  | ok value =>
    dsimp only
    split
    · next hfits => simp [hfits]
    · next hlarge => simp [Nat.not_lt.1 hlarge, eq_comm]

/-- **What becomes of a text.** It reads if and only if it has digits and nothing else, in either
case, and its value is below `2 ^ 128`, or `2 ^ 64` where a word is wanted; and it reads as that
value. Otherwise it is empty, or its shortest part that does not read ends in the character that
decides: one that is no digit is named, and one that takes the value to `2 ^ 128` makes the whole
text too large. That a value is no word is seen only when the whole text has been read. -/
theorem reading_outcomes (numeral : String) :
    (∀ value, decode numeral = .ok value ↔
      numeral ≠ "" ∧ (∀ c ∈ numeral.toList, c.isAlphanum = true) ∧
        value = valueOf numeral.toList ∧ value < 2 ^ 128) ∧
    (∀ value, decodeWord numeral = .ok value ↔
      numeral ≠ "" ∧ (∀ c ∈ numeral.toList, c.isAlphanum = true) ∧
        value = valueOf numeral.toList ∧ value < 2 ^ 64) ∧
    (∀ fault, decode numeral = .error fault ↔
      numeral = "" ∧ fault = .emptyNumeral ∨
        ∃ before c after, numeral.toList = before ++ c :: after ∧ Readable (2 ^ 128) before ∧
          (c.isAlphanum = false ∧ fault = .badDigit c ∨
            c.isAlphanum = true ∧ 2 ^ 128 ≤ valueOf (before ++ [c]) ∧
              fault = .numeralTooLarge numeral)) ∧
    ∀ fault, decodeWord numeral = .error fault ↔
      decode numeral = .error fault ∨
        ∃ value, decode numeral = .ok value ∧ 2 ^ 64 ≤ value ∧
          fault = .numeralTooLarge numeral := by
  refine ⟨fun value => decode_eq_ok_iff, fun value => ?_, fun fault => decode_eq_error_iff,
    fun fault => decodeWord_eq_error_iff⟩
  rw [decodeWord_eq_ok_iff, decode_eq_ok_iff]
  constructor
  · rintro ⟨⟨hne, hdigits, hvalue, -⟩, hword⟩
    exact ⟨hne, hdigits, hvalue, hword⟩
  · rintro ⟨hne, hdigits, hvalue, hword⟩
    exact ⟨⟨hne, hdigits, hvalue, by omega⟩, hword⟩

end TimeIds.Base36
