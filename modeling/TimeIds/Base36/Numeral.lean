import TimeIds.Error

/-!
Reading base-36 numerals.

The digits are taken from the left; the first that is no digit, or the first that lifts the value
to `2 ^ 128`, ends the reading. `decode` admits values below `2 ^ 128`, `decodeWord` those below
`2 ^ 64`, and the latter bound is looked at only when the whole text has proved to be digits.
-/
namespace TimeIds.Base36

/-- Reads the digits of `numeral` that are left onto the value of those before them. -/
def readDigits (numeral : String) (value : Nat) : List Char → Except ArgumentFault Nat
  | [] => .ok value
  | c :: rest =>
    match digitValue? c with
    | none => .error (.badDigit c)
    | some d =>
      if 36 * value + d < 2 ^ 128 then readDigits numeral (36 * value + d) rest
      else .error (.numeralTooLarge numeral)

/-- The value of a numeral below `2 ^ 128`. -/
def decode (numeral : String) : Except ArgumentFault Nat :=
  match numeral.toList with
  | [] => .error .emptyNumeral
  | cs => readDigits numeral 0 cs

/-- The value of a numeral below `2 ^ 64`. -/
def decodeWord (numeral : String) : Except ArgumentFault Nat :=
  match decode numeral with
  | .error fault => .error fault
  | .ok value => if value < 2 ^ 64 then .ok value else .error (.numeralTooLarge numeral)

theorem readDigits_lt {numeral : String} {value n : Nat} {cs : List Char}
    (hvalue : value < 2 ^ 128) (h : readDigits numeral value cs = .ok n) : n < 2 ^ 128 := by
  fun_induction readDigits numeral value cs with
  | case1 value => cases h; exact hvalue
  | case2 => cases h
  | case3 value c rest d hd hlt ih => exact ih hlt h
  | case4 => cases h

/-- What reads is below `2 ^ 128`. -/
theorem decode_lt {numeral : String} {n : Nat} (h : decode numeral = .ok n) : n < 2 ^ 128 := by
  unfold decode at h
  split at h
  · cases h
  · exact readDigits_lt (by decide) h

end TimeIds.Base36
