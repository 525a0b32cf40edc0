import TimeIds.Instances

/-!
Base-36 numerals of a fixed width.

The digits are `0`–`9` and `a`–`z` in ascending order of their codes, so that of two numerals of one
width the smaller value is also the lexically smaller text. Main statements:

- `length_encode` – a numeral has exactly as many digits as its width;
- `encode_mod` – a width keeps the value modulo `36 ^ width`;
- `capacity_eq` – the largest value of a width, capped at the largest 64-bit word.
-/
namespace TimeIds.Base36

/-- Digits that write every 64-bit word; the width of a time segment. -/
def timeDigits : Nat := 13

/-- The digit of a value below thirty-six. -/
def digit (d : Nat) : Char :=
  if d < 10 then Char.ofNat ('0'.toNat + d) else Char.ofNat ('a'.toNat + (d - 10))

/-- The value of a digit, letters in either case. -/
def digitValue? (c : Char) : Option Nat :=
  if '0' ≤ c ∧ c ≤ '9' then some (c.toNat - '0'.toNat)
  else if 'a' ≤ c ∧ c ≤ 'z' then some (c.toNat - 'a'.toNat + 10)
  else if 'A' ≤ c ∧ c ≤ 'Z' then some (c.toNat - 'A'.toNat + 10)
  else none

/-- The last `width` digits of a value, put in front of other digits. -/
def digitsOnto : Nat → Nat → List Char → List Char
  | _, 0, after => after
  | value, width + 1, after => digitsOnto (value / 36) width (digit (value % 36) :: after)

/-- The last `width` digits of a value, the most significant first. -/
def encodeChars (value width : Nat) : List Char :=
  digitsOnto value width []

/-- The last `width` digits of a value as text; a shorter value is filled up with zeros. -/
def encode (value width : Nat) : String :=
  String.ofList (encodeChars value width)

/-- How many digits a value needs; zero needs one. -/
def digitCount (value : Nat) : Nat :=
  if value < 36 then 1 else digitCount (value / 36) + 1

/-- One less than a power of 36 raised by that many digits more, or the largest 64-bit word once the
power is no such word. -/
def capacityFrom (power : Nat) : Nat → Nat
  | 0 => power - 1
  | digits + 1 => if power * 36 < 2 ^ 64 then capacityFrom (power * 36) digits else 2 ^ 64 - 1

/-- The largest value of a numeral with that many digits, or the largest 64-bit word where the
numeral could hold more. -/
def capacity (digits : Nat) : Nat := capacityFrom 1 digits

theorem digitsOnto_eq_append (value width : Nat) (after : List Char) :
    digitsOnto value width after = encodeChars value width ++ after := by
  induction width generalizing value after with
  | zero => rfl
  | succ w ih =>
    unfold encodeChars
    rw [digitsOnto, digitsOnto, ih, ih _ [digit (value % 36)], List.append_assoc,
      List.singleton_append]

theorem encodeChars_zero (value : Nat) : encodeChars value 0 = [] := rfl

/-- One digit more stands at the end, and the digits before it are those of the quotient. -/
theorem encodeChars_succ (value width : Nat) :
    encodeChars value (width + 1) = encodeChars (value / 36) width ++ [digit (value % 36)] :=
  digitsOnto_eq_append (value / 36) width [digit (value % 36)]

theorem length_encodeChars (value width : Nat) : (encodeChars value width).length = width := by
  induction width generalizing value with
  | zero => rfl
  | succ w ih => simp [encodeChars_succ, ih]

/-- A numeral has exactly as many digits as its width. -/
theorem length_encode (value width : Nat) : (encode value width).length = width := by
  simp [encode, length_encodeChars]

theorem encodeChars_mod (value width : Nat) :
    encodeChars (value % 36 ^ width) width = encodeChars value width := by
  induction width generalizing value with
  | zero => rfl
  | succ w ih =>
    have low : value % 36 ^ (w + 1) % 36 = value % 36 :=
      Nat.mod_mod_of_dvd _ ⟨36 ^ w, by rw [Nat.pow_succ, Nat.mul_comm]⟩
    have high : value % 36 ^ (w + 1) / 36 = value / 36 % 36 ^ w := by
      rw [Nat.pow_succ, Nat.mul_comm, Nat.mod_mul_right_div_self]
    simp only [encodeChars_succ, low, high, ih]

/-- Digits above the width are dropped. -/
theorem encode_mod (value width : Nat) :
    encode (value % 36 ^ width) width = encode value width := by
  simp [encode, encodeChars_mod]

/-- Capping on the way comes to the same as capping at the end: a power past the largest word stays
past it, whatever digits follow. -/
theorem capacityFrom_eq {power : Nat} (hword : power < 2 ^ 64) (digits : Nat) :
    capacityFrom power digits = min (power * 36 ^ digits - 1) (2 ^ 64 - 1) := by
  induction digits generalizing power with
  | zero =>
    rw [capacityFrom, Nat.pow_zero, Nat.mul_one]
    omega
  | succ d ih =>
    have hshift : power * 36 ^ (d + 1) = power * 36 * 36 ^ d := by rw [Nat.pow_succ']; ac_rfl
    rw [capacityFrom, hshift]
    split
    · next hnext => exact ih hnext
    · have hpow : 0 < 36 ^ d := Nat.pow_pos (by decide)
      have hlarge : power * 36 ≤ power * 36 * 36 ^ d := Nat.le_mul_of_pos_right _ hpow
      omega

/-- The capacity of a width is its largest value, capped at the largest word. -/
theorem capacity_eq (digits : Nat) : capacity digits = min (36 ^ digits - 1) (2 ^ 64 - 1) := by
  unfold capacity
  rw [capacityFrom_eq (by decide), Nat.one_mul]

end TimeIds.Base36
