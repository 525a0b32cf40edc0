/-!
Hexadecimal digits of octets.

Reading takes either letter case and exactly two digits an octet; writing chooses one case and
always gives two digits.
-/
namespace TimeIds.Text

/-- The value of a hexadecimal digit of either case. -/
def hexValue? (c : Char) : Option Nat :=
  if '0' ≤ c ∧ c ≤ '9' then some (c.toNat - '0'.toNat)
  else if 'a' ≤ c ∧ c ≤ 'f' then some (c.toNat - 'a'.toNat + 10)
  else if 'A' ≤ c ∧ c ≤ 'F' then some (c.toNat - 'A'.toNat + 10)
  else none

/-- The digit of a value below sixteen, letters in upper case. -/
def hexUpper (d : Nat) : Char :=
  if d < 10 then Char.ofNat ('0'.toNat + d) else Char.ofNat ('A'.toNat + (d - 10))

/-- The digit of a value below sixteen, letters in lower case. -/
def hexLower (d : Nat) : Char :=
  if d < 10 then Char.ofNat ('0'.toNat + d) else Char.ofNat ('a'.toNat + (d - 10))

/-- The two digits of an octet, the high one first. -/
def octetDigits (digit : Nat → Char) (b : UInt8) : List Char :=
  [digit (b.toNat / 16), digit (b.toNat % 16)]

/-- The octet that two digits write. -/
def octet? (high low : Char) : Option UInt8 :=
  match hexValue? high, hexValue? low with
  | some h, some l => some (UInt8.ofNat (16 * h + l))
  | _, _ => none

/-- The digits of a value, without leading zeros, in lower case. -/
def hexNumeral (n : Nat) : List Char :=
  Nat.toDigits 16 n

/-- Writing an octet in upper case and reading it gives it back. -/
theorem octet?_upper (b : UInt8) :
    octet? (hexUpper (b.toNat / 16)) (hexUpper (b.toNat % 16)) = some b := by
  have key : ∀ n : Fin 256, octet? (hexUpper (n.val / 16)) (hexUpper (n.val % 16))
      = some (UInt8.ofNat n.val) := by decide +kernel
  simpa using key ⟨b.toNat, b.toNat_lt⟩

end TimeIds.Text
