import TimeIds.Instances

/-!
Decimal numerals as users and documents write them.

A natural number is a run of ASCII digits with at most one `+` before it; an integer may carry `-`
instead. Leading zeros do not matter, nothing may stand around the digits, and a value that its
range does not hold is refused.
-/
namespace TimeIds.Text

/-- A value lengthened by a digit. -/
def appendDigit (n : Nat) (c : Char) : Nat := 10 * n + (c.toNat - '0'.toNat)

/-- The value of ASCII digits read onto `n`, as long as it stays below `bound`. -/
def digitsBelow? (bound : Nat) : Nat → List Char → Option Nat
  | n, [] => some n
  | n, c :: rest =>
    if c.isDigit ∧ appendDigit n c < bound then digitsBelow? bound (appendDigit n c) rest else none

/-- The value of a non-empty text of ASCII digits, if it is below `bound`. -/
def digits? (bound : Nat) (cs : List Char) : Option Nat :=
  if cs.isEmpty then none else digitsBelow? bound 0 cs

/-- A natural number below `bound`, written `[+]digits`. -/
def natural? (bound : Nat) (s : String) : Option Nat :=
  match s.toList with
  | '+' :: r => digits? bound r
  | r => digits? bound r

/-- A word of 64 bits, written `[+]digits`. -/
def word? (s : String) : Option UInt64 :=
  (natural? (2 ^ 64) s).map UInt64.ofNat

/-- A signed integer of 64 bits, written `[+|-]digits`. -/
def integer? (s : String) : Option Int64 :=
  match s.toList with
  | '-' :: r => (digits? (2 ^ 63 + 1) r).map fun n : Nat => Int64.ofInt (-n)
  | '+' :: r => (digits? (2 ^ 63) r).map fun n : Nat => Int64.ofInt n
  | r => (digits? (2 ^ 63) r).map fun n : Nat => Int64.ofInt n

theorem digitsBelow?_lt {bound n m : Nat} {cs : List Char} (hn : n < bound)
    (h : digitsBelow? bound n cs = some m) : m < bound := by
  fun_induction digitsBelow? bound n cs with
  | case1 n => cases h; exact hn
  | case2 n c rest hc ih => exact ih hc.2 h
  | case3 => cases h

theorem digits?_lt {bound m : Nat} {cs : List Char} (h : digits? bound cs = some m) :
    m < bound := by
  cases cs with
  | nil => cases h
  | cons c rest =>
    simp only [digits?, List.isEmpty_cons, Bool.false_eq_true, if_false, digitsBelow?] at h
    split at h
    · next hc => exact digitsBelow?_lt hc.2 h
    · cases h

end TimeIds.Text
