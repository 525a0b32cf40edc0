import Mathlib.Tactic.Tauto
import TimeIds.Base36.Basic

/-!
# The order of base-36 numerals

Numerals of one width compare as texts the way their values compare as numbers. The digits ascend
with their values, so the first place where two numerals differ decides both comparisons.

* **`append_lt_append_iff`** – texts whose first parts have one length compare part by part;
* **`encodeChars_lt_iff`** – the order of the values is the order of the numerals;
* **`encodeChars_injOn`** – values that fit the width have different numerals.
-/

namespace TimeIds.Base36

/-! ## Comparing texts part by part -/

/-- Where the first parts have one length, they are compared first, and the second parts decide only
between equal first parts. Induction on the first parts. -/
theorem append_lt_append_iff {u v x y : List Char} (hlen : u.length = v.length) :
    u ++ x < v ++ y ↔ u < v ∨ u = v ∧ x < y := by
  induction u generalizing v with
  | nil =>
    have hv : v = [] := List.length_eq_zero_iff.1 hlen.symm
    subst hv
    simp
  | cons c u ih =>
    cases v with
    | nil => simp at hlen
    | cons d v =>
      have hlen' : u.length = v.length := by simpa using hlen
      rw [List.cons_append, List.cons_append, List.cons_lt_cons_iff, List.cons_lt_cons_iff,
        ih hlen', List.cons.injEq]
      tauto

/-! ## Digits -/

/-- The digits ascend with their values. -/
theorem digit_lt_digit_iff {a b : Nat} (ha : a < 36) (hb : b < 36) :
    digit a < digit b ↔ a < b := by
  have key : ∀ a b : Fin 36, digit a.val < digit b.val ↔ a.val < b.val := by decide +kernel
  exact key ⟨a, ha⟩ ⟨b, hb⟩

/-! ## Numerals of one width -/

/-- Texts that compare like two numbers are equal only if the numbers are: neither text comes before
the other. -/
theorem eq_of_lt_iff_lt {u v : List Char} {a b : Nat} (hlt : u < v ↔ a < b) (hgt : v < u ↔ b < a)
    (heq : u = v) : a = b := by
  subst heq
  have hirr : ¬ u < u := List.lt_irrefl u
  have h1 : ¬ a < b := fun h => hirr (hlt.2 h)
  have h2 : ¬ b < a := fun h => hirr (hgt.2 h)
  omega

/-- The order of the values is the order of the numerals. The last digit is compared after all
others, so the induction on the width splits it off and leaves the quotients. -/
theorem encodeChars_lt_iff {a b width : Nat} (ha : a < 36 ^ width) (hb : b < 36 ^ width) :
    encodeChars a width < encodeChars b width ↔ a < b := by
  induction width generalizing a b with
  | zero =>
    rw [Nat.pow_zero] at ha hb
    have hab : a = b := by omega
    subst hab
    simp [encodeChars_zero]
  | succ w ih =>
    have ha' : a / 36 < 36 ^ w := by rw [Nat.pow_succ] at ha; omega
    have hb' : b / 36 < 36 ^ w := by rw [Nat.pow_succ] at hb; omega
    have hinj : encodeChars (a / 36) w = encodeChars (b / 36) w ↔ a / 36 = b / 36 :=
      ⟨eq_of_lt_iff_lt (ih ha' hb') (ih hb' ha'), fun h => by rw [h]⟩
    have hlast : [digit (a % 36)] < [digit (b % 36)] ↔ a % 36 < b % 36 := by
      rw [List.cons_lt_cons_iff,
        digit_lt_digit_iff (Nat.mod_lt _ (by decide)) (Nat.mod_lt _ (by decide))]
      simp
    rw [encodeChars_succ, encodeChars_succ,
      append_lt_append_iff (by rw [length_encodeChars, length_encodeChars]),
      ih ha' hb', hinj, hlast]
    omega

/-- Values that fit the width have different numerals. -/
theorem encodeChars_injOn {a b width : Nat} (ha : a < 36 ^ width) (hb : b < 36 ^ width)
    (h : encodeChars a width = encodeChars b width) : a = b :=
  eq_of_lt_iff_lt (encodeChars_lt_iff ha hb) (encodeChars_lt_iff hb ha) h

/-- Numerals of one width compare as texts the way their values do. -/
theorem encode_lt_iff {a b width : Nat} (ha : a < 36 ^ width) (hb : b < 36 ^ width) :
    encode a width < encode b width ↔ a < b := by
  have htoList : encode a width < encode b width ↔
      (encode a width).toList < (encode b width).toList := Iff.rfl
  rw [htoList, encode, encode, String.toList_ofList, String.toList_ofList]
  exact encodeChars_lt_iff ha hb

theorem encode_inj {a b width : Nat} (ha : a < 36 ^ width) (hb : b < 36 ^ width) :
    encode a width = encode b width ↔ a = b := by
  unfold encode
  rw [String.ofList_inj]
  exact ⟨encodeChars_injOn ha hb, fun h => by rw [h]⟩

end TimeIds.Base36
