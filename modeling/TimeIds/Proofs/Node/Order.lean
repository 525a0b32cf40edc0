import Mathlib.Data.String.Basic
import TimeIds.Node.Id
import TimeIds.Proofs.Base36.Order

/-!
# The order of node identifiers

Identifiers are compared by their octets, texts by their characters. In upper case the hexadecimal
digits ascend with their values, all groups have one length and the separators stand at the same
places, so both comparisons are decided by the same octet.

* **`text_lt_text_iff`**, **`text_inj`** – the order and the equality of identifiers by their texts;
* **`texts_sorted_like_ids`** – sorting identifiers sorts their texts.
-/

namespace TimeIds

namespace Text

/-! ## Octets -/

/-- The upper-case digits ascend with their values, since `A` comes after `9`. -/
theorem hexUpper_lt_hexUpper_iff {a b : Nat} (ha : a < 16) (hb : b < 16) :
    (hexUpper a < hexUpper b ↔ a < b) ∧ (hexUpper a = hexUpper b ↔ a = b) := by
  have key : ∀ a b : Fin 16, (hexUpper a.val < hexUpper b.val ↔ a.val < b.val) ∧
      (hexUpper a.val = hexUpper b.val ↔ a.val = b.val) := by decide +kernel
  exact key ⟨a, ha⟩ ⟨b, hb⟩

/-- The digits of octets compare like the octets. -/
theorem octetDigits_lt_iff (b b' : UInt8) :
    octetDigits hexUpper b < octetDigits hexUpper b' ↔ b < b' := by
  have hb := b.toNat_lt
  have hb' := b'.toNat_lt
  have hhigh := hexUpper_lt_hexUpper_iff (show b.toNat / 16 < 16 by omega)
    (show b'.toNat / 16 < 16 by omega)
  have hlow := hexUpper_lt_hexUpper_iff (show b.toNat % 16 < 16 by omega)
    (show b'.toNat % 16 < 16 by omega)
  unfold octetDigits
  rw [List.cons_lt_cons_iff, List.cons_lt_cons_iff, hhigh.1, hhigh.2, hlow.1, hlow.2,
    UInt8.lt_iff_toNat_lt]
  simp only [List.lt_irrefl, and_false, or_false]
  omega

/-- Where octets are written in texts of one length that compare like them, so do sequences of
octets of one length. Induction on the sequences. -/
theorem flatMap_lt_flatMap_iff {write : UInt8 → List Char}
    (hlength : ∀ b b', (write b).length = (write b').length)
    (hlt : ∀ b b', write b < write b' ↔ b < b') {bs bs' : List UInt8}
    (h : bs.length = bs'.length) : bs.flatMap write < bs'.flatMap write ↔ bs < bs' := by
  induction bs generalizing bs' with
  | nil =>
    have hnil : bs' = [] := List.length_eq_zero_iff.1 h.symm
    subst hnil
    simp
  | cons b bs ih =>
    cases bs' with
    | nil => simp at h
    | cons b' bs' =>
      -- octets are equal if neither is less, so what preserves the order is injective
      have hinj : write b = write b' ↔ b = b' := by
        refine ⟨fun hsame => ?_, fun hsame => by rw [hsame]⟩
        have hle : ¬ b < b' := fun hless => List.lt_irrefl _ (hsame ▸ (hlt b b').2 hless)
        have hge : ¬ b' < b := fun hless => List.lt_irrefl _ (hsame ▸ (hlt b' b).2 hless)
        rw [UInt8.lt_iff_toNat_lt] at hle hge
        exact UInt8.toNat_inj.1 (by omega)
      rw [List.flatMap_cons, List.flatMap_cons, Base36.append_lt_append_iff (hlength b b'),
        ih (by simpa using h), hlt, hinj, List.cons_lt_cons_iff]

end Text

namespace NodeId

/-! ## Identifiers and texts -/

/-- A group with the separator that stands before it. -/
def dashedGroup (b : UInt8) : List Char := '-' :: Text.octetDigits Text.hexUpper b

theorem dashedGroup_lt_iff (b b' : UInt8) : dashedGroup b < dashedGroup b' ↔ b < b' := by
  unfold dashedGroup
  rw [List.cons_lt_cons_iff, Text.octetDigits_lt_iff]
  simp

/-- With a separator before its first group, too, a text is a sequence of groups alike. -/
theorem cons_chars (n : NodeId) : '-' :: n.chars = n.octets.flatMap dashedGroup := rfl

/-- **Identifiers compare like their texts.** -/
theorem text_lt_text_iff (a b : NodeId) : a.text < b.text ↔ a < b := by
  have hchars : a.text < b.text ↔ a.chars < b.chars := by
    show a.text.toList < b.text.toList ↔ _
    unfold text
    rw [String.toList_ofList, String.toList_ofList]
  have hdash : '-' :: a.chars < '-' :: b.chars ↔ a.chars < b.chars := by
    rw [List.cons_lt_cons_iff]
    simp
  have hlength : a.octets.length = b.octets.length := rfl
  rw [hchars, ← hdash, cons_chars, cons_chars]
  exact Text.flatMap_lt_flatMap_iff (fun _ _ => rfl) dashedGroup_lt_iff hlength

/-- Identifiers with one text are equal: both read back from it. -/
theorem text_inj {a b : NodeId} : a.text = b.text ↔ a = b := by
  constructor
  · intro h
    have hchars : a.chars = b.chars := String.ofList_injective h
    have hread := ofChars?_chars a
    rw [hchars, ofChars?_chars] at hread
    exact (Option.some.inj hread).symm
  · intro h
    rw [h]

/-! ## Sorting -/

/-- The order that sorting uses, in terms of texts. -/
theorem not_lt_iff {a b : NodeId} : ¬ b < a ↔ a.text ≤ b.text := by
  rw [← text_lt_text_iff]
  exact String.not_lt

/-- Sorted identifiers ascend, equal ones standing next to each other. -/
theorem pairwise_sort (ids : List NodeId) : (sort ids).Pairwise fun a b => ¬ b < a := by
  let le (a b : NodeId) : Bool := !decide (b < a)
  have hle (a b : NodeId) : le a b = true ↔ a.text ≤ b.text := by
    rw [← not_lt_iff]
    simp [le]
  have htrans (a b c : NodeId) (hab : le a b = true) (hbc : le b c = true) : le a c = true := by
    rw [hle] at hab hbc ⊢
    exact String.le_trans hab hbc
  have htotal (a b : NodeId) : (le a b || le b a) = true := by
    rw [Bool.or_eq_true, hle, hle]
    exact String.le_total _ _
  refine (List.pairwise_mergeSort htrans htotal ids).imp ?_
  intro a b hab
  exact not_lt_iff.2 ((hle a b).1 hab)

/-- The texts of identifiers have one ascending arrangement, that of the sorted identifiers. -/
theorem map_text_sort_eq {ids : List NodeId} {texts : List String}
    (hperm : texts.Perm (ids.map text)) (hsorted : texts.Pairwise (· ≤ ·)) :
    (sort ids).map text = texts := by
  have hperm' : ((sort ids).map text).Perm texts :=
    ((List.mergeSort_perm ids _).map text).trans hperm.symm
  have hsorted' : ((sort ids).map text).Pairwise (· ≤ ·) := by
    rw [List.pairwise_map]
    exact (pairwise_sort ids).imp not_lt_iff.1
  exact hperm'.eq_of_pairwise (fun _ _ _ _ => String.le_antisymm) hsorted' hsorted

/-- **Sorting identifiers sorts their texts.** Of two identifiers the one that comes first is the
one whose text does, and they are equal if their texts are. So the texts of sorted identifiers,
repeated ones kept, are the sorted texts of the identifiers, whatever sorts them: no other
arrangement of the texts ascends. -/
theorem texts_sorted_like_ids :
    (∀ a b : NodeId, (a < b ↔ a.text < b.text) ∧ (a = b ↔ a.text = b.text)) ∧
    ∀ ids : List NodeId,
      (sort ids).Perm ids ∧ (sort ids).Pairwise (fun a b => ¬ b < a) ∧
      (sort ids).map text = (ids.map text).mergeSort (fun s t => decide (s ≤ t)) ∧
      ∀ texts : List String, texts.Perm (ids.map text) → texts.Pairwise (· ≤ ·) →
        (sort ids).map text = texts := by
  refine ⟨fun a b => ⟨(text_lt_text_iff a b).symm, text_inj.symm⟩, fun ids => ?_⟩
  -- for the third part: mapping commutes with sorting where the two orders agree
  refine ⟨List.mergeSort_perm ids _, pairwise_sort ids, ?_, fun texts => map_text_sort_eq⟩
  apply List.map_mergeSort
  intro a _ b _
  rw [Bool.eq_iff_iff]
  simp only [Bool.not_eq_true', decide_eq_false_iff_not, decide_eq_true_eq]
  exact not_lt_iff

/-- A digit before a letter, in the last group, and one identifier given twice. -/
theorem texts_sorted_like_ids_of_three_given :
    ["1A-00-00-00-00-9F", "1A-00-00-00-00-A0", "1A-00-00-00-00-A0"].Pairwise (· ≤ ·) ∧
      (sort [⟨0x1A, 0, 0, 0, 0, 0xA0⟩, ⟨0x1A, 0, 0, 0, 0, 0x9F⟩, ⟨0x1A, 0, 0, 0, 0, 0xA0⟩]).map
        text = ["1A-00-00-00-00-9F", "1A-00-00-00-00-A0", "1A-00-00-00-00-A0"] := by
  have hsorted : ["1A-00-00-00-00-9F", "1A-00-00-00-00-A0", "1A-00-00-00-00-A0"].Pairwise
      (· ≤ ·) := by decide +kernel
  have hperm : ["1A-00-00-00-00-9F", "1A-00-00-00-00-A0", "1A-00-00-00-00-A0"].Perm
      ([⟨0x1A, 0, 0, 0, 0, 0xA0⟩, ⟨0x1A, 0, 0, 0, 0, 0x9F⟩, ⟨0x1A, 0, 0, 0, 0, 0xA0⟩].map text) :=
    List.Perm.swap _ _ _
  exact ⟨hsorted, (texts_sorted_like_ids.2 _).2.2.2 _ hperm hsorted⟩

end NodeId
end TimeIds
