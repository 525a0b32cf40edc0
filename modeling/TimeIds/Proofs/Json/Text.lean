import TimeIds.Json.Printer
import TimeIds.Json.Value

/-!
# Strings and frames of printed documents

The strings of a document hold no character that would be escaped, so the reader of strings takes
them as they stand. The loops over members and elements are unrolled here one turn at a time, for
texts of which the next turn is known.

* **`Json.stringAfterQuote_plain`** – a plain string is read as it stands;
* **`Json.toList_quoteText`** – and is printed so on one line;
* **`Json.membersOnto_next`**, **`Json.membersOnto_end`** – a turn over the members of an object;
* **`Json.elementsOnto_next`**, **`Json.elementsOnto_end`** – a turn over the elements of an array.
-/

namespace TimeIds.Json

/-! ## Strings -/

/-- A character that stands for itself inside a string. -/
def IsPlain (c : Char) : Prop := c ≠ '"' ∧ c ≠ '\\' ∧ 0x20 ≤ c.toNat

instance (c : Char) : Decidable (IsPlain c) := inferInstanceAs (Decidable (_ ∧ _ ∧ _))

/-- A closed text is plain if a look through it says so. -/
theorem isPlain_of_all {cs : List Char} (h : cs.all (fun c => decide (IsPlain c)) = true) :
    ∀ c ∈ cs, IsPlain c := by
  simpa using h

/-- A quote ends a string. -/
theorem stringOnto_quote (read rest : List Char) :
    stringOnto read ('"' :: rest) = .ok (read.reverse, rest) := by
  rw [stringOnto.eq_def]
  rfl

/-- A plain character is taken as it stands. -/
theorem stringOnto_cons {c : Char} (hc : IsPlain c) (read rest : List Char) :
    stringOnto read (c :: rest) = stringOnto (c :: read) rest := by
  obtain ⟨hquote, hslash, hcontrol⟩ := hc
  rw [stringOnto.eq_def]
  dsimp only
  rw [if_neg hquote, if_neg hslash, if_neg (by omega)]

/-- Plain characters up to a quote are taken one by one. Induction over them. -/
theorem stringOnto_plain {cs : List Char} (hplain : ∀ c ∈ cs, IsPlain c) (read rest : List Char) :
    stringOnto read (cs ++ '"' :: rest) = .ok (read.reverse ++ cs, rest) := by
  induction cs generalizing read with
  | nil => rw [List.nil_append, stringOnto_quote, List.append_nil]
  | cons c cs ih =>
    have htail := ih (fun d hd => hplain d (by simp [hd])) (c :: read)
    rw [List.cons_append, stringOnto_cons (hplain c (by simp)), htail, List.reverse_cons,
      List.append_assoc, List.singleton_append]

/-- A plain string is read as it stands. -/
theorem stringAfterQuote_plain {s : String} (hplain : ∀ c ∈ s.toList, IsPlain c)
    (rest : List Char) : stringAfterQuote (s.toList ++ '"' :: rest) = .ok (s, rest) := by
  unfold stringAfterQuote
  rw [stringOnto_plain hplain]
  simp [Except.map]

/-- A string may have white space before it. -/
theorem wantedString_plain {s : String} (hplain : ∀ c ∈ s.toList, IsPlain c) (rest : List Char) :
    wantedString (' ' :: '"' :: (s.toList ++ '"' :: rest)) = .ok (s, rest) :=
  stringAfterQuote_plain hplain rest

/-- A plain character is written as it is. -/
theorem escapeChar_plain {c : Char} (hc : IsPlain c) : escapeChar c = c.toString := by
  obtain ⟨hquote, hslash, hcontrol⟩ := hc
  unfold escapeChar
  split
  · exact absurd rfl hquote
  · exact absurd rfl hslash
  -- the other escapes of one letter are of control characters
  iterate 5
    · exact absurd hcontrol (by decide)
  · rw [if_neg (by omega)]

/-- A plain string is printed as it stands. -/
theorem toList_quoteText {s : String} (hplain : ∀ c ∈ s.toList, IsPlain c) :
    (quoteText s).toList = '"' :: (s.toList ++ ['"']) := by
  have hinside : (String.join (s.toList.map escapeChar)).toList = s.toList := by
    rw [String.toList_join, List.map_congr_left fun c hc => escapeChar_plain (hplain c hc),
      List.flatMap_map]
    simp
  unfold quoteText
  rw [String.toList_append, String.toList_append, hinside]
  rfl

/-! ## Members of an object -/

variable {σ : Type} {member : σ → Reader σ}

/-- A turn that finds a member. -/
theorem membersOnto_next {first : Bool} {known known' : σ} {cs inside rest : List Char}
    (hmember : hasMember first cs = .ok (true, inside))
    (hread : member known inside = .ok (known', rest)) (turns : Nat) :
    membersOnto member (turns + 1) first known cs = membersOnto member turns false known' rest := by
  rw [membersOnto, hmember]
  dsimp only
  rw [hread]

/-- The turn that finds the end of the object. -/
theorem membersOnto_end {first : Bool} {cs rest : List Char}
    (hmember : hasMember first cs = .ok (false, rest)) (known : σ) (turns : Nat) :
    membersOnto member (turns + 1) first known cs = .ok (known, rest) := by
  rw [membersOnto, hmember]

/-! ## Elements of an array -/

variable {α : Type} {element : Reader α}

/-- After a comma an array goes on, up to the element. -/
theorem hasElement_of_comma {cs rest : List Char} {c : Char} (hcs : skipSpace cs = c :: rest)
    (hc : c ≠ ']') : hasElement false (',' :: cs) = .ok (true, c :: rest) := by
  have hskip : skipSpace (',' :: cs) = ',' :: cs := rfl
  unfold hasElement
  rw [hskip]
  split
  · next heq => exact absurd heq (List.cons_ne_nil _ _)
  · next heq => exact absurd (List.cons.inj heq).1 (by decide)
  · next heq =>
    obtain ⟨rfl, rfl⟩ := List.cons.inj heq
    rw [if_neg Bool.false_ne_true, if_pos rfl, hcs]
    split
    · next heq => exact absurd heq (List.cons_ne_nil _ _)
    -- an array must not end right after a comma
    · next heq => exact absurd (List.cons.inj heq).1 hc
    · rfl

/-- A turn that finds an element. -/
theorem elementsOnto_next {read : List α} {a : α} {cs inside rest : List Char}
    (helement : hasElement read.isEmpty cs = .ok (true, inside))
    (hread : element inside = .ok (a, rest)) (turns : Nat) :
    elementsOnto element (turns + 1) read cs = elementsOnto element turns (a :: read) rest := by
  rw [elementsOnto, helement]
  dsimp only
  rw [hread]

/-- The turn that finds the end of the array. -/
theorem elementsOnto_end {read : List α} {cs rest : List Char}
    (helement : hasElement read.isEmpty cs = .ok (false, ']' :: rest)) (turns : Nat) :
    elementsOnto element (turns + 1) read cs = .ok (read.reverse, rest) := by
  rw [elementsOnto, helement]
  rfl

end TimeIds.Json
