import TimeIds.Proofs.Base36.Inverse
import TimeIds.Proofs.Document.RoundTrip

/-!
# The texts of node identifiers

A text names a node if, between the blanks at its ends, it is six groups of two hexadecimal digits
that are joined by one separator. The reader takes such a text apart group by group
(`readOctets_joined`, `exists_joined_of_readOctets`), so groups and separator are settled by what it
returns, and all else is read off the groups.

In particular the separators may as well be dropped first and the digits be taken two by two: that
second way to the octets (`ofDigits?`) can fail on texts at large, but not on one that is made of
groups (`ofDigits?_of_written`).

* **`parse_of_written`**, **`exists_written_of_parse`** – the texts that are read;
* **`text_of_written`** – what they have for a normal form;
* **`texts_and_normal_forms`** – both, and that normal forms are stable.
-/

namespace TimeIds

namespace Text

/-- The hexadecimal digits, in both letter cases. -/
def hexDigits : List Char := "0123456789abcdefABCDEF".toList

/-- The place of a hexadecimal digit in ascending order, whatever its case. -/
def hexPlace (c : Char) : Nat := "0123456789abcdef".toList.idxOf c.toLower

/-- What a table says of the hexadecimal digits. -/
theorem forall_hexDigits (p : Char → Prop) [DecidablePred p]
    (table : hexDigits.all (fun c => decide (p c)) = true) : ∀ c ∈ hexDigits, p c := by
  simpa using table

theorem hexPlace_lt : ∀ c ∈ hexDigits, hexPlace c < 16 :=
  forall_hexDigits _ (by decide)

theorem hexUpper_hexPlace : ∀ c ∈ hexDigits, hexUpper (hexPlace c) = c.toUpper :=
  forall_hexDigits _ (by decide)

theorem hexValue?_of_mem : ∀ c ∈ hexDigits, hexValue? c = some (hexPlace c) :=
  forall_hexDigits _ (by decide)

/-- What reads as a digit is one of the table. It is ASCII, and there the table is complete. -/
theorem mem_hexDigits_of_hexValue? {c : Char} {d : Nat} (h : hexValue? c = some d) :
    c ∈ hexDigits := by
  have hascii : c.toNat < 128 := by
    unfold hexValue? at h
    -- each of the three ranges of digits lies below 128
    split at h
    · next hc => exact Base36.toNat_lt_of_le hc.2 (by decide)
    · split at h
      · next hc => exact Base36.toNat_lt_of_le hc.2 (by decide)
      · split at h
        · next hc => exact Base36.toNat_lt_of_le hc.2 (by decide)
        · cases h
  exact Base36.forall_ascii (fun c => (hexValue? c).isSome → c ∈ hexDigits) (by decide +kernel) hascii
    (by rw [h]; rfl)

end Text

namespace NodeId

/-! ## Groups -/

/-- Two characters that stand for an octet. -/
structure Group where
  high : Char
  low : Char

namespace Group

/-- The characters of a group in order. -/
def chars (g : Group) : List Char := [g.high, g.low]

/-- Both characters are hexadecimal digits. -/
def IsHex (g : Group) : Prop := g.high ∈ Text.hexDigits ∧ g.low ∈ Text.hexDigits

instance (g : Group) : Decidable g.IsHex := inferInstanceAs (Decidable (_ ∧ _))

/-- The number that the digits of a group write. -/
def value (g : Group) : Nat := 16 * Text.hexPlace g.high + Text.hexPlace g.low

/-- The octet of that number. -/
def octet (g : Group) : UInt8 := UInt8.ofNat g.value

/-- The group with each of its characters replaced. -/
def map (f : Char → Char) (g : Group) : Group := ⟨f g.high, f g.low⟩

variable {g : Group}

/-- The number of two digits fits in an octet. -/
theorem toNat_octet (hg : g.IsHex) : g.octet.toNat = g.value := by
  have hhigh := Text.hexPlace_lt g.high hg.1
  have hlow := Text.hexPlace_lt g.low hg.2
  unfold octet value
  rw [UInt8.toNat_ofNat']
  omega

theorem octet?_eq (hg : g.IsHex) : Text.octet? g.high g.low = some g.octet := by
  unfold Text.octet?
  rw [Text.hexValue?_of_mem g.high hg.1, Text.hexValue?_of_mem g.low hg.2]
  rfl

/-- What reads as an octet is two digits, and the octet is theirs. -/
theorem isHex_of_octet? {high low : Char} {b : UInt8} (h : Text.octet? high low = some b) :
    IsHex ⟨high, low⟩ ∧ b = octet ⟨high, low⟩ := by
  have hhex : IsHex ⟨high, low⟩ := by
    unfold Text.octet? at h
    split at h
    · next hhigh hlow =>
      exact ⟨Text.mem_hexDigits_of_hexValue? hhigh, Text.mem_hexDigits_of_hexValue? hlow⟩
    · cases h
  refine ⟨hhex, ?_⟩
  have hoctet := octet?_eq hhex
  rw [h] at hoctet
  exact Option.some.inj hoctet

/-- The digits that write the octet of a group are those of the group in upper case. -/
theorem octetDigits_octet (hg : g.IsHex) :
    Text.octetDigits Text.hexUpper g.octet = (g.map Char.toUpper).chars := by
  have hhigh := Text.hexPlace_lt g.high hg.1
  have hlow := Text.hexPlace_lt g.low hg.2
  have hquotient : g.value / 16 = Text.hexPlace g.high := by unfold value; omega
  have hremainder : g.value % 16 = Text.hexPlace g.low := by unfold value; omega
  unfold Text.octetDigits
  rw [toNat_octet hg, hquotient, hremainder, Text.hexUpper_hexPlace g.high hg.1,
    Text.hexUpper_hexPlace g.low hg.2]
  rfl

end Group

/-- Groups with a separator between neighbours. -/
def joined (separator : Char) (groups : List Group) : List Char :=
  [separator].intercalate (groups.map Group.chars)

theorem joined_singleton (separator : Char) (g : Group) : joined separator [g] = [g.high, g.low] :=
  List.intercalate_singleton

theorem joined_cons_cons (separator : Char) (g g' : Group) (groups : List Group) :
    joined separator (g :: g' :: groups) =
      g.high :: g.low :: separator :: joined separator (g' :: groups) :=
  List.intercalate_cons_cons

/-- To replace the characters of joined groups is to replace those of the groups and the
separator. -/
theorem map_joined (f : Char → Char) (separator : Char) (g : Group) (groups : List Group) :
    (joined separator (g :: groups)).map f =
      joined (f separator) ((g :: groups).map (Group.map f)) := by
  induction groups generalizing g with
  | nil => rfl
  | cons g' groups ih =>
    rw [joined_cons_cons, List.map_cons, List.map_cons, List.map_cons, ih g']
    rfl

/-! ## Reading groups -/

section Reading

variable {separator : Char} {g : Group} {groups : List Group}

/-- Joined groups of digits read as their octets. -/
theorem readOctets_joined (separator : Char) (h : ∀ x ∈ g :: groups, x.IsHex) :
    readOctets separator (joined separator (g :: groups)) =
      some ((g :: groups).map Group.octet) := by
  induction groups generalizing g with
  | nil =>
    rw [joined_singleton, readOctets, Group.octet?_eq (h g (by simp))]
    rfl
  | cons g' groups ih =>
    have hrest := ih (g := g') fun x hx => h x (List.mem_cons_of_mem _ hx)
    rw [joined_cons_cons, readOctets, if_pos rfl, Group.octet?_eq (h g (by simp)), hrest]
    rfl

/-- What is read is made of groups. Induction along the reader. -/
theorem exists_joined_of_readOctets {cs : List Char} {bs : List UInt8}
    (h : readOctets separator cs = some bs) :
    ∃ g groups, (∀ x ∈ g :: groups, Group.IsHex x) ∧ cs = joined separator (g :: groups) ∧
      bs = (g :: groups).map Group.octet := by
  fun_induction readOctets separator cs generalizing bs with
  | case1 high low =>
    obtain ⟨b, hb, rfl⟩ := Option.map_eq_some_iff.1 h
    obtain ⟨hhex, rfl⟩ := Group.isHex_of_octet? hb
    refine ⟨⟨high, low⟩, [], ?_, rfl, rfl⟩
    simpa using hhex
  | case2 high low rest ih =>
    obtain ⟨b, hb, h⟩ := Option.bind_eq_some_iff.1 h
    obtain ⟨later, hlater, rfl⟩ := Option.map_eq_some_iff.1 h
    obtain ⟨hhex, rfl⟩ := Group.isHex_of_octet? hb
    obtain ⟨g, groups, hgroups, rfl, rfl⟩ := ih hlater
    refine ⟨⟨high, low⟩, g :: groups, ?_, rfl, rfl⟩
    intro x hx
    rcases List.mem_cons.1 hx with rfl | hx
    · exact hhex
    · exact hgroups x hx
  | case3 => cases h
  | case4 => cases h

/-- Joined groups do not read under another separator, if there are at least two of them. -/
theorem readOctets_of_other_separator {other : Char} (hother : separator ≠ other) (g g' : Group)
    (groups : List Group) : readOctets other (joined separator (g :: g' :: groups)) = none := by
  rw [joined_cons_cons, readOctets, if_neg hother]

end Reading

/-! ## The texts that are read -/

/-- Identifiers are read from the octets they consist of. -/
theorem ofOctets?_eq_some_iff {bs : List UInt8} {id : NodeId} :
    ofOctets? bs = some id ↔ bs = id.octets := by
  constructor
  · intro h
    unfold ofOctets? at h
    split at h
    · cases h
      rfl
    · cases h
  · rintro rfl
    exact ofOctets?_octets id

theorem exists_octets_eq {bs : List UInt8} (h : bs.length = 6) : ∃ id : NodeId, id.octets = bs := by
  match bs, h with
  | [a, b, c, d, e, f], _ => exact ⟨⟨a, b, c, d, e, f⟩, rfl⟩

/-- The text is six groups of two hexadecimal digits, joined by one separator. -/
structure Written (separator : Char) (groups : List Group) (text : String) : Prop where
  dash_or_colon : separator = '-' ∨ separator = ':'
  six : groups.length = 6
  digits : ∀ g ∈ groups, g.IsHex
  joined : text.toList = joined separator groups

section Written

variable {separator : Char} {groups : List Group} {s : String} {id : NodeId}

/-- A text is read after the blanks at its ends are dropped. -/
theorem parse_eq_ok_iff : parse s = .ok id ↔ ofChars? (Text.trim s).toList = some id := by
  have htrim : (Text.trim s).toList = Text.trimChars s.toList := String.toList_ofList
  rw [htrim]
  unfold parse ofText?
  cases ofChars? (Text.trimChars s.toList) <;> simp

/-- **Texts made of groups read**, as the octets of the groups. -/
theorem parse_of_written (h : Written separator groups (Text.trim s)) :
    ∃ id, parse s = .ok id ∧ id.octets = groups.map Group.octet := by
  obtain ⟨hseparator, hsix, hdigits, hjoined⟩ := h
  have hlength : (groups.map Group.octet).length = 6 := by simpa using hsix
  obtain ⟨id, hoctets⟩ := exists_octets_eq hlength
  refine ⟨id, ?_, hoctets⟩
  match groups, hsix with
  | g :: g' :: rest, _ =>
    have hread := readOctets_joined separator hdigits
    rw [parse_eq_ok_iff, hjoined]
    unfold ofChars?
    rcases hseparator with rfl | rfl
    · rw [hread, Option.some_or, Option.bind_some, ofOctets?_eq_some_iff, hoctets]
    · -- two groups that a colon joins are none that a dash joins
      rw [readOctets_of_other_separator (by decide), hread, Option.none_or, Option.bind_some,
        ofOctets?_eq_some_iff, hoctets]

/-- **What reads is made of groups.** -/
theorem exists_written_of_parse (h : parse s = .ok id) :
    ∃ separator groups, Written separator groups (Text.trim s) := by
  rw [parse_eq_ok_iff] at h
  unfold ofChars? at h
  obtain ⟨bs, hbs, hid⟩ := Option.bind_eq_some_iff.1 h
  rw [ofOctets?_eq_some_iff] at hid
  -- the reader tries dashes first and then colons
  have hread : ∃ separator, (separator = '-' ∨ separator = ':') ∧
      readOctets separator (Text.trim s).toList = some bs := by
    rcases Option.or_eq_some_iff.1 hbs with hdash | ⟨-, hcolon⟩
    · exact ⟨'-', .inl rfl, hdash⟩
    · exact ⟨':', .inr rfl, hcolon⟩
  obtain ⟨separator, hseparator, hread⟩ := hread
  obtain ⟨g, groups, hdigits, hjoined, hoctets⟩ := exists_joined_of_readOctets hread
  refine ⟨separator, g :: groups, hseparator, ?_, hdigits, hjoined⟩
  have hlength := congrArg List.length (hid.symm.trans hoctets)
  rw [List.length_map] at hlength
  exact hlength.symm

/-! ## The normal form -/

/-- What the separators of both kinds are in the normal form, and any other character. -/
def normalChar (c : Char) : Char := if c = ':' then '-' else c

/-- A text without the blanks at its ends, in upper case and with dashes for colons. -/
def normalText (s : String) : String := (Text.trim s).toUpper.map normalChar

/-- No digit is a separator, so normal forms only change its letter case. -/
theorem normalChar_toUpper : ∀ c ∈ Text.hexDigits, normalChar c.toUpper = c.toUpper :=
  Text.forall_hexDigits _ (by decide)

/-- The characters that write an identifier are its groups in upper case, joined by dashes. -/
theorem chars_eq_joined (hdigits : ∀ g ∈ groups, g.IsHex)
    (hoctets : id.octets = groups.map Group.octet) :
    id.chars = joined '-' (groups.map (Group.map Char.toUpper)) := by
  unfold chars joined
  rw [hoctets, List.map_map, List.map_map]
  congr 1
  apply List.map_congr_left
  intro g hg
  exact Group.octetDigits_octet (hdigits g hg)

/-- An identifier is written the way its text was, up to letter case and the kind of separator. -/
theorem text_of_written (h : Written separator groups (Text.trim s))
    (hoctets : id.octets = groups.map Group.octet) : id.text = normalText s := by
  obtain ⟨hseparator, hsix, hdigits, hjoined⟩ := h
  have hupper : (normalText s).toList =
      (joined separator groups).map (normalChar ∘ Char.toUpper) := by
    show (String.map normalChar (String.map Char.toUpper (Text.trim s))).toList = _
    rw [String.toList_map, String.toList_map, List.map_map, hjoined]
  have hdash : (normalChar ∘ Char.toUpper) separator = '-' := by
    rcases hseparator with rfl | rfl <;> decide
  -- within the groups only the letter case changes
  have hgroups : groups.map (Group.map (normalChar ∘ Char.toUpper)) =
      groups.map (Group.map Char.toUpper) := by
    apply List.map_congr_left
    intro g hg
    obtain ⟨hhigh, hlow⟩ := hdigits g hg
    unfold Group.map
    rw [Function.comp_apply, Function.comp_apply, normalChar_toUpper _ hhigh,
      normalChar_toUpper _ hlow]
  apply String.toList_injective
  unfold text
  rw [String.toList_ofList, chars_eq_joined hdigits hoctets, hupper]
  match groups, hsix with
  | g :: rest, _ => rw [map_joined, hdash, hgroups]

/-! ## The digits alone -/

/-- The octets that digits write two by two. -/
def octetsOfDigits? : List Char → Option (List UInt8)
  | [] => some []
  | [_] => none
  | high :: low :: rest =>
    (Text.octet? high low).bind fun b => (octetsOfDigits? rest).map (b :: ·)

/-- The identifier that the hexadecimal digits of a text write, whatever stands between them. -/
def ofDigits? (text : String) : Option NodeId :=
  (octetsOfDigits? (text.toList.filter (· ∈ Text.hexDigits))).bind ofOctets?

/-- Of joined groups of digits, the separators alone are no digits. -/
theorem filter_joined (hseparator : separator ∉ Text.hexDigits) (hdigits : ∀ g ∈ groups, g.IsHex) :
    (joined separator groups).filter (· ∈ Text.hexDigits) = groups.flatMap Group.chars := by
  induction groups with
  | nil => rfl
  | cons g groups ih =>
    obtain ⟨hhigh, hlow⟩ := hdigits g (by simp)
    have hrest := ih fun x hx => hdigits x (List.mem_cons_of_mem _ hx)
    cases groups with
    | nil => simp [joined_singleton, hhigh, hlow, Group.chars]
    | cons g' groups =>
      rw [joined_cons_cons, List.flatMap_cons, ← hrest]
      simp [hhigh, hlow, hseparator, Group.chars]

/-- The digits of groups, taken two by two, write the octets of the groups. -/
theorem octetsOfDigits?_groups (hdigits : ∀ g ∈ groups, g.IsHex) :
    octetsOfDigits? (groups.flatMap Group.chars) = some (groups.map Group.octet) := by
  induction groups with
  | nil => rfl
  | cons g groups ih =>
    have hrest := ih fun x hx => hdigits x (List.mem_cons_of_mem _ hx)
    show octetsOfDigits? (g.high :: g.low :: groups.flatMap Group.chars) = _
    rw [octetsOfDigits?, Group.octet?_eq (hdigits g (by simp)), hrest]
    rfl

/-- On a text that is made of groups, the digits alone write the same identifier. -/
theorem ofDigits?_of_written {text : String} (h : Written separator groups text)
    (hoctets : id.octets = groups.map Group.octet) : ofDigits? text = some id := by
  have hseparator : separator ∉ Text.hexDigits := by
    rcases h.dash_or_colon with rfl | rfl <;> decide
  unfold ofDigits?
  rw [h.joined, filter_joined hseparator h.digits, octetsOfDigits?_groups h.digits,
    Option.bind_some, ofOctets?_eq_some_iff, hoctets]

end Written

/-! ## Reading and printing -/

theorem parse_text (id : NodeId) : parse id.text = .ok id := by
  unfold parse
  rw [ofText?_text]

/-- An identifier that is printed as a JSON string reads back. -/
theorem nodeId_quoteText (id : NodeId) : Json.nodeId (Json.quoteText id.text) = .ok id := by
  have hplain := Document.isPlain_nodeId id
  have hstring : Json.wantedString (Json.quoteText id.text).toList = .ok (id.text, []) := by
    rw [Json.toList_quoteText hplain]
    exact Json.stringAfterQuote_plain hplain []
  unfold Json.nodeId Json.wholeText
  simp only [hstring, bind, Except.bind, ofText?_text]
  rfl

/-- The text of an identifier is its own normal form: it is one of the texts that read, and the
identifier that reads from it is written as the normal form. -/
theorem normalText_text (id : NodeId) : normalText id.text = id.text := by
  obtain ⟨separator, groups, hwritten⟩ := exists_written_of_parse id.parse_text
  obtain ⟨id', hparse, hoctets⟩ := parse_of_written hwritten
  rw [parse_text] at hparse
  cases hparse
  exact (text_of_written hwritten hoctets).symm

/-- **The texts of node identifiers.** A text reads if and only if, without the blanks at its ends, it
is six groups of two hexadecimal digits that are all joined by dashes or all by colons; any other text
is refused, with the text as it was given in the fault. The octets are the values of the groups in
order, the digits of the text taken two by two write them too, and the identifier is written as the
normal form of the text. Every identifier reads back from its written form, from its JSON string too,
and the written form is its own normal form. -/
theorem texts_and_normal_forms :
    (∀ s : String,
      ((∃ id, parse s = .ok id) ↔
        ∃ separator groups, Written separator groups (Text.trim s)) ∧
      ((¬ ∃ separator groups, Written separator groups (Text.trim s)) →
        parse s = .error (.invalidNode s)) ∧
      ∀ separator groups, Written separator groups (Text.trim s) →
        ∃ id, parse s = .ok id ∧ id.octets.map UInt8.toNat = groups.map Group.value ∧
          ofDigits? (Text.trim s) = some id ∧ id.text = normalText s) ∧
    ∀ id : NodeId, parse id.text = .ok id ∧ Json.nodeId (Json.quoteText id.text) = .ok id ∧
      normalText id.text = id.text := by
  refine ⟨fun s => ⟨?_, ?_, ?_⟩, fun id => ⟨id.parse_text, id.nodeId_quoteText, id.normalText_text⟩⟩
  · constructor
    · rintro ⟨id, hid⟩
      exact exists_written_of_parse hid
    · rintro ⟨separator, groups, hwritten⟩
      obtain ⟨id, hid, -⟩ := parse_of_written hwritten
      exact ⟨id, hid⟩
  · intro hnone
    cases hparse : parse s with
    | ok id => exact absurd (exists_written_of_parse hparse) hnone
    | error e =>
      unfold parse at hparse
      split at hparse
      · cases hparse
      · cases hparse
        rfl
  · intro separator groups hwritten
    obtain ⟨id, hid, hoctets⟩ := parse_of_written hwritten
    refine ⟨id, hid, ?_, ofDigits?_of_written hwritten hoctets, text_of_written hwritten hoctets⟩
    rw [hoctets, List.map_map]
    apply List.map_congr_left
    intro g hg
    exact Group.toNat_octet (hwritten.digits g hg)

/-- Colons and mixed case between an ideographic space and a line feed; and a text that mixes the
separators. -/
theorem texts_and_normal_forms_of_mixed_texts :
    (∃ id, parse "\u30001a:2B:3c:4D:5e:6F\n" = .ok id ∧
      id.octets.map UInt8.toNat = [0x1A, 0x2B, 0x3C, 0x4D, 0x5E, 0x6F] ∧
      id.text = "1A-2B-3C-4D-5E-6F") ∧
    parse "1A-2B:3C-4D-5E-6F " = .error (.invalidNode "1A-2B:3C-4D-5E-6F ") := by
  have hwritten : Written ':' [⟨'1', 'a'⟩, ⟨'2', 'B'⟩, ⟨'3', 'c'⟩, ⟨'4', 'D'⟩, ⟨'5', 'e'⟩, ⟨'6', 'F'⟩]
      (Text.trim "\u30001a:2B:3c:4D:5e:6F\n") :=
    ⟨.inr rfl, rfl, by decide, by decide⟩
  have hmixed : ¬ ∃ separator groups,
      Written separator groups (Text.trim "1A-2B:3C-4D-5E-6F ") := by
    rintro ⟨separator, groups, hwritten⟩
    -- the first separator is a dash and the second a colon
    match groups, hwritten.six, hwritten.joined with
    | [a, b, c, d, e, f], _, hjoined =>
      have htext : (Text.trim "1A-2B:3C-4D-5E-6F ").toList =
          '1' :: 'A' :: '-' :: '2' :: 'B' :: ':' :: "3C-4D-5E-6F".toList := by decide +kernel
      rw [htext, joined_cons_cons, joined_cons_cons] at hjoined
      simp only [List.cons.injEq] at hjoined
      obtain ⟨-, -, hdash, -, -, hcolon, -⟩ := hjoined
      exact absurd (hdash.trans hcolon.symm) (by decide)
  obtain ⟨hread, -⟩ := texts_and_normal_forms
  obtain ⟨id, hparse, hoctets, -, htext⟩ := (hread _).2.2 _ _ hwritten
  have hnormal : normalText "\u30001a:2B:3c:4D:5e:6F\n" = "1A-2B-3C-4D-5E-6F" := by decide +kernel
  exact ⟨⟨id, hparse, hoctets, htext.trans hnormal⟩, (hread _).2.1 hmixed⟩

end NodeId
end TimeIds
