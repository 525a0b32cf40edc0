import TimeIds.Proofs.Base36.Inverse

/-!
# The bytes of a text

A character of ASCII is one byte, and a text of such characters is settled by its bytes one by one, its
letter case included. For texts at large it takes the encoding: bytes that stand at the front of a text
and are a text of their own end where a character ends (`isValid_of_take_bytes`).

* **`bytes_injective`** – a text is its bytes;
* **`map_ofUInt8_bytes`**, **`bytes_ofList_map_ofUInt8`** – ASCII from bytes and back;
* **`map_toLower_ofUInt8`** – lower case by bytes.
-/

namespace TimeIds.Text

/-! ## Bytes -/

/-- The bytes of a text in UTF-8. -/
def bytes (s : String) : List UInt8 := s.toUTF8.data.toList

/-- The bytes of a text are those of its characters in order. -/
theorem bytes_eq (s : String) : bytes s = s.toList.flatMap String.utf8EncodeChar := by
  have hchars : s.toByteArray = s.toList.utf8Encode := by
    rw [← String.toByteArray_ofList, String.ofList_toList]
  show s.toByteArray.data.toList = _
  rw [hchars]
  show (List.toByteArray _).data.toList = _
  rw [List.data_toByteArray]

theorem bytes_ofList (cs : List Char) :
    bytes (String.ofList cs) = cs.flatMap String.utf8EncodeChar := by
  rw [bytes_eq, String.toList_ofList]

theorem bytes_injective {s t : String} (h : bytes s = bytes t) : s = t := by
  apply String.toByteArray_inj.1
  apply ByteArray.ext
  exact Array.toList_inj.1 h

/-- Bytes at the front of a text that are a text of their own end where a character ends. -/
theorem isValid_of_take_bytes {s t : String} {size : Nat} (h : (bytes s).take size = bytes t)
    (hsize : size ≤ (bytes s).length) : String.Pos.Raw.IsValid s ⟨size⟩ := by
  -- the front of the encoding of `s` is the encoding of `t`, and that is valid
  have hextract : s.toByteArray.extract 0 size = t.toByteArray := by
    have hlists : s.toByteArray.data.toList.take size = t.toByteArray.data.toList := h
    apply ByteArray.ext
    rw [ByteArray.data_extract]
    apply Array.toList_inj.1
    simpa using hlists
  rw [String.Pos.Raw.isValid_iff_isValidUTF8_extract_zero]
  refine ⟨hsize, ?_⟩
  show (s.toByteArray.extract 0 size).IsValidUTF8
  rw [hextract]
  exact t.isValidUTF8

/-! ## Bytes of ASCII -/

/-- A letter of ASCII in lower case, any other byte as it is. -/
def lowerByte (b : UInt8) : UInt8 := if 0x41 ≤ b ∧ b ≤ 0x5A then b + 0x20 else b

/-- A character of ASCII is the byte of its number. -/
theorem bytes_ofList_of_ascii {cs : List Char} (h : ∀ c ∈ cs, c.toNat < 128) :
    bytes (String.ofList cs) = cs.map Char.toUInt8 := by
  rw [bytes_ofList]
  induction cs with
  | nil => rfl
  | cons c cs ih =>
    have hle : c.val ≤ 127 := UInt32.le_iff_toNat_le.2 (Nat.le_of_lt_succ (h c (by simp)))
    have hrest := ih fun x hx => h x (List.mem_cons_of_mem _ hx)
    rw [List.flatMap_cons, String.utf8EncodeChar_eq_singleton (Char.utf8Size_eq_one_iff.2 hle),
      Char.toUInt8_val, hrest]
    rfl

theorem ofUInt8_toUInt8 {c : Char} (hc : c.toNat < 128) : Char.ofUInt8 c.toUInt8 = c :=
  Base36.forall_ascii (fun c => Char.ofUInt8 c.toUInt8 = c) (by decide +kernel) hc

/-- What a table says of the 256 bytes. -/
theorem forall_byte (p : UInt8 → Prop) (table : ∀ n : Fin 256, p (UInt8.ofNat n.val)) (b : UInt8) :
    p b := by
  have hentry := table ⟨b.toNat, b.toNat_lt⟩
  rwa [UInt8.ofNat_toNat] at hentry

/-- A byte that is ASCII in lower case is ASCII. -/
theorem lt_of_lowerByte_lt : ∀ b : UInt8, lowerByte b < 128 → b < 128 :=
  forall_byte _ (by decide +kernel)

theorem lowerByte_lt : ∀ b : UInt8, b < 128 → lowerByte b < 128 :=
  forall_byte _ (by decide +kernel)

theorem toUInt8_ofUInt8 : ∀ b : UInt8, b < 128 → (Char.ofUInt8 b).toUInt8 = b :=
  forall_byte _ (by decide +kernel)

theorem toNat_ofUInt8_lt : ∀ b : UInt8, b < 128 → (Char.ofUInt8 b).toNat < 128 :=
  forall_byte _ (by decide +kernel)

theorem toLower_ofUInt8 : ∀ b : UInt8, b < 128 →
    (Char.ofUInt8 b).toLower = Char.ofUInt8 (lowerByte b) :=
  forall_byte _ (by decide +kernel)

/-- A text of ASCII is read back from its bytes one by one. -/
theorem map_ofUInt8_bytes {cs : List Char} (h : ∀ c ∈ cs, c.toNat < 128) :
    (bytes (String.ofList cs)).map Char.ofUInt8 = cs := by
  rw [bytes_ofList_of_ascii h, List.map_map]
  conv => rhs; rw [← List.map_id cs]
  exact List.map_congr_left fun c hc => ofUInt8_toUInt8 (h c hc)

/-- Bytes of ASCII are the bytes of the text that they stand for. -/
theorem bytes_ofList_map_ofUInt8 {bs : List UInt8} (h : ∀ b ∈ bs, b < 128) :
    bytes (String.ofList (bs.map Char.ofUInt8)) = bs := by
  have hascii : ∀ c ∈ bs.map Char.ofUInt8, c.toNat < 128 := by
    intro c hc
    obtain ⟨b, hb, rfl⟩ := List.mem_map.1 hc
    exact toNat_ofUInt8_lt b (h b hb)
  rw [bytes_ofList_of_ascii hascii, List.map_map]
  conv => rhs; rw [← List.map_id bs]
  exact List.map_congr_left fun b hb => toUInt8_ofUInt8 b (h b hb)

theorem map_toLower_ofUInt8 {bs : List UInt8} (h : ∀ b ∈ bs, b < 128) :
    (bs.map Char.ofUInt8).map Char.toLower = (bs.map lowerByte).map Char.ofUInt8 := by
  rw [List.map_map, List.map_map]
  exact List.map_congr_left fun b hb => toLower_ofUInt8 b (h b hb)

end TimeIds.Text
