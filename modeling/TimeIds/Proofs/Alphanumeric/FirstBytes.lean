import TimeIds.Proofs.Alphanumeric.Acceptance
import TimeIds.Proofs.Text.Bytes

/-!
# The time in the first bytes of an identifier

`parse` finds the time of an identifier in its first thirteen characters, `millisOf` in its first
thirteen bytes. What `parse` accepts is ASCII, so there the two are the same (`millisOf_of_parse`).

On other texts `millisOf` is settled by these bytes: they are taken as characters exactly if a
character ends where they do (`exists_takeBytes?_iff`), and a text with a time has digits there, which
are ASCII again. So a text with the same bytes up to letter case has the same characters up to letter
case (`takeBytes?_eq_some_iff_bytes` from right to left), and a numeral of the same value.

* **`takeBytes?_eq_none_iff`** – when a text is too short;
* **`millisOf_eq_ok_iff`** – the texts that have a time, and which;
* **`millisOf_congr`** – texts with the same time;
* **`readers_agree`** – both readers, and what the time of a text depends on.
-/

namespace TimeIds.Alphanumeric

open Text

/-! ## Taking bytes -/

/-- The characters taken are those at the front that have the given number of bytes in all. -/
theorem takeBytes?_eq_some_iff {size : Nat} {cs front : List Char} :
    takeBytes? size cs = some front ↔
      ∃ rest, cs = front ++ rest ∧ (front.flatMap String.utf8EncodeChar).length = size := by
  constructor
  · intro h
    fun_induction takeBytes? size cs generalizing front with
    | case1 cs =>
      cases h
      exact ⟨cs, rfl, rfl⟩
    | case2 => cases h
    | case3 size c rest hfits ih =>
      obtain ⟨more, hmore, rfl⟩ := Option.map_eq_some_iff.1 h
      obtain ⟨rest, rfl, hlength⟩ := ih hmore
      refine ⟨rest, rfl, ?_⟩
      rw [List.flatMap_cons, List.length_append, String.length_utf8EncodeChar, hlength]
      omega
    | case4 => cases h
  · rintro ⟨rest, rfl, rfl⟩
    induction front with
    | nil => simp [takeBytes?]
    | cons c front ih =>
      -- a character has bytes, so there are some to take
      have hpos : 0 < c.utf8Size := c.utf8Size_pos
      rw [List.flatMap_cons, List.length_append, String.length_utf8EncodeChar, List.cons_append]
      obtain ⟨k, hk⟩ : ∃ k, c.utf8Size + (front.flatMap String.utf8EncodeChar).length = k + 1 :=
        ⟨_, (Nat.sub_add_cancel (by omega)).symm⟩
      rw [hk, takeBytes?, if_pos (by omega), ← hk, Nat.add_sub_cancel_left, ih]
      rfl

/-- Bytes can be taken off a text if a character ends where they do. -/
theorem exists_takeBytes?_iff {size : Nat} {s : String} :
    (∃ front, takeBytes? size s.toList = some front) ↔ String.Pos.Raw.IsValid s ⟨size⟩ := by
  rw [String.Pos.Raw.isValid_iff_exists_append]
  constructor
  · rintro ⟨front, h⟩
    obtain ⟨rest, hsplit, hsize⟩ := takeBytes?_eq_some_iff.1 h
    refine ⟨String.ofList front, String.ofList rest, ?_, ?_⟩
    · rw [← String.ofList_append, ← hsplit, String.ofList_toList]
    · rw [← hsize, ← bytes_ofList]
      rfl
  · rintro ⟨s₁, s₂, rfl, hsize⟩
    refine ⟨s₁.toList, takeBytes?_eq_some_iff.2 ⟨s₂.toList, String.toList_append, ?_⟩⟩
    rw [← bytes_eq]
    exact (congrArg String.Pos.Raw.byteIdx hsize).symm

/-- A text is too short if it has too few bytes, or none of its characters ends at the last. -/
theorem takeBytes?_eq_none_iff {size : Nat} {s : String} :
    takeBytes? size s.toList = none ↔
      s.utf8ByteSize < size ∨ ¬ String.Pos.Raw.IsValid s ⟨size⟩ := by
  rw [← exists_takeBytes?_iff, ← Option.isSome_iff_exists]
  constructor
  · intro h
    right
    simp [h]
  · rintro (hshort | hnone)
    · rw [← Option.not_isSome_iff_eq_none, Option.isSome_iff_exists, exists_takeBytes?_iff]
      intro hvalid
      exact absurd hvalid.le_rawEndPos (Nat.not_le.2 hshort)
    · simpa using hnone

/-- The characters taken are those whose bytes stand at the front. -/
theorem takeBytes?_eq_some_iff_bytes {size : Nat} {s : String} {front : List Char} :
    takeBytes? size s.toList = some front ↔
      (bytes s).take size = bytes (String.ofList front) ∧
        (bytes (String.ofList front)).length = size := by
  constructor
  · intro h
    obtain ⟨rest, hsplit, hsize⟩ := takeBytes?_eq_some_iff.1 h
    rw [← bytes_ofList] at hsize
    refine ⟨?_, hsize⟩
    rw [bytes_eq s, hsplit, List.flatMap_append, ← bytes_ofList, List.take_left' hsize]
  · rintro ⟨hbytes, hsize⟩
    have hlength : size ≤ (bytes s).length := by
      rw [← hsize, ← hbytes, List.length_take]
      exact Nat.min_le_right _ _
    -- some characters can be taken, and they have the same bytes
    obtain ⟨front', hfront'⟩ := exists_takeBytes?_iff.2 (isValid_of_take_bytes hbytes hlength)
    obtain ⟨rest, hsplit, hsize'⟩ := takeBytes?_eq_some_iff.1 hfront'
    have hsame : bytes (String.ofList front') = bytes (String.ofList front) := by
      rw [← hbytes, bytes_eq s, hsplit, List.flatMap_append, List.take_left' hsize', bytes_ofList]
    rw [hfront', String.ofList_injective (bytes_injective hsame)]

/-! ## The time of a text -/

/-- The bytes that hold the time of an identifier. -/
def timeBytes (id : String) : List UInt8 := (bytes id).take Base36.timeDigits

/-- The base-36 value of the bytes that hold the time. -/
def timeValue (id : String) : Nat := Base36.valueOf ((timeBytes id).map Char.ofUInt8)

/-- A text has a time if its first bytes are characters that read as a numeral. -/
theorem millisOf_eq_ok_iff {id : String} {offset millis : Millis} :
    millisOf id offset = .ok millis ↔
      ∃ time value, takeBytes? Base36.timeDigits id.toList = some time ∧
        Base36.decode (String.ofList time) = .ok value ∧
        millis = timeAt offset (UInt64.ofNat value) := by
  unfold millisOf
  cases takeBytes? Base36.timeDigits id.toList with
  | none => simp
  | some time =>
    dsimp only
    cases hread : Base36.decode (String.ofList time) with
    | error fault => simp [hread, Except.map, Except.mapError]
    | ok value => simp [hread, Except.map, Except.mapError, eq_comm]

/-- A text is too short exactly if its first bytes cannot be taken. -/
theorem millisOf_eq_shortId_iff {id : String} {offset : Millis} :
    millisOf id offset = .error (.invalidArgument (.shortId id)) ↔
      takeBytes? Base36.timeDigits id.toList = none := by
  unfold millisOf
  cases takeBytes? Base36.timeDigits id.toList with
  | none => simp
  | some time =>
    dsimp only
    cases hread : Base36.decode (String.ofList time) with
    | ok value => simp [Except.map, Except.mapError]
    | error fault =>
      -- what keeps a numeral from being read is something else
      have hfault : fault ≠ .shortId id := by
        rintro rfl
        rcases Base36.decode_eq_error_iff.1 hread with ⟨-, h⟩ | ⟨_, _, _, -, -, ⟨-, h⟩ | ⟨-, -, h⟩⟩
        all_goals cases h
      simp [Except.map, Except.mapError, hfault]

/-- On the ring of 64 bits the time lies past the offset by the value. -/
theorem timeAt_emod (offset : Millis) (value : Nat) :
    ((timeAt offset (UInt64.ofNat value)).toInt - offset.toInt) % 2 ^ 64 =
      (value : Int) % 2 ^ 64 := by
  have htime : (timeAt offset (UInt64.ofNat value)).toInt =
      (offset.toInt + value).bmod (2 ^ 64) := by
    unfold timeAt
    rw [UInt64.toInt64_ofNat', Int64.toInt_add, Int64.toInt_ofNat']
    exact Int.add_bmod_bmod
  have hmod : (offset.toInt + value).bmod (2 ^ 64) % ((2 ^ 64 : Nat) : Int) =
      (offset.toInt + value) % ((2 ^ 64 : Nat) : Int) := Int.bmod_emod
  rw [htime]
  omega

/-! ## Digits and their bytes -/

section Digits

variable {time : List Char} {value : Nat}

theorem ascii_of_decode (h : Base36.decode (String.ofList time) = .ok value) :
    ∀ c ∈ time, c.toNat < 128 := by
  obtain ⟨-, hdigits, -, -⟩ := Base36.decode_eq_ok_iff.1 h
  rw [String.toList_ofList] at hdigits
  exact fun c hc => Base36.toNat_lt_of_isAlphanum (hdigits c hc)

/-- The value that is read is that of the bytes. -/
theorem timeValue_eq {id : String} (htake : takeBytes? Base36.timeDigits id.toList = some time)
    (h : Base36.decode (String.ofList time) = .ok value) : timeValue id = value := by
  obtain ⟨hbytes, -⟩ := takeBytes?_eq_some_iff_bytes.1 htake
  obtain ⟨-, -, hvalue, -⟩ := Base36.decode_eq_ok_iff.1 h
  unfold timeValue timeBytes
  rw [hbytes, map_ofUInt8_bytes (ascii_of_decode h), hvalue, String.toList_ofList]

end Digits

/-! ## Texts with the same time -/

/-- Bytes that are those of digits, up to letter case, are those of the digits in another case. -/
theorem exists_of_map_lowerByte {bs : List UInt8} {time : List Char}
    (htime : ∀ c ∈ time, c.toNat < 128)
    (h : bs.map lowerByte = (bytes (String.ofList time)).map lowerByte) :
    ∃ time' : List Char, bs = bytes (String.ofList time') ∧
      time.map Char.toLower = time'.map Char.toLower := by
  have hbytes : ∀ b ∈ bytes (String.ofList time), b < 128 := by
    rw [bytes_ofList_of_ascii htime]
    intro b hb
    obtain ⟨c, hc, rfl⟩ := List.mem_map.1 hb
    exact Base36.forall_ascii (fun c => c.toUInt8 < 128) (by decide +kernel) (htime c hc)
  have hascii : ∀ b ∈ bs, b < 128 := by
    intro b hb
    have hmem : lowerByte b ∈ (bytes (String.ofList time)).map lowerByte :=
      h ▸ List.mem_map_of_mem hb
    obtain ⟨b', hb', hlower⟩ := List.mem_map.1 hmem
    apply lt_of_lowerByte_lt
    rw [← hlower]
    exact lowerByte_lt b' (hbytes b' hb')
  refine ⟨bs.map Char.ofUInt8, (bytes_ofList_map_ofUInt8 hascii).symm, ?_⟩
  rw [map_toLower_ofUInt8 hascii, h, ← map_toLower_ofUInt8 hbytes, map_ofUInt8_bytes htime]

/-- The time of a text depends on the first bytes alone, and not on their letter case. -/
theorem millisOf_congr {id id' : String} {offset millis : Millis}
    (hbytes : (timeBytes id').map lowerByte = (timeBytes id).map lowerByte)
    (h : millisOf id offset = .ok millis) : millisOf id' offset = .ok millis := by
  obtain ⟨time, value, htake, hread, hmillis⟩ := millisOf_eq_ok_iff.1 h
  obtain ⟨hfirst, hsize⟩ := takeBytes?_eq_some_iff_bytes.1 htake
  have hlower : (timeBytes id').map lowerByte = (bytes (String.ofList time)).map lowerByte := by
    rw [hbytes, ← hfirst]
    rfl
  obtain ⟨time', hfirst', htimes⟩ := exists_of_map_lowerByte (ascii_of_decode hread) hlower
  have hsize' : (bytes (String.ofList time')).length = Base36.timeDigits := by
    rw [← hfirst', ← hsize]
    simpa using congrArg List.length hlower
  have htake' : takeBytes? Base36.timeDigits id'.toList = some time' :=
    takeBytes?_eq_some_iff_bytes.2 ⟨hfirst', hsize'⟩
  exact millisOf_eq_ok_iff.2 ⟨time', value, htake', Base36.decode_congr htimes hread, hmillis⟩

/-! ## Both readers -/

/-- Where `parse` accepts, `millisOf` finds the same time. -/
theorem millisOf_of_parse {id : String} {suffixDigits : Nat} {parsed : ParsedId}
    (h : parse id suffixDigits = .ok parsed) (offset : Millis) :
    millisOf id offset = .ok (parsed.millis offset) := by
  obtain ⟨hwidth, s, hs⟩ := exists_parse_iff.1 ⟨parsed, h⟩
  rw [hs.parse_eq hwidth] at h
  cases h
  obtain rfl : id = idText suffixDigits s.position s.serial := hs.text
  exact millisOf_idText hs.fits offset

/-- **The readers of an identifier agree.** A text that `parse` accepts, with a suffix of any width,
has for `millisOf` the time that it was parsed with. The time of any text that has one lies past the
offset by the base-36 value of its first thirteen bytes, modulo `2 ^ 64` and whatever the offset, and
it is the time of every text with the same bytes there up to letter case. A text is too short exactly
if it has fewer than thirteen bytes or the thirteenth does not end a character. -/
theorem readers_agree (id : String) :
    (∀ (suffixDigits : Nat) (parsed : ParsedId) (offset : Millis),
      parse id suffixDigits = .ok parsed → millisOf id offset = .ok (parsed.millis offset)) ∧
    (∀ offset millis : Millis, millisOf id offset = .ok millis →
      (∀ offset' : Millis, ∃ millis', millisOf id offset' = .ok millis' ∧
        (millis'.toInt - offset'.toInt) % 2 ^ 64 = (timeValue id : Int) % 2 ^ 64) ∧
      ∀ id' : String, (timeBytes id').map lowerByte = (timeBytes id).map lowerByte →
        ∀ offset' : Millis, millisOf id' offset' = millisOf id offset') ∧
    ∀ offset : Millis, millisOf id offset = .error (.invalidArgument (.shortId id)) ↔
      id.utf8ByteSize < 13 ∨ ¬ String.Pos.Raw.IsValid id ⟨13⟩ := by
  refine ⟨fun _ parsed offset h => millisOf_of_parse h offset, ?_, ?_⟩
  · intro offset millis h
    obtain ⟨time, value, htake, hread, -⟩ := millisOf_eq_ok_iff.1 h
    have hanywhere (offset' : Millis) :
        millisOf id offset' = .ok (timeAt offset' (UInt64.ofNat value)) :=
      millisOf_eq_ok_iff.2 ⟨time, value, htake, hread, rfl⟩
    refine ⟨fun offset' => ⟨_, hanywhere offset', ?_⟩, fun id' hbytes offset' => ?_⟩
    · rw [timeAt_emod, timeValue_eq htake hread]
    · rw [hanywhere, millisOf_congr hbytes (hanywhere offset')]
  · intro offset
    rw [millisOf_eq_shortId_iff]
    exact takeBytes?_eq_none_iff

/-- A time segment nine laps past the ring, which other letters and another suffix leave as it is; and
a character of two bytes that the thirteenth byte does not end. -/
theorem readers_agree_past_the_ring :
    millisOf "zzzzzzzzzzzzz0z" (-7) =
      .ok ((⟨"zzzzzzzzzzzzz0z", 4561031516192243711, 35⟩ : ParsedId).millis (-7)) ∧
    (∃ millis, millisOf "zzzzzzzzzzzzz0z" 5 = .ok millis ∧
      (millis.toInt - 5) % 2 ^ 64 = (36 ^ 13 - 1) % 2 ^ 64) ∧
    millisOf "zZzZzZzZzZzZzé" 5 = millisOf "zzzzzzzzzzzzz0z" 5 ∧
    millisOf "zzzzzzzzzzzzé" 5 = .error (.invalidArgument (.shortId "zzzzzzzzzzzzé")) ∧
    ¬ String.Pos.Raw.IsValid "zzzzzzzzzzzzé" ⟨13⟩ := by
  have hparse : parse "zzzzzzzzzzzzz0z" 2 =
      .ok ⟨"zzzzzzzzzzzzz0z", 4561031516192243711, 35⟩ := by rfl
  have hcut : millisOf "zzzzzzzzzzzzé" 5 =
      .error (.invalidArgument (.shortId "zzzzzzzzzzzzé")) := by rfl
  have hsize : ¬ "zzzzzzzzzzzzé".utf8ByteSize < 13 := by decide
  have hcase : (timeBytes "zZzZzZzZzZzZzé").map lowerByte =
      (timeBytes "zzzzzzzzzzzzz0z").map lowerByte := by decide +kernel
  have hvalue : timeValue "zzzzzzzzzzzzz0z" = 36 ^ 13 - 1 := by decide +kernel
  obtain ⟨hsame, hdepends, -⟩ := readers_agree "zzzzzzzzzzzzz0z"
  obtain ⟨-, -, hshort⟩ := readers_agree "zzzzzzzzzzzzé"
  have htime := hsame 2 _ (-7) hparse
  obtain ⟨hanywhere, halike⟩ := hdepends (-7) _ htime
  obtain ⟨millis, hmillis, hdistance⟩ := hanywhere 5
  rw [hvalue] at hdistance
  exact ⟨htime, ⟨millis, hmillis, hdistance⟩, halike _ hcase 5, hcut,
    ((hshort 5).1 hcut).resolve_left hsize⟩

end TimeIds.Alphanumeric
