import Mathlib.Data.Set.Function
import TimeIds.Proofs.Uuid.Layout

/-!
# The parts of a UUID

A version-1 UUID is its time, its clock sequence and its node. The parts are read off the fields as
numbers (`toNat_time?`, `toNat_clockSequence?`), so that laying them out again is arithmetic on
sections: what a field holds below its version or variant bits is what the part had there.

* **`ofTimestamp_of_parts`** – a UUID of the standard form is laid out again from its parts;
* **`bijOn_ofTimestamp`** – 60 bits of time, 14 of sequence and a node are exactly the UUIDs of the
  standard form;
* **`layout_keeps_parts`** – both, and that UUIDs of other versions have none of the parts.
-/

namespace TimeIds.Uuid

/-- The two bits above the clock sequence. -/
def variant (u : Uuid) : Nat := (u.sequenceHighAndVariant >>> 6).toNat

/-- A UUID with the version nibble 1 and the variant bits 10. -/
structure Standard (u : Uuid) : Prop where
  version : u.version = 1
  variant : u.variant = 2

/-! ## Version and variant as sections of fields -/

/-- The version is what stands above the low 12 bits of its field. -/
theorem version_eq (u : Uuid) : u.version = u.timeHighAndVersion.toNat / 2 ^ 12 := by
  unfold version
  rw [UInt16.toNat_shiftRight]
  show u.timeHighAndVersion.toNat >>> 12 = _
  rw [Nat.shiftRight_eq_div_pow]

/-- The variant is what stands above the low 6 bits of its field. -/
theorem variant_eq (u : Uuid) : u.variant = u.sequenceHighAndVariant.toNat / 2 ^ 6 := by
  unfold variant
  rw [UInt8.toNat_shiftRight]
  show u.sequenceHighAndVariant.toNat >>> 6 = _
  rw [Nat.shiftRight_eq_div_pow]

theorem standard_ofTimestamp (t : Timestamp) (node : NodeId) : (ofTimestamp t node).Standard := by
  constructor
  · rw [version_eq, toNat_timeHighAndVersion]
    omega
  · rw [variant_eq, toNat_sequenceHighAndVariant]
    omega

/-! ## Parts as numbers -/

theorem ifTimeBased_of_version {u : Uuid} (h : u.version = 1) {α : Type} (part : α) :
    u.ifTimeBased part = some part := if_pos h

theorem ifTimeBased_of_version_ne {u : Uuid} (h : u.version ≠ 1) {α : Type} (part : α) :
    u.ifTimeBased part = none := if_neg h

/-- The time is put together from the three fields that hold its sections. -/
theorem toNat_time? {u : Uuid} (h : u.version = 1) :
    u.time?.map UInt64.toNat = some (u.timeHighAndVersion.toNat % 2 ^ 12 * 2 ^ 48 +
      (u.timeMid.toNat * 2 ^ 32 + u.timeLow.toNat)) := by
  have hlow : u.timeLow.toNat < 2 ^ 32 := u.timeLow.toNat_lt
  have hmid : u.timeMid.toNat < 2 ^ 16 := u.timeMid.toNat_lt
  have hhigh : u.timeHighAndVersion.toNat % 2 ^ 12 < 2 ^ 12 := Nat.mod_lt _ (by decide)
  -- nothing is lost when the sections are moved to their places
  have hhighFits : (u.timeHighAndVersion.toNat % 2 ^ 12) <<< 48 % 2 ^ 64 =
      (u.timeHighAndVersion.toNat % 2 ^ 12) <<< 48 := by
    rw [Nat.shiftLeft_eq]
    omega
  have hmidFits : u.timeMid.toNat <<< 32 % 2 ^ 64 = u.timeMid.toNat <<< 32 := by
    rw [Nat.shiftLeft_eq]
    omega
  have hbelow : u.timeMid.toNat <<< 32 + u.timeLow.toNat < 2 ^ 48 := by
    rw [Nat.shiftLeft_eq]
    omega
  unfold time?
  rw [ifTimeBased_of_version h, Option.map_some, UInt64.toNat_or, UInt64.toNat_or,
    UInt64.toNat_shiftLeft, UInt64.toNat_shiftLeft, UInt16.toNat_toUInt64, UInt16.toNat_toUInt64,
    UInt32.toNat_toUInt64, UInt16.toNat_and]
  show some (((u.timeHighAndVersion.toNat &&& (2 ^ 12 - 1)) <<< 48 % 2 ^ 64 |||
    u.timeMid.toNat <<< 32 % 2 ^ 64) ||| u.timeLow.toNat) = _
  -- sections that do not overlap are joined by adding them
  rw [Nat.and_two_pow_sub_one_eq_mod, hhighFits, hmidFits, Nat.or_assoc,
    ← Nat.shiftLeft_add_eq_or_of_lt hlow, ← Nat.shiftLeft_add_eq_or_of_lt hbelow, Nat.shiftLeft_eq,
    Nat.shiftLeft_eq]

/-- The clock sequence is put together from two fields. -/
theorem toNat_clockSequence? {u : Uuid} (h : u.version = 1) :
    u.clockSequence?.map UInt16.toNat =
      some (u.sequenceHighAndVariant.toNat % 2 ^ 6 * 2 ^ 8 + u.sequenceLow.toNat) := by
  have hlow : u.sequenceLow.toNat < 2 ^ 8 := u.sequenceLow.toNat_lt
  have hhighFits : (u.sequenceHighAndVariant.toNat % 2 ^ 6) <<< 8 % 2 ^ 16 =
      (u.sequenceHighAndVariant.toNat % 2 ^ 6) <<< 8 := by
    rw [Nat.shiftLeft_eq]
    omega
  unfold clockSequence?
  rw [ifTimeBased_of_version h, Option.map_some, UInt16.toNat_or, UInt16.toNat_shiftLeft,
    UInt8.toNat_toUInt16, UInt8.toNat_toUInt16, UInt8.toNat_and]
  show some ((u.sequenceHighAndVariant.toNat &&& (2 ^ 6 - 1)) <<< 8 % 2 ^ 16 |||
    u.sequenceLow.toNat) = _
  rw [Nat.and_two_pow_sub_one_eq_mod, hhighFits, ← Nat.shiftLeft_add_eq_or_of_lt hlow,
    Nat.shiftLeft_eq]

/-! ## From a timestamp to the parts -/

/-- Of a tick 60 bits come out again. -/
theorem time?_ofTimestamp (t : Timestamp) (node : NodeId) :
    (ofTimestamp t node).time?.map UInt64.toNat = some (t.ticks.toNat % 2 ^ 60) := by
  rw [toNat_time? (standard_ofTimestamp t node).version, toNat_timeHighAndVersion, toNat_timeMid,
    toNat_timeLow]
  congr 1
  omega

theorem clockSequence?_ofTimestamp (t : Timestamp) (node : NodeId) :
    (ofTimestamp t node).clockSequence?.map UInt16.toNat =
      some (t.clockSequence.toNat % 2 ^ 14) := by
  rw [toNat_clockSequence? (standard_ofTimestamp t node).version, toNat_sequenceHighAndVariant,
    toNat_sequenceLow]
  congr 1
  omega

theorem node?_ofTimestamp (t : Timestamp) (node : NodeId) :
    (ofTimestamp t node).node? = some node :=
  ifTimeBased_of_version (standard_ofTimestamp t node).version node

/-! ## From the parts to the UUID -/

/-- **A UUID of the standard form is laid out again from its parts**, and these are within the room
that there is for them. -/
theorem ofTimestamp_of_parts {u : Uuid} (hu : u.Standard) :
    ∃ t node, u.time? = some t.ticks ∧ u.clockSequence? = some t.clockSequence ∧
      u.node? = some node ∧ t.ticks.toNat < 2 ^ 60 ∧ t.clockSequence.toNat < 2 ^ 14 ∧
      ofTimestamp t node = u := by
  have hversion := hu.version
  have hvariant := hu.variant
  rw [version_eq] at hversion
  rw [variant_eq] at hvariant
  have hlow : u.timeLow.toNat < 2 ^ 32 := u.timeLow.toNat_lt
  have hmid : u.timeMid.toNat < 2 ^ 16 := u.timeMid.toNat_lt
  have hsequenceLow : u.sequenceLow.toNat < 2 ^ 8 := u.sequenceLow.toNat_lt
  obtain ⟨ticks, htime, hticks⟩ := Option.map_eq_some_iff.1 (toNat_time? hu.version)
  obtain ⟨sequence, hclock, hsequence⟩ := Option.map_eq_some_iff.1 (toNat_clockSequence? hu.version)
  refine ⟨⟨ticks, sequence⟩, u.node, htime, hclock, ifTimeBased_of_version hu.version u.node, ?_, ?_,
    ?_⟩
  · show ticks.toNat < 2 ^ 60
    omega
  · show sequence.toNat < 2 ^ 14
    omega
  · -- each field is a section of a part, with the version and the variant known
    rw [eq_iff_toNat, toNat_timeLow, toNat_timeMid, toNat_timeHighAndVersion,
      toNat_sequenceHighAndVariant, toNat_sequenceLow]
    dsimp only
    rw [hticks, hsequence]
    exact ⟨by omega, by omega, by omega, by omega, by omega, rfl⟩

/-- **Parts and UUIDs correspond one to one**: 60 bits of time, 14 bits of clock sequence and a node
on one side, the UUIDs of the standard form on the other. -/
theorem bijOn_ofTimestamp :
    Set.BijOn (fun p : Timestamp × NodeId => ofTimestamp p.1 p.2)
      {p | p.1.ticks.toNat < 2 ^ 60 ∧ p.1.clockSequence.toNat < 2 ^ 14} {u | u.Standard} := by
  refine ⟨?_, ?_, ?_⟩
  · intro p _
    exact standard_ofTimestamp p.1 p.2
  · -- equal UUIDs agree in the bits there is room for, and these parts have no others
    rintro ⟨t, node⟩ ⟨hticks, hsequence⟩ ⟨t', node'⟩ ⟨hticks', hsequence'⟩ heq
    obtain ⟨htime, hclock, rfl⟩ := ofTimestamp_eq_iff.1 heq
    rw [Nat.mod_eq_of_lt hticks, Nat.mod_eq_of_lt hticks', UInt64.toNat_inj] at htime
    rw [Nat.mod_eq_of_lt hsequence, Nat.mod_eq_of_lt hsequence', UInt16.toNat_inj] at hclock
    cases t
    cases t'
    simp_all
  · intro u hu
    obtain ⟨t, node, -, -, -, hticks, hsequence, rfl⟩ := ofTimestamp_of_parts hu
    exact ⟨(t, node), ⟨hticks, hsequence⟩, rfl⟩

/-- **What a UUID is made of can be taken out again.** The UUID of any tick, sequence and node has
the version nibble 1 and the variant bits 10, and gives back the tick modulo `2 ^ 60`, the sequence
modulo `2 ^ 14` and the node. Any UUID with that version and variant is laid out again from the parts
taken out of it, so such UUIDs and the parts that fit them correspond one to one. A UUID of another
version gives none of the parts. -/
theorem layout_keeps_parts :
    (∀ (t : Timestamp) (node : NodeId),
      (ofTimestamp t node).version = 1 ∧ (ofTimestamp t node).variant = 2 ∧
      (ofTimestamp t node).time?.map UInt64.toNat = some (t.ticks.toNat % 2 ^ 60) ∧
      (ofTimestamp t node).clockSequence?.map UInt16.toNat =
        some (t.clockSequence.toNat % 2 ^ 14) ∧
      (ofTimestamp t node).node? = some node) ∧
    (∀ u : Uuid, u.version = 1 → u.variant = 2 →
      ∃ t node, u.time? = some t.ticks ∧ u.clockSequence? = some t.clockSequence ∧
        u.node? = some node ∧ ofTimestamp t node = u) ∧
    Set.BijOn (fun p : Timestamp × NodeId => ofTimestamp p.1 p.2)
      {p | p.1.ticks.toNat < 2 ^ 60 ∧ p.1.clockSequence.toNat < 2 ^ 14}
      {u | u.Standard} ∧
    ∀ u : Uuid, u.version ≠ 1 → u.time? = none ∧ u.clockSequence? = none ∧ u.node? = none := by
  refine ⟨?_, ?_, bijOn_ofTimestamp, ?_⟩
  · intro t node
    have hform := standard_ofTimestamp t node
    exact ⟨hform.version, hform.variant, time?_ofTimestamp t node,
      clockSequence?_ofTimestamp t node, node?_ofTimestamp t node⟩
  · intro u hversion hvariant
    obtain ⟨t, node, htime, hclock, hnode, -, -, heq⟩ := ofTimestamp_of_parts ⟨hversion, hvariant⟩
    exact ⟨t, node, htime, hclock, hnode, heq⟩
  · intro u hversion
    exact ⟨ifTimeBased_of_version_ne hversion _, ifTimeBased_of_version_ne hversion _,
      ifTimeBased_of_version_ne hversion _⟩

/-- Every bit set, but for the version in the field given and the variant. -/
def allOnes (timeHighAndVersion : UInt16) : Uuid :=
  ⟨0xFFFFFFFF, 0xFFFF, timeHighAndVersion, 0xBF, 0xFF, ⟨255, 255, 255, 255, 255, 255⟩⟩

/-- A time and a sequence with all their bits set come out whole, and under version 4 nothing comes
out. -/
theorem layout_keeps_parts_of_all_ones :
    (allOnes 0x1FFF).version = 1 ∧ (allOnes 0x1FFF).variant = 2 ∧
    (∃ t node, (allOnes 0x1FFF).time? = some t.ticks ∧
      (allOnes 0x1FFF).clockSequence? = some t.clockSequence ∧
      (allOnes 0x1FFF).node? = some node ∧ ofTimestamp t node = allOnes 0x1FFF) ∧
    (allOnes 0x4FFF).version ≠ 1 ∧
    (allOnes 0x4FFF).time? = none ∧ (allOnes 0x4FFF).clockSequence? = none ∧
    (allOnes 0x4FFF).node? = none := by
  have hversion : (allOnes 0x1FFF).version = 1 := by decide
  have hvariant : (allOnes 0x1FFF).variant = 2 := by decide
  have hother : (allOnes 0x4FFF).version ≠ 1 := by decide
  obtain ⟨-, hparts, -, hnone⟩ := layout_keeps_parts
  exact ⟨hversion, hvariant, hparts _ hversion hvariant, hother, hnone _ hother⟩

end TimeIds.Uuid
