import TimeIds.Uuid.Layout

/-!
# What a UUID keeps of its parts

A UUID has room for 60 bits of the tick and 14 of the clock sequence. Its fields are sections of
these numbers, with the version and the variant in the bits above (`toNat_timeLow` and the lemmas
after it), so two UUIDs are equal exactly if the parts agree in the bits that there is room for.
-/

namespace TimeIds.Uuid

/-- Setting a bit above a masked value adds that bit. -/
theorem and_or_eq_add (x : Nat) {width bit : Nat} (h : width ≤ bit) :
    (x &&& (2 ^ width - 1)) ||| 2 ^ bit = x % 2 ^ width + 2 ^ bit := by
  have hlt : x % 2 ^ width < 2 ^ bit :=
    Nat.lt_of_lt_of_le (Nat.mod_lt _ (Nat.two_pow_pos width)) (Nat.pow_le_pow_right (by decide) h)
  have hor := Nat.two_pow_add_eq_or_of_lt hlt 1
  rw [Nat.mul_one] at hor
  rw [Nat.and_two_pow_sub_one_eq_mod, Nat.or_comm, ← hor, Nat.add_comm]

/-! ## The fields as numbers -/

section Fields

variable (t : Timestamp) (node : NodeId)

theorem toNat_timeLow : (ofTimestamp t node).timeLow.toNat = t.ticks.toNat % 2 ^ 32 := by
  show t.ticks.toUInt32.toNat = _
  exact UInt64.toNat_toUInt32 _

theorem toNat_timeMid :
    (ofTimestamp t node).timeMid.toNat = t.ticks.toNat / 2 ^ 32 % 2 ^ 16 := by
  show (t.ticks >>> 32).toUInt16.toNat = _
  rw [UInt64.toNat_toUInt16, UInt64.toNat_shiftRight]
  show t.ticks.toNat >>> 32 % 2 ^ 16 = _
  rw [Nat.shiftRight_eq_div_pow]

theorem toNat_timeHighAndVersion :
    (ofTimestamp t node).timeHighAndVersion.toNat =
      t.ticks.toNat / 2 ^ 48 % 2 ^ 12 + 2 ^ 12 := by
  show (((t.ticks >>> 48).toUInt16 &&& 0x0FFF) ||| 0x1000).toNat = _
  rw [UInt16.toNat_or, UInt16.toNat_and, UInt64.toNat_toUInt16, UInt64.toNat_shiftRight]
  show (t.ticks.toNat >>> 48 % 2 ^ 16 &&& (2 ^ 12 - 1)) ||| 2 ^ 12 = _
  rw [and_or_eq_add _ (by decide), Nat.shiftRight_eq_div_pow]
  omega

theorem toNat_sequenceHighAndVariant :
    (ofTimestamp t node).sequenceHighAndVariant.toNat =
      t.clockSequence.toNat / 2 ^ 8 % 2 ^ 6 + 2 ^ 7 := by
  show (((t.clockSequence >>> 8).toUInt8 &&& 0x3F) ||| 0x80).toNat = _
  rw [UInt8.toNat_or, UInt8.toNat_and, UInt16.toNat_toUInt8, UInt16.toNat_shiftRight]
  show (t.clockSequence.toNat >>> 8 % 2 ^ 8 &&& (2 ^ 6 - 1)) ||| 2 ^ 7 = _
  rw [and_or_eq_add _ (by decide), Nat.shiftRight_eq_div_pow]
  omega

theorem toNat_sequenceLow :
    (ofTimestamp t node).sequenceLow.toNat = t.clockSequence.toNat % 2 ^ 8 := by
  show t.clockSequence.toUInt8.toNat = _
  exact UInt16.toNat_toUInt8 _

end Fields

/-- UUIDs are equal if their fields are, as numbers. -/
theorem eq_iff_toNat {u v : Uuid} :
    u = v ↔ u.timeLow.toNat = v.timeLow.toNat ∧ u.timeMid.toNat = v.timeMid.toNat ∧
      u.timeHighAndVersion.toNat = v.timeHighAndVersion.toNat ∧
      u.sequenceHighAndVariant.toNat = v.sequenceHighAndVariant.toNat ∧
      u.sequenceLow.toNat = v.sequenceLow.toNat ∧ u.node = v.node := by
  cases u
  cases v
  simp only [Uuid.mk.injEq, UInt32.toNat_inj, UInt16.toNat_inj, UInt8.toNat_inj]

/-- **When two UUIDs are the same**: their ticks agree in the low 60 bits, their clock sequences in
the low 14, and they are of one node. -/
theorem ofTimestamp_eq_iff {t t' : Timestamp} {node node' : NodeId} :
    ofTimestamp t node = ofTimestamp t' node' ↔
      t.ticks.toNat % 2 ^ 60 = t'.ticks.toNat % 2 ^ 60 ∧
        t.clockSequence.toNat % 2 ^ 14 = t'.clockSequence.toNat % 2 ^ 14 ∧ node = node' := by
  have hnode (t : Timestamp) (node : NodeId) : (ofTimestamp t node).node = node := rfl
  rw [eq_iff_toNat]
  simp only [toNat_timeLow, toNat_timeMid, toNat_timeHighAndVersion, toNat_sequenceHighAndVariant,
    toNat_sequenceLow, hnode]
  -- a number is its sections: 32, 16 and 12 bits of the tick, 6 and 8 of the sequence
  constructor
  · rintro ⟨hlow, hmid, hhigh, hsequenceHigh, hsequenceLow, rfl⟩
    exact ⟨by omega, by omega, rfl⟩
  · rintro ⟨hticks, hsequence, rfl⟩
    exact ⟨by omega, by omega, by omega, by omega, by omega, rfl⟩

end TimeIds.Uuid
