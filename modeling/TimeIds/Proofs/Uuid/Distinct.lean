import Mathlib.Data.UInt
import TimeIds.Proofs.Node.Interleaved
import TimeIds.Proofs.Uuid.Layout
import TimeIds.Proofs.Uuid.Run

/-!
# When a run gives a UUID twice

The primary node compares ticks in all their 64 bits, but a UUID has room for 60. Of two calls, the
second can repeat the UUID of the first if the sequence is the same again, which takes a full round
of bumps or none, and if the ticks agree in the low 60 bits. Without a bump the ticks ascend, so
they then lie a multiple of `2 ^ 60` apart.

* **`Node.uuid_eq_after_iff`** – when a run of a node comes back to a UUID;
* **`Running.between_of_records_eq`** – two calls are the ends of a run of the primary node;
* **`Running.uuids_distinct_in_sixty_bits`** – less than a round of bumps gives no UUID twice,
  unless the ticks pass the 60 bits.
-/

namespace TimeIds

/-! ## The UUIDs of one node -/

namespace Node

/-- A run comes back to a UUID if its tick does, in the low 60 bits, and its bumps make whole rounds
of the sequence. -/
theorem uuid_eq_after_iff (n : Node) (readings : List Reading) (id : NodeId) :
    Uuid.ofTimestamp n.stamp id = Uuid.ofTimestamp (n.after readings).stamp id ↔
      n.lastTicks.toNat % 2 ^ 60 = (n.after readings).lastTicks.toNat % 2 ^ 60 ∧
        2 ^ 14 ∣ bumpCount (n.marks readings) := by
  have hsequence : n.clockSequence.toNat % 2 ^ 14 =
      (n.after readings).clockSequence.toNat % 2 ^ 14 ↔
        2 ^ 14 ∣ bumpCount (n.marks readings) := by
    rw [toNat_after_mod, Nat.dvd_iff_mod_eq_zero]
    omega
  rw [Uuid.ofTimestamp_eq_iff, ← hsequence]
  simp [stamp]

/-- With less than a round of bumps, a run comes back to a UUID without any, on a later tick. -/
theorem uuid_eq_after_iff_of_few {n : Node} {readings : List Reading} {ticks : Ticks}
    (hfew : bumpCount (n.marks (readings ++ [some ticks])) < 2 ^ 14) (id : NodeId) :
    Uuid.ofTimestamp n.stamp id = Uuid.ofTimestamp (n.after (readings ++ [some ticks])).stamp id ↔
      bumpCount (n.marks (readings ++ [some ticks])) = 0 ∧ n.lastTicks < ticks ∧
        2 ^ 60 ∣ ticks.toNat - n.lastTicks.toNat := by
  rw [uuid_eq_after_iff, lastTicks_after_append]
  constructor
  · rintro ⟨hticks, hround⟩
    -- whole rounds, but less than one, are none; then the ticks ascend
    have hquiet : bumpCount (n.marks (readings ++ [some ticks])) = 0 :=
      Nat.eq_zero_of_dvd_of_lt hround hfew
    have hlt := lastTicks_lt_of_quiet hquiet
    refine ⟨hquiet, hlt, ?_⟩
    rw [UInt64.lt_iff_toNat_lt] at hlt
    omega
  · rintro ⟨hquiet, hlt, hmultiple⟩
    rw [UInt64.lt_iff_toNat_lt] at hlt
    rw [hquiet]
    exact ⟨by omega, Nat.dvd_zero _⟩

end Node

/-! ## The UUIDs of a generator -/

namespace Running

variable {σ : Type} [Disk (StateM σ)]

variable {s : Running σ} {calls : List Call} {before between rest : List CallRecord}
  {a b : CallRecord} {t t' : Timestamp} {u u' : Uuid}

/-- The UUIDs that a run gives. -/
def uuids (s : Running σ) (calls : List Call) : List Uuid :=
  (s.records calls).filterMap (·.result.toOption)

/-- A record of a run is that of a call, whose UUID has the timestamp issued for the reading. -/
theorem exists_call_of_mem_records {r : CallRecord} (h : r ∈ s.records calls) :
    ∃ c ∈ calls, r.result = r.outcome.map (Uuid.ofTimestamp · s.primary.id) ∧
      ∀ t, r.outcome = .ok t → c.reading = some t.ticks := by
  obtain ⟨before, later, hcut⟩ := List.append_of_mem h
  obtain ⟨calls₁, c, calls₂, rfl, -, rfl, -⟩ := exists_call_of_records_eq hcut
  refine ⟨c, by simp, ?_, fun t ht => Node.reading_of_mark ht⟩
  have hid : (s.after calls₁).primary.id = s.primary.id := by rw [primary_after, Node.after_id]
  rw [result_record, hid]
  rfl

/-- A UUID of a run is laid out from a timestamp that was issued, on the primary node. -/
theorem exists_stamp_of_result {r : CallRecord} (h : r ∈ s.records calls)
    (hu : r.result.toOption = some u) :
    ∃ t, r.outcome = .ok t ∧ u = Uuid.ofTimestamp t s.primary.id := by
  obtain ⟨c, -, hresult, -⟩ := exists_call_of_mem_records h
  rw [hresult] at hu
  cases hout : r.outcome with
  | error e =>
    rw [hout] at hu
    cases hu
  | ok t =>
    rw [hout] at hu
    cases hu
    exact ⟨t, rfl, rfl⟩

/-- Between two calls that issued timestamps, the primary node makes a run of its own: it begins in
the state that the first call issued and ends in the one that the second issued. -/
theorem between_of_records_eq (hcut : s.records calls = before ++ a :: (between ++ b :: rest))
    (ht : a.outcome = .ok t) (ht' : b.outcome = .ok t') :
    ∃ (n : Node) (readings : List Reading), t = n.stamp ∧
      t' = (n.after (readings ++ [some t'.ticks])).stamp ∧
      (between ++ [b]).map CallRecord.toMark = n.marks (readings ++ [some t'.ticks]) := by
  obtain ⟨calls₁, c, calls₂, -, -, rfl, hlater⟩ := exists_call_of_records_eq hcut
  obtain ⟨calls₃, c', calls₄, -, hbetween, rfl, -⟩ := exists_call_of_records_eq hlater.symm
  have hreading : c'.reading = some t'.ticks := Node.reading_of_mark ht'
  refine ⟨((s.after calls₁).step c).primary, calls₃.map Call.reading, ?_, ?_, ?_⟩
  · rw [primary_step]
    exact Node.stamp_of_mark ht
  · rw [← hreading, Node.after_append, ← primary_after]
    exact Node.stamp_of_mark ht'
  · have hend : between ++ [((s.after calls₁).step c |>.after calls₃).record c'] =
        ((s.after calls₁).step c).records (calls₃ ++ [c']) := by
      rw [records_append, hbetween]
      rfl
    rw [hend, marks_records, List.map_append, List.map_singleton, hreading]

theorem bumpCount_between_le (hcut : s.records calls = before ++ a :: (between ++ b :: rest)) :
    bumpCount ((between ++ [b]).map CallRecord.toMark) ≤
      bumpCount ((s.records calls).map CallRecord.toMark) := by
  have hwithin : between ++ [b] <:+: s.records calls := by
    refine ⟨before ++ [a], rest, ?_⟩
    rw [hcut]
    simp
  exact (hwithin.sublist.map _).countP_le

theorem uuid_eq_iff_of_records
    (hfew : bumpCount ((s.records calls).map CallRecord.toMark) < 2 ^ 14)
    (hcut : s.records calls = before ++ a :: (between ++ b :: rest))
    (ht : a.outcome = .ok t) (ht' : b.outcome = .ok t') (id : NodeId) :
    Uuid.ofTimestamp t id = Uuid.ofTimestamp t' id ↔
      bumpCount ((between ++ [b]).map CallRecord.toMark) = 0 ∧ t.ticks < t'.ticks ∧
        2 ^ 60 ∣ t'.ticks.toNat - t.ticks.toNat := by
  -- the calls between the two are a run of the primary node, with no more bumps than the whole run
  have hle := bumpCount_between_le hcut
  obtain ⟨n, readings, hn, hafter, hmarks⟩ := between_of_records_eq hcut ht ht'
  rw [hmarks] at hle ⊢
  have hiff := Node.uuid_eq_after_iff_of_few (Nat.lt_of_le_of_lt hle hfew) id
  rw [← hafter, ← hn] at hiff
  rw [hiff, hn]
  rfl

/-- **When a run gives a UUID twice.** In a run that bumps the sequence fewer than `2 ^ 14` times,
two calls give the same UUID exactly if no call after the first, up to the second, bumps, and the
later tick lies a multiple of `2 ^ 60` past the earlier one. So the UUIDs are pairwise distinct if
readings that agree in the low 60 bits are equal. -/
theorem uuids_distinct_in_sixty_bits (s : Running σ) (calls : List Call)
    (hfew : bumpCount ((s.records calls).map CallRecord.toMark) < 2 ^ 14) :
    (∀ before a between b rest, s.records calls = before ++ a :: (between ++ b :: rest) →
      ∀ t t' u u', a.outcome = .ok t → b.outcome = .ok t' → a.result = .ok u → b.result = .ok u' →
        (u = u' ↔ bumpCount ((between ++ [b]).map CallRecord.toMark) = 0 ∧ t.ticks < t'.ticks ∧
          2 ^ 60 ∣ t'.ticks.toNat - t.ticks.toNat)) ∧
      ((∀ c ∈ calls, ∀ c' ∈ calls, ∀ ticks ∈ c.reading, ∀ ticks' ∈ c'.reading,
          ticks.toNat % 2 ^ 60 = ticks'.toNat % 2 ^ 60 → ticks = ticks') →
        (s.uuids calls).Nodup) := by
  constructor
  · intro before a between b rest hcut t t' u u' ht ht' hu hu'
    obtain ⟨t₁, ht₁, rfl⟩ := exists_stamp_of_result (by rw [hcut]; simp) (congrArg _ hu)
    obtain ⟨t₂, ht₂, rfl⟩ := exists_stamp_of_result (by rw [hcut]; simp) (congrArg _ hu')
    cases ht.symm.trans ht₁
    cases ht'.symm.trans ht₂
    exact uuid_eq_iff_of_records hfew hcut ht ht' _
  · intro hreadings
    refine List.pairwise_filterMap.2 (Node.pairwise_of_cuts ?_)
    rintro before a between b rest hcut u hu u' hu' heq
    have ha : a ∈ s.records calls := by rw [hcut]; simp
    have hb : b ∈ s.records calls := by rw [hcut]; simp
    obtain ⟨t, ht, rfl⟩ := exists_stamp_of_result ha hu
    obtain ⟨t', ht', rfl⟩ := exists_stamp_of_result hb hu'
    obtain ⟨-, hlt, hmultiple⟩ := (uuid_eq_iff_of_records hfew hcut ht ht' _).1 heq
    -- the two ticks are readings that agree in the low 60 bits
    obtain ⟨c, hc, -, hcreading⟩ := exists_call_of_mem_records ha
    obtain ⟨c', hc', -, hcreading'⟩ := exists_call_of_mem_records hb
    have hticks := hreadings c hc c' hc' _ (hcreading t ht) _ (hcreading' t' ht')
      (by rw [UInt64.lt_iff_toNat_lt] at hlt; omega)
    rw [hticks] at hlt
    exact UInt64.lt_irrefl _ hlt

/-- A generator on a node that is kept in memory only. -/
def inMemory (n : Node) : Running FileTree :=
  ⟨.ofRegistry { store := .memory [n], primary := n, lastFlush := 0 }, {}⟩

/-- A clock that stands still and then steps back. -/
theorem uuids_distinct_on_a_stuck_clock :
    bumpCount (((inMemory ⟨⟨130, 0, 0, 0, 0, 1⟩, 0, 5⟩).records
        [⟨some 9, 0⟩, ⟨some 9, 0⟩, ⟨some 3, 0⟩]).map CallRecord.toMark) < 2 ^ 14 ∧
      ((inMemory ⟨⟨130, 0, 0, 0, 0, 1⟩, 0, 5⟩).uuids
        [⟨some 9, 0⟩, ⟨some 9, 0⟩, ⟨some 3, 0⟩]).Nodup := by
  generalize hs : inMemory ⟨⟨130, 0, 0, 0, 0, 1⟩, 0, 5⟩ = s
  have hfew : bumpCount ((s.records [⟨some 9, 0⟩, ⟨some 9, 0⟩, ⟨some 3, 0⟩]).map
      CallRecord.toMark) < 2 ^ 14 := by
    rw [← hs]
    decide
  refine ⟨hfew, (uuids_distinct_in_sixty_bits s _ hfew).2 ?_⟩
  simp

/-- Two readings `2 ^ 60` ticks apart, with no bump between them, give one UUID. -/
theorem uuids_repeat_past_sixty_bits :
    bumpCount (((inMemory ⟨⟨130, 0, 0, 0, 0, 1⟩, 0, 5⟩).records
        [⟨some 1, 0⟩, ⟨some (2 ^ 60 + 1), 0⟩]).map CallRecord.toMark) < 2 ^ 14 ∧
      ¬((inMemory ⟨⟨130, 0, 0, 0, 0, 1⟩, 0, 5⟩).uuids
        [⟨some 1, 0⟩, ⟨some (2 ^ 60 + 1), 0⟩]).Nodup := by
  decide +kernel

end Running
end TimeIds
