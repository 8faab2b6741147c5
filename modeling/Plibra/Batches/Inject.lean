import Plibra.Batches.Basic
import Mathlib.Data.Nat.Find

/-!
# Plibra.Batches.Inject — the probe loop of `inject`

From `next_batch_id` the loop tries the tickets `n, n + 1, n + 2, …` (wrapping at `2^64`) and
stores the batch under the first one that is vacant.  `probe_eq_of_first_vacant` runs the loop
up to that ticket; a pigeonhole argument over the `live + 1` first tickets of the sequence
(`exists_vacant`) shows there is one among them while fewer than `2^64` batches are open.
-/

namespace Plibra

/-! ### Tickets -/

theorem UInt64.toNat_add_eq (a b : UInt64) : (a + b).toNat = (a.toNat + b.toNat) % UInt64.size :=
  BitVec.toNat_add _ _

theorem UInt64.toNat_ofNat_eq (n : Nat) : (UInt64.ofNat n).toNat = n % UInt64.size :=
  BitVec.toNat_ofNat _ _

theorem UInt64.size_eq : UInt64.size = 18446744073709551616 := rfl

theorem UInt64.toNat_one_eq : (1 : UInt64).toNat = 1 := rfl

theorem UInt64.ofNat_succ (n : Nat) : UInt64.ofNat (n + 1) = UInt64.ofNat n + 1 := by
  apply UInt64.toNat.inj
  rw [UInt64.toNat_add_eq, UInt64.toNat_ofNat_eq, UInt64.toNat_ofNat_eq, UInt64.toNat_one_eq,
    UInt64.size_eq]
  omega

theorem UInt64.add_ofNat_zero (n : UInt64) : n + UInt64.ofNat 0 = n := by
  apply UInt64.toNat.inj
  rw [UInt64.toNat_add_eq, UInt64.toNat_ofNat_eq]
  have := n.toNat_lt_size
  rw [UInt64.size_eq] at *
  omega

theorem UInt64.add_one_add_ofNat (n : UInt64) (i : Nat) :
    n + 1 + UInt64.ofNat i = n + UInt64.ofNat (i + 1) := by
  apply UInt64.toNat.inj
  simp only [UInt64.toNat_add_eq, UInt64.toNat_ofNat_eq, UInt64.toNat_one_eq, UInt64.size_eq]
  omega

/-- The first `2^64` tickets from any start are pairwise distinct. -/
theorem UInt64.add_ofNat_inj {n : UInt64} {i j : Nat} (hi : i < UInt64.size) (hj : j < UInt64.size)
    (h : n + UInt64.ofNat i = n + UInt64.ofNat j) : i = j := by
  have := congrArg UInt64.toNat h
  simp only [UInt64.toNat_add_eq, UInt64.toNat_ofNat_eq, UInt64.size_eq] at this hi hj
  omega

namespace BatchesState

variable {T : Type}

/-! ### The probe loop -/

/-- The loop stops at the first vacant ticket `n + j`, after `j + 1` rounds. -/
theorem probe_eq_of_first_vacant (m : Table (BatchState × T)) :
    ∀ (j : Nat) (n : UInt64) (fuel : Nat), j < fuel →
      (∀ i < j, m.contains (n + UInt64.ofNat i) = true) →
      m.contains (n + UInt64.ofNat j) = false →
      probe m n fuel = some (n + UInt64.ofNat j, n + UInt64.ofNat j + 1)
  | j, n, 0, hj, _, _ => absurd hj (Nat.not_lt_zero _)
  | 0, n, fuel + 1, _, _, hv => by
    rw [UInt64.add_ofNat_zero] at hv ⊢
    simp [probe_succ, hv]
  | j + 1, n, fuel + 1, hj, hocc, hv => by
    have h0 := hocc 0 (Nat.succ_pos _)
    rw [UInt64.add_ofNat_zero] at h0
    rw [probe_succ, if_pos h0, ← UInt64.add_one_add_ofNat]
    refine probe_eq_of_first_vacant m j (n + 1) fuel (by omega) (fun i hi => ?_) ?_
    · rw [UInt64.add_one_add_ofNat]; exact hocc (i + 1) (by omega)
    · rwa [UInt64.add_one_add_ofNat]

/-- More rounds than needed change nothing. -/
theorem probe_mono {m : Table (BatchState × T)} {n : UInt64} {fuel fuel' : Nat} {r : UInt64 × UInt64}
    (h : probe m n fuel = some r) (hle : fuel ≤ fuel') : probe m n fuel' = some r := by
  induction fuel generalizing n fuel' with
  | zero => simp [probe_zero] at h
  | succ fuel ih =>
    obtain ⟨fuel', rfl⟩ := Nat.exists_eq_add_of_le' (Nat.lt_of_lt_of_le (Nat.succ_pos fuel) hle)
    rw [probe_succ] at h ⊢
    split_ifs at h ⊢
    · exact ih h (by omega)
    · exact h

/-- The loop stops only at a vacant ticket. -/
theorem probe_vacant {m : Table (BatchState × T)} {n : UInt64} {fuel : Nat} {id next : UInt64}
    (h : probe m n fuel = some (id, next)) : m.contains id = false := by
  induction fuel generalizing n with
  | zero => simp [probe_zero] at h
  | succ fuel ih =>
    rw [probe_succ] at h
    split_ifs at h with hc
    · exact ih h
    · cases h
      simpa using hc

/-- **Pigeonhole.**  While fewer than `2^64` batches are open, one of the tickets
`n, …, n + live` is vacant. -/
theorem exists_vacant (m : Table (BatchState × T)) (n : UInt64) (hm : m.keys.length < UInt64.size) :
    ∃ j ≤ m.keys.length, m.contains (n + UInt64.ofNat j) = false := by
  by_contra hall
  push_neg at hall
  have hnodup : ((List.range (m.keys.length + 1)).map (n + UInt64.ofNat ·)).Nodup :=
    (List.nodup_range _).map_on fun i hi j hj h =>
      UInt64.add_ofNat_inj (by simp at hi; omega) (by simp at hj; omega) h
  have hsub : (List.range (m.keys.length + 1)).map (n + UInt64.ofNat ·) ⊆ m.keys := by
    intro t ht
    obtain ⟨j, hj, rfl⟩ := List.mem_map.mp ht
    simpa [Table.contains] using hall j (Nat.lt_succ_iff.mp (List.mem_range.mp hj))
  have := (List.subperm_of_subset hnodup hsub).length_le
  simp only [List.length_map, List.length_range] at this
  omega

theorem store_get? (s : BatchesState T) (id n : UInt64) (r : Request) (u : T) (t : UInt64) :
    (s.store id n r u).batches.get? t =
      if t = id then some (BatchState.fromRequest r, u) else s.batches.get? t :=
  Table.get?_insert _ _ _ _

/-- **`inject` from any state with fewer than `2^64` open batches.**  With `n` the counter and
`live` the number of open batches, the loop stops after `j + 1 ≤ live + 1` rounds at the first
vacant ticket `n + j` of the sequence `n, n + 1, …` (mod `2^64`), sets the counter to
`n + j + 1`, binds `n + j` to the new batch and leaves every other ticket as it was. -/
theorem inject_first_vacant (s : BatchesState T) (request : Request) (userParam : T)
    (hs : s.batches.keys.length < UInt64.size) :
    ∃ j ≤ s.batches.keys.length,
      (∀ i < j, s.batches.contains (s.nextBatchId + UInt64.ofNat i) = true) ∧
      s.batches.contains (s.nextBatchId + UInt64.ofNat j) = false ∧
      probe s.batches s.nextBatchId (j + 1) =
        some (s.nextBatchId + UInt64.ofNat j, s.nextBatchId + UInt64.ofNat j + 1) ∧
      ∃ s', s.inject request userParam = some s' ∧
        s'.nextBatchId = s.nextBatchId + UInt64.ofNat j + 1 ∧
        s'.batches.get? (s.nextBatchId + UInt64.ofNat j) =
          some (BatchState.fromRequest request, userParam) ∧
        ∀ t, t ≠ s.nextBatchId + UInt64.ofNat j → s'.batches.get? t = s.batches.get? t := by
  classical
  have hex := exists_vacant s.batches s.nextBatchId hs
  let j := Nat.find hex
  obtain ⟨hjL, hjv⟩ : j ≤ s.batches.keys.length ∧ _ := Nat.find_spec hex
  have hocc : ∀ i < j, s.batches.contains (s.nextBatchId + UInt64.ofNat i) = true := by
    intro i hi
    have := Nat.find_min hex hi
    simp only [not_and, Bool.not_eq_false] at this
    exact this (by omega)
  have hprobe := probe_eq_of_first_vacant s.batches j s.nextBatchId (j + 1) (by omega) hocc hjv
  refine ⟨j, hjL, hocc, hjv, hprobe, s.store (s.nextBatchId + UInt64.ofNat j)
    (s.nextBatchId + UInt64.ofNat j + 1) request userParam, ?_, rfl, ?_, fun t ht => ?_⟩
  · rw [inject, probe_mono hprobe (by rw [UInt64.size_eq] at hs ⊢; omega)]; rfl
  · rw [store_get?, if_pos rfl]
  · rw [store_get?, if_neg ht]

theorem inject_first_vacant_busy :
    busy.batches.keys.length < UInt64.size ∧
    ∃ j ≤ busy.batches.keys.length,
      (∀ i < j, busy.batches.contains (busy.nextBatchId + UInt64.ofNat i) = true) ∧
      busy.batches.contains (busy.nextBatchId + UInt64.ofNat j) = false ∧
      probe busy.batches busy.nextBatchId (j + 1) =
        some (busy.nextBatchId + UInt64.ofNat j, busy.nextBatchId + UInt64.ofNat j + 1) ∧
      ∃ s', busy.inject (.single (.notification tick)) () = some s' ∧
        s'.nextBatchId = busy.nextBatchId + UInt64.ofNat j + 1 ∧
        s'.batches.get? (busy.nextBatchId + UInt64.ofNat j) =
          some (BatchState.fromRequest (.single (.notification tick)), ()) ∧
        ∀ t, t ≠ busy.nextBatchId + UInt64.ofNat j → s'.batches.get? t = busy.batches.get? t :=
  have hs : busy.batches.keys.length < UInt64.size := by decide
  ⟨hs, inject_first_vacant busy _ () hs⟩

end BatchesState

end Plibra
