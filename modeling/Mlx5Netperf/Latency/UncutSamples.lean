import Mlx5Netperf.Latency.Percentiles

/-!
# Which Samples Are Sorted

`PERCENT_TO_CUT` is zero, so the two report functions mean to sort all samples.
They take the number of them through a `float`, which has 24 significant bits.
-/

namespace Mlx5Netperf

open FloatRounding

/-- Every sample goes into the report: the count comes back from the conversion,
nothing is cut off in front, the copy has the samples in order whatever was in
its memory, and their sum is kept. -/
structure NoSampleCut (dist : LatencyDist) (samples : List UInt64) : Prop where
  count : numSortedLatencies dist = dist.totalCount
  noWrap : numSortedLatencies dist ≤ dist.totalCount
  cutoff : dist.totalCount - numSortedLatencies dist = 0
  copied : ∀ memory, unsortedLatencies dist memory = samples
  sum : ∀ memory, (copyLatencies dist memory).1 = samples.sum

variable {dist : LatencyDist} {samples : List UInt64}

/-- A count is converted to at most the next power of two. -/
theorem exists_toFloat (dist : LatencyDist) :
    ∃ m ≤ 2 ^ 64, toFloat dist.totalCount = (m : ℕ) ∧ numSortedLatencies dist = UInt64.ofNat m := by
  obtain ⟨m, hm⟩ := exists_roundTo_natCast 24 dist.totalCount.toNat
  have htop : roundTo 24 ((2 : ℚ) ^ (64 : ℤ)) = 2 ^ (64 : ℤ) :=
    (representable_two_zpow (by decide) 64).roundTo_eq
  have hmono := roundTo_mono (p := 24) (by decide) (Nat.cast_nonneg dist.totalCount.toNat)
    (y := (2 : ℚ) ^ (64 : ℤ)) (by exact_mod_cast dist.totalCount.toNat_lt.le)
  rw [htop, hm] at hmono
  refine ⟨m, by exact_mod_cast hmono, hm, ?_⟩
  rw [numSortedLatencies, toFloat, hm, percentToCut, sub_zero, one_mul, Nat.floor_natCast]

/-- **The counts that survive the conversion** are those with 24 significant bits. -/
theorem numSortedLatencies_eq_iff (hpos : 0 < dist.totalCount.toNat) :
    numSortedLatencies dist = dist.totalCount ↔
      ∃ m < 2 ^ 24, ∃ e : ℕ, dist.totalCount.toNat = m * 2 ^ e := by
  obtain ⟨m, hm, hfloat, hcount⟩ := exists_toFloat dist
  have hlt := dist.totalCount.toNat_lt
  have hexact : numSortedLatencies dist = dist.totalCount ↔ m = dist.totalCount.toNat := by
    rw [hcount, ← UInt64.toNat_inj, UInt64.toNat_ofNat']
    -- only a count that is converted to 2^64 could come back as another number
    omega
  rw [hexact, ← roundTo_natCast_eq_iff (p := 24) (by decide)]
  rw [toFloat] at hfloat
  rw [hfloat]
  exact Nat.cast_inj.symm

/-- Without a cutoff the loop leaves the sum alone. -/
theorem copyLatencies_fst (hcutoff : dist.totalCount - numSortedLatencies dist = 0)
    (memory : ℕ → UInt64) : (copyLatencies dist memory).1 = dist.latencySum := by
  simp only [copyLatencies, hcutoff, UInt64.toNat_zero, Nat.not_lt_zero, if_false]
  induction dist.totalCount.toNat with
  | zero => rfl
  | succ k ih => rw [List.range_succ, List.foldl_append, List.foldl_cons, List.foldl_nil, ih]

/-- What follows once the count has come back. -/
theorem NoSampleCut.of_count (hcount : dist.totalCount.toNat = samples.length)
    (hstored : ∀ i sample, samples[i]? = some sample → dist.latencies i = sample)
    (hsum : dist.latencySum = samples.sum) (h : numSortedLatencies dist = dist.totalCount) :
    NoSampleCut dist samples := by
  have hcutoff : dist.totalCount - numSortedLatencies dist = 0 := by
    rw [h, UInt64.sub_self]
  refine ⟨h, h ▸ UInt64.le_refl _, hcutoff, ?_, ?_⟩
  · intro memory
    rw [unsortedLatencies, h, hcount, copyLatencies_snd, hcutoff]
    apply List.ext_getElem (by simp)
    intro i hi hi'
    simp [hcount, hi', hstored i _ (List.getElem?_eq_getElem hi')]
  · intro memory
    rw [copyLatencies_fst hcutoff, hsum]

/-- **No sample is cut exactly when the count has 24 significant bits.** -/
theorem no_sample_cut_iff (hcount : dist.totalCount.toNat = samples.length)
    (hstored : ∀ i sample, samples[i]? = some sample → dist.latencies i = sample)
    (hsum : dist.latencySum = samples.sum) (hne : samples ≠ []) :
    NoSampleCut dist samples ↔ ∃ m < 2 ^ 24, ∃ e : ℕ, samples.length = m * 2 ^ e := by
  have hpos : 0 < dist.totalCount.toNat := hcount ▸ List.length_pos_of_ne_nil hne
  rw [← hcount, ← numSortedLatencies_eq_iff hpos]
  exact ⟨fun h => h.count, fun h => .of_count hcount hstored hsum h⟩

/-- Three round-trip times of some microseconds. -/
theorem no_sample_cut_microseconds :
    NoSampleCut (addLatencies (allocLatencyDist .declared 3 fun _ => 0) [9100, 4800, 5200])
      [9100, 4800, 5200] := by
  have hfits : [(9100 : UInt64), 4800, 5200].length ≤ (3 : UInt64).toNat := by decide
  have hfilled := filled_addLatencies (fun _ => 0) hfits
  exact (no_sample_cut_iff hfilled.count hfilled.stored hfilled.sum (List.cons_ne_nil _ _)).mpr
    ⟨3, by decide, 0, rfl⟩

/-- One more than `2 ^ 24` samples, in an array of `LATENCY_DIST_CT` entries. -/
theorem sample_cut_manySamples :
    ¬ NoSampleCut (addLatencies (allocLatencyDist .declared 720000000 fun _ => 0)
      (List.replicate 16777217 5000)) (List.replicate 16777217 5000) := by
  intro hclaim
  have hfits : (List.replicate 16777217 (5000 : UInt64)).length ≤ (720000000 : UInt64).toNat := by
    rw [List.length_replicate]
    decide
  have hcount := (filled_addLatencies (fun _ => 0) hfits).count
  rw [List.length_replicate] at hcount
  obtain ⟨m, hm, e, heq⟩ := (numSortedLatencies_eq_iff (by omega)).mp hclaim.count
  rw [hcount] at heq
  -- an odd number has all its bits in the significand
  rcases e with _ | e
  · omega
  · rw [pow_succ, ← Nat.mul_assoc] at heq
    omega

end Mlx5Netperf
