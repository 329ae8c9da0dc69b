import Mathlib.Data.List.GetD
import Mlx5Netperf.Latency.SampleStores
import Mlx5Netperf.Lib.ThreeWay

/-!
# The Report of Latencies

`dump_latencies` and `dump_debug_latencies` of `latency.c` up to what they print
about the distribution: the samples are copied and sorted with `cmpfunc`, and
three of them are picked by an index computed in floating point. `cmpfunc`
narrows a difference of 64 bits to an `int`. The achieved rate and the log of
`dump_latencies` are left out.
-/

namespace Mlx5Netperf

open FloatRounding ThreeWay

/-! ## The report -/

/-- `cmpfunc` -/
def cmpfunc (a b : UInt64) : Int32 := (a - b).toUInt32.toInt32

/-- `cmpfunc` as the comparator that `qsort` is called with. -/
def cmpfuncSign : Comparator UInt64 := fun a b => (cmpfunc a b).toInt

/-- `cycles_per_ns`, measured when the program starts. -/
structure Clock where
  cyclesPerNs : ℚ
  pos : 0 < cyclesPerNs

/-- `cycles_to_ns` -/
def cyclesToNs (clock : Clock) (cycles : UInt64) : ℕ :=
  ⌊roundTo 24 (toFloat cycles / clock.cyclesPerNs)⌋₊

/-- `display` -/
def display (clock : Clock) (num : UInt64) (inCycles : Bool) : ℕ :=
  if inCycles then cyclesToNs clock num else num.toNat

/-- `PERCENT_TO_CUT` -/
def percentToCut : ℚ := 0

/-- `num_sorted_latencies` -/
def numSortedLatencies (dist : LatencyDist) : UInt64 :=
  UInt64.ofNat ⌊(1 - percentToCut) * toFloat dist.totalCount⌋₊

/-- The constants `0.50`, `0.99` and `0.999` as doubles. -/
def medianFraction : ℚ := 1 / 2
def p99Fraction : ℚ := roundTo 53 (99 / 100)
def p999Fraction : ℚ := roundTo 53 (999 / 1000)

/-- `(size_t)((float)num_sorted_latencies * c)` -/
def percentileIndex (c : ℚ) (numSorted : UInt64) : ℕ := ⌊roundTo 53 (toFloat numSorted * c)⌋₊

/-- `latency_sum` and `arr` after the loop that copies the samples, in memory
that held `memory` before. -/
def copyLatencies (dist : LatencyDist) (memory : ℕ → UInt64) : UInt64 × (ℕ → UInt64) :=
  -- `total_count - num_sorted_latencies`, which wraps around when the count was rounded up
  let cutoff := (dist.totalCount - numSortedLatencies dist).toNat
  (List.range dist.totalCount.toNat).foldl (fun (latencySum, arr) i =>
    -- the samples in front are cut off, and taken out of the sum
    if i < cutoff then (latencySum - dist.latencies i, arr)
    else (latencySum, Function.update arr (i - cutoff) (dist.latencies i)))
    (dist.latencySum, memory)

/-- `arr` as it is passed to `qsort`. -/
def unsortedLatencies (dist : LatencyDist) (memory : ℕ → UInt64) : List UInt64 :=
  (List.range (numSortedLatencies dist).toNat).map (copyLatencies dist memory).2

/-- What is printed about a distribution. -/
structure Report where
  min : ℕ
  max : ℕ
  avg : ℕ
  median : ℕ
  p99 : ℕ
  p999 : ℕ

/-- A sorting function in the place of `qsort`. -/
abbrev Qsort := Comparator UInt64 → List UInt64 → List UInt64

/-- The common part of the two functions. -/
def reportLatencies (qsort : Qsort) (clock : Clock) (dist : LatencyDist) (memory : ℕ → UInt64)
    (inCycles : Bool) : Report :=
  let numSorted := numSortedLatencies dist
  let arr := qsort cmpfuncSign (unsortedLatencies dist memory)
  { min := display clock dist.min inCycles
    max := display clock dist.max inCycles
    avg := display clock ((copyLatencies dist memory).1 / numSorted) inCycles
    median := display clock (arr.getD (percentileIndex medianFraction numSorted) 0) inCycles
    p99 := display clock (arr.getD (percentileIndex p99Fraction numSorted) 0) inCycles
    p999 := display clock (arr.getD (percentileIndex p999Fraction numSorted) 0) inCycles }

/-- `dump_debug_latencies` -/
def dumpDebugLatencies (qsort : Qsort) (clock : Clock) (dist : LatencyDist) (memory : ℕ → UInt64)
    (inCycles : Bool) : Int32 × Option Report :=
  if dist.totalCount = 0 then (0, none)
  else (0, some (reportLatencies qsort clock dist memory inCycles))

/-- `dump_latencies` -/
def dumpLatencies (qsort : Qsort) (clock : Clock) (dist : LatencyDist) (memory : ℕ → UInt64)
    (inCycles : Bool) : Int32 × Option Report :=
  if dist.totalCount = 0 then (-einval, none)
  else (0, some (reportLatencies qsort clock dist memory inCycles))

/-! ## The comparator -/

/-- The distance of two samples, as `int` has room for it. -/
def wordDistance (a b : UInt64) : ℕ :=
  (max a.toNat b.toNat - min a.toNat b.toNat) % 2 ^ 32

theorem toInt_cmpfunc (a b : UInt64) :
    (cmpfunc a b).toInt = if 2 * ((a - b).toNat % 2 ^ 32) < 2 ^ 32 then
      (((a - b).toNat % 2 ^ 32 : ℕ) : ℤ) else (((a - b).toNat % 2 ^ 32 : ℕ) : ℤ) - 2 ^ 32 := by
  have hbits : (a - b).toUInt32.toBitVec.toNat = (a - b).toNat % 2 ^ 32 := UInt64.toNat_toUInt32 _
  show (a - b).toUInt32.toBitVec.toInt = _
  rw [BitVec.toInt_eq_toNat_cond, hbits]
  rfl

theorem cmpfuncSign_self (a : UInt64) : cmpfuncSign a a = 0 := by
  show (cmpfunc a a).toInt = 0
  rw [toInt_cmpfunc, UInt64.sub_self]
  rfl

/-- **What the comparator says of two samples**: the right thing exactly when
their distance fits into an `int` and is not a multiple of its range. -/
theorem cmpfunc_faithful_iff {a b : UInt64} (h : a.toNat < b.toNat) :
    (cmpfuncSign a b < 0 ∧ 0 < cmpfuncSign b a) ↔
      0 < wordDistance a b ∧ wordDistance a b < 2 ^ 31 := by
  have hb := b.toNat_lt
  have hup : (b - a).toNat = b.toNat - a.toNat := by
    rw [UInt64.toNat_sub]
    omega
  -- the difference of two words wraps around in one of the two orders
  have hdown : (a - b).toNat = 2 ^ 64 - (b.toNat - a.toNat) := by
    rw [UInt64.toNat_sub]
    omega
  show ((cmpfunc a b).toInt < 0 ∧ 0 < (cmpfunc b a).toInt) ↔ _
  rw [toInt_cmpfunc, toInt_cmpfunc, hup, hdown, wordDistance, max_eq_right h.le, min_eq_left h.le]
  -- the low 32 bits of the difference, read as a signed number, decide
  split_ifs <;> omega

/-- The sign of `cmpfunc` is the order of its arguments. -/
structure CmpfuncOrders (a b : UInt64) : Prop where
  neg : cmpfuncSign a b < 0 ↔ a < b
  zero : cmpfuncSign a b = 0 ↔ a = b
  pos : 0 < cmpfuncSign a b ↔ b < a

theorem wordDistance_comm (a b : UInt64) : wordDistance a b = wordDistance b a := by
  rw [wordDistance, wordDistance, max_comm, min_comm]

/-- **Which pairs the comparator orders**, in both orders of its arguments. -/
theorem cmpfuncOrders_iff (a b : UInt64) :
    (CmpfuncOrders a b ∧ CmpfuncOrders b a) ↔
      a = b ∨ (0 < wordDistance a b ∧ wordDistance a b < 2 ^ 31) := by
  -- both calls are right exactly when both have the right sign
  have hless : ∀ {x y : UInt64}, x < y → ((CmpfuncOrders x y ∧ CmpfuncOrders y x) ↔
      0 < wordDistance x y ∧ wordDistance x y < 2 ^ 31) := by
    intro x y hlt
    have hne : x ≠ y := UInt64.ne_of_lt hlt
    have hnot : ¬ y < x := UInt64.not_lt.mpr (UInt64.le_of_lt hlt)
    rw [← cmpfunc_faithful_iff (UInt64.lt_iff_toNat_lt.mp hlt)]
    constructor
    · intro h
      exact ⟨h.1.neg.mpr hlt, h.2.pos.mpr hlt⟩
    · rintro ⟨hneg, hpos⟩
      refine ⟨⟨iff_of_true hneg hlt, iff_of_false hneg.ne hne, iff_of_false hneg.not_gt hnot⟩,
        ⟨iff_of_false hpos.not_gt hnot, iff_of_false hpos.ne' hne.symm, iff_of_true hpos hlt⟩⟩
  rcases Nat.lt_trichotomy a.toNat b.toNat with hlt | heq | hgt
  · have hlt' := UInt64.lt_iff_toNat_lt.mpr hlt
    rw [hless hlt', or_iff_right (UInt64.ne_of_lt hlt')]
  · obtain rfl := UInt64.toNat_inj.mp heq
    have hself : CmpfuncOrders a a := by
      constructor <;> simp [cmpfuncSign_self, UInt64.lt_irrefl]
    exact iff_of_true ⟨hself, hself⟩ (.inl rfl)
  · have hgt' := UInt64.lt_iff_toNat_lt.mpr hgt
    rw [and_comm, hless hgt', wordDistance_comm, or_iff_right (UInt64.ne_of_lt hgt').symm]

/-! ## The indices -/

theorem display_mono (clock : Clock) (inCycles : Bool) {x y : UInt64} (h : x ≤ y) :
    display clock x inCycles ≤ display clock y inCycles := by
  cases inCycles with
  | false => exact UInt64.le_iff_toNat_le.mp h
  | true =>
    apply Nat.floor_mono
    apply roundTo_mono (by decide) (div_nonneg (toFloat_nonneg x) clock.pos.le)
    exact div_le_div_of_nonneg_right (toFloat_mono h) clock.pos.le

/-- What is known of the number of samples that are sorted. -/
structure SortedCount (dist : LatencyDist) (m : ℕ) : Prop where
  count : (numSortedLatencies dist).toNat = m
  float : toFloat (numSortedLatencies dist) = m
  pos : 0 < m
  bound : m ≤ 2 ^ 61
  representable : Representable 24 (m : ℚ)

theorem exists_sortedCount {dist : LatencyDist} (hpos : 0 < dist.totalCount.toNat)
    (hbound : dist.totalCount.toNat ≤ 2 ^ 61) : ∃ m, SortedCount dist m := by
  obtain ⟨m, hm⟩ := exists_roundTo_natCast 24 dist.totalCount.toNat
  have hfloat : toFloat dist.totalCount = m := hm
  have hrepresentable : Representable 24 (m : ℚ) := by
    rw [← hm]
    exact representable_roundTo (by decide) (Nat.cast_nonneg _)
  -- rounding does not pass a power of two
  have hle : (m : ℚ) ≤ 2 ^ 61 := by
    have htop : roundTo 24 ((2 : ℚ) ^ (61 : ℤ)) = 2 ^ (61 : ℤ) :=
      (representable_two_zpow (by decide) 61).roundTo_eq
    have hmono := roundTo_mono (p := 24) (by decide) (Nat.cast_nonneg dist.totalCount.toNat)
      (y := (2 : ℚ) ^ (61 : ℤ)) (by exact_mod_cast hbound)
    rw [htop, hm] at hmono
    exact_mod_cast hmono
  -- nor does it fall below one
  have hone : (1 : ℚ) ≤ m := by
    have hbottom : roundTo 24 ((1 : ℕ) : ℚ) = (1 : ℕ) :=
      (representable_natCast (by decide)).roundTo_eq
    have hmono := roundTo_mono (p := 24) (by decide) (Nat.cast_nonneg 1)
      (y := (dist.totalCount.toNat : ℚ)) (by exact_mod_cast hpos)
    rw [hbottom, hm] at hmono
    exact_mod_cast hmono
  have hbound' : m ≤ 2 ^ 61 := by exact_mod_cast hle
  -- nothing is cut off after the conversion
  have hcount : (numSortedLatencies dist).toNat = m := by
    have hfloor : ⌊(1 - percentToCut) * toFloat dist.totalCount⌋₊ = m := by
      rw [hfloat, percentToCut, sub_zero, one_mul, Nat.floor_natCast]
    rw [numSortedLatencies, hfloor, UInt64.toNat_ofNat']
    exact Nat.mod_eq_of_lt (by omega)
  refine ⟨m, hcount, ?_, by exact_mod_cast hone, hbound', hrepresentable⟩
  rw [toFloat, hcount]
  exact hrepresentable.roundTo_eq

theorem medianFraction_le_p99Fraction : medianFraction ≤ p99Fraction := by
  have hhalf : roundTo 53 ((2 : ℚ) ^ (-1 : ℤ)) = 2 ^ (-1 : ℤ) :=
    (representable_two_zpow (by decide) (-1)).roundTo_eq
  have hmono := roundTo_mono (p := 53) (x := (2 : ℚ) ^ (-1 : ℤ)) (y := 99 / 100) (by decide)
    (by norm_num) (by norm_num)
  rw [hhalf] at hmono
  exact le_trans (by norm_num [medianFraction]) hmono

theorem p99Fraction_le_p999Fraction : p99Fraction ≤ p999Fraction :=
  roundTo_mono (by decide) (by norm_num) (by norm_num)

/-- All three are below one by more than a product can be rounded up. -/
theorem p999Fraction_le : p999Fraction ≤ 1023 * 2 ^ (-10 : ℤ) := by
  have hbound : Representable 53 ((1023 : ℕ) * 2 ^ (-10 : ℤ) : ℚ) := ⟨1023, -10, by norm_num, rfl⟩
  have hmono := roundTo_mono (p := 53) (x := 999 / 1000) (y := ((1023 : ℕ) * 2 ^ (-10 : ℤ) : ℚ))
    (by decide) (by norm_num) (by norm_num)
  rw [hbound.roundTo_eq] at hmono
  exact_mod_cast hmono

theorem percentileIndex_mono {c d : ℚ} (hc : 0 ≤ c) (h : c ≤ d) (numSorted : UInt64) :
    percentileIndex c numSorted ≤ percentileIndex d numSorted := by
  apply Nat.floor_mono
  apply roundTo_mono (by decide) (mul_nonneg (toFloat_nonneg _) hc)
  exact mul_le_mul_of_nonneg_left h (toFloat_nonneg _)

/-- **The indices are inside the array.** -/
theorem SortedCount.percentileIndex_lt {dist : LatencyDist} {m : ℕ} (h : SortedCount dist m) {c : ℚ}
    (hc : 0 ≤ c) (hle : c ≤ p999Fraction) :
    percentileIndex c (numSortedLatencies dist) < m := by
  have hpos : (0 : ℚ) < m := by exact_mod_cast h.pos
  -- the product with 1023/1024 has 34 bits, so it is not rounded up to `m`
  have hexact : Representable 53 ((m : ℚ) * ((1023 : ℕ) * 2 ^ (-10 : ℤ))) :=
    (h.representable.mul ⟨1023, -10, show 1023 < 2 ^ 10 by norm_num, rfl⟩).mono (by decide)
  have hproduct : (m : ℚ) * c ≤ m * ((1023 : ℕ) * 2 ^ (-10 : ℤ)) :=
    mul_le_mul_of_nonneg_left (by exact_mod_cast hle.trans p999Fraction_le) hpos.le
  have hround := roundTo_mono (p := 53) (by decide) (mul_nonneg hpos.le hc) hproduct
  rw [hexact.roundTo_eq] at hround
  have hless : (m : ℚ) * ((1023 : ℕ) * 2 ^ (-10 : ℤ)) < m := by
    have hfactor : ((1023 : ℕ) * 2 ^ (-10 : ℤ) : ℚ) < 1 := by norm_num
    nlinarith
  rw [percentileIndex, h.float, Nat.floor_lt (roundTo_nonneg (mul_nonneg hpos.le hc))]
  exact hround.trans_lt hless

/-! ## The copy -/

/-- The samples behind the cut are copied, the rest of the memory stays. -/
theorem foldl_copy (latencies memory : ℕ → UInt64) (cutoff k : ℕ) (latencySum : UInt64) :
    ((List.range k).foldl (fun (acc : UInt64 × (ℕ → UInt64)) i =>
      if i < cutoff then (acc.1 - latencies i, acc.2)
      else (acc.1, Function.update acc.2 (i - cutoff) (latencies i))) (latencySum, memory)).2 =
      fun j => if cutoff + j < k then latencies (cutoff + j) else memory j := by
  induction k with
  | zero =>
    funext j
    simp
  | succ k ih =>
    rw [List.range_succ, List.foldl_append, List.foldl_cons, List.foldl_nil]
    split
    -- below the cut nothing is stored
    case isTrue hcut =>
      funext j
      have hless : ¬ cutoff + j < k + 1 := by omega
      rw [ih]
      simp only [show ¬ cutoff + j < k by omega, hless, if_false]
    case isFalse hcut =>
      funext j
      dsimp only
      rw [Function.update_apply, ih]
      by_cases hj : j = k - cutoff
      · rw [if_pos hj, if_pos (by omega), show cutoff + j = k by omega]
      · rw [if_neg hj]
        have hiff : cutoff + j < k ↔ cutoff + j < k + 1 := by omega
        simp only [hiff]

theorem copyLatencies_snd (dist : LatencyDist) (memory : ℕ → UInt64) :
    (copyLatencies dist memory).2 = fun j =>
      if (dist.totalCount - numSortedLatencies dist).toNat + j < dist.totalCount.toNat then
        dist.latencies ((dist.totalCount - numSortedLatencies dist).toNat + j)
      else memory j :=
  foldl_copy ..

/-- The samples that are sorted, when there are at least as many as the rounded count. -/
def keptSamples (dist : LatencyDist) (samples : List UInt64) : List UInt64 :=
  samples.drop (samples.length - (numSortedLatencies dist).toNat)

section Copy

variable {dist : LatencyDist} {samples : List UInt64} {m : ℕ}

theorem SortedCount.length_keptSamples (h : SortedCount dist m) (hle : m ≤ samples.length) :
    (keptSamples dist samples).length = m := by
  rw [keptSamples, List.length_drop, h.count]
  omega

/-- A count that is not rounded up: the last samples are sorted. -/
theorem SortedCount.unsortedLatencies_of_le (h : SortedCount dist m)
    (hcount : dist.totalCount.toNat = samples.length)
    (hstored : ∀ i sample, samples[i]? = some sample → dist.latencies i = sample)
    (hle : m ≤ samples.length) (memory : ℕ → UInt64) :
    unsortedLatencies dist memory = keptSamples dist samples := by
  -- the subtraction does not wrap
  have hcutoff : (dist.totalCount - numSortedLatencies dist).toNat = samples.length - m := by
    rw [UInt64.toNat_sub_of_le, hcount, h.count]
    rw [UInt64.le_iff_toNat_le, hcount, h.count]
    exact hle
  have hlength : (unsortedLatencies dist memory).length = m := by
    rw [unsortedLatencies, List.length_map, List.length_range, h.count]
  apply List.ext_getElem (by rw [hlength, h.length_keptSamples hle])
  intro j hj _
  rw [hlength] at hj
  have hin : samples.length - m + j < samples.length := by omega
  simp only [unsortedLatencies, keptSamples, List.getElem_map, List.getElem_range,
    List.getElem_drop, copyLatencies_snd, hcutoff, hcount, if_pos hin, h.count]
  exact hstored _ _ (List.getElem?_eq_getElem hin)

/-- **A count that is rounded up**: nothing is copied, and what is sorted is what
the memory held before. -/
theorem SortedCount.unsortedLatencies_of_gt (h : SortedCount dist m)
    (hcount : dist.totalCount.toNat < m) (memory : ℕ → UInt64) :
    unsortedLatencies dist memory = (List.range m).map memory := by
  have hbound := h.bound
  -- the cutoff wraps around
  have hcutoff : dist.totalCount.toNat ≤ (dist.totalCount - numSortedLatencies dist).toNat := by
    rw [UInt64.toNat_sub, h.count]
    omega
  rw [unsortedLatencies, h.count, copyLatencies_snd]
  apply List.map_congr_left
  intro j _
  exact if_neg (by omega)

end Copy

/-! ## The percentiles -/

/-- The sample of rank `i`, counted from the smallest. -/
def orderStatistic (samples : List UInt64) (i : ℕ) : UInt64 :=
  (sortByKey UInt64.toNat samples).getD i 0

/-- The three constants. -/
def fractions : List ℚ := [medianFraction, p99Fraction, p999Fraction]

/-- The report names the order statistics of the samples, in ascending order. -/
structure Report.Right (r : Report) (clock : Clock) (dist : LatencyDist) (samples : List UInt64)
    (inCycles : Bool) : Prop where
  median : r.median = display clock
    (orderStatistic samples (percentileIndex medianFraction (numSortedLatencies dist))) inCycles
  p99 : r.p99 = display clock
    (orderStatistic samples (percentileIndex p99Fraction (numSortedLatencies dist))) inCycles
  p999 : r.p999 = display clock
    (orderStatistic samples (percentileIndex p999Fraction (numSortedLatencies dist))) inCycles
  ordered : r.min ≤ r.median ∧ r.median ≤ r.p99 ∧ r.p99 ≤ r.p999 ∧ r.p999 ≤ r.max

/-- What the two functions should do with the samples, whatever sorting function
they call and whatever was in the memory of their copy. -/
def ReportsOrderStatistics (dist : LatencyDist) (samples : List UInt64) : Prop :=
  ∀ (qsort : Qsort), SortsConsistent qsort → ∀ (clock : Clock) (memory : ℕ → UInt64)
    (inCycles : Bool), Ascending UInt64.toNat (qsort cmpfuncSign (unsortedLatencies dist memory)) ∧
      ∃ r, dumpLatencies qsort clock dist memory inCycles = (0, some r) ∧
        dumpDebugLatencies qsort clock dist memory inCycles = (0, some r) ∧
        r.Right clock dist samples inCycles

/-- Samples that can be reported: the count is not rounded up, the samples that
are kept are near enough to each other, and those that are cut off make no
difference to the three ranks. -/
structure Reportable (dist : LatencyDist) (samples : List UInt64) : Prop where
  notRoundedUp : (numSortedLatencies dist).toNat ≤ samples.length
  near : ∀ a ∈ keptSamples dist samples, ∀ b ∈ keptSamples dist samples, a.toNat < b.toNat →
    0 < wordDistance a b ∧ wordDistance a b < 2 ^ 31
  cut : ∀ c ∈ fractions,
    orderStatistic (keptSamples dist samples) (percentileIndex c (numSortedLatencies dist)) =
      orderStatistic samples (percentileIndex c (numSortedLatencies dist))

section Report

variable {dist : LatencyDist} {samples : List UInt64} {m : ℕ} {ct : UInt64} {memory : ℕ → UInt64}

theorem uint64_toNat_injective : Function.Injective UInt64.toNat := fun _ _ => UInt64.toNat_inj.mp

theorem orderStatistic_mem {i : ℕ} (h : i < samples.length) : orderStatistic samples i ∈ samples := by
  have hlength : i < (sortByKey UInt64.toNat samples).length := by
    rwa [(perm_sortByKey samples).length_eq]
  rw [orderStatistic, List.getD_eq_getElem _ _ hlength]
  exact (perm_sortByKey samples).mem_iff.mp (List.getElem_mem hlength)

theorem orderStatistic_mono {i j : ℕ} (hij : i ≤ j) (h : j < samples.length) :
    orderStatistic samples i ≤ orderStatistic samples j := by
  have hlength : j < (sortByKey UInt64.toNat samples).length := by
    rwa [(perm_sortByKey samples).length_eq]
  rw [orderStatistic, orderStatistic, List.getD_eq_getElem _ _ hlength,
    List.getD_eq_getElem _ _ (hij.trans_lt hlength), UInt64.le_iff_toNat_le]
  rcases hij.eq_or_lt with rfl | hlt
  · exact le_rfl
  · exact List.pairwise_iff_getElem.mp (ascending_sortByKey samples) i j _ hlength hlt

/-- Both functions report when there is a sample. -/
theorem dump_eq_report (hpos : 0 < dist.totalCount.toNat) (qsort : Qsort) (clock : Clock)
    (memory : ℕ → UInt64) (inCycles : Bool) :
    dumpLatencies qsort clock dist memory inCycles =
        (0, some (reportLatencies qsort clock dist memory inCycles)) ∧
      dumpDebugLatencies qsort clock dist memory inCycles =
        (0, some (reportLatencies qsort clock dist memory inCycles)) := by
  have hne : dist.totalCount ≠ 0 := by
    intro hzero
    rw [hzero] at hpos
    exact absurd hpos (by decide)
  exact ⟨if_neg hne, if_neg hne⟩

/-- The largest rank that is reported is one of the samples. -/
theorem SortedCount.rank_lt (hm : SortedCount dist m) (hle : m ≤ samples.length) :
    percentileIndex medianFraction (numSortedLatencies dist) ≤
        percentileIndex p99Fraction (numSortedLatencies dist) ∧
      percentileIndex p99Fraction (numSortedLatencies dist) ≤
        percentileIndex p999Fraction (numSortedLatencies dist) ∧
      percentileIndex p999Fraction (numSortedLatencies dist) < samples.length := by
  have hnonneg : 0 ≤ medianFraction := by norm_num [medianFraction]
  refine ⟨percentileIndex_mono hnonneg medianFraction_le_p99Fraction _,
    percentileIndex_mono (hnonneg.trans medianFraction_le_p99Fraction) p99Fraction_le_p999Fraction _,
    ?_⟩
  exact (hm.percentileIndex_lt (hnonneg.trans
    (medianFraction_le_p99Fraction.trans p99Fraction_le_p999Fraction)) le_rfl).trans_le hle

/-- **A report of order statistics is right**: the values it prints ascend. -/
theorem Filled.right_of_values (h : Filled memory ct samples dist) (hm : SortedCount dist m)
    (hle : m ≤ samples.length) {r : Report} {clock : Clock} {inCycles : Bool}
    (hmin : r.min = display clock dist.min inCycles) (hmax : r.max = display clock dist.max inCycles)
    (hmedian : r.median = display clock
      (orderStatistic samples (percentileIndex medianFraction (numSortedLatencies dist))) inCycles)
    (hp99 : r.p99 = display clock
      (orderStatistic samples (percentileIndex p99Fraction (numSortedLatencies dist))) inCycles)
    (hp999 : r.p999 = display clock
      (orderStatistic samples (percentileIndex p999Fraction (numSortedLatencies dist))) inCycles) :
    r.Right clock dist samples inCycles := by
  obtain ⟨h99, h999, hlast⟩ := hm.rank_lt hle
  refine ⟨hmedian, hp99, hp999, ?_⟩
  rw [hmin, hmax, hmedian, hp99, hp999]
  refine ⟨?_, ?_, ?_, ?_⟩
  · exact display_mono clock inCycles
      (h.min.2 (.inr (orderStatistic_mem (h99.trans_lt (h999.trans_lt hlast)))))
  · exact display_mono clock inCycles (orderStatistic_mono h99 (h999.trans_lt hlast))
  · exact display_mono clock inCycles (orderStatistic_mono h999 hlast)
  · exact display_mono clock inCycles (h.max.2 (.inr (orderStatistic_mem hlast)))

/-- **Reportable samples are reported right.** -/
theorem Filled.reportsOrderStatistics (h : Filled memory ct samples dist) (hne : samples ≠ [])
    (hm : SortedCount dist m) (hreportable : Reportable dist samples) :
    ReportsOrderStatistics dist samples := by
  intro qsort hqsort clock garbage inCycles
  have hle : m ≤ samples.length := hm.count ▸ hreportable.notRoundedUp
  have hkept := hm.unsortedLatencies_of_le h.count h.stored hle garbage
  -- near samples are what the comparator tells apart
  have hfaithful : Faithful UInt64.toNat cmpfuncSign (keptSamples dist samples) :=
    fun a ha b hb hlt => (cmpfunc_faithful_iff hlt).mpr (hreportable.near a ha b hb hlt)
  have hsort := hfaithful.sort_eq uint64_toNat_injective cmpfuncSign_self hqsort
  have hpos : 0 < dist.totalCount.toNat := by
    rw [h.count]
    exact List.length_pos_of_ne_nil hne
  obtain ⟨hdump, hdebug⟩ := dump_eq_report hpos qsort clock garbage inCycles
  have hvalue : ∀ c ∈ fractions, display clock
      ((qsort cmpfuncSign (unsortedLatencies dist garbage)).getD
        (percentileIndex c (numSortedLatencies dist)) 0) inCycles =
      display clock (orderStatistic samples (percentileIndex c (numSortedLatencies dist)))
        inCycles := by
    intro c hc
    rw [hkept, hsort]
    exact congrArg (display clock · inCycles) (hreportable.cut c hc)
  rw [hkept, hsort]
  refine ⟨ascending_sortByKey _, _, hdump, hdebug, ?_⟩
  exact h.right_of_values hm hle rfl rfl (hvalue _ (by simp [fractions]))
    (hvalue _ (by simp [fractions])) (hvalue _ (by simp [fractions]))

/-- A clock of one cycle for a nanosecond. -/
def unitClock : Clock := ⟨1, one_pos⟩

/-- **What a right report is made of**: in nanoseconds the reported values are the
samples themselves. -/
theorem ReportsOrderStatistics.getD_eq (hreports : ReportsOrderStatistics dist samples)
    (hpos : 0 < dist.totalCount.toNat) {qsort : Qsort} (hqsort : SortsConsistent qsort)
    (garbage : ℕ → UInt64) {c : ℚ} (hc : c ∈ fractions) :
    (qsort cmpfuncSign (unsortedLatencies dist garbage)).getD
      (percentileIndex c (numSortedLatencies dist)) 0 =
        orderStatistic samples (percentileIndex c (numSortedLatencies dist)) := by
  obtain ⟨-, r, hdump, -, hright⟩ := hreports qsort hqsort unitClock garbage false
  rw [(dump_eq_report hpos qsort unitClock garbage false).1] at hdump
  obtain rfl := Option.some.inj (Prod.mk.inj hdump).2
  simp only [fractions, List.mem_cons, List.not_mem_nil, or_false] at hc
  -- one of the three fractions
  rcases hc with rfl | rfl | rfl
  · exact UInt64.toNat_inj.mp hright.median
  · exact UInt64.toNat_inj.mp hright.p99
  · exact UInt64.toNat_inj.mp hright.p999

/-- The median of uninitialised memory that is constant is that constant. -/
theorem SortedCount.median_of_gt (hm : SortedCount dist m) (hgt : dist.totalCount.toNat < m)
    {qsort : Qsort} (hqsort : SortsConsistent qsort) (g : UInt64) :
    (qsort cmpfuncSign (unsortedLatencies dist fun _ => g)).getD
      (percentileIndex medianFraction (numSortedLatencies dist)) 0 = g := by
  have hunsorted : unsortedLatencies dist (fun _ => g) = List.replicate m g := by
    rw [hm.unsortedLatencies_of_gt hgt, List.map_const']
    simp
  -- equal samples are sorted whatever the comparator says of others
  have hfaithful : Faithful UInt64.toNat cmpfuncSign (List.replicate m g) := by
    intro a ha b hb hlt
    rw [List.eq_of_mem_replicate ha, List.eq_of_mem_replicate hb] at hlt
    exact absurd hlt (lt_irrefl _)
  have hperm := (hqsort cmpfuncSign _
    (hfaithful.consistent uint64_toNat_injective cmpfuncSign_self)).1
  have hindex := hm.percentileIndex_lt (c := medianFraction) (by norm_num [medianFraction])
    (medianFraction_le_p99Fraction.trans p99Fraction_le_p999Fraction)
  rw [hunsorted, List.perm_replicate.mp hperm, List.getD_eq_getElem _ _ (by simpa using hindex),
    List.getElem_replicate]

/-- **What is reported right is reportable.** -/
theorem Filled.reportable (h : Filled memory ct samples dist) (hne : samples ≠ [])
    (hm : SortedCount dist m) (hreports : ReportsOrderStatistics dist samples) :
    Reportable dist samples := by
  have hpos : 0 < dist.totalCount.toNat := by
    rw [h.count]
    exact List.length_pos_of_ne_nil hne
  have hcontrary := sortsConsistent_contrarySort (α := UInt64) UInt64.toNat
  -- a count that was rounded up reports the memory, and so anything
  have hle : m ≤ samples.length := by
    by_contra hgt
    have hmedian : ∀ g : UInt64,
        g = orderStatistic samples (percentileIndex medianFraction (numSortedLatencies dist)) := by
      intro g
      rw [← hreports.getD_eq hpos hcontrary (fun _ => g) (by simp [fractions])]
      exact (hm.median_of_gt (by rw [h.count]; omega) hcontrary g).symm
    exact absurd ((hmedian 0).trans (hmedian 1).symm) (by decide)
  have hkept := hm.unsortedLatencies_of_le h.count h.stored hle (fun _ => 0)
  -- a contrary sorting function shows every pair the comparator gets wrong
  have hfaithful : Faithful UInt64.toNat cmpfuncSign (keptSamples dist samples) := by
    apply (ascending_iff_faithful uint64_toNat_injective cmpfuncSign_self).mp
    intro qsort hqsort
    rw [← hkept]
    exact (hreports qsort hqsort unitClock (fun _ => 0) false).1
  constructor
  case notRoundedUp => rwa [hm.count]
  case near =>
    intro a ha b hb hlt
    exact (cmpfunc_faithful_iff hlt).mp (hfaithful a ha b hb hlt)
  case cut =>
    intro c hc
    have hreported := hreports.getD_eq hpos hcontrary (fun _ => 0) hc
    rw [hkept, hfaithful.sort_eq uint64_toNat_injective cmpfuncSign_self hcontrary] at hreported
    exact hreported

end Report

section Small

variable {dist : LatencyDist} {samples : List UInt64}

/-- Less than `2 ^ 24` samples are all counted. -/
theorem numSortedLatencies_of_lt (hcount : dist.totalCount.toNat = samples.length)
    (hsmall : samples.length < 2 ^ 24) : (numSortedLatencies dist).toNat = samples.length := by
  have hexact : Representable 24 ((samples.length : ℕ) : ℚ) := representable_natCast hsmall
  have hfloor : ⌊(1 - percentToCut) * toFloat dist.totalCount⌋₊ = samples.length := by
    rw [toFloat, hcount, hexact.roundTo_eq, percentToCut, sub_zero, one_mul, Nat.floor_natCast]
  rw [numSortedLatencies, hfloor, UInt64.toNat_ofNat']
  exact Nat.mod_eq_of_lt (by omega)

/-- And they are all sorted. -/
theorem keptSamples_of_lt (hcount : dist.totalCount.toNat = samples.length)
    (hsmall : samples.length < 2 ^ 24) : keptSamples dist samples = samples := by
  rw [keptSamples, numSortedLatencies_of_lt hcount hsmall, Nat.sub_self, List.drop_zero]

theorem Reportable.of_near (hcount : dist.totalCount.toNat = samples.length)
    (hsmall : samples.length < 2 ^ 24)
    (hnear : ∀ a ∈ samples, ∀ b ∈ samples, a.toNat < b.toNat →
      0 < wordDistance a b ∧ wordDistance a b < 2 ^ 31) : Reportable dist samples := by
  have hkept := keptSamples_of_lt hcount hsmall
  constructor
  case notRoundedUp => exact (numSortedLatencies_of_lt hcount hsmall).le
  case near => rwa [hkept]
  case cut =>
    intro c _
    rw [hkept]

end Small

/-- **When the percentiles are order statistics.** `cmpfunc` orders two samples
exactly when they are equal or their distance, modulo `2 ^ 32`, lies between zero
and `2 ^ 31`; a non-empty set of samples is reported right exactly when this
holds of all that are sorted and the conversion of the count to `float` cuts off
nothing that matters. -/
theorem percentiles_right_iff (a b : UInt64) (memory : ℕ → UInt64) {ct : UInt64}
    {samples : List UInt64} (hne : samples ≠ []) (hfits : samples.length ≤ ct.toNat)
    (hct : ct.toNat ≤ 2 ^ 61) :
    ((CmpfuncOrders a b ∧ CmpfuncOrders b a) ↔
      a = b ∨ (0 < wordDistance a b ∧ wordDistance a b < 2 ^ 31)) ∧
    (ReportsOrderStatistics (addLatencies (allocLatencyDist .declared ct memory) samples) samples ↔
      Reportable (addLatencies (allocLatencyDist .declared ct memory) samples) samples) := by
  refine ⟨cmpfuncOrders_iff a b, ?_⟩
  have hfilled := filled_addLatencies memory hfits
  have hpos : 0 < samples.length := List.length_pos_of_ne_nil hne
  obtain ⟨m, hm⟩ := exists_sortedCount (by rwa [hfilled.count])
    (by rw [hfilled.count]; exact hfits.trans hct)
  exact ⟨hfilled.reportable hne hm, hfilled.reportsOrderStatistics hne hm⟩

/-- Three round-trip times of some microseconds. -/
theorem percentiles_right_microseconds :
    ReportsOrderStatistics
      (addLatencies (allocLatencyDist .declared 3 fun _ => 0) [9100, 4800, 5200])
      [9100, 4800, 5200] := by
  have hfits : [(9100 : UInt64), 4800, 5200].length ≤ (3 : UInt64).toNat := by decide
  refine (percentiles_right_iff 4800 5200 _ (List.cons_ne_nil _ _) hfits (by decide)).2.mpr ?_
  apply Reportable.of_near (filled_addLatencies _ hfits).count (by decide)
  intro a ha b hb
  simp only [List.mem_cons, List.not_mem_nil, or_false] at ha hb
  rcases ha with rfl | rfl | rfl <;> rcases hb with rfl | rfl | rfl <;> decide

/-- A round-trip time of three seconds is sorted before one of five microseconds. -/
theorem not_percentiles_right_seconds :
    ¬ ∀ (memory : ℕ → UInt64) (ct : UInt64) (samples : List UInt64), samples ≠ [] →
      samples.length ≤ ct.toNat → ct.toNat ≤ 2 ^ 61 →
      ReportsOrderStatistics (addLatencies (allocLatencyDist .declared ct memory) samples)
        samples := by
  intro hclaim
  let samples : List UInt64 := [5000, 3000000000]
  have hfits : samples.length ≤ (2 : UInt64).toNat := by decide
  have hfilled := filled_addLatencies (fun _ => 0) hfits
  obtain ⟨m, hm⟩ := exists_sortedCount (by rw [hfilled.count]; decide)
    (by rw [hfilled.count]; exact hfits.trans (by decide))
  have hreportable := hfilled.reportable (List.cons_ne_nil _ _) hm
    (hclaim _ 2 samples (List.cons_ne_nil _ _) hfits (by decide))
  have hnear := hreportable.near
  rw [keptSamples_of_lt hfilled.count (by decide)] at hnear
  exact absurd (hnear 5000 (by simp [samples]) 3000000000 (by simp [samples]) (by decide)) (by decide)

end Mlx5Netperf
