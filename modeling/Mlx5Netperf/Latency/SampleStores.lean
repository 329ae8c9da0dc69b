import Mathlib.Data.UInt
import Mlx5Netperf.Client.Accounting
import Mlx5Netperf.Lib.FloatRounding

/-!
# The Stores of Samples

`add_latency` and `add_latency_to_map` of `latency.c`, and which sequences of
calls they store exactly. Both write a sample and count it before they compare
the count with the capacity: the call that reports a full store has already
written behind its end.
-/

namespace Mlx5Netperf

open FloatRounding

/-! ## The distribution -/

/-- `LONG_MAX` -/
def longMax : UInt64 := 0x7fffffffffffffff

/-- `Latency_Dist_t`. `latencies` is the memory from the start of the array on. -/
structure LatencyDist where
  min : UInt64
  max : UInt64
  latencySum : UInt64
  totalCount : UInt64
  movingAvg : ℚ
  latencies : ℕ → UInt64
  allocated : UInt64

/-- A distribution as it is declared, before its array is allocated. -/
def LatencyDist.declared : LatencyDist := ⟨longMax, 0, 0, 0, 0, fun _ => 0, 0⟩

/-- `alloc_latency_dist`, when there is memory. -/
def allocLatencyDist (dist : LatencyDist) (ct : UInt64) (memory : ℕ → UInt64) : LatencyDist :=
  { dist with latencies := memory, allocated := ct }

/-- The moving average after `count` samples, the last of which is `latency`;
every operation rounds to a `float`. -/
def nextMovingAvg (avg : ℚ) (count latency : UInt64) : ℚ :=
  roundTo 24 (roundTo 24 (avg * roundTo 24 (toFloat (count - 1) / toFloat count)) +
    roundTo 24 (toFloat latency / toFloat count))

/-- Where the next sample goes. -/
def sampleIndex (dist : LatencyDist) : ℕ := dist.totalCount.toNat

/-- `add_latency` -/
def addLatency (dist : LatencyDist) (latency : UInt64) : Int32 × LatencyDist :=
  let dist := { dist with
    -- stored before anything is tested
    latencies := Function.update dist.latencies (sampleIndex dist) latency }
  let dist := { dist with totalCount := dist.totalCount + 1 }
  -- the sample and the count stay when the call fails
  if dist.totalCount > dist.allocated then (-enomem, dist)
  else
    let dist := { dist with latencySum := dist.latencySum + latency }
    let dist := if latency < dist.min then { dist with min := latency } else dist
    let dist := if latency > dist.max then { dist with max := latency } else dist
    (0, { dist with movingAvg := nextMovingAvg dist.movingAvg dist.totalCount latency })

/-- A sequence of calls of `add_latency`; nobody looks at the return codes. -/
def addLatencies (dist : LatencyDist) (samples : List UInt64) : LatencyDist :=
  samples.foldl (fun dist latency => (addLatency dist latency).2) dist

/-- The distribution holds exactly the samples. -/
structure HoldsSamples (dist : LatencyDist) (samples : List UInt64) : Prop where
  count : dist.totalCount.toNat = samples.length
  stored : ∀ i sample, samples[i]? = some sample → dist.latencies i = sample
  sum : dist.latencySum = samples.sum
  min : samples ≠ [] → IsLeast {x | x ∈ samples} dist.min
  max : samples ≠ [] → IsGreatest {x | x ∈ samples} dist.max

/-- What a sequence of calls on a new distribution should do: no call stores
outside the array, a call fails exactly when the array is full and then changes
nothing, and in the end the samples that were accepted are held. -/
structure StoresSamples (memory : ℕ → UInt64) (ct : UInt64) (samples : List UInt64) : Prop where
  inside : ∀ k < samples.length,
    sampleIndex (addLatencies (allocLatencyDist .declared ct memory) (samples.take k)) < ct.toNat
  full : ∀ k sample, samples[k]? = some sample →
    let dist := addLatencies (allocLatencyDist .declared ct memory) (samples.take k)
    ((addLatency dist sample).1 = -enomem ↔ ct.toNat ≤ k) ∧
      ((addLatency dist sample).1 = -enomem → (addLatency dist sample).2 = dist)
  holds : HoldsSamples (addLatencies (allocLatencyDist .declared ct memory) samples)
    (samples.take ct.toNat)

section Dist

variable {dist : LatencyDist} {samples : List UInt64} {latency ct : UInt64} {memory : ℕ → UInt64}

theorem addLatencies_snoc (dist : LatencyDist) (samples : List UInt64) (latency : UInt64) :
    addLatencies dist (samples ++ [latency]) =
      (addLatency (addLatencies dist samples) latency).2 := by
  rw [addLatencies, List.foldl_append]
  rfl

/-- What holds after `samples` of a store that was never full. -/
structure Filled (memory : ℕ → UInt64) (ct : UInt64) (samples : List UInt64) (dist : LatencyDist) :
    Prop where
  allocated : dist.allocated = ct
  count : dist.totalCount.toNat = samples.length
  stored : ∀ i sample, samples[i]? = some sample → dist.latencies i = sample
  sum : dist.latencySum = samples.sum
  min : IsLeast {x | x = longMax ∨ x ∈ samples} dist.min
  max : IsGreatest {x | x = 0 ∨ x ∈ samples} dist.max

theorem filled_alloc (memory : ℕ → UInt64) (ct : UInt64) :
    Filled memory ct [] (allocLatencyDist .declared ct memory) where
  allocated := rfl
  count := rfl
  stored := fun i sample h => by simp at h
  sum := rfl
  min := by simp [IsLeast, lowerBounds, allocLatencyDist, LatencyDist.declared]
  max := by simp [IsGreatest, upperBounds, allocLatencyDist, LatencyDist.declared]

/-- A call that is accepted. -/
theorem addLatency_of_room (h : dist.totalCount + 1 ≤ dist.allocated) (latency : UInt64) :
    addLatency dist latency = (0, { dist with
      latencies := Function.update dist.latencies (sampleIndex dist) latency
      totalCount := dist.totalCount + 1
      latencySum := dist.latencySum + latency
      min := if latency < dist.min then latency else dist.min
      max := if latency > dist.max then latency else dist.max
      movingAvg := nextMovingAvg dist.movingAvg (dist.totalCount + 1) latency }) := by
  have hroom : ¬ dist.totalCount + 1 > dist.allocated := UInt64.not_lt.mpr h
  simp only [addLatency, hroom, if_false]
  split <;> split <;> rfl

/-- The comparison of `add_latency` with the minimum. -/
theorem isLeast_snoc {start m : UInt64} (h : IsLeast {x | x = start ∨ x ∈ samples} m)
    (latency : UInt64) :
    IsLeast {x | x = start ∨ x ∈ samples ++ [latency]} (if latency < m then latency else m) := by
  obtain ⟨hmem, hlower⟩ := h
  split
  -- the new sample is below all others
  case isTrue hless =>
    refine ⟨by simp, fun x hx => ?_⟩
    rcases hx with hstart | hx
    · exact UInt64.le_trans (UInt64.le_of_lt hless) (hlower (.inl hstart))
    · rcases List.mem_append.mp hx with hold | hnew
      · exact UInt64.le_trans (UInt64.le_of_lt hless) (hlower (.inr hold))
      · exact UInt64.le_of_eq (List.mem_singleton.mp hnew).symm
  -- the old minimum stays
  case isFalse hless =>
    refine ⟨hmem.imp_right (List.mem_append_left _), fun x hx => ?_⟩
    rcases hx with hstart | hx
    · exact hlower (.inl hstart)
    · rcases List.mem_append.mp hx with hold | hnew
      · exact hlower (.inr hold)
      · exact (List.mem_singleton.mp hnew) ▸ UInt64.not_lt.mp hless

/-- The comparison with the maximum. -/
theorem isGreatest_snoc {start m : UInt64} (h : IsGreatest {x | x = start ∨ x ∈ samples} m)
    (latency : UInt64) :
    IsGreatest {x | x = start ∨ x ∈ samples ++ [latency]} (if latency > m then latency else m) := by
  obtain ⟨hmem, hupper⟩ := h
  split
  -- the new sample is above all others
  case isTrue hmore =>
    refine ⟨by simp, fun x hx => ?_⟩
    rcases hx with hstart | hx
    · exact UInt64.le_trans (hupper (.inl hstart)) (UInt64.le_of_lt hmore)
    · rcases List.mem_append.mp hx with hold | hnew
      · exact UInt64.le_trans (hupper (.inr hold)) (UInt64.le_of_lt hmore)
      · exact UInt64.le_of_eq (List.mem_singleton.mp hnew)
  -- the old maximum stays
  case isFalse hmore =>
    refine ⟨hmem.imp_right (List.mem_append_left _), fun x hx => ?_⟩
    rcases hx with hstart | hx
    · exact hupper (.inl hstart)
    · rcases List.mem_append.mp hx with hold | hnew
      · exact hupper (.inr hold)
      · exact (List.mem_singleton.mp hnew) ▸ UInt64.not_lt.mp hmore

/-- **One call with room left.** -/
theorem Filled.step (h : Filled memory ct samples dist) (hroom : samples.length < ct.toNat)
    (latency : UInt64) :
    (addLatency dist latency).1 = 0 ∧
      Filled memory ct (samples ++ [latency]) (addLatency dist latency).2 := by
  have hct := ct.toNat_lt
  have hcount : (dist.totalCount + 1).toNat = samples.length + 1 := by
    rw [UInt64.toNat_add, h.count, UInt64.toNat_one]
    omega
  -- the count is compared after it was raised
  have haccepted : dist.totalCount + 1 ≤ dist.allocated := by
    rw [UInt64.le_iff_toNat_le, hcount, h.allocated]
    exact hroom
  rw [addLatency_of_room haccepted]
  refine ⟨rfl, ?_⟩
  constructor
  case allocated => exact h.allocated
  case count => rw [hcount, List.length_append, List.length_singleton]
  case stored =>
    intro i sample hi
    -- earlier entries stay, the next one is the new sample
    rcases Nat.lt_trichotomy i samples.length with hlt | rfl | hgt
    · rw [List.getElem?_append_left hlt] at hi
      have hne : i ≠ sampleIndex dist := by
        rw [sampleIndex, h.count]
        exact hlt.ne
      exact (Function.update_of_ne hne ..).trans (h.stored i sample hi)
    · rw [List.getElem?_append_right le_rfl, Nat.sub_self] at hi
      obtain rfl : latency = sample := Option.some.inj hi
      have hself : samples.length = sampleIndex dist := h.count.symm
      rw [hself]
      exact Function.update_self ..
    · rw [List.getElem?_eq_none (by simp; omega)] at hi
      simp at hi
  case sum => rw [List.sum_append, List.sum_singleton, h.sum]
  case min => exact isLeast_snoc h.min latency
  case max => exact isGreatest_snoc h.max latency

/-- **A sequence of calls that fits.** -/
theorem filled_addLatencies (memory : ℕ → UInt64) (hfits : samples.length ≤ ct.toNat) :
    Filled memory ct samples (addLatencies (allocLatencyDist .declared ct memory) samples) := by
  induction samples using List.reverseRecOn with
  | nil => exact filled_alloc memory ct
  | append_singleton samples latency ih =>
    rw [List.length_append, List.length_singleton] at hfits
    rw [addLatencies_snoc]
    exact ((ih (by omega)).step (by omega) latency).2

/-- The least of the samples is found when it is not above the start value. -/
theorem Filled.holds (h : Filled memory ct samples dist)
    (hmin : samples = [] ∨ ∃ x ∈ samples, x ≤ longMax) : HoldsSamples dist samples where
  count := h.count
  stored := h.stored
  sum := h.sum
  min := by
    intro hne
    obtain ⟨hmem, hlower⟩ := h.min
    refine ⟨?_, fun x hx => hlower (.inr hx)⟩
    rcases hmem with hstart | hsample
    case inr => exact hsample
    case inl =>
      -- the start value is reported only where it is a sample as well
      obtain ⟨x, hx, hle⟩ := hmin.resolve_left hne
      have heq : dist.min = x := UInt64.le_antisymm (hlower (.inr hx)) (hstart ▸ hle)
      exact heq ▸ hx
  max := by
    intro hne
    obtain ⟨hmem, hupper⟩ := h.max
    refine ⟨?_, fun x hx => hupper (.inr hx)⟩
    rcases hmem with hstart | hsample
    case inr => exact hsample
    case inl =>
      obtain ⟨x, hx⟩ := List.exists_mem_of_ne_nil samples hne
      have heq : dist.max = x := UInt64.le_antisymm (hstart ▸ UInt64.zero_le) (hupper (.inr hx))
      exact heq ▸ hx

/-- A sequence that is stored fits: the call that finds the array full stores
right behind it. -/
theorem StoresSamples.fits {memory : ℕ → UInt64} {ct : UInt64} {samples : List UInt64}
    (h : StoresSamples memory ct samples) : samples.length ≤ ct.toNat := by
  by_contra hlong
  have hlength : (samples.take ct.toNat).length = ct.toNat := by
    rw [List.length_take]
    omega
  -- the first call that finds the array full
  have hinside := h.inside ct.toNat (by omega)
  have hfilled := @filled_addLatencies (samples.take ct.toNat) ct memory hlength.le
  rw [sampleIndex, hfilled.count, hlength] at hinside
  exact lt_irrefl _ hinside

/-- A sequence that fits is stored, when some sample is below the value that the
minimum starts from. -/
theorem storesSamples_of_fits {memory : ℕ → UInt64} {ct : UInt64} {samples : List UInt64}
    (hfits : samples.length ≤ ct.toNat) (hmin : samples = [] ∨ ∃ x ∈ samples, x ≤ longMax) :
    StoresSamples memory ct samples := by
  -- every call finds the store as the samples before it left it
  have hfront : ∀ k, k ≤ samples.length → Filled memory ct (samples.take k)
      (addLatencies (allocLatencyDist .declared ct memory) (samples.take k)) := by
    intro k hk
    apply filled_addLatencies memory
    rw [List.length_take]
    omega
  constructor
  case inside =>
    intro k hk
    rw [sampleIndex, (hfront k hk.le).count, List.length_take]
    omega
  case full =>
    intro k sample hk
    have hlt : k < samples.length := (List.getElem?_eq_some_iff.mp hk).1
    have hroom : (samples.take k).length < ct.toNat := by
      rw [List.length_take]
      omega
    have hcode : (0 : Int32) ≠ -enomem := by decide
    have hret := ((hfront k hlt.le).step hroom sample).1
    dsimp only
    rw [hret]
    -- no call fails, and none should
    exact ⟨iff_of_false hcode (by omega), fun heq => absurd heq hcode⟩
  case holds =>
    rw [List.take_of_length_le hfits]
    exact (filled_addLatencies memory hfits).holds hmin

/-- **Which sequences are stored**: those that fit, when some sample is below
the value that the minimum starts from. -/
theorem storesSamples_iff (memory : ℕ → UInt64) (ct : UInt64) (samples : List UInt64) :
    StoresSamples memory ct samples ↔
      samples.length ≤ ct.toNat ∧ (samples = [] ∨ ∃ x ∈ samples, x ≤ longMax) := by
  constructor
  · intro h
    refine ⟨h.fits, or_iff_not_imp_left.mpr fun hne => ?_⟩
    have hmin := h.holds.min
    rw [List.take_of_length_le h.fits] at hmin
    have hfilled := @filled_addLatencies samples ct memory h.fits
    -- the reported minimum is a sample, and never above the start value
    exact ⟨_, (hmin hne).1, hfilled.min.2 (.inl rfl)⟩
  · intro h
    exact storesSamples_of_fits h.1 h.2

end Dist

/-! ## The packet map -/

/-- `Packet_Map_t` in memory, in words of eight bytes: the two arrays, the count,
and the two pointers of `calculate_latencies`. -/
abbrev MapWords := ℕ → UInt64

/-- `offsetof(Packet_Map_t, ids) / 8` -/
def idsWord : ℕ := maxIterations
/-- `offsetof(Packet_Map_t, total_count) / 8` -/
def totalCountWord : ℕ := 2 * maxIterations

/-- Where the next entry goes. -/
def entryIndex (words : MapWords) : ℕ := (words totalCountWord).toNat

/-- `add_latency_to_map` on the memory of the structure. Every statement reads the
count again. -/
def addLatencyToMapWords (words : MapWords) (rtt : UInt64) (id : UInt32) : Int32 × MapWords :=
  -- behind the array of times lie the ids, behind those the count itself
  let words := Function.update words (entryIndex words) rtt
  let words := Function.update words (idsWord + entryIndex words) id.toUInt64
  let words := Function.update words totalCountWord (words totalCountWord + 1)
  (if entryIndex words > maxIterations then -enomem else 0, words)

/-- A sequence of calls of `add_latency_to_map`. -/
def addLatenciesToMap (words : MapWords) (entries : List (UInt64 × UInt32)) : MapWords :=
  entries.foldl (fun words entry => (addLatencyToMapWords words entry.1 entry.2).2) words

/-- The map holds exactly the entries. -/
structure HoldsEntries (words : MapWords) (entries : List (UInt64 × UInt32)) : Prop where
  count : entryIndex words = entries.length
  rtts : ∀ i entry, entries[i]? = some entry → words i = entry.1
  ids : ∀ i entry, entries[i]? = some entry → words (idsWord + i) = entry.2.toUInt64

/-- What a sequence of calls on an empty map should do. -/
structure StoresEntries (words : MapWords) (entries : List (UInt64 × UInt32)) : Prop where
  inside : ∀ k < entries.length, entryIndex (addLatenciesToMap words (entries.take k)) < maxIterations
  full : ∀ k entry, entries[k]? = some entry →
    let words := addLatenciesToMap words (entries.take k)
    ((addLatencyToMapWords words entry.1 entry.2).1 = -enomem ↔ maxIterations ≤ k) ∧
      ((addLatencyToMapWords words entry.1 entry.2).1 = -enomem →
        (addLatencyToMapWords words entry.1 entry.2).2 = words)
  holds : HoldsEntries (addLatenciesToMap words entries) (entries.take maxIterations)

section Map

variable {words : MapWords} {map : PacketMap} {entries : List (UInt64 × UInt32)}

theorem addLatenciesToMap_snoc (words : MapWords) (entries : List (UInt64 × UInt32))
    (entry : UInt64 × UInt32) :
    addLatenciesToMap words (entries ++ [entry]) =
      (addLatencyToMapWords (addLatenciesToMap words entries) entry.1 entry.2).2 := by
  rw [addLatenciesToMap, List.foldl_append]
  rfl

/-- An entry inside the arrays moves the count and nothing else of the two other parts. -/
theorem addLatencyToMapWords_of_inside (hinside : entryIndex words < maxIterations) (rtt : UInt64)
    (id : UInt32) :
    addLatencyToMapWords words rtt id = (0, Function.update
      (Function.update (Function.update words (entryIndex words) rtt)
        (idsWord + entryIndex words) id.toUInt64)
      totalCountWord (words totalCountWord + 1)) := by
  -- the count is read again, and is no entry of the arrays
  have hrtt : entryIndex (Function.update words (entryIndex words) rtt) = entryIndex words := by
    have hne : totalCountWord ≠ entryIndex words := by
      unfold totalCountWord
      omega
    exact congrArg UInt64.toNat (Function.update_of_ne hne ..)
  have hid : Function.update (Function.update words (entryIndex words) rtt)
      (idsWord + entryIndex words) id.toUInt64 totalCountWord = words totalCountWord := by
    have hne : totalCountWord ≠ idsWord + entryIndex words := by
      unfold totalCountWord idsWord
      omega
    have hne' : totalCountWord ≠ entryIndex words := by
      unfold totalCountWord
      omega
    rw [Function.update_of_ne hne, Function.update_of_ne hne']
  have hcount : ¬ entryIndex (Function.update
      (Function.update (Function.update words (entryIndex words) rtt)
        (idsWord + entryIndex words) id.toUInt64)
      totalCountWord (words totalCountWord + 1)) > maxIterations := by
    rw [entryIndex, Function.update_self, UInt64.toNat_add, UInt64.toNat_one]
    -- the count does not wrap below the capacity
    have hsmall := Nat.mod_le ((words totalCountWord).toNat + 1) (2 ^ 64)
    have hindex : (words totalCountWord).toNat < maxIterations := hinside
    omega
  simp only [addLatencyToMapWords, hrtt, hid, hcount, if_false]

/-- The words show the map, as far as its arrays go. -/
structure Shows (words : MapWords) (map : PacketMap) : Prop where
  count : entryIndex words = map.totalCount
  rtts : ∀ i < maxIterations, words i = map.rtts i
  ids : ∀ i < maxIterations, words (idsWord + i) = map.ids i

/-- **Inside the arrays** the memory follows the map of `do_client`. -/
theorem Shows.step (h : Shows words map) (hinside : map.totalCount < maxIterations) (rtt : UInt64)
    (id : UInt32) :
    (addLatencyToMapWords words rtt id).1 = (addLatencyToMap map rtt id).1 ∧
      Shows (addLatencyToMapWords words rtt id).2 (addLatencyToMap map rtt id).2 := by
  have hlt : entryIndex words < maxIterations := h.count ▸ hinside
  have hret : (addLatencyToMap map rtt id).1 = 0 := if_neg (by
    show ¬ map.totalCount + 1 > maxIterations
    omega)
  rw [addLatencyToMapWords_of_inside hlt, hret]
  refine ⟨rfl, ?_⟩
  constructor
  case count =>
    have hword : (words totalCountWord).toNat = map.totalCount := h.count
    have hmax : maxIterations < 2 ^ 64 := by decide
    dsimp only
    rw [entryIndex, Function.update_self, UInt64.toNat_add, UInt64.toNat_one, hword]
    exact Nat.mod_eq_of_lt (by omega)
  case rtts =>
    intro i hi
    have hcount : i ≠ totalCountWord := by
      unfold totalCountWord
      omega
    -- the id goes to the other array
    have hids : i ≠ idsWord + entryIndex words := by
      unfold idsWord
      omega
    dsimp only
    rw [Function.update_of_ne hcount, Function.update_of_ne hids, h.count]
    simp only [addLatencyToMap, Function.update_apply, h.rtts i hi]
  case ids =>
    intro i hi
    have hcount : idsWord + i ≠ totalCountWord := by
      unfold totalCountWord idsWord
      omega
    have hrtts : idsWord + i ≠ entryIndex words := by
      unfold idsWord
      omega
    dsimp only
    rw [Function.update_of_ne hcount, Function.update_apply, Function.update_of_ne hrtts,
      h.ids i hi, h.count]
    simp only [addLatencyToMap, Function.update_apply, Nat.add_left_cancel_iff]

/-- **A sequence of calls that fits.** -/
theorem holdsEntries_addLatenciesToMap (hempty : words totalCountWord = 0)
    (hfits : entries.length ≤ maxIterations) :
    HoldsEntries (addLatenciesToMap words entries) entries := by
  induction entries using List.reverseRecOn with
  | nil => exact ⟨congrArg UInt64.toNat hempty, by simp, by simp⟩
  | append_singleton entries entry ih =>
    rw [List.length_append, List.length_singleton] at hfits
    have hholds := ih (by omega)
    -- the map that the words show so far
    let map : PacketMap := ⟨addLatenciesToMap words entries,
      fun i => addLatenciesToMap words entries (idsWord + i), entries.length⟩
    have hshows : Shows (addLatenciesToMap words entries) map :=
      ⟨hholds.count, fun _ _ => rfl, fun _ _ => rfl⟩
    have hstep := (hshows.step (show entries.length < maxIterations by omega) entry.1 entry.2).2
    rw [addLatenciesToMap_snoc]
    -- an entry is an earlier one or the new one
    have hentry : ∀ i e, (entries ++ [entry])[i]? = some e → i < maxIterations ∧
        ((i ≠ entries.length ∧ entries[i]? = some e) ∨ (i = entries.length ∧ e = entry)) := by
      intro i e hi
      have hlt := (List.getElem?_eq_some_iff.mp hi).1
      rw [List.length_append, List.length_singleton] at hlt
      refine ⟨by omega, ?_⟩
      rcases Nat.lt_succ_iff_lt_or_eq.mp hlt with hold | rfl
      · rw [List.getElem?_append_left hold] at hi
        exact .inl ⟨hold.ne, hi⟩
      · rw [List.getElem?_append_right le_rfl, Nat.sub_self] at hi
        exact .inr ⟨rfl, (Option.some.inj hi).symm⟩
    constructor
    case count =>
      rw [hstep.count, List.length_append, List.length_singleton]
      rfl
    case rtts =>
      intro i e hi
      obtain ⟨hlt, hcases⟩ := hentry i e hi
      rw [hstep.rtts i hlt]
      rcases hcases with ⟨hne, hold⟩ | ⟨rfl, rfl⟩
      · exact (Function.update_of_ne hne ..).trans (hholds.rtts i e hold)
      · exact Function.update_self ..
    case ids =>
      intro i e hi
      obtain ⟨hlt, hcases⟩ := hentry i e hi
      rw [hstep.ids i hlt]
      rcases hcases with ⟨hne, hold⟩ | ⟨rfl, rfl⟩
      · exact (Function.update_of_ne hne ..).trans (hholds.ids i e hold)
      · exact Function.update_self ..

/-- **Which sequences the map stores**: those that fit. -/
theorem storesEntries_iff (hempty : words totalCountWord = 0) (entries : List (UInt64 × UInt32)) :
    StoresEntries words entries ↔ entries.length ≤ maxIterations := by
  -- the count is the number of calls, as long as they fit
  have hfront : ∀ k, k ≤ entries.length → k ≤ maxIterations →
      entryIndex (addLatenciesToMap words (entries.take k)) = k := by
    intro k hk hle
    have hlength : (entries.take k).length = k := by
      rw [List.length_take]
      omega
    rw [(holdsEntries_addLatenciesToMap hempty (by omega)).count, hlength]
  constructor
  · intro h
    by_contra hlong
    -- the first call that finds the map full
    have hinside := h.inside maxIterations (by omega)
    rw [hfront maxIterations (by omega) le_rfl] at hinside
    exact lt_irrefl _ hinside
  · intro hfits
    constructor
    case inside =>
      intro k hk
      rw [hfront k hk.le (by omega)]
      omega
    case full =>
      intro k entry hk
      have hlt : k < entries.length := (List.getElem?_eq_some_iff.mp hk).1
      have hcode : (0 : Int32) ≠ -enomem := by decide
      have hret := addLatencyToMapWords_of_inside
        (by rw [hfront k hlt.le (by omega)]; omega) entry.1 entry.2
      dsimp only
      rw [hret]
      exact ⟨iff_of_false hcode (by omega), fun heq => absurd heq hcode⟩
    case holds =>
      rw [List.take_of_length_le hfits]
      exact holdsEntries_addLatenciesToMap hempty hfits

end Map

/-! ## Both stores -/

/-- **Which sequences are stored exactly**: in a distribution of `ct` samples and
in the packet map, whatever was in their memory before. -/
theorem samples_stored_iff (memory : ℕ → UInt64) (ct : UInt64) (samples : List UInt64)
    {words : MapWords} (hempty : words totalCountWord = 0) (entries : List (UInt64 × UInt32)) :
    (StoresSamples memory ct samples ↔
      samples.length ≤ ct.toNat ∧ (samples = [] ∨ ∃ x ∈ samples, x ≤ longMax)) ∧
    (StoresEntries words entries ↔ entries.length ≤ maxIterations) :=
  ⟨storesSamples_iff memory ct samples, storesEntries_iff hempty entries⟩

/-- Two samples in an array of two, and one entry. -/
theorem samples_stored_two :
    StoresSamples (fun _ => 0) 2 [1500, 900] ∧ StoresEntries (fun _ => 0) [(1500, 0)] := by
  have h := @samples_stored_iff (fun _ => 0) 2 [1500, 900] (fun _ => 0) rfl [(1500, 0)]
  exact ⟨h.1.mpr (by decide), h.2.mpr (by decide)⟩

/-- A second sample is stored behind an array of one. -/
theorem not_samples_stored_second :
    ¬ ((∀ (memory : ℕ → UInt64) (ct : UInt64) (samples : List UInt64),
        StoresSamples memory ct samples) ∧
      ∀ (words : MapWords) (entries : List (UInt64 × UInt32)), words totalCountWord = 0 →
        StoresEntries words entries) := by
  intro hclaim
  have hstores := hclaim.1 (fun _ => 0) 1 [1500, 900]
  exact absurd ((storesSamples_iff ..).mp hstores).1 (by decide)

end Mlx5Netperf
