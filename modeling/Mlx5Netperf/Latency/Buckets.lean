import Mlx5Netperf.Latency.SampleStores

/-!
# From Replies to Samples

The two passes of `calculate_latencies` over the packet map: the replies to a
request fill a row of the grouped round-trip times, and the largest time of a
row becomes a sample. The second pass takes every row that is not empty, whether
it was filled or not.
-/

namespace Mlx5Netperf

variable {map : PacketMap} {numSent numPerBucket : ℕ}

/-- `calculate_latencies`, when there is memory: the distribution, and the count
that is printed as fully received. `none` is an index outside an array. -/
def calculateLatenciesInto (dist : LatencyDist) (memory : ℕ → UInt64) (map : PacketMap)
    (numSent numPerBucket : ℕ) : Option (LatencyDist × ℕ) :=
  (calculateLatencies map numSent numPerBucket).map fun latencies =>
    (addLatencies (allocLatencyDist dist (UInt64.ofNat numSent) memory) latencies, latencies.length)

/-! ## What is meant -/

/-- The id of an entry, as it is read back into 32 bits. -/
def entryId (map : PacketMap) (i : ℕ) : ℕ := (map.ids i).toUInt32.toNat

/-- The round-trip times of the replies to request `r` among the first `k`
entries, in the order in which they arrived. -/
def replies (map : PacketMap) (k r : ℕ) : List UInt64 :=
  ((List.range k).filter fun i => entryId map i = r).map map.rtts

/-- The largest of some round-trip times. -/
def largest (rtts : List UInt64) : UInt64 :=
  rtts.foldl (fun max rtt => if rtt > max then rtt else max) 0

/-- The sample of a request: the largest of the first `numPerBucket` times. -/
def meantSample (map : PacketMap) (numPerBucket r : ℕ) : UInt64 :=
  largest ((replies map map.totalCount r).take numPerBucket)

/-- The samples of the requests that were fully received, in the order of their ids. -/
def meantSamples (map : PacketMap) (numSent numPerBucket : ℕ) : List UInt64 :=
  ((List.range numSent).filter fun r =>
    numPerBucket ≤ (replies map map.totalCount r).length).map (meantSample map numPerBucket)

theorem replies_succ (map : PacketMap) (k r : ℕ) :
    replies map (k + 1) r =
      replies map k r ++ if entryId map k = r then [map.rtts k] else [] := by
  rw [replies, List.range_succ, List.filter_append, List.map_append]
  by_cases h : entryId map k = r
  · simp [replies, h]
  · simp [replies, h]

/-- **The largest** is one of the times and above all others. -/
theorem isGreatest_largest {rtts : List UInt64} (hne : rtts ≠ []) :
    IsGreatest {x | x ∈ rtts} (largest rtts) := by
  -- the loop starts from zero, which is no larger than any time
  have hwith : ∀ l : List UInt64, IsGreatest {x | x = 0 ∨ x ∈ l} (largest l) := by
    intro l
    induction l using List.reverseRecOn with
    | nil => simp [IsGreatest, upperBounds, largest]
    | append_singleton l rtt ih =>
      have hsnoc := isGreatest_snoc ih rtt
      rwa [largest, List.foldl_append]
  obtain ⟨hmem, hupper⟩ := hwith rtts
  refine ⟨?_, fun x hx => hupper (.inr hx)⟩
  rcases hmem with hzero | hrtt
  case inr => exact hrtt
  case inl =>
    obtain ⟨x, hx⟩ := List.exists_mem_of_ne_nil rtts hne
    have heq : largest rtts = x :=
      UInt64.le_antisymm (hzero ▸ UInt64.zero_le) (hupper (.inr hx))
    exact heq ▸ hx

/-! ## The first pass -/

theorem Cells.eq_of_get {α : Type} {a : Cells α} {i : ℕ} {x : α} (h : a.get i = some x) :
    x = a.cell i := by
  rw [Cells.get] at h
  split at h
  case isTrue => exact (Option.some.inj h).symm
  case isFalse => simp at h

theorem Cells.eq_of_set {α : Type} {a a' : Cells α} {i : ℕ} {x : α} (h : a.set i x = some a') :
    a'.cell = Function.update a.cell i x := by
  rw [Cells.set] at h
  split at h
  case isTrue => exact congrArg Cells.cell (Option.some.inj h).symm
  case isFalse => simp at h

/-- A row holds a list, with zeros behind it. -/
def RowHolds (grouped : Cells UInt64) (numPerBucket r : ℕ) (rtts : List UInt64) : Prop :=
  ∀ c < numPerBucket, grouped.cell (r * numPerBucket + c) = rtts[c]?.getD 0

/-- Cells of different rows differ. -/
theorem row_ne {numPerBucket r r' c c' : ℕ} (hne : r ≠ r') (hc : c < numPerBucket)
    (hc' : c' < numPerBucket) : r * numPerBucket + c ≠ r' * numPerBucket + c' := by
  intro heq
  have hdiv : ∀ {r c : ℕ}, c < numPerBucket → (r * numPerBucket + c) / numPerBucket = r := by
    intro r c hc
    rw [Nat.mul_comm, Nat.mul_add_div (by omega), Nat.div_eq_of_lt hc, Nat.add_zero]
  exact hne (((@hdiv r c hc).symm.trans (congrArg (· / numPerBucket) heq)).trans (@hdiv r' c' hc'))

/-- The column behind a list holds nothing yet, and a time stored there is
appended to the list. -/
theorem RowHolds.store {grouped grouped' : Cells UInt64} {r : ℕ} {rtts : List UInt64} {rtt : UInt64}
    (h : RowHolds grouped numPerBucket r rtts) (hcell : grouped'.cell =
      Function.update grouped.cell (r * numPerBucket + rtts.length) rtt) :
    RowHolds grouped' numPerBucket r (rtts ++ [rtt]) := by
  intro c hc
  rw [hcell, Function.update_apply]
  by_cases hself : c = rtts.length
  · subst hself
    rw [if_pos rfl, List.getElem?_append_right le_rfl, Nat.sub_self]
    rfl
  · rw [if_neg (by omega), h c hc, List.getElem?_append]
    split
    case isTrue => rfl
    case isFalse hbehind =>
      rw [List.getElem?_eq_none (by omega), List.getElem?_eq_none (by simp; omega)]

/-- **Putting a time into a row** appends it, unless the row is full; the other
rows stay. -/
theorem groupRtt_spec {r rtt : _} {rtts : List UInt64} {left c : ℕ} {grouped grouped' : Cells UInt64}
    (h : groupRtt (r * numPerBucket) rtt left c grouped = some grouped')
    (hleft : c + left = numPerBucket) (hc : c ≤ rtts.length)
    (hnonzero : ∀ x ∈ rtts, x ≠ 0) (hrow : RowHolds grouped numPerBucket r rtts) :
    RowHolds grouped' numPerBucket r (rtts ++ [rtt]) ∧
      ∀ r' c', r' ≠ r → c' < numPerBucket →
        grouped'.cell (r' * numPerBucket + c') = grouped.cell (r' * numPerBucket + c') := by
  induction left generalizing c with
  | zero =>
    -- the row was full
    obtain rfl : grouped = grouped' := Option.some.inj h
    refine ⟨fun c' hc' => ?_, fun _ _ _ _ => rfl⟩
    rw [hrow c' hc', List.getElem?_append_left (by omega)]
  | succ left ih =>
    rw [groupRtt] at h
    obtain ⟨old, hget, h⟩ := Option.bind_eq_some_iff.mp h
    have hold : old = rtts[c]?.getD 0 := (Cells.eq_of_get hget).trans (hrow c (by omega))
    split at h
    case isFalse hfull =>
      -- the column is taken
      have hlt : c < rtts.length := by
        by_contra hge
        rw [List.getElem?_eq_none (by omega)] at hold
        exact hfull hold
      exact ih h (by omega) hlt
    case isTrue hfree =>
      -- a free column is the first one behind the times, since no time is zero
      have heq : c = rtts.length := by
        apply Nat.le_antisymm hc
        by_contra hlt
        have hin : c < rtts.length := by omega
        rw [hfree, List.getElem?_eq_getElem hin] at hold
        exact hnonzero _ (List.getElem_mem hin) hold.symm
      have hcell := Cells.eq_of_set h
      refine ⟨hrow.store (heq ▸ hcell), fun r' c' hr' hc' => ?_⟩
      rw [hcell]
      exact Function.update_of_ne (row_ne hr' hc' (by omega)) ..

/-- The arrays after the first `k` entries. -/
structure Grouped (map : PacketMap) (numSent numPerBucket k : ℕ)
    (arrays : Cells UInt32 × Cells UInt64) : Prop where
  sentIds : ∀ r < numSent, (arrays.1.cell r ≠ 0 ↔ replies map k r ≠ [])
  grouped : ∀ r < numSent, RowHolds arrays.2 numPerBucket r (replies map k r)

/-- **One entry.** -/
theorem Grouped.step {k : ℕ} {arrays arrays' : Cells UInt32 × Cells UInt64}
    (h : Grouped map numSent numPerBucket k arrays) (hid : entryId map k < numSent)
    (hnonzero : ∀ i < k, map.rtts i ≠ 0)
    (hentry : processEntry map numPerBucket arrays k = some arrays') :
    Grouped map numSent numPerBucket (k + 1) arrays' := by
  obtain ⟨sentIds, hset, hentry⟩ := Option.bind_eq_some_iff.mp hentry
  obtain ⟨grouped, hgroup, heq⟩ := Option.map_eq_some_iff.mp hentry
  obtain rfl := heq
  have hsent : sentIds.cell = Function.update arrays.1.cell (entryId map k) 1 := Cells.eq_of_set hset
  -- the times of the row were all stored, and none of them is zero
  have htimes : ∀ x ∈ replies map k (entryId map k), x ≠ 0 := by
    intro x hx
    obtain ⟨i, hi, rfl⟩ := List.mem_map.mp hx
    exact hnonzero i (List.mem_range.mp (List.mem_filter.mp hi).1)
  obtain ⟨hrow, hothers⟩ := groupRtt_spec hgroup (Nat.zero_add _) (Nat.zero_le _) htimes
    (h.grouped _ hid)
  constructor
  case sentIds =>
    intro r hr
    rw [replies_succ, hsent]
    -- the row of this entry, or another one
    by_cases hself : entryId map k = r
    · subst hself
      rw [Function.update_self, if_pos rfl]
      exact iff_of_true (by decide) (by simp)
    · rw [Function.update_of_ne (Ne.symm hself), if_neg hself, List.append_nil]
      exact h.sentIds r hr
  case grouped =>
    intro r hr
    rw [replies_succ]
    by_cases hself : entryId map k = r
    · subst hself
      rw [if_pos rfl]
      exact hrow
    · rw [if_neg hself, List.append_nil]
      intro c hc
      rw [hothers r c (Ne.symm hself) hc]
      exact h.grouped r hr c hc

/-- **All entries.** -/
theorem grouped_foldlM {k : ℕ} {arrays : Cells UInt32 × Cells UInt64}
    (hids : ∀ i < k, entryId map i < numSent) (hnonzero : ∀ i < k, map.rtts i ≠ 0)
    (h : (List.range k).foldlM (processEntry map numPerBucket)
      (⟨numSent, fun _ => 0⟩, ⟨numSent * numPerBucket, fun _ => 0⟩) = some arrays) :
    Grouped map numSent numPerBucket k arrays := by
  induction k generalizing arrays with
  | zero =>
    obtain rfl := Option.some.inj h
    refine ⟨fun r _ => ?_, fun r _ c _ => ?_⟩
    · simp [replies]
    · simp [replies]
  | succ k ih =>
    rw [List.range_succ, List.foldlM_append] at h
    obtain ⟨before, hbefore, hentry⟩ := Option.bind_eq_some_iff.mp h
    simp only [List.foldlM_cons, List.foldlM_nil, bind_pure] at hentry
    exact (ih (fun i hi => hids i (by omega)) (fun i hi => hnonzero i (by omega)) hbefore).step
      (hids k (by omega)) (fun i hi => hnonzero i (by omega)) hentry

/-! ## The second pass -/

/-- The zeros behind a row are no larger times. -/
theorem foldl_row {row : ℕ → UInt64} {rtts : List UInt64} {n : ℕ}
    (h : ∀ c < n, row c = rtts[c]?.getD 0) :
    (List.range n).foldl (fun max c => if row c ≠ 0 ∧ row c > max then row c else max) 0 =
      largest (rtts.take n) := by
  induction n with
  | zero => rfl
  | succ n ih =>
    rw [List.range_succ, List.foldl_append, ih fun c hc => h c (by omega), List.foldl_cons,
      List.foldl_nil, h n (by omega), List.take_add_one]
    cases hn : rtts[n]? with
    | none => simp
    | some rtt =>
      rw [Option.getD_some, Option.toList_some, largest, largest, List.foldl_append, List.foldl_cons,
        List.foldl_nil]
      -- a time that is larger than another is not zero
      have hzero : ∀ m : UInt64, rtt > m → rtt ≠ 0 := by
        rintro m hgt rfl
        exact UInt64.not_lt_zero hgt
      split
      case isTrue hlarger => rw [if_pos hlarger.2]
      case isFalse hsmaller => rw [if_neg fun hgt => hsmaller ⟨hzero _ hgt, hgt⟩]

/-- The second pass finds the meant sample of every row. -/
theorem maxRtt_eq {grouped : Cells UInt64} {r : ℕ}
    (h : RowHolds grouped numPerBucket r (replies map map.totalCount r)) :
    maxRtt grouped numPerBucket r = meantSample map numPerBucket r :=
  foldl_row h

/-- The sample of a request with a reply is not zero. -/
theorem meantSample_pos (hbucket : 1 ≤ numPerBucket)
    (hnonzero : ∀ i < map.totalCount, map.rtts i ≠ 0) {r : ℕ}
    (hne : replies map map.totalCount r ≠ []) : meantSample map numPerBucket r > 0 := by
  obtain ⟨first, rest, hreplies⟩ := List.exists_cons_of_ne_nil hne
  obtain ⟨n, rfl⟩ : ∃ n, numPerBucket = n + 1 := ⟨numPerBucket - 1, by omega⟩
  have hfirst : first ≠ 0 := by
    have hmem : first ∈ replies map map.totalCount r := by
      rw [hreplies]
      exact List.mem_cons_self ..
    obtain ⟨i, hi, rfl⟩ := List.mem_map.mp hmem
    exact hnonzero i (List.mem_range.mp (List.mem_filter.mp hi).1)
  have hgreatest := @isGreatest_largest (first :: rest.take n) (List.cons_ne_nil _ _)
  have hle := hgreatest.2 (List.mem_cons_self ..)
  rw [meantSample, hreplies, List.take_succ_cons]
  exact UInt64.lt_of_lt_of_le (UInt64.pos_iff_ne_zero.mpr hfirst) hle

/-- **What `calculate_latencies` adds**: a sample for every request with a reply. -/
theorem calculateLatencies_eq (hbucket : 1 ≤ numPerBucket)
    (hids : ∀ i < map.totalCount, entryId map i < numSent)
    (hnonzero : ∀ i < map.totalCount, map.rtts i ≠ 0) :
    calculateLatencies map numSent numPerBucket =
      some (((List.range numSent).filter fun r => replies map map.totalCount r ≠ []).map
        (meantSample map numPerBucket)) := by
  -- all ids are inside the arrays, so the first pass ends
  have hsome := (calculateLatencies_isSome_iff map numSent numPerBucket).mpr hids
  rw [calculateLatencies, Option.isSome_map] at hsome
  obtain ⟨arrays, harrays⟩ := Option.isSome_iff_exists.mp hsome
  have hgrouped := grouped_foldlM hids hnonzero harrays
  rw [calculateLatencies, harrays, Option.map_some, Option.some.injEq]
  dsimp only
  have hrows : ∀ r ∈ List.range numSent,
      maxRtt arrays.2 numPerBucket r = meantSample map numPerBucket r := fun r hr =>
    maxRtt_eq (hgrouped.grouped r (List.mem_range.mp hr))
  -- the flag of a request and the largest time agree: both say that there was a reply
  have hfilter : ((List.range numSent).filter fun r =>
      arrays.1.cell r ≠ 0 ∧ maxRtt arrays.2 numPerBucket r > 0) =
        (List.range numSent).filter fun r => replies map map.totalCount r ≠ [] := by
    apply List.filter_congr
    intro r hr
    have hsent := hgrouped.sentIds r (List.mem_range.mp hr)
    rw [hrows r hr]
    exact decide_eq_decide.mpr ⟨fun h => hsent.mp h.1,
      fun hne => ⟨hsent.mpr hne, meantSample_pos hbucket hnonzero hne⟩⟩
  rw [hfilter]
  exact List.map_congr_left fun r hr => hrows r (List.mem_filter.mp hr).1

/-! ## Full and partial rows -/

/-- The distribution gets exactly the samples of the fully received requests, and
their number is printed. -/
def AddsFullRequests (dist : LatencyDist) (memory : ℕ → UInt64) (map : PacketMap)
    (numSent numPerBucket : ℕ) : Prop :=
  calculateLatenciesInto dist memory map numSent numPerBucket =
    some (addLatencies (allocLatencyDist dist (UInt64.ofNat numSent) memory)
      (meantSamples map numSent numPerBucket), (meantSamples map numSent numPerBucket).length)

/-- **When the full requests are counted**: exactly when no request was received
in part. -/
theorem full_requests_counted_iff (dist : LatencyDist) (memory : ℕ → UInt64)
    (hbucket : 1 ≤ numPerBucket) (hids : ∀ i < map.totalCount, entryId map i < numSent)
    (hnonzero : ∀ i < map.totalCount, map.rtts i ≠ 0) :
    AddsFullRequests dist memory map numSent numPerBucket ↔
      ∀ r < numSent, replies map map.totalCount r = [] ∨
        numPerBucket ≤ (replies map map.totalCount r).length := by
  -- a row that is full is not empty
  have hsub : ∀ r, numPerBucket ≤ (replies map map.totalCount r).length →
      replies map map.totalCount r ≠ [] := by
    intro r hle
    exact List.ne_nil_of_length_pos (hbucket.trans hle)
  rw [AddsFullRequests, calculateLatenciesInto, calculateLatencies_eq hbucket hids hnonzero,
    Option.map_some, Option.some.injEq, Prod.mk.injEq]
  constructor
  · rintro ⟨-, hcount⟩ r hr
    -- the full requests are among those with a reply, and as many
    have hsublist : ((List.range numSent).filter fun r =>
        numPerBucket ≤ (replies map map.totalCount r).length).Sublist
          ((List.range numSent).filter fun r => replies map map.totalCount r ≠ []) :=
      List.monotone_filter_right _ fun r hle => decide_eq_true (hsub r (of_decide_eq_true hle))
    rw [meantSamples, List.length_map, List.length_map] at hcount
    have hequal := hsublist.eq_of_length hcount.symm
    -- a request with some of its replies is in one list only
    by_contra hpartial
    rw [not_or] at hpartial
    have hmem : r ∈ (List.range numSent).filter fun r => replies map map.totalCount r ≠ [] :=
      List.mem_filter.mpr ⟨List.mem_range.mpr hr, decide_eq_true hpartial.1⟩
    rw [← hequal] at hmem
    exact hpartial.2 (of_decide_eq_true (List.mem_filter.mp hmem).2)
  · intro hfull
    -- without partial rows both conditions select the same requests
    have hfilter : ((List.range numSent).filter fun r => replies map map.totalCount r ≠ []) =
        (List.range numSent).filter fun r =>
          numPerBucket ≤ (replies map map.totalCount r).length := by
      apply List.filter_congr
      intro r hr
      exact decide_eq_decide.mpr
        ⟨fun hne => (hfull r (List.mem_range.mp hr)).resolve_left hne, hsub r⟩
    rw [hfilter]
    exact ⟨rfl, rfl⟩

/-- Replies to request 0 that took 700 and 900. -/
def twoReplies (totalCount : ℕ) : PacketMap :=
  ⟨fun i => if i = 0 then 700 else 900, fun _ => 0, totalCount⟩

/-- Both replies of a request of two packets. -/
theorem full_requests_counted_twoReplies :
    AddsFullRequests .declared (fun _ => 0) (twoReplies 2) 1 2 := by
  apply (full_requests_counted_iff .declared (fun _ => 0) (by decide) (by decide) (by decide)).mpr
  decide

/-- With the first reply alone the request counts as fully received. -/
theorem not_full_requests_counted_oneReply :
    ¬ ∀ (dist : LatencyDist) (memory : ℕ → UInt64) (map : PacketMap) (numSent numPerBucket : ℕ),
      1 ≤ numPerBucket → (∀ i < map.totalCount, entryId map i < numSent) →
      (∀ i < map.totalCount, map.rtts i ≠ 0) →
      AddsFullRequests dist memory map numSent numPerBucket := by
  intro hclaim
  have hadds := hclaim .declared (fun _ => 0) (twoReplies 1) 1 2 (by decide) (by decide) (by decide)
  have hsample : calculateLatencies (twoReplies 1) 1 2 = some [700] := by decide
  have hmeant : meantSamples (twoReplies 1) 1 2 = [] := by decide
  rw [AddsFullRequests, calculateLatenciesInto, hsample, hmeant, Option.map_some,
    Option.some.injEq, Prod.mk.injEq] at hadds
  exact absurd hadds.2 (by decide)

end Mlx5Netperf
