import Mathlib.Data.List.Iterate
import Mlx5Netperf.Client.Accounting
import Mlx5Netperf.Lib.FloatRounding

/-!
# Requests Along the Chase

`initialize_client_requests` as a whole: how many requests it prepares, and
which regions they ask for. Read one after the other, the segments of all
requests are the walk along the pointer table from region 0.
-/

namespace Mlx5Netperf

open CyclicWalk FloatRounding

/-- `RateDistribution`; there is one type of distribution. -/
structure RateDistribution where
  ratePps : UInt64
  totalTime : UInt64

/-- `REQUEST_PADDING` as a double. -/
def requestPadding : ℚ := roundTo 53 (6 / 5)

/-- `(size_t)((float)total_time * rate_pps * REQUEST_PADDING) + 1` -/
def RateDistribution.numRequests (rate : RateDistribution) : ℕ :=
  ⌊roundTo 53 (roundTo 24 (toFloat rate.totalTime * toFloat rate.ratePps) * requestPadding)⌋₊ + 1

/-- `time_intersend`; `none` is a division by zero. -/
def timeIntersend (ratePps : UInt64) : Option UInt64 :=
  if ratePps = 0 then none else some (1000000 * 1000 / ratePps)

/-- `get_next_cycles_offset` -/
def getNextCyclesOffset (cyclesPerNs : ℚ) (rate : RateDistribution) : Option UInt64 :=
  (timeIntersend rate.ratePps).map fun intersend =>
    UInt64.ofNat ⌊roundTo 24 (cyclesPerNs * toFloat intersend)⌋₊

/-- `sizeof(struct ClientRequest)` -/
def sizeofClientRequest : ℕ := 272

/-- `initialize_client_requests`: the table is made, used, and freed. The calls of
`malloc` are those for the table and the one for the requests, in a block that held
`requestMemory`. -/
def prepareClientRequests (cyclesPerNs : ℚ) (rate : RateDistribution)
    (segmentSize numSegments arraySize : UInt64) (rand : ℕ → ℕ) (malloc : ℕ → Option (ℕ → ℕ))
    (requestMemory : ℕ → Vector UInt64 32) : Option (Except Int32 (List ClientRequest)) :=
  match initializePointerChasingAtClient arraySize segmentSize rand malloc with
  | none => none
  | some (.error ret) => some (.error ret)
  | some (.ok pointers) =>
    -- converted from a `double` that is too large
    if 2 ^ 64 ≤ rate.numRequests then none
    else match malloc 2 with
      | none => some (.error (-enomem))
      | some _ =>
        -- the size wraps around, and the requests are stored behind the block
        if 2 ^ 64 ≤ sizeofClientRequest * rate.numRequests then none
        else (getNextCyclesOffset cyclesPerNs rate).map fun cyclesOffset =>
          .ok (initializeClientRequests pointers rate.numRequests numSegments.toNat cyclesOffset
            requestMemory)

/-- The regions that a request asks for. -/
def ClientRequest.regions (request : ClientRequest) (numSegments : ℕ) : List ℕ :=
  (request.segmentOffsets.toList.take numSegments).map UInt64.toNat

/-- The requests follow the table from region 0: their ids are their positions,
and their segments, one request after the other, are its orbit. -/
structure FollowsChase (pointers : ℕ → ℕ) (numRegions numSegments : ℕ)
    (requests : List ClientRequest) : Prop where
  ids : ∀ i request, requests[i]? = some request →
    request.packetId = UInt32.ofNat i ∧ request.idPadding = 0
  orbit : requests.flatMap (fun request => request.regions numSegments) =
    (List.range (requests.length * numSegments)).map fun k => (getNextPtr pointers)^[k] 0
  inside : ∀ k, (getNextPtr pointers)^[k] 0 < numRegions

section Requests

variable {pointers : ℕ → ℕ} {numSegments left iter cur : ℕ} {cyclesOffset : UInt64}
  {requestMemory : ℕ → Vector UInt64 32}

/-- The segments of one request, and where the chase goes on. -/
theorem requestSegments_eq (pointers : ℕ → ℕ) (numSegments cur : ℕ) :
    requestSegments pointers numSegments cur =
      ((List.iterate (getNextPtr pointers) cur numSegments).map UInt64.ofNat,
        (getNextPtr pointers)^[numSegments] cur) := by
  induction numSegments generalizing cur with
  | zero => rfl
  | succ numSegments ih =>
    rw [requestSegments, ih]
    rfl

/-- The array of a request starts with its segments. -/
theorem take_segmentOffsets {segments : List UInt64} (h : segments.length ≤ 32)
    (rest : Vector UInt64 32) :
    (Vector.ofFn fun i : Fin 32 => segments[(i : ℕ)]?.getD (rest.get i)).toList.take
      segments.length = segments := by
  apply List.ext_getElem
  · simpa using h
  · intro i hi hi'
    simp [List.getElem?_eq_getElem hi']

/-- **The segments of all requests that are left** are the walk from the current region. -/
theorem flatMap_initializeClientRequestsLoop (hsegments : numSegments ≤ 32)
    (hsmall : ∀ k, (getNextPtr pointers)^[k] cur < 2 ^ 64) :
    (initializeClientRequestsLoop pointers numSegments cyclesOffset requestMemory left iter
        cur).flatMap (fun request => request.regions numSegments) =
      List.iterate (getNextPtr pointers) cur (left * numSegments) := by
  induction left generalizing iter cur with
  | zero => simp [initializeClientRequestsLoop]
  | succ left ih =>
    have hlength : ((List.iterate (getNextPtr pointers) cur numSegments).map
        UInt64.ofNat).length = numSegments := by
      rw [List.length_map, List.length_iterate]
    have hfirst := take_segmentOffsets (hlength.le.trans hsegments) (requestMemory iter)
    rw [hlength] at hfirst
    -- the next request goes on where this one ended
    have hnext : ∀ k, (getNextPtr pointers)^[k] ((getNextPtr pointers)^[numSegments] cur) <
        2 ^ 64 := by
      intro k
      rw [← Function.iterate_add_apply]
      exact hsmall (k + numSegments)
    -- the regions are words, so nothing is lost in the array
    have hwords : ((List.iterate (getNextPtr pointers) cur numSegments).map UInt64.ofNat).map
        UInt64.toNat = List.iterate (getNextPtr pointers) cur numSegments := by
      rw [List.map_map]
      refine (List.map_congr_left (g := id) fun region hregion => ?_).trans (List.map_id _)
      obtain ⟨k, -, rfl⟩ := List.mem_iterate.mp hregion
      exact (UInt64.toNat_ofNat' ..).trans (Nat.mod_eq_of_lt (hsmall k))
    rw [initializeClientRequestsLoop, requestSegments_eq, List.flatMap_cons, ih hnext,
      ClientRequest.regions, hfirst, hwords, Nat.succ_mul, Nat.add_comm, List.iterate_add]

theorem length_initializeClientRequestsLoop :
    (initializeClientRequestsLoop pointers numSegments cyclesOffset requestMemory left iter
      cur).length = left := by
  induction left generalizing iter cur with
  | zero => rfl
  | succ left ih => rw [initializeClientRequestsLoop, List.length_cons, ih]

theorem idPadding_initializeClientRequestsLoop {request : ClientRequest}
    (h : request ∈ initializeClientRequestsLoop pointers numSegments cyclesOffset requestMemory
      left iter cur) : request.idPadding = 0 := by
  induction left generalizing iter cur with
  | zero => simp [initializeClientRequestsLoop] at h
  | succ left ih =>
    rw [initializeClientRequestsLoop] at h
    rcases List.mem_cons.mp h with rfl | hlater
    · rfl
    · exact ih hlater

end Requests

/-- The walk along a table that is made from a working set stays inside it. -/
theorem iterate_lt {arraySize segmentSize : UInt64} (hpos : 0 < arraySize.toNat)
    (hmul : arraySize % segmentSize = 0) (rand memory : ℕ → ℕ) (k : ℕ) :
    (getNextPtr (linkPointers (arraySize / segmentSize).toNat
      (shuffleIndices (arraySize / segmentSize).toNat rand) memory))^[k] 0 <
        (arraySize / segmentSize).toNat := by
  obtain ⟨-, hlen⟩ := numRegions_pos hpos hmul
  -- the table is a permutation of the regions
  have hwalk := (agrees_chasePerm hlen rand memory).iterate k ⟨0, hlen⟩
  exact hwalk.trans_lt (Fin.isLt _)

/-- **Requests along a table** whose walk stays inside the regions. -/
theorem followsChase_initializeClientRequests {pointers : ℕ → ℕ} {numRegions : ℕ} {numSegments : ℕ}
    (hsegments : numSegments ≤ 32) (hregions : numRegions ≤ 2 ^ 64)
    (hinside : ∀ k, (getNextPtr pointers)^[k] 0 < numRegions) (numRequests : ℕ)
    (cyclesOffset : UInt64) (requestMemory : ℕ → Vector UInt64 32) :
    FollowsChase pointers numRegions numSegments
      (initializeClientRequests pointers numRequests numSegments cyclesOffset requestMemory) := by
  have hlength : (initializeClientRequests pointers numRequests numSegments cyclesOffset
      requestMemory).length = numRequests := length_initializeClientRequestsLoop
  constructor
  case ids =>
    intro i request hi
    have hid := ClientRun.packetId_initializeClientRequestsLoop hi
    rw [Nat.zero_add] at hid
    exact ⟨hid, idPadding_initializeClientRequestsLoop (List.mem_of_getElem? hi)⟩
  case orbit =>
    rw [hlength, List.range_map_iterate]
    -- the first request starts at region 0
    apply flatMap_initializeClientRequestsLoop hsegments
    exact fun k => (hinside k).trans_le hregions
  case inside => exact hinside

/-- What `initialize_client_requests` should do: divide by no zero and stay inside its
memory, and the requests that it returns follow the table. -/
def PreparesChase (table : Option (Except Int32 (ℕ → ℕ))) (numRegions numSegments numRequests : ℕ) :
    Option (Except Int32 (List ClientRequest)) → Prop
  | none => False
  | some (.error _) => True
  | some (.ok requests) => ∃ pointers, table = some (.ok pointers) ∧
    requests.length = numRequests ∧ FollowsChase pointers numRegions numSegments requests

/-- **The requests of a client follow the chase**, whatever `rand()` returns, exactly when
the sizes of the blocks do not wrap around and the rate is not zero, as far as `malloc`
lets the function get. -/
theorem client_requests_follow_chase_iff (cyclesPerNs : ℚ) (rate : RateDistribution)
    {segmentSize numSegments arraySize : UInt64} (hsegments : numSegments.toNat ≤ 32)
    (hpos : 0 < arraySize.toNat) (hmul : arraySize % segmentSize = 0) (rand : ℕ → ℕ)
    (malloc : ℕ → Option (ℕ → ℕ)) (requestMemory : ℕ → Vector UInt64 32) :
    PreparesChase (initializePointerChasingAtClient arraySize segmentSize rand malloc)
        (arraySize / segmentSize).toNat numSegments.toNat rate.numRequests
        (prepareClientRequests cyclesPerNs rate segmentSize numSegments arraySize rand malloc
          requestMemory) ↔
      (malloc 0 ≠ none → (arraySize / segmentSize).toNat < 2 ^ 61 ∧ (malloc 1 ≠ none →
        rate.numRequests < 2 ^ 64 ∧ (malloc 2 ≠ none →
          sizeofClientRequest * rate.numRequests < 2 ^ 64 ∧ rate.ratePps ≠ 0))) := by
  have hinside := iterate_lt hpos hmul rand
  have hregions := (arraySize / segmentSize).toNat_lt.le
  rw [prepareClientRequests, initializePointerChasingAtClient_eq hpos hmul]
  generalize (arraySize / segmentSize).toNat = len at hinside hregions ⊢
  -- in the order of the code: the blocks of the table, the number of requests, their block
  by_cases hfirst : malloc 0 = none
  · simp [hfirst, PreparesChase]
  by_cases hsize : len < 2 ^ 61
  case neg =>
    rw [if_neg hfirst, if_pos hsize]
    simp only [PreparesChase, hfirst, hsize, ne_eq, not_false_eq_true, false_and, imp_false,
      not_true_eq_false]
  rw [if_neg hfirst, if_neg (not_not.mpr hsize)]
  cases hsecond : malloc 1 with
  | none => simpa [PreparesChase] using fun _ => hsize
  | some memory =>
    simp only [Option.elim_some, hfirst, hsize, ne_eq, not_false_eq_true, reduceCtorEq, true_and,
      forall_const]
    by_cases hcount : rate.numRequests < 2 ^ 64
    case neg =>
      rw [if_pos (not_lt.mp hcount)]
      simp only [PreparesChase, hcount, false_and]
    rw [if_neg (not_le.mpr hcount)]
    cases hthird : malloc 2 with
    | none => simpa [PreparesChase] using hcount
    | some _ =>
      simp only [hcount, reduceCtorEq, not_false_eq_true, true_and, forall_const]
      by_cases hblock : sizeofClientRequest * rate.numRequests < 2 ^ 64
      case neg =>
        rw [if_pos (not_lt.mp hblock)]
        simp only [PreparesChase, hblock, false_and]
      rw [if_neg (not_le.mpr hblock), getNextCyclesOffset, timeIntersend]
      -- the first request asks for the time between two
      by_cases hrate : rate.ratePps = 0
      · simp only [hrate, if_true, Option.map_none, PreparesChase, not_true_eq_false, and_false]
      · simp only [hrate, if_false, Option.map_some, PreparesChase, hblock, not_false_eq_true,
          and_self, iff_true]
        exact ⟨_, rfl, length_initializeClientRequestsLoop, followsChase_initializeClientRequests
          hsegments hregions (hinside memory) _ _ _⟩

/-- Sixteen regions, three segments a request. -/
theorem client_requests_follow_chase_sixteen :
    PreparesChase (initializePointerChasingAtClient 16384 1024 (fun i => i) fun _ => some fun _ => 0)
      (16384 / 1024 : UInt64).toNat (3 : UInt64).toNat (RateDistribution.mk 1000 1).numRequests
      (prepareClientRequests 2 ⟨1000, 1⟩ 1024 3 16384 (fun i => i) (fun _ => some fun _ => 0)
        fun _ => Vector.replicate 32 0) :=
  (client_requests_follow_chase_iff 2 ⟨1000, 1⟩ (by decide) (by decide) (by decide) _ _ _).mpr
    fun _ => ⟨by decide, fun _ => ⟨by decide +kernel, fun _ => ⟨by decide +kernel, by decide⟩⟩⟩

/-- A rate of zero is divided by. -/
theorem client_requests_zero_rate :
    ¬ ∀ (cyclesPerNs : ℚ) (rate : RateDistribution) (segmentSize numSegments arraySize : UInt64)
      (rand : ℕ → ℕ) (malloc : ℕ → Option (ℕ → ℕ)) (requestMemory : ℕ → Vector UInt64 32),
      1 ≤ numSegments.toNat → numSegments.toNat ≤ 32 → 0 < arraySize.toNat →
      arraySize % segmentSize = 0 →
      PreparesChase (initializePointerChasingAtClient arraySize segmentSize rand malloc)
        (arraySize / segmentSize).toNat numSegments.toNat rate.numRequests
        (prepareClientRequests cyclesPerNs rate segmentSize numSegments arraySize rand malloc
          requestMemory) := by
  intro hclaim
  have hprepares := hclaim 2 ⟨0, 1⟩ 1024 3 16384 (fun i => i) (fun _ => some fun _ => 0)
    (fun _ => Vector.replicate 32 0) (by decide) (by decide) (by decide) (by decide)
  have hnone : (prepareClientRequests 2 ⟨0, 1⟩ 1024 3 16384 (fun i => i) (fun _ => some fun _ => 0)
      fun _ => Vector.replicate 32 0).isNone = true := by
    decide +kernel
  rwa [Option.isNone_iff_eq_none.mp hnone] at hprepares

end Mlx5Netperf
