import Mlx5Netperf.Client.PointerChase
import Mlx5Netperf.Lib.Transition

/-!
# The Client's Accounting

`do_client` keeps a pointer to the next request to send and a map of the replies
it got. When its time is over it takes the number of requests it sent from the
id of the next one, and `calculate_latencies` of `latency.c` allocates two arrays
of that many rows and indexes them by the ids of the replies.
-/

namespace Mlx5Netperf

open Transition

/-! ## Requests -/

/-- The segments of one request: the chase goes on from `cur`. -/
def requestSegments (pointers : ℕ → ℕ) : ℕ → ℕ → List UInt64 × ℕ
  | 0, cur => ([], cur)
  | numSegments + 1, cur =>
    let (segments, last) := requestSegments pointers numSegments (getNextPtr pointers cur)
    (UInt64.ofNat cur :: segments, last)

/-- The loop of `initialize_client_requests` over the requests that are left, in
memory that held `memory` before. -/
def initializeClientRequestsLoop (pointers : ℕ → ℕ) (numSegments : ℕ) (cyclesOffset : UInt64)
    (memory : ℕ → Vector UInt64 32) : ℕ → ℕ → ℕ → List ClientRequest
  | 0, _, _ => []
  | left + 1, iter, cur =>
    let (segments, cur') := requestSegments pointers numSegments cur
    { timestampOffset := cyclesOffset
      packetId := UInt32.ofNat iter
      idPadding := 0
      segmentOffsets := Vector.ofFn fun i => segments[(i : ℕ)]?.getD ((memory iter).get i) } ::
      initializeClientRequestsLoop pointers numSegments cyclesOffset memory left (iter + 1) cur'

/-- `initialize_client_requests`: `num_requests` requests along the pointer chase. -/
def initializeClientRequests (pointers : ℕ → ℕ) (numRequests numSegments : ℕ)
    (cyclesOffset : UInt64) (memory : ℕ → Vector UInt64 32) : List ClientRequest :=
  initializeClientRequestsLoop pointers numSegments cyclesOffset memory numRequests 0 0

/-- `get_client_req`: the request at an index, if it was allocated. -/
def getClientReq (requests : List ClientRequest) (idx : ℕ) : Option ClientRequest := requests[idx]?

/-! ## The packet map -/

/-- `MAX_ITERATIONS` -/
def maxIterations : ℕ := 1000000

/-- `struct Packet_Map_t`, as far as `do_client` fills it. -/
structure PacketMap where
  rtts : ℕ → UInt64
  ids : ℕ → UInt64
  totalCount : ℕ

/-- `add_latency_to_map`. The entry is written before the count is checked. The arrays
have no end here; behind entry `MAX_ITERATIONS - 1` the code writes to what follows
them, so that this is its behaviour while the map has room. -/
def addLatencyToMap (map : PacketMap) (rtt : UInt64) (id : UInt32) : Int32 × PacketMap :=
  let map : PacketMap :=
    { rtts := Function.update map.rtts map.totalCount rtt
      ids := Function.update map.ids map.totalCount id.toUInt64
      totalCount := map.totalCount + 1 }
  (if map.totalCount > maxIterations then -enomem else 0, map)

/-- A block of allocated memory. -/
structure Cells (α : Type) where
  size : ℕ
  cell : ℕ → α

/-- Read a cell; `none` is an index outside the block. -/
def Cells.get {α : Type} (a : Cells α) (i : ℕ) : Option α :=
  if i < a.size then some (a.cell i) else none

/-- Write a cell; `none` is an index outside the block. -/
def Cells.set {α : Type} (a : Cells α) (i : ℕ) (x : α) : Option (Cells α) :=
  if i < a.size then some { a with cell := Function.update a.cell i x } else none

/-- Put a round-trip time into the first free column of a row. -/
def groupRtt (base : ℕ) (rtt : UInt64) : ℕ → ℕ → Cells UInt64 → Option (Cells UInt64)
  | 0, _, grouped => some grouped
  | left + 1, c, grouped =>
    (grouped.get (base + c)).bind fun old =>
      if old = 0 then grouped.set (base + c) rtt else groupRtt base rtt left (c + 1) grouped

/-- One entry of the packet map: `sent_ids` and `grouped_rtts` after it. -/
def processEntry (map : PacketMap) (numPerBucket : ℕ) (arrays : Cells UInt32 × Cells UInt64)
    (i : ℕ) : Option (Cells UInt32 × Cells UInt64) :=
  let id := (map.ids i).toUInt32.toNat
  (arrays.1.set id 1).bind fun sentIds =>
    (groupRtt (id * numPerBucket) (map.rtts i) numPerBucket 0 arrays.2).map fun grouped =>
      (sentIds, grouped)

/-- The largest round-trip time of a row. -/
def maxRtt (grouped : Cells UInt64) (numPerBucket r : ℕ) : UInt64 :=
  (List.range numPerBucket).foldl (fun max c =>
    let rtt := grouped.cell (r * numPerBucket + c)
    if rtt ≠ 0 ∧ rtt > max then rtt else max) 0

/-- `calculate_latencies` with the memory it asks for: the latencies it adds to
the distribution. `none` is an index outside an array. -/
def calculateLatencies (map : PacketMap) (numSent numPerBucket : ℕ) : Option (List UInt64) :=
  let sentIds : Cells UInt32 := ⟨numSent, fun _ => 0⟩
  let grouped : Cells UInt64 := ⟨numSent * numPerBucket, fun _ => 0⟩
  ((List.range map.totalCount).foldlM (processEntry map numPerBucket) (sentIds, grouped)).map
    fun (sentIds, grouped) =>
      ((List.range numSent).filter fun r =>
        sentIds.cell r ≠ 0 ∧ maxRtt grouped numPerBucket r > 0).map (maxRtt grouped numPerBucket)

/-! ## A run of the client -/

/-- What `do_client` keeps between two packets. -/
structure ClientRun where
  requests : List ClientRequest
  /-- `current_request - client_requests` -/
  current : ℕ
  map : PacketMap

/-- `total_sent`; `none` when there is no request to read it from. -/
def totalSent (r : ClientRun) : Option UInt64 :=
  (getClientReq r.requests r.current).map fun request => request.packetId.toUInt64 - 1

namespace ClientRun

/-- The requests are prepared and nothing was sent. -/
structure Init (r : ClientRun) : Prop where
  requests : ∃ pointers numRequests numSegments cyclesOffset memory,
    r.requests = initializeClientRequests pointers numRequests numSegments cyclesOffset memory
  current : r.current = 0
  map : r.map.totalCount = 0

/-- One packet sent or received. Times are whatever the clock says. -/
inductive Step : ClientRun → ClientRun → Prop where
  /-- The current request is stamped and sent. -/
  | send {r : ClientRun} {request : ClientRequest} (curSend : UInt64)
      (hcurrent : getClientReq r.requests r.current = some request) :
      Step r { r with
        requests := r.requests.set r.current { request with timestampOffset := curSend }
        current := r.current + 1 }
  /-- A reply arrives that carries the id of a request that was sent. -/
  | receive {r : ClientRun} {id : UInt64} {request : ClientRequest} (now : UInt64)
      (hsent : id.toNat < r.current) (hrequest : getClientReq r.requests id.toNat = some request) :
      Step r { r with
        map := (addLatencyToMap r.map (now - request.timestampOffset) id.toUInt32).2 }

/-- The packet map only grows. -/
theorem Step.totalCount_le {r r' : ClientRun} (h : Step r r') :
    r.map.totalCount ≤ r'.map.totalCount := by
  cases h with
  | send => exact le_rfl
  | receive => exact Nat.le_succ _

/-- The ids are those of the positions, and every reply is to a request that was sent. -/
structure Inv (r : ClientRun) : Prop where
  packetId : ∀ i request, r.requests[i]? = some request → request.packetId = UInt32.ofNat i
  ids : ∀ i < r.map.totalCount, (r.map.ids i).toUInt32.toNat < r.current

/-- Requests are numbered in the order they are prepared. -/
theorem packetId_initializeClientRequestsLoop {pointers : ℕ → ℕ} {numSegments left iter cur : ℕ}
    {cyclesOffset : UInt64} {memory : ℕ → Vector UInt64 32} {i : ℕ} {request : ClientRequest}
    (h : (initializeClientRequestsLoop pointers numSegments cyclesOffset memory left iter cur)[i]? =
      some request) : request.packetId = UInt32.ofNat (iter + i) := by
  induction left generalizing iter cur i with
  | zero => simp [initializeClientRequestsLoop] at h
  | succ left ih =>
    rw [initializeClientRequestsLoop] at h
    -- the first of them, and the ones behind it
    cases i with
    | zero =>
      simp only [List.getElem?_cons_zero, Option.some.injEq] at h
      rw [← h, Nat.add_zero]
    | succ i =>
      rw [ih h, Nat.add_assoc, Nat.add_comm 1]

theorem Init.inv {r : ClientRun} (h : Init r) : Inv r := by
  obtain ⟨pointers, numRequests, numSegments, cyclesOffset, memory, hrequests⟩ := h.requests
  constructor
  case packetId =>
    intro i request hi
    rw [hrequests] at hi
    have hid := packetId_initializeClientRequestsLoop hi
    rwa [Nat.zero_add] at hid
  case ids =>
    intro i hi
    rw [h.map] at hi
    exact absurd hi (Nat.not_lt_zero i)

theorem Step.inv {r r' : ClientRun} (hinv : Inv r) (hstep : Step r r') : Inv r' := by
  cases hstep with
  | @send current curSend hcurrent =>
    refine ⟨fun i request hi => ?_, fun i hi => Nat.lt_succ_of_lt (hinv.ids i hi)⟩
    rw [List.getElem?_set] at hi
    split at hi
    case isTrue heq =>
      -- the stamped request keeps its id
      split at hi
      case isTrue =>
        obtain rfl := Option.some.inj hi
        exact hinv.packetId i current (heq ▸ hcurrent)
      case isFalse => simp at hi
    case isFalse => exact hinv.packetId i request hi
  | @receive id request now hsent hrequest =>
    refine ⟨hinv.packetId, fun i hi => ?_⟩
    -- the entries before, and the one that was added
    rcases Nat.lt_succ_iff_lt_or_eq.mp hi with hold | rfl
    · have hsame := Function.update_of_ne hold.ne id.toUInt32.toUInt64 r.map.ids
      simp only [addLatencyToMap, hsame]
      exact hinv.ids i hold
    · simp only [addLatencyToMap, Function.update_self, UInt32.toUInt32_toUInt64]
      rw [UInt64.toNat_toUInt32]
      exact lt_of_le_of_lt (Nat.mod_le ..) hsent

theorem Inv.of_reachable {r : ClientRun} (h : Reachable Init Step r) : Inv r :=
  Reachable.invariant (P := Inv) (fun _ hinit => hinit.inv) (fun _ _ hinv hstep =>
    hstep.inv hinv) h

end ClientRun

/-! ## The arrays -/

/-- A row inside the array is filled without leaving it. -/
theorem exists_groupRtt {base left c : ℕ} (rtt : UInt64) {grouped : Cells UInt64}
    (h : base + (c + left) ≤ grouped.size) :
    ∃ grouped', groupRtt base rtt left c grouped = some grouped' ∧ grouped'.size = grouped.size := by
  induction left generalizing c with
  | zero => exact ⟨grouped, rfl, rfl⟩
  | succ left ih =>
    have hlt : base + c < grouped.size := by omega
    rw [groupRtt, Cells.get, if_pos hlt, Option.bind_some]
    -- a cell in use sends the loop to the next one
    split
    case isTrue => exact ⟨_, if_pos hlt, rfl⟩
    case isFalse => exact ih (by omega)

/-- An entry is processed exactly when there is a row for its id. -/
theorem processEntry_cases {map : PacketMap} {numPerBucket numSent i : ℕ}
    {arrays : Cells UInt32 × Cells UInt64} (hsent : arrays.1.size = numSent)
    (hgrouped : arrays.2.size = numSent * numPerBucket) :
    (numSent ≤ (map.ids i).toUInt32.toNat ∧ processEntry map numPerBucket arrays i = none) ∨
      ((map.ids i).toUInt32.toNat < numSent ∧ ∃ arrays',
        processEntry map numPerBucket arrays i = some arrays' ∧ arrays'.1.size = numSent ∧
          arrays'.2.size = numSent * numPerBucket) := by
  rw [processEntry]
  -- the write to `sent_ids` comes first, so it decides
  rcases Nat.lt_or_ge (map.ids i).toUInt32.toNat numSent with hlt | hge
  case inr =>
    refine .inl ⟨hge, ?_⟩
    rw [Cells.set, if_neg (by omega)]
    rfl
  case inl =>
    refine .inr ⟨hlt, ?_⟩
    -- the whole row of an id below the count is inside
    have hrow : (map.ids i).toUInt32.toNat * numPerBucket + (0 + numPerBucket) ≤ arrays.2.size := by
      rw [hgrouped, Nat.zero_add, ← Nat.succ_mul]
      exact Nat.mul_le_mul_right _ hlt
    obtain ⟨grouped', hgroup, hsize⟩ := exists_groupRtt (map.rtts i) hrow
    rw [Cells.set, if_pos (hsent ▸ hlt), Option.bind_some, hgroup]
    exact ⟨_, rfl, hsent, hsize.trans hgrouped⟩

/-- **The indices of `calculate_latencies`** stay inside the arrays exactly when
every id of the map is below the count. -/
theorem calculateLatencies_isSome_iff (map : PacketMap) (numSent numPerBucket : ℕ) :
    (calculateLatencies map numSent numPerBucket).isSome = true ↔
      ∀ i < map.totalCount, (map.ids i).toUInt32.toNat < numSent := by
  -- the sizes of the arrays do not change on the way
  have hloop : ∀ (is : List ℕ) (arrays : Cells UInt32 × Cells UInt64), arrays.1.size = numSent →
      arrays.2.size = numSent * numPerBucket →
      ((is.foldlM (processEntry map numPerBucket) arrays).isSome = true ↔
        ∀ i ∈ is, (map.ids i).toUInt32.toNat < numSent) := by
    intro is
    induction is with
    | nil =>
      intro arrays _ _
      simp
    | cons i is ih =>
      intro arrays hsent hgrouped
      rw [List.foldlM_cons, List.forall_mem_cons]
      rcases @processEntry_cases map _ _ i _ hsent hgrouped with
        ⟨hge, hnone⟩ | ⟨hlt, arrays', hsome, hsent', hgrouped'⟩
      · rw [hnone]
        exact ⟨fun h => by simp at h, fun h => by omega⟩
      · rw [hsome]
        exact (ih arrays' hsent' hgrouped').trans ⟨fun h => ⟨hlt, h⟩, And.right⟩
  rw [calculateLatencies, Option.isSome_map, hloop _ _ rfl rfl]
  simp

/-! ## The count -/

namespace ClientRun

/-- The run ends well: the count of requests is the number of requests that were
sent, and no index leaves the arrays that are allocated from it. -/
structure AccountsForAll (r : ClientRun) (numPerBucket : ℕ) : Prop where
  count : ∃ total, totalSent r = some total ∧ total.toNat = r.current
  inside : ∀ total, totalSent r = some total →
    (calculateLatencies r.map total.toNat numPerBucket).isSome = true

variable {r : ClientRun}

/-- The id of the next request, less one. -/
theorem Inv.totalSent_eq (h : Inv r) {total : UInt64} (htotal : totalSent r = some total) :
    total = (UInt32.ofNat r.current).toUInt64 - 1 := by
  obtain ⟨request, hrequest, rfl⟩ := Option.map_eq_some_iff.mp htotal
  rw [h.packetId _ request hrequest]

/-- The count that is passed on is never the number of requests. -/
theorem Inv.totalSent_ne (h : Inv r) {total : UInt64} (htotal : totalSent r = some total) :
    total.toNat ≠ r.current := by
  have hsmall : (UInt32.ofNat r.current).toUInt64.toNat = r.current % 2 ^ 32 := by
    rw [UInt32.toNat_toUInt64, UInt32.toNat_ofNat']
  -- one less, also when it wraps around zero
  rw [h.totalSent_eq htotal, UInt64.toNat_sub, hsmall, UInt64.toNat_one]
  omega

/-- For less than 2 ^ 32 requests it is one less. -/
theorem Inv.totalSent_toNat (h : Inv r) (hsent : 1 ≤ r.current) (hbound : r.current < 2 ^ 32)
    {total : UInt64} (htotal : totalSent r = some total) : total.toNat = r.current - 1 := by
  have hsmall : (UInt32.ofNat r.current).toUInt64.toNat = r.current := by
    rw [UInt32.toNat_toUInt64, WordArith.toNat_ofNat_of_lt hbound]
  rw [h.totalSent_eq htotal, UInt64.toNat_sub, hsmall, UInt64.toNat_one]
  omega

/-- **The client never accounts for every request**: its count is wrong in every
run. As long as the map holds the replies, the indices leave the arrays exactly
when the last request that was sent was answered. -/
theorem client_never_accounts (h : Reachable Init Step r) (hsent : 1 ≤ r.current)
    (numPerBucket : ℕ) :
    ¬ AccountsForAll r numPerBucket ∧
      (r.current < 2 ^ 32 → r.map.totalCount ≤ maxIterations → ∀ total, totalSent r = some total →
        total.toNat = r.current - 1 ∧
          ((calculateLatencies r.map total.toNat numPerBucket).isSome = true ↔
            ∀ i < r.map.totalCount, (r.map.ids i).toUInt32.toNat ≠ r.current - 1)) := by
  have hinv := Inv.of_reachable h
  constructor
  · rintro ⟨⟨total, htotal, hcount⟩, -⟩
    exact hinv.totalSent_ne htotal hcount
  · intro hbound _ total htotal
    have hcount := hinv.totalSent_toNat hsent hbound htotal
    refine ⟨hcount, ?_⟩
    rw [calculateLatencies_isSome_iff, hcount]
    refine forall₂_congr fun i hi => ?_
    -- the id is below the number sent, so only the last one is outside
    have hlt := hinv.ids i hi
    omega

/-- Two requests are prepared. -/
def twoRequests : ClientRun where
  requests := initializeClientRequests (fun _ => 0) 2 1 0 fun _ => Vector.replicate 32 0
  current := 0
  map := ⟨fun _ => 0, fun _ => 0, 0⟩

theorem twoRequests_init : Init twoRequests where
  requests := ⟨_, _, _, _, _, rfl⟩
  current := rfl
  map := rfl

/-- The first of them is sent and answered. -/
theorem exists_oneAnswered : ∃ r, Reachable Init Step r ∧ r.current = 1 ∧
    totalSent r = some 0 ∧ calculateLatencies r.map 0 1 = none := by
  have hsend := (Reachable.init twoRequests_init).step (Step.send 5 rfl)
  have hreceive := hsend.step (@Step.receive _ 0 _ 9 (by decide) rfl)
  exact ⟨_, hreceive, rfl, by decide +kernel, by decide +kernel⟩

/-- One request, sent and answered: the count is zero, and the arrays have no row for it. -/
theorem client_never_accounts_oneAnswered :
    ∃ r, Reachable Init Step r ∧ r.current = 1 ∧ totalSent r = some 0 ∧
      calculateLatencies r.map 0 1 = none ∧ ¬ AccountsForAll r 1 := by
  obtain ⟨r, hreach, hcurrent, htotal, hnone⟩ := exists_oneAnswered
  exact ⟨r, hreach, hcurrent, htotal, hnone, (client_never_accounts hreach hcurrent.ge 1).1⟩

/-- The count is not the number of requests, and `sent_ids[0]` is outside. -/
theorem not_accounted_oneAnswered :
    ¬ ∀ (r : ClientRun) (numPerBucket : ℕ), Reachable Init Step r → 1 ≤ r.current →
      AccountsForAll r numPerBucket := by
  intro hclaim
  obtain ⟨r, hreach, hcurrent, htotal, hnone⟩ := exists_oneAnswered
  have hinside := (hclaim r 1 hreach hcurrent.ge).inside 0 htotal
  rw [show (0 : UInt64).toNat = 0 from rfl, hnone] at hinside
  exact absurd hinside (by decide)

end ClientRun

end Mlx5Netperf
