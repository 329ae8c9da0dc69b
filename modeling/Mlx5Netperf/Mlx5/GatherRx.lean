import Mlx5Netperf.Mlx5.Gather

/-!
# Receiving

`mbuf_fill_cqe` and `mlx5_refill_rxqueue` of `inc/mlx5_rxtx.h`,
`mlx5_gather_rx` of `mlx5_rxtx.c` and the part of `mlx5_init_rxq` that fills the
ring for the first time.
-/

namespace Mlx5Netperf

def rxBufTail : UInt32 := 64
def netMtu : UInt32 := 9216
def mlx5CqeOwnerHw : UInt8 := 1

/-- `wraps_lte`: the difference read as a signed number. -/
def wrapsLte (a b : UInt32) : Prop := (a - b).toInt32 ≤ 0

/-- `mbuf_fill_cqe` -/
def mbufFillCqe (m : Addr) (cqe : Mlx5Cqe64) (b : Mbuf) : Mbuf :=
  { mbufInit b m b.headLen rxBufHead with
    len := be32toh cqe.byteCnt
    rssHash := mlx5GetRssResult cqe
    release := some .rxCompletion }

/-! ## Refilling -/

/-- Post a buffer in the slot of the queue's head: its address into the
descriptor, the buffer into `buffers`. -/
def Mlx5Rxq.post (v : Mlx5Rxq) (index : ℕ) (buf : Addr) : Mlx5Rxq :=
  { v with
    rxWq := { v.rxWq with
      segAddr := Function.update v.rxWq.segAddr index (htobe64 (buf + rxBufHead.toUInt64)) }
    buffers := Function.update v.buffers index (some buf)
    wqHead := v.wqHead + 1 }

/-- The assertion at the start of `mlx5_refill_rxqueue`, checked in debug builds. -/
def refillAssertion (v : Mlx5Rxq) (nrdesc : ℕ) : Prop :=
  wrapsLte (UInt32.ofNat nrdesc + v.wqHead) (v.consumerIdx + v.rxWq.wqeCnt)

/-- One buffer taken from the pool and posted in slot `index`. The head length
goes into the buffer before the code looks whether it got one. -/
def State.repost (st : State) (buf : Addr) (pool : Mempool) (index : ℕ) : State :=
  { st with
    heap := st.heap.modify buf fun b => { b with headLen := UInt32.ofNat st.rxBufMempool.itemLen }
    rxBufMempool := pool
    rxq := st.rxq.post index buf }

/-- The loop of `mlx5_refill_rxqueue`; `none` is the write through a null
pointer when the pool is empty. -/
def mlx5RefillRxqueueLoop : ℕ → State → Option State
  | 0, st => some st
  | nrdesc + 1, st =>
    match mempoolAlloc st.rxBufMempool with
    | none => none
    | some (buf, pool) =>
      mlx5RefillRxqueueLoop nrdesc
        (st.repost buf pool (pow2Mod st.rxq.wqHead st.rxq.rxWq.wqeCnt).toNat)

/-- `wq->dbrec[0] = htobe32(vq->wq_head & 0xffff)` -/
def State.ringRxDoorbell (st : State) : State :=
  { st with rxq := { st.rxq with rxWq := { st.rxq.rxWq with
    dbrec := htobe32 (st.rxq.wqHead &&& 0xffff) } } }

/-- `mlx5_refill_rxqueue` -/
def mlx5RefillRxqueue (nrdesc : ℕ) (st : State) : Option State :=
  (mlx5RefillRxqueueLoop nrdesc st).map State.ringRxDoorbell

/-! ## Gathering -/

/-- One entry: the buffer of the slot it names becomes a packet of the application. -/
def State.receive (st : State) (cqe : Mlx5Cqe64) (m : Addr) : State :=
  { st with
    totalDropped := st.totalDropped + (be32toh cqe.sopDropQpn >>> 24)
    heap := st.heap.modify m (mbufFillCqe m cqe)
    rxq := { st.rxq with consumerIdx := st.rxq.consumerIdx + 1 } }

/-- The loop of `mlx5_gather_rx`; `none` is a panic, or a null `buffers` entry. -/
def mlx5GatherRxLoop : ℕ → State → Option (List Addr × State)
  | 0, st => some ([], st)
  | budget + 1, st =>
    let v := st.rxq
    let cqe := v.rxCq.at v.consumerIdx
    let opcode := v.rxCq.status v.consumerIdx
    -- the entry still belongs to the device
    if opcode = mlx5CqeInvalid then some ([], st)
    -- `panic`: not a receive, or compressed
    else if opcode ≠ mlx5CqeRespSend then none
    else if mlx5GetCqeFormat cqe = 3 then none
    else
      match v.buffers (wqeIdx (be16toh cqe.wqeCounter) v.rxWq.wqeCnt).toNat with
      | none => none
      | some m => (mlx5GatherRxLoop budget (st.receive cqe m)).map fun (ms, st) => (m :: ms, st)

/-- `cq->dbrec[0] = htobe32(v->consumer_idx & 0xffffff)` -/
def State.ringRxCqDoorbell (st : State) : State :=
  { st with rxq := { st.rxq with rxCq := { st.rxq.rxCq with
    dbrec := htobe32 (st.rxq.consumerIdx &&& 0xffffff) } } }

/-- `mlx5_gather_rx`: up to `budget` packets. The slots they took are refilled
before they are returned. -/
def mlx5GatherRx (st : State) (budget : ℕ) : Option (List Addr × State) :=
  (mlx5GatherRxLoop budget st).bind fun (ms, st) =>
    -- neither doorbell is rung for an empty batch
    if ms.length = 0 then some (ms, st)
    else (mlx5RefillRxqueue ms.length st.ringRxCqDoorbell).map fun st => (ms, st)

/-! ## The first filling -/

/-- One descriptor of `mlx5_init_rxq`; the error is `-ENOMEM`. -/
def mlx5InitRxqSlot (mrLkey : UInt32) (st : State) (i : ℕ) : Except Int32 State :=
  let rxWq := { st.rxq.rxWq with
    segByteCount := Function.update st.rxq.rxWq.segByteCount i (htobe32 (netMtu + rxBufTail))
    segLkey := Function.update st.rxq.rxWq.segLkey i (htobe32 mrLkey) }
  let st := { st with rxq := { st.rxq with rxWq := rxWq } }
  -- both words are written before the allocation is looked at
  match mempoolAlloc st.rxBufMempool with
  | none => .error (-enomem)
  | some (buf, pool) => .ok (st.repost buf pool i)

/-- `mlx5dv_set_cqe_owner` -/
def mlx5dvSetCqeOwner (cqe : Mlx5Cqe64) (val : UInt8) : Mlx5Cqe64 :=
  { cqe with opOwn := (val &&& mlx5CqeOwnerMask) ||| (cqe.opOwn &&& ~~~mlx5CqeOwnerMask) }

/-- Set the ownership of all entries to "hardware". -/
def Cq.giveToDevice (cq : Cq) : Cq :=
  { cq with buf := fun i =>
    if i < cq.cqeCnt.toNat then mlx5dvSetCqeOwner (cq.buf i) mlx5CqeOwnerHw else cq.buf i }

/-- The end of `mlx5_init_rxq`, after the verbs objects were made: the ring is
filled from the pool and the completion queue given to the device. -/
def mlx5InitRxq (mrLkey : UInt32) (st : State) : Except Int32 State :=
  ((List.range st.rxq.rxWq.wqeCnt.toNat).foldlM (mlx5InitRxqSlot mrLkey) st).map fun st =>
    State.ringRxDoorbell { st with rxq := { st.rxq with rxCq := st.rxq.rxCq.giveToDevice } }

/-! ## One call of `mlx5_gather_rx` -/

/-- After the loop: nothing to do, or a refill. -/
theorem mlx5GatherRx_of_loop {budget : ℕ} {st st₁ : State} {ms : List Addr}
    (h : mlx5GatherRxLoop budget st = some (ms, st₁)) :
    mlx5GatherRx st budget = if ms.length = 0 then some (ms, st₁)
      else (mlx5RefillRxqueue ms.length st₁.ringRxCqDoorbell).map fun st => (ms, st) := by
  rw [mlx5GatherRx, h]
  rfl

/-- What a call that returns has done. -/
theorem mlx5GatherRx_cases {budget : ℕ} {st st' : State} {ms : List Addr}
    (h : mlx5GatherRx st budget = some (ms, st')) :
    ∃ st₁, mlx5GatherRxLoop budget st = some (ms, st₁) ∧
      ((ms = [] ∧ st' = st₁) ∨
        (ms ≠ [] ∧ mlx5RefillRxqueue ms.length st₁.ringRxCqDoorbell = some st')) := by
  obtain ⟨⟨ms', st₁⟩, hloop, hrest⟩ := Option.bind_eq_some_iff.mp h
  by_cases hzero : ms'.length = 0
  · obtain ⟨rfl, rfl⟩ := Prod.mk.inj (Option.some.inj ((if_pos hzero).symm.trans hrest))
    exact ⟨st₁, hloop, .inl ⟨List.length_eq_zero_iff.mp hzero, rfl⟩⟩
  · obtain ⟨st₂, hrefill, heq⟩ := Option.map_eq_some_iff.mp ((if_neg hzero).symm.trans hrest)
    obtain ⟨rfl, rfl⟩ := Prod.mk.inj heq
    exact ⟨st₁, hloop, .inr ⟨fun h => hzero (List.length_eq_zero_iff.mpr h), hrefill⟩⟩

/-! ## What refilling does and leaves alone -/

/-- What posting further buffers leaves alone. -/
structure RefillKeeps (st st' : State) : Prop where
  txq : st'.txq = st.txq
  rxCq : st'.rxq.rxCq = st.rxq.rxCq
  consumerIdx : st'.rxq.consumerIdx = st.rxq.consumerIdx
  wqeCnt : st'.rxq.rxWq.wqeCnt = st.rxq.rxWq.wqeCnt

theorem RefillKeeps.trans {st st' st'' : State} (h : RefillKeeps st st') (h' : RefillKeeps st' st'') :
    RefillKeeps st st'' :=
  ⟨h'.txq.trans h.txq, h'.rxCq.trans h.rxCq, h'.consumerIdx.trans h.consumerIdx,
    h'.wqeCnt.trans h.wqeCnt⟩

/-- One round of the loop that succeeds. -/
theorem mlx5RefillRxqueueLoop_succ {nrdesc : ℕ} {st st' : State}
    (h : mlx5RefillRxqueueLoop (nrdesc + 1) st = some st') :
    ∃ buf pool, mempoolAlloc st.rxBufMempool = some (buf, pool) ∧
      mlx5RefillRxqueueLoop nrdesc
        (st.repost buf pool (pow2Mod st.rxq.wqHead st.rxq.rxWq.wqeCnt).toNat) = some st' := by
  rw [mlx5RefillRxqueueLoop] at h
  split at h
  case h_1 => simp at h
  case h_2 buf pool halloc => exact ⟨buf, pool, halloc, h⟩

theorem mlx5RefillRxqueueLoop_keeps {nrdesc : ℕ} {st st' : State}
    (h : mlx5RefillRxqueueLoop nrdesc st = some st') : RefillKeeps st st' := by
  induction nrdesc generalizing st with
  | zero =>
    obtain rfl := Option.some.inj h
    exact ⟨rfl, rfl, rfl, rfl⟩
  | succ nrdesc ih =>
    obtain ⟨buf, pool, -, hrest⟩ := mlx5RefillRxqueueLoop_succ h
    have hround : RefillKeeps st
        (st.repost buf pool (pow2Mod st.rxq.wqHead st.rxq.rxWq.wqeCnt).toNat) :=
      ⟨rfl, rfl, rfl, rfl⟩
    exact hround.trans (ih hrest)

theorem mlx5RefillRxqueue_keeps {nrdesc : ℕ} {st st' : State}
    (h : mlx5RefillRxqueue nrdesc st = some st') : RefillKeeps st st' := by
  obtain ⟨st₁, hloop, rfl⟩ := Option.map_eq_some_iff.mp h
  exact (mlx5RefillRxqueueLoop_keeps hloop).trans ⟨rfl, rfl, rfl, rfl⟩

/-- Refilling works as long as the pool has as many buffers. -/
theorem exists_mlx5RefillRxqueue {nrdesc : ℕ} {st : State}
    (h : nrdesc ≤ st.rxBufMempool.freeList.length) : ∃ st', mlx5RefillRxqueue nrdesc st = some st' := by
  suffices hloop : ∃ st', mlx5RefillRxqueueLoop nrdesc st = some st' by
    obtain ⟨st', hst'⟩ := hloop
    exact ⟨_, Option.map_eq_some_iff.mpr ⟨st', hst', rfl⟩⟩
  induction nrdesc generalizing st with
  | zero => exact ⟨st, rfl⟩
  | succ nrdesc ih =>
    -- each round takes one
    have hpos : 0 < st.rxBufMempool.freeList.length := by omega
    obtain ⟨buf, rest, hfree⟩ := List.exists_cons_of_length_pos hpos
    obtain ⟨pool, halloc, hrest, -⟩ := mempoolAlloc_of_freeList hfree
    rw [mlx5RefillRxqueueLoop, halloc]
    refine ih ?_
    rw [hfree, List.length_cons] at h
    simp only [State.repost, hrest]
    omega

end Mlx5Netperf
