import Mlx5Netperf.Server.BuildRun
import Mlx5Netperf.Server.Copy
import Mlx5Netperf.Server.ReceivedBytes
import Mlx5Netperf.Mlx5.InlineHeader

/-!
# The Frames of a Batch

The loop of `process_server_requests` over a batch whose allocations succeed.
Every reply is the frame that its request asks for in the state before the
batch, whatever its position: a later round changes nothing that an earlier
reply or a later request depends on.
-/

namespace Mlx5Netperf

open ByteMemory

/-! ## What a reply depends on -/

/-- The bytes of a request that `process_server_requests` may read. -/
def requestSpan (cfg : Config) (b : Mbuf) : ℕ :=
  max (fullHeaderSize + 8 * (cfg.numSegments.toNat + segListOffset)) (fullHeaderSize + payloadLen b)

/-- Nothing that the reply to `request`, packet `pktIdx`, depends on differs. -/
structure SameInputs (cfg : Config) (pktIdx : ℕ) (request : Addr) (st st' : State) : Prop where
  heap : st'.heap request = st.heap request
  mem : AgreeOn st.mem st'.mem (mbufData (st.heap request)).toNat (requestSpan cfg (st.heap request))
  workingSet : AgreeOn st.mem st'.mem cfg.serverWorkingSet.toNat cfg.workingSetSize.toNat
  requestHeaders : st'.requestHeaders pktIdx = st.requestHeaders pktIdx

/-- The data part of the reply to `request`. -/
def replyData (cfg : Config) (st : State) (request : Addr) : List UInt8 :=
  (regionBytes cfg st.mem (requestedSegments cfg st request)).flatten

/-- The frame of a zero-copy reply. -/
def zeroCopyFrame (cfg : Config) (st : State) (pktIdx : ℕ) (request : Addr) : List UInt8 :=
  (replyHeader cfg st pktIdx request).wireBytes ++ replyData cfg st request

/-- The frame of a copy reply built in `buffer`: the UDP checksum and the eight
bytes behind the ids are what the buffer held before. -/
def copyFrame (cfg : Config) (st : State) (pktIdx : ℕ) (request buffer : Addr) : List UInt8 :=
  (replyHeader cfg st pktIdx request).wireBytes.take 40 ++ st.mem.read (buffer.toNat + 40) 2 ++
    ((replyHeader cfg st pktIdx request).wireBytes.drop 42).take 8 ++
    st.mem.read (buffer.toNat + 50) 8 ++ replyData cfg st request

/-- A reply header depends on nothing but the first 46 bytes of the request. -/
theorem parseOutgoingRequestHeader_congr {mem mem' : ByteMemory} (h : RequestHeader) (m : Mbuf)
    (payloadSize : UInt64) (hagree : AgreeOn mem mem' (mbufData m).toNat 46) :
    parseOutgoingRequestHeader h mem' m payloadSize =
      parseOutgoingRequestHeader h mem m payloadSize := by
  -- the two ethernet addresses, then the four fields of the other headers
  have heth : ∀ {o : ℕ}, o + 6 ≤ 46 → EthAddr.ofMem mem' ((mbufData m).toNat + o) =
      EthAddr.ofMem mem ((mbufData m).toNat + o) := by
    intro o ho
    refine EthAddr.ofMem_of_read ?_
    rw [EthAddr.toList_ofMem, hagree.read (by omega) (by omega)]
  have hread : ∀ {o n : ℕ}, o + n ≤ 46 → mem'.read ((mbufData m).toNat + o) n =
      mem.read ((mbufData m).toNat + o) n :=
    fun hon => hagree.read (by omega) (by omega)
  have hdhost : EthAddr.ofMem mem' (mbufData m).toNat = EthAddr.ofMem mem (mbufData m).toNat :=
    heth (o := 0) (by omega)
  simp only [parseOutgoingRequestHeader, initializeReverseRequestHeader, EthHdr.ofMem, IpHdr.ofMem,
    UdpHdr.ofMem, readU16, readU32, sizeofEthHdr, sizeofIpHdr, sizeofUdpHdr, Nat.add_assoc,
    Nat.reduceAdd, hdhost]
  rw [heth (by omega), hread (by omega), hread (by omega), hread (by omega), hread (by omega),
    hread (by omega)]

namespace SameInputs

variable {cfg : Config} {pktIdx : ℕ} {request : Addr} {st st' : State}

theorem read (h : SameInputs cfg pktIdx request st st') {o n : ℕ}
    (hle : o + n ≤ requestSpan cfg (st.heap request)) :
    st'.mem.read ((mbufData (st.heap request)).toNat + o) n =
      st.mem.read ((mbufData (st.heap request)).toNat + o) n :=
  h.mem.read (by omega) (by omega)

theorem requestedSegments (h : SameInputs cfg pktIdx request st st') :
    requestedSegments cfg st' request = requestedSegments cfg st request := by
  rw [Mlx5Netperf.requestedSegments, Mlx5Netperf.requestedSegments, h.heap]
  refine readSegments_congr fun span hspan => ?_
  obtain ⟨seg, hseg, rfl⟩ := List.mem_map.mp hspan
  rw [List.mem_range] at hseg
  rw [payloadPtr, Nat.add_assoc, h.read]
  simp only [requestSpan]
  omega

theorem incomingChecksum (h : SameInputs cfg pktIdx request st st') :
    incomingChecksum st'.mem (st'.heap request) = incomingChecksum st.mem (st.heap request) := by
  rw [h.heap]
  refine incomingChecksum_congr fun span hspan => ?_
  -- each byte that the loop adds up lies in the payload
  obtain ⟨ptr, hptr, rfl⟩ := List.mem_map.mp hspan
  rw [checksumPtrs, List.mem_range'] at hptr
  obtain ⟨i, hi, rfl⟩ := hptr
  rw [payloadPtr, Nat.add_assoc, Nat.add_assoc, h.read]
  simp only [requestSpan]
  omega

theorem replyChecksum (h : SameInputs cfg pktIdx request st st') :
    replyChecksum cfg st' pktIdx request = replyChecksum cfg st pktIdx request := by
  rw [Mlx5Netperf.replyChecksum, Mlx5Netperf.replyChecksum, h.incomingChecksum, h.requestHeaders]

theorem replyHeader (h : SameInputs cfg pktIdx request st st') :
    replyHeader cfg st' pktIdx request = replyHeader cfg st pktIdx request := by
  have hle : 50 ≤ requestSpan cfg (st.heap request) := by
    simp only [requestSpan, fullHeaderSize, fullProtoHeader, pktIdSize, segListOffset]
    omega
  rw [Mlx5Netperf.replyHeader, Mlx5Netperf.replyHeader, h.replyChecksum, h.requestHeaders, h.heap]
  exact parseOutgoingRequestHeader_congr _ _ _ fun x hlo hhi => h.mem x hlo (by omega)

theorem replyData (hws : WorkingSetOk cfg) (h : SameInputs cfg pktIdx request st st') :
    replyData cfg st' request = replyData cfg st request := by
  rw [Mlx5Netperf.replyData, Mlx5Netperf.replyData, h.requestedSegments]
  refine congrArg List.flatten (List.map_congr_left fun segment _ => ?_)
  have hle := hws.mapped.region_le segment
  rw [hws.mapped.region_toNat]
  exact h.workingSet.read (by omega) (by omega)

end SameInputs

/-! ## Zero copy -/

/-- The mbufs `nodes` with head `m` are the scatter list of the segments. -/
structure ScatterListOf (cfg : Config) (segments : List UInt64) (heap : Heap) (m : Addr)
    (nodes : List Addr) : Prop where
  chain : heap.IsChain (some m) nodes
  holds : List.Forall₂ (fun a segment => HoldsSegment cfg segment (heap a)) nodes segments
  nbSegs : (heap m).nbSegs = cfg.numSegments.toUInt32

/-- A chain starts with its head. -/
theorem Heap.IsChain.head_mem {heap : Heap} {m : Addr} {nodes : List Addr}
    (h : heap.IsChain (some m) nodes) : m ∈ nodes := by
  cases h
  exact List.mem_cons_self ..

namespace ScatterListOf

variable {cfg : Config} {segments : List UInt64} {heap heap' : Heap} {m : Addr} {nodes : List Addr}

/-- The release function of its head. -/
theorem release (h : ScatterListOf cfg segments heap m nodes) :
    (heap m).release = some .zeroCopyTxCompletion := by
  obtain ⟨i, hi, hm⟩ := List.mem_iff_getElem.mp h.chain.head_mem
  have hlt : i < segments.length := by rwa [← h.holds.length_eq]
  have hrelease := (h.holds.get hi hlt).release
  rwa [List.get_eq_getElem, hm] at hrelease

/-- A scatter list stays as it is when its own mbufs do. -/
theorem congr (h : ScatterListOf cfg segments heap m nodes) (hsame : ∀ a ∈ nodes, heap' a = heap a) :
    ScatterListOf cfg segments heap' m nodes where
  chain := NullTerminated.IsChain.congr h.chain fun a ha => by rw [hsame a ha]
  holds := by
    refine List.forall₂_iff_zip.mpr ⟨h.holds.length_eq, fun {a segment} hmem => ?_⟩
    rw [hsame a (List.of_mem_zip hmem).1]
    exact (List.forall₂_iff_zip.mp h.holds).2 hmem
  nbSegs := by rw [hsame m h.chain.head_mem, h.nbSegs]

/-- The data of the scatter list are the regions of the segments, when their
length fits into the 32 bits of an mbuf's length. -/
theorem gatherBytes (h : ScatterListOf cfg segments heap m nodes)
    (hsize : cfg.segmentSize.toNat < 2 ^ 32) (mem : ByteMemory) :
    gatherBytes mem heap nodes = (regionBytes cfg mem segments).flatten := by
  have hlen : cfg.segmentSize.toUInt32.toNat = cfg.segmentSize.toNat := by
    rw [UInt64.toNat_toUInt32, Nat.mod_eq_of_lt hsize]
  rw [Mlx5Netperf.gatherBytes, regionBytes, List.flatMap_def]
  refine congrArg List.flatten ?_
  have hholds := h.holds
  clear h
  induction hholds with
  | nil => rfl
  | cons hholds _ ih =>
    rw [List.map_cons, List.map_cons, ih, hholds.data, hholds.len, hlen]

/-- The data of the scatter list are as long as its mbufs say. -/
theorem length_gatherBytes (h : ScatterListOf cfg segments heap m nodes) (mem : ByteMemory) :
    (Mlx5Netperf.gatherBytes mem heap nodes).length =
      segments.length * cfg.segmentSize.toUInt32.toNat := by
  have hholds := h.holds
  clear h
  -- one mbuf per segment, all of one length
  induction hholds with
  | nil => simp [Mlx5Netperf.gatherBytes]
  | cons hholds _ ih =>
    rw [Mlx5Netperf.gatherBytes, List.flatMap_cons, List.length_append, length_read, hholds.len,
      List.length_cons, Nat.succ_mul, Nat.add_comm]
    exact congrArg (· + _) ih

end ScatterListOf

/-- What the loop over a batch does in zero-copy mode: the replies to `requests`,
packets `pktIdx` on, with their heads and scatter lists. -/
structure ZeroCopyBatch (cfg : Config) (pktIdx : ℕ) (requests : List Addr) (st : State)
    (replies : List (Addr × List Addr)) (st' : State) : Prop where
  pool : st.mbufMempool.freeList = (replies.flatMap Prod.snd) ++ st'.mbufMempool.freeList
  allocated : st'.mbufMempool.allocated =
    st.mbufMempool.allocated + (replies.flatMap Prod.snd).length
  capacity : st'.mbufMempool.capacity = st.mbufMempool.capacity
  lists : List.Forall₂ (fun request reply =>
    ScatterListOf cfg (requestedSegments cfg st request) st'.heap reply.1 reply.2) requests replies
  frame : ∀ a ∉ replies.flatMap Prod.snd, st'.heap a = st.heap a
  mem : st'.mem = st.mem
  txq : st'.txq = st.txq
  rxq : st'.rxq = st.rxq
  txBufMempool : st'.txBufMempool = st.txBufMempool
  rxBufMempool : st'.rxBufMempool = st.rxBufMempool
  trace : st'.trace = st.trace ++ (replies.flatMap Prod.snd).map .created
  refcnts : st'.workingSetRefcnts =
    if cfg.usingRefCounting then
      (requests.flatMap (requestedSegments cfg st)).foldl (bumpRefcnt cfg) st.workingSetRefcnts
    else st.workingSetRefcnts
  earlier : ∀ i < pktIdx, st'.requestHeaders i = st.requestHeaders i
  requestHeaders : cfg.usingRefCounting = false → ∀ j request, requests[j]? = some request →
    st'.requestHeaders (pktIdx + j) = replyHeader cfg st (pktIdx + j) request

section ZeroCopy

variable {cfg : Config} {pktIdx : ℕ} {request m : Addr} {requests : List Addr} {st st₁ st' : State}
  {nodes : List Addr} {replies : List (Addr × List Addr)}

theorem zeroCopyBatch_nil (cfg : Config) (pktIdx : ℕ) (st : State) :
    ZeroCopyBatch cfg pktIdx [] st [] st where
  pool := rfl
  allocated := rfl
  capacity := rfl
  lists := .nil
  frame := fun _ _ => rfl
  mem := rfl
  txq := rfl
  rxq := rfl
  txBufMempool := rfl
  rxBufMempool := rfl
  trace := by simp
  refcnts := by simp
  earlier := fun _ _ => rfl
  requestHeaders := by simp

/-- A reply changes nothing that a later reply depends on. -/
theorem ZeroCopyBuilt.sameInputs (h : ZeroCopyBuilt cfg pktIdx request st m nodes st₁)
    {later : Addr} (hlater : later ∉ nodes) {j : ℕ} (hj : pktIdx < j) :
    SameInputs cfg j later st st₁ where
  heap := h.frame later hlater
  mem := fun _ _ _ => by rw [h.mem]
  workingSet := fun _ _ _ => by rw [h.mem]
  requestHeaders := by
    obtain ⟨checksum, hheaders⟩ := h.requestHeaders
    rw [hheaders, Function.update_of_ne (by omega)]

/-- One more reply in front. -/
theorem ZeroCopyBatch.cons (hfirst : ZeroCopyBuilt cfg pktIdx request st m nodes st₁)
    (hrest : ZeroCopyBatch cfg (pktIdx + 1) requests st₁ replies st')
    (hnodup : st.mbufMempool.freeList.Nodup)
    (hfresh : ∀ r ∈ requests, r ∉ st.mbufMempool.freeList) :
    ZeroCopyBatch cfg pktIdx (request :: requests) st ((m, nodes) :: replies) st' := by
  have hsame : ∀ r ∈ requests, ∀ j, pktIdx < j → SameInputs cfg j r st st₁ := fun r hr j hj =>
    hfirst.sameInputs
      (fun hmem => hfresh r hr (by rw [hfirst.pool]; exact List.mem_append_left _ hmem)) hj
  have hsegments : ∀ r ∈ requests, requestedSegments cfg st₁ r = requestedSegments cfg st r :=
    fun r hr => (hsame r hr (pktIdx + 1) (by omega)).requestedSegments
  -- the mbufs of the first reply are none of those handed out later
  have hkeep : ∀ a ∈ nodes, st'.heap a = st₁.heap a := by
    intro a ha
    refine hrest.frame a fun hlater => ?_
    rw [hfirst.pool, hrest.pool] at hnodup
    exact (List.nodup_append.mp hnodup).2.2 a ha a (List.mem_append_left _ hlater) rfl
  -- the pieces of both, the first one in front
  constructor
  case pool => rw [hfirst.pool, hrest.pool, List.flatMap_cons, List.append_assoc]
  case allocated =>
    rw [hrest.allocated, hfirst.allocated, List.flatMap_cons, List.length_append, Nat.add_assoc]
  case capacity => rw [hrest.capacity, hfirst.capacity]
  case lists =>
    refine .cons ?_ ?_
    · exact ScatterListOf.congr ⟨hfirst.chain, hfirst.holds, hfirst.nbSegs⟩ hkeep
    · refine List.forall₂_iff_zip.mpr ⟨hrest.lists.length_eq, fun {r reply} hmem => ?_⟩
      rw [← hsegments r (List.of_mem_zip hmem).1]
      exact (List.forall₂_iff_zip.mp hrest.lists).2 hmem
  case frame =>
    intro a ha
    rw [List.flatMap_cons, List.mem_append, not_or] at ha
    rw [hrest.frame a ha.2, hfirst.frame a ha.1]
  case mem => rw [hrest.mem, hfirst.mem]
  case txq => rw [hrest.txq, hfirst.txq]
  case rxq => rw [hrest.rxq, hfirst.rxq]
  case txBufMempool => rw [hrest.txBufMempool, hfirst.txBufMempool]
  case rxBufMempool => rw [hrest.rxBufMempool, hfirst.rxBufMempool]
  case trace => rw [hrest.trace, hfirst.trace, List.flatMap_cons, List.map_append, List.append_assoc]
  case refcnts =>
    have hflat : requests.flatMap (requestedSegments cfg st₁) =
        requests.flatMap (requestedSegments cfg st) := by
      rw [List.flatMap_def, List.flatMap_def, List.map_congr_left hsegments]
    rw [hrest.refcnts, hfirst.refcnts, hflat]
    split
    · rw [List.flatMap_cons, List.foldl_append]
    · rfl
  case earlier =>
    intro i hi
    obtain ⟨checksum, hheaders⟩ := hfirst.requestHeaders
    rw [hrest.earlier i (by omega), hheaders, Function.update_of_ne (by omega)]
  case requestHeaders =>
    intro hrc j r hr
    cases j with
    | zero =>
      obtain rfl : request = r := Option.some.inj hr
      rw [Nat.add_zero, hrest.earlier pktIdx (by omega), hfirst.noRefCounting hrc]
    | succ j =>
      have hreq : requests[j]? = some r := hr
      have hinputs := hsame r (List.mem_of_getElem? hreq) (pktIdx + 1 + j) (by omega)
      rw [show pktIdx + (j + 1) = pktIdx + 1 + j by omega, hrest.requestHeaders hrc j r hreq,
        hinputs.replyHeader]

/-- The scatter list of the reply to a request of the batch. -/
theorem ZeroCopyBatch.exists_reply (h : ZeroCopyBatch cfg pktIdx requests st replies st') {i : ℕ}
    (hrequest : requests[i]? = some request) :
    ∃ m nodes, replies[i]? = some (m, nodes) ∧
      ScatterListOf cfg (requestedSegments cfg st request) st'.heap m nodes := by
  obtain ⟨hlt, rfl⟩ := List.getElem?_eq_some_iff.mp hrequest
  have hlt' : i < replies.length := h.lists.length_eq ▸ hlt
  exact ⟨replies[i].1, replies[i].2, List.getElem?_eq_getElem hlt',
    (List.forall₂_iff_get.mp h.lists).2 i hlt hlt'⟩

/-- The rounds of a zero-copy batch. -/
theorem BuildRun.zeroCopyBatch {heads : List Addr} (hzero : cfg.zeroCopy = true)
    (hrun : BuildRun cfg pktIdx requests st heads st') (hnodup : st.mbufMempool.freeList.Nodup)
    (hfresh : ∀ r ∈ requests, r ∉ st.mbufMempool.freeList) :
    ∃ replies, ZeroCopyBatch cfg pktIdx requests st replies st' ∧ heads = replies.map Prod.fst := by
  induction hrun with
  | nil => exact ⟨[], zeroCopyBatch_nil .., rfl⟩
  | @cons pktIdx request m requests heads st st₁ st' hround hrest ih =>
    obtain ⟨nodes, hfirst⟩ := buildReply_zeroCopyBuilt hzero hnodup hround
    have hnodup₁ : st₁.mbufMempool.freeList.Nodup := by
      rw [hfirst.pool] at hnodup
      exact (List.nodup_append.mp hnodup).2.1
    have hfresh₁ : ∀ r ∈ requests, r ∉ st₁.mbufMempool.freeList := fun r hr hmem =>
      hfresh r (List.mem_cons_of_mem _ hr) (by rw [hfirst.pool]; exact List.mem_append_right _ hmem)
    obtain ⟨replies, hbatch, rfl⟩ := ih hnodup₁ hfresh₁
    exact ⟨(m, nodes) :: replies, ZeroCopyBatch.cons hfirst hbatch hnodup
      fun r hr => hfresh r (List.mem_cons_of_mem _ hr), rfl⟩

/-- **A batch of zero-copy replies.** -/
theorem buildReplies_zeroCopyBatch {fuel : ℕ} (hzero : cfg.zeroCopy = true)
    (hnodup : st.mbufMempool.freeList.Nodup)
    (hfresh : ∀ r ∈ requests, r ∉ st.mbufMempool.freeList) {heads heads' : List Addr}
    (h : buildReplies cfg fuel requests heads st = some (.ok heads', st')) :
    ∃ replies, ZeroCopyBatch cfg heads.length requests st replies st' ∧
      heads' = heads ++ replies.map Prod.fst := by
  obtain ⟨built, hrun, rfl⟩ := buildRun_of_ok h
  obtain ⟨replies, hbatch, rfl⟩ := hrun.zeroCopyBatch hzero hnodup hfresh
  exact ⟨replies, hbatch, rfl⟩

end ZeroCopy

/-! ## Copy -/

/-- Where the buffers of a batch of copy replies may lie: apart from each other,
from the working set and from what is read of the requests. -/
structure CopyLayout (cfg : Config) (st : State) (requests : List Addr) : Prop where
  workingSet : WorkingSetOk cfg
  fits : 58 + cfg.numSegments.toNat * cfg.segmentSize.toNat ≤ 16384
  nodup : st.mbufMempool.freeList.Nodup
  fresh : ∀ r ∈ requests, r ∉ st.mbufMempool.freeList
  buffers : st.txBufMempool.freeList.Pairwise fun b b' => RangesApart b.toNat 16384 b'.toNat 16384
  buffers_workingSet : ∀ b ∈ st.txBufMempool.freeList,
    RangesApart b.toNat 16384 cfg.serverWorkingSet.toNat cfg.workingSetSize.toNat
  buffers_requests : ∀ b ∈ st.txBufMempool.freeList, ∀ r ∈ requests,
    RangesApart b.toNat 16384 (mbufData (st.heap r)).toNat (requestSpan cfg (st.heap r))

/-- The mbuf of a copy reply, and the frame in its buffer. -/
structure CopyReply (cfg : Config) (st : State) (m buffer : Addr) (frame : List UInt8) : Prop where
  next : (st.heap m).next = none
  data : mbufData (st.heap m) = buffer
  len : (mbufLength (st.heap m)).toNat = frame.length
  nbSegs : (st.heap m).nbSegs = 1
  release : (st.heap m).release = some .txCompletion
  lkey : (st.heap m).lkey = cfg.txLkey
  frame : st.mem.read buffer.toNat frame.length = frame

/-- What the loop over a batch does in copy mode: the replies to `requests`,
packets `pktIdx` on, with their mbufs and buffers. -/
structure CopyBatch (cfg : Config) (pktIdx : ℕ) (requests : List Addr) (st : State)
    (replies : List (Addr × Addr)) (st' : State) : Prop where
  pool : st.mbufMempool.freeList = replies.map Prod.fst ++ st'.mbufMempool.freeList
  buffers : st.txBufMempool.freeList = replies.map Prod.snd ++ st'.txBufMempool.freeList
  length_eq : replies.length = requests.length
  built : ∀ j request reply, requests[j]? = some request → replies[j]? = some reply →
    CopyReply cfg st' reply.1 reply.2 (copyFrame cfg st (pktIdx + j) request reply.2)
  frame : ∀ a ∉ replies.map Prod.fst, st'.heap a = st.heap a
  mem : ∀ a n, (∀ reply ∈ replies, RangesApart reply.2.toNat 16384 a n) → AgreeOn st.mem st'.mem a n

section Copy

variable {cfg : Config} {pktIdx : ℕ} {request m buffer : Addr} {requests : List Addr}
  {st st₁ st' : State} {replies : List (Addr × Addr)}

theorem length_replyData (cfg : Config) (st : State) (request : Addr) :
    (replyData cfg st request).length = cfg.numSegments.toNat * cfg.segmentSize.toNat := by
  rw [replyData, length_flatten_regionBytes, requestedSegments, readSegments, List.length_map,
    List.length_range]

theorem length_zeroCopyFrame (cfg : Config) (st : State) (pktIdx : ℕ) (request : Addr) :
    (zeroCopyFrame cfg st pktIdx request).length =
      58 + cfg.numSegments.toNat * cfg.segmentSize.toNat := by
  rw [zeroCopyFrame, List.length_append, RequestHeader.length_wireBytes, length_replyData]

theorem length_copyFrame (cfg : Config) (st : State) (pktIdx : ℕ) (request buffer : Addr) :
    (copyFrame cfg st pktIdx request buffer).length =
      58 + cfg.numSegments.toNat * cfg.segmentSize.toNat := by
  simp only [copyFrame, List.length_append, List.length_take, List.length_drop, length_read,
    RequestHeader.length_wireBytes, length_replyData]
  omega

/-- The stores of a copy reply stay in its buffer. -/
theorem CopyBuilt.agreeOn (h : CopyBuilt cfg pktIdx request st m buffer st₁)
    (hfits : 58 + cfg.numSegments.toNat * cfg.segmentSize.toNat ≤ 16384) {a n : ℕ}
    (hapart : RangesApart buffer.toNat 16384 a n) : AgreeOn st.mem st₁.mem a n := by
  have hregions := length_flatten_regionBytes cfg st.mem (requestedSegments cfg st request)
  rw [requestedSegments, readSegments, List.length_map, List.length_range] at hregions
  intro x hlo hhi
  rw [h.mem, stores_of_not_touches, stores_of_not_touches]
  -- the regions, then the header in front of them
  · rintro s hs ⟨hslo, hshi⟩
    obtain ⟨hwlo, hwhi⟩ := within_of_mem_replyHeaderStores hs
    rcases hapart with hbefore | hafter <;> omega
  · rintro s hs ⟨hslo, hshi⟩
    obtain ⟨hwlo, hwhi⟩ := bounds_of_mem_consecutive hs
    rw [requestedSegments, readSegments] at hwhi
    rcases hapart with hbefore | hafter <;> omega

/-- **The frame of a copy reply.** -/
theorem CopyBuilt.read (h : CopyBuilt cfg pktIdx request st m buffer st₁) :
    st₁.mem.read buffer.toNat (copyFrame cfg st pktIdx request buffer).length =
      copyFrame cfg st pktIdx request buffer := by
  let header := replyHeader cfg st pktIdx request
  let regions := regionBytes cfg st.mem (requestedSegments cfg st request)
  have hlength : regions.flatten.length = cfg.numSegments.toNat * cfg.segmentSize.toNat :=
    length_replyData cfg st request
  -- the regions start behind the header, which leaves bytes 50 to 57 alone
  have hregions : ∀ s ∈ consecutive (buffer.toNat + 58) regions, s.Misses buffer.toNat 58 :=
    fun s hs => .inr (bounds_of_mem_consecutive hs).1
  have hheader : ∀ s ∈ replyHeaderStores buffer.toNat header, s.Misses (buffer.toNat + 50) 8 :=
    fun s hs => .inl (within_of_mem_replyHeaderStores hs).2
  have hread : st₁.mem.read (buffer.toNat + 58) regions.flatten.length = regions.flatten := by
    rw [h.mem]
    exact read_stores_consecutive _ _ _
  have hfront : st₁.mem.read buffer.toNat 58 =
      (st.mem.stores (replyHeaderStores buffer.toNat header)).read buffer.toNat 58 := by
    rw [h.mem]
    exact read_stores_of_misses hregions
  rw [length_copyFrame, read_add, ← hlength, hread, hfront, show (58 : ℕ) = 50 + 8 from rfl,
    read_add, read_replyHeaderStores, read_stores_of_misses hheader]
  rfl

/-- The reply itself, right after it was built. -/
theorem CopyBuilt.copyReply (h : CopyBuilt cfg pktIdx request st m buffer st₁)
    (hfits : 58 + cfg.numSegments.toNat * cfg.segmentSize.toNat ≤ 16384) :
    CopyReply cfg st₁ m buffer (copyFrame cfg st pktIdx request buffer) where
  next := h.next
  data := h.data
  len := by
    have hheader : (UInt64.ofNat headerLen).toNat = 58 := rfl
    have hcomm : cfg.segmentSize.toNat * cfg.numSegments.toNat =
        cfg.numSegments.toNat * cfg.segmentSize.toNat := Nat.mul_comm ..
    rw [h.len, length_copyFrame, UInt64.toNat_toUInt32, UInt64.toNat_add, UInt64.toNat_mul, hheader]
    omega
  nbSegs := h.nbSegs
  release := h.release
  lkey := h.lkey
  frame := h.read

/-- A later round leaves a reply as it is. -/
theorem CopyReply.congr {frame : List UInt8} (h : CopyReply cfg st₁ m buffer frame)
    (hheap : st'.heap m = st₁.heap m)
    (hmem : AgreeOn st₁.mem st'.mem buffer.toNat frame.length) :
    CopyReply cfg st' m buffer frame where
  next := by rw [hheap, h.next]
  data := by rw [hheap, h.data]
  len := by rw [hheap, h.len]
  nbSegs := by rw [hheap, h.nbSegs]
  release := by rw [hheap, h.release]
  lkey := by rw [hheap, h.lkey]
  frame := by rw [hmem.read le_rfl le_rfl, h.frame]

/-- The layout of a batch is one for its first reply. -/
theorem CopyLayout.copyApart (h : CopyLayout cfg st (request :: requests)) :
    ∀ m ∈ st.mbufMempool.freeList, ∀ buffer ∈ st.txBufMempool.freeList,
      CopyApart cfg st request m buffer := by
  intro m hm buffer hbuffer
  refine ⟨?_, ?_, h.buffers_workingSet buffer hbuffer⟩
  · rintro rfl
    exact h.fresh request (List.mem_cons_self ..) hm
  · have hspan : 46 ≤ requestSpan cfg (st.heap request) := by
      simp only [requestSpan, fullHeaderSize, fullProtoHeader, pktIdSize, segListOffset]
      omega
    exact (h.buffers_requests buffer hbuffer request (List.mem_cons_self ..)).mono le_rfl hspan

/-- A reply changes nothing that a later reply depends on. -/
theorem CopyBuilt.sameInputs (h : CopyBuilt cfg pktIdx request st m buffer st₁)
    (hlayout : CopyLayout cfg st (request :: requests)) {later : Addr} (hlater : later ∈ requests)
    {j : ℕ} (hj : pktIdx < j) : SameInputs cfg j later st st₁ := by
  have hbuffer : buffer ∈ st.txBufMempool.freeList := by simp [h.buffers]
  -- a later request is no free mbuf, and away from the buffer
  refine ⟨h.frame later ?_, ?_, ?_, ?_⟩
  · rintro rfl
    exact hlayout.fresh later (List.mem_cons_of_mem _ hlater) (by simp [h.pool])
  · exact h.agreeOn hlayout.fits
      (hlayout.buffers_requests buffer hbuffer later (List.mem_cons_of_mem _ hlater))
  · exact h.agreeOn hlayout.fits (hlayout.buffers_workingSet buffer hbuffer)
  · rw [h.requestHeaders, Function.update_of_ne (by omega)]

/-- The layout that is left for the later replies. -/
theorem CopyBuilt.layout (h : CopyBuilt cfg pktIdx request st m buffer st₁)
    (hlayout : CopyLayout cfg st (request :: requests)) : CopyLayout cfg st₁ requests where
  workingSet := hlayout.workingSet
  fits := hlayout.fits
  nodup := (List.nodup_cons.mp (h.pool ▸ hlayout.nodup)).2
  fresh := fun r hr hmem => hlayout.fresh r (List.mem_cons_of_mem _ hr)
    (by rw [h.pool]; exact List.mem_cons_of_mem _ hmem)
  buffers := (List.pairwise_cons.mp (h.buffers ▸ hlayout.buffers)).2
  buffers_workingSet := fun b hb => hlayout.buffers_workingSet b
    (by rw [h.buffers]; exact List.mem_cons_of_mem _ hb)
  buffers_requests := by
    intro b hb r hr
    rw [(h.sameInputs hlayout hr (Nat.lt_succ_self pktIdx)).heap]
    exact hlayout.buffers_requests b (by rw [h.buffers]; exact List.mem_cons_of_mem _ hb) r
      (List.mem_cons_of_mem _ hr)

/-- The frame of a later reply is the one it would have been before. -/
theorem CopyBuilt.copyFrame (h : CopyBuilt cfg pktIdx request st m buffer st₁)
    (hlayout : CopyLayout cfg st (request :: requests)) {later : Addr} (hlater : later ∈ requests)
    {j : ℕ} (hj : pktIdx < j) {b : Addr} (hb : b ∈ st₁.txBufMempool.freeList) :
    copyFrame cfg st₁ j later b = copyFrame cfg st j later b := by
  have hinputs := h.sameInputs hlayout hlater hj
  -- the later buffer is not the one that was filled
  have happart : RangesApart buffer.toNat 16384 b.toNat 16384 :=
    (List.pairwise_cons.mp (h.buffers ▸ hlayout.buffers)).1 b hb
  have hagree := h.agreeOn hlayout.fits happart
  rw [Mlx5Netperf.copyFrame, Mlx5Netperf.copyFrame, hinputs.replyHeader,
    hinputs.replyData hlayout.workingSet, hagree.read (by omega) (by omega),
    hagree.read (by omega) (by omega)]

/-- One more reply in front. -/
theorem CopyBatch.cons (hfirst : CopyBuilt cfg pktIdx request st m buffer st₁)
    (hrest : CopyBatch cfg (pktIdx + 1) requests st₁ replies st')
    (hlayout : CopyLayout cfg st (request :: requests)) :
    CopyBatch cfg pktIdx (request :: requests) st ((m, buffer) :: replies) st' := by
  have hbuffers : ∀ reply ∈ replies, RangesApart buffer.toNat 16384 reply.2.toNat 16384 := by
    intro reply hreply
    refine (List.pairwise_cons.mp (hfirst.buffers ▸ hlayout.buffers)).1 reply.2 ?_
    rw [hrest.buffers]
    exact List.mem_append_left _ (List.mem_map_of_mem hreply)
  refine ⟨?_, ?_, ?_, ?_, ?_, ?_⟩
  · rw [hfirst.pool, hrest.pool, List.map_cons, List.cons_append]
  · rw [hfirst.buffers, hrest.buffers, List.map_cons, List.cons_append]
  · rw [List.length_cons, List.length_cons, hrest.length_eq]
  · intro j r reply hr hreply
    cases j with
    | zero =>
      obtain rfl : request = r := Option.some.inj hr
      obtain rfl : (m, buffer) = reply := Option.some.inj hreply
      -- the first reply survives the later rounds
      refine (hfirst.copyReply hlayout.fits).congr (hrest.frame m ?_) (hrest.mem _ _ ?_)
      · intro hmem
        have hnodup := hlayout.nodup
        rw [hfirst.pool, hrest.pool] at hnodup
        exact (List.nodup_cons.mp hnodup).1 (List.mem_append_left _ hmem)
      · intro reply hreply
        rw [length_copyFrame]
        exact (hbuffers reply hreply).symm.mono le_rfl hlayout.fits
    | succ j =>
      have hreq : requests[j]? = some r := hr
      have hrep : replies[j]? = some reply := hreply
      -- a later reply has the frame it would have had before
      have hfree : reply.2 ∈ st₁.txBufMempool.freeList := by
        rw [hrest.buffers]
        exact List.mem_append_left _ (List.mem_map_of_mem (List.mem_of_getElem? hrep))
      rw [show pktIdx + (j + 1) = pktIdx + 1 + j by omega,
        ← hfirst.copyFrame hlayout (List.mem_of_getElem? hreq) (by omega) hfree]
      exact hrest.built j r reply hreq hrep
  · intro a ha
    rw [List.map_cons, List.mem_cons, not_or] at ha
    rw [hrest.frame a ha.2, hfirst.frame a ha.1]
  · intro a n hapart x hlo hhi
    rw [hrest.mem a n (fun reply hreply => hapart reply (List.mem_cons_of_mem _ hreply)) x hlo hhi,
      hfirst.agreeOn hlayout.fits (hapart (m, buffer) (List.mem_cons_self ..)) x hlo hhi]

/-- The rounds of a batch in copy mode. -/
theorem BuildRun.copyBatch {heads : List Addr} (hzero : cfg.zeroCopy = false)
    (hrun : BuildRun cfg pktIdx requests st heads st') (hlayout : CopyLayout cfg st requests) :
    ∃ replies, CopyBatch cfg pktIdx requests st replies st' ∧ heads = replies.map Prod.fst := by
  induction hrun with
  | nil => exact ⟨[], ⟨rfl, rfl, rfl, by simp, fun _ _ => rfl, fun _ _ _ _ _ _ => rfl⟩, rfl⟩
  | @cons pktIdx request m requests heads st st₁ st' hround hrest ih =>
    obtain ⟨buffer, hfirst⟩ := buildReply_copyBuilt hzero hlayout.workingSet hlayout.fits
      hlayout.copyApart hround
    obtain ⟨replies, hbatch, rfl⟩ := ih (hfirst.layout hlayout)
    exact ⟨(m, buffer) :: replies, CopyBatch.cons hfirst hbatch hlayout, rfl⟩

/-- **A batch of copy replies.** -/
theorem buildReplies_copyBatch {fuel : ℕ} (hzero : cfg.zeroCopy = false)
    (hlayout : CopyLayout cfg st requests) {heads heads' : List Addr}
    (h : buildReplies cfg fuel requests heads st = some (.ok heads', st')) :
    ∃ replies, CopyBatch cfg heads.length requests st replies st' ∧
      heads' = heads ++ replies.map Prod.fst := by
  obtain ⟨built, hrun, rfl⟩ := buildRun_of_ok h
  obtain ⟨replies, hbatch, rfl⟩ := hrun.copyBatch hzero hlayout
  exact ⟨replies, hbatch, rfl⟩

end Copy

/-! ## What is transmitted -/

/-- A batch of replies whose construction does not depend on luck: the requests
are no free mbufs, a zero-copy segment fits into an mbuf's length, and a copy
reply into its buffer. -/
structure BatchOk (cfg : Config) (st : State) (requests : List Addr) : Prop where
  echoMode : cfg.echoMode = false
  noRefCounting : cfg.usingRefCounting = false
  workingSet : WorkingSetOk cfg
  nodup : st.mbufMempool.freeList.Nodup
  fresh : ∀ r ∈ requests, r ∉ st.mbufMempool.freeList
  zeroCopy : cfg.zeroCopy = true → cfg.segmentSize.toNat < 2 ^ 32
  copy : cfg.zeroCopy = false → CopyLayout cfg st requests

/-- The frame of the reply to `request`, packet `i` of its batch, in the state
before the batch. -/
def replyFrame (cfg : Config) (st : State) (i : ℕ) (request : Addr) : List UInt8 :=
  if cfg.zeroCopy then zeroCopyFrame cfg st i request
  else copyFrame cfg st i request (st.txBufMempool.freeList.getD i 0)

section Transmit

variable {cfg : Config} {fuel : ℕ} {st st' : State} {requests heads : List Addr} {i : ℕ}
  {request : Addr}

/-- The inlined members of a header are its wire bytes. -/
theorem flatMap_inlinePieces (h : RequestHeader) :
    h.inlinePieces.flatMap Prod.snd = h.wireBytes := by
  rw [h.inlinePieces_eq, ← h.flatten_wirePieces]
  rfl

/-- **The frames of a batch**: what is transmitted for a request is its reply frame. -/
theorem buildReplies_transmittedFrame (hok : BatchOk cfg st requests)
    (h : buildReplies cfg fuel requests [] st = some (.ok heads, st'))
    (hrequest : requests[i]? = some request) :
    ∃ m nodes, heads[i]? = some m ∧ st'.heap.IsChain (some m) nodes ∧
      transmittedFrame cfg st' i nodes = replyFrame cfg st i request := by
  cases hzero : cfg.zeroCopy with
  | true =>
    obtain ⟨replies, hbatch, hheads⟩ := buildReplies_zeroCopyBatch hzero hok.nodup hok.fresh h
    obtain ⟨m, nodes, hreply, hlist⟩ := hbatch.exists_reply hrequest
    refine ⟨m, nodes, by simp [hheads, hreply], hlist.chain, ?_⟩
    -- the header goes inline, from the array of this packet
    have hheader := hbatch.requestHeaders hok.noRefCounting i request hrequest
    rw [List.length_nil, Nat.zero_add] at hheader
    rw [transmittedFrame, requestHeaderPtr, hok.echoMode, hzero, replyFrame, hzero, hheader,
      hbatch.mem]
    simp only [if_true, Bool.false_eq_true, if_false, Option.elim_some, flatMap_inlinePieces]
    rw [zeroCopyFrame, replyData, hlist.gatherBytes (hok.zeroCopy hzero)]
  | false =>
    obtain ⟨replies, hbatch, hheads⟩ := buildReplies_copyBatch hzero (hok.copy hzero) h
    have hlt : i < replies.length := by
      rw [hbatch.length_eq]
      exact (List.getElem?_eq_some_iff.mp hrequest).1
    have hreply : replies[i]? = some replies[i] := List.getElem?_eq_getElem hlt
    have hbuilt := hbatch.built i request replies[i] hrequest hreply
    -- packet `i` takes the buffer number `i` of the pool
    have hbuffer : st.txBufMempool.freeList.getD i 0 = replies[i].2 := by
      rw [hbatch.buffers, List.getD_eq_getElem?_getD, List.getElem?_append_left (by simpa using hlt)]
      simp [hreply]
    have hchain : st'.heap.IsChain (some replies[i].1) [replies[i].1] :=
      NullTerminated.isChain_singleton hbuilt.next
    refine ⟨replies[i].1, [replies[i].1], by simp [hheads, hreply], hchain, ?_⟩
    rw [List.length_nil, Nat.zero_add] at hbuilt
    rw [transmittedFrame, requestHeaderPtr, hok.echoMode, hzero, replyFrame, hzero, hbuffer]
    simp only [Bool.false_eq_true, if_false, Option.elim_none, List.nil_append, gatherBytes,
      List.flatMap_cons, List.flatMap_nil, List.append_nil]
    rw [hbuilt.data, hbuilt.len, hbuilt.frame]

end Transmit

end Mlx5Netperf
