import Mlx5Netperf.Server.Process

/-!
# The Scatter List of a Zero-Copy Reply

What the loop over the segments builds: one mbuf of the pool for each segment,
linked in order, each describing its region of the working set.
-/

namespace Mlx5Netperf

open NullTerminated

/-! ## One segment -/

/-- The mbuf of a segment, as the loop leaves it; `next` is set later. -/
def zeroCopyMbuf (cfg : Config) (segment : UInt64) (b : Mbuf) : Mbuf :=
  { b with
    lkey := cfg.txLkey
    release := some .zeroCopyTxCompletion
    releaseData := if cfg.usingRefCounting then segment else b.releaseData
    head := cfg.region segment
    headLen := cfg.segmentSize.toUInt32
    data := cfg.region segment
    len := cfg.segmentSize.toUInt32 }

/-- One increment of a reference count, as `process_server_requests` makes it. -/
def bumpRefcnt (cfg : Config) (refcnts : ℕ → ℕ → UInt16) (segment : UInt64) : ℕ → ℕ → UInt16 :=
  let arr := (segment / cfg.numTotalSegments).toNat
  let seg := (segment % cfg.numTotalSegments).toNat
  storeRefcnt refcnts arr seg (refcnts arr seg + 1)

/-- What one round of the loop does to the state. -/
structure SegmentBuilt (cfg : Config) (pktIdx : ℕ) (ms : List Addr) (segment : UInt64) (st : State)
    (m : Addr) (st' : State) : Prop where
  pool : mempoolAlloc st.mbufMempool = some (m, st'.mbufMempool)
  heap : st'.heap = (st.heap.linkLast ms m).modify m (zeroCopyMbuf cfg segment)
  mem : st'.mem = st.mem
  txq : st'.txq = st.txq
  rxq : st'.rxq = st.rxq
  txBufMempool : st'.txBufMempool = st.txBufMempool
  rxBufMempool : st'.rxBufMempool = st.rxBufMempool
  trace : st'.trace = st.trace ++ [.created m]
  requestHeaders : ∃ checksum, st'.requestHeaders = Function.update st.requestHeaders pktIdx
    { st.requestHeaders pktIdx with checksum := checksum }
  refcnts : st'.workingSetRefcnts =
    if cfg.usingRefCounting then bumpRefcnt cfg st.workingSetRefcnts segment
    else st.workingSetRefcnts
  noRefCounting : cfg.usingRefCounting = false → st'.requestHeaders = st.requestHeaders

/-- **One round of the loop over the segments.** -/
theorem zeroCopySegment_built {cfg : Config} {pktIdx : ℕ} {ms : List Addr} {segment : UInt64}
    {st st' : State} {m : Addr} (h : zeroCopySegment cfg pktIdx ms segment st = some (m, st')) :
    SegmentBuilt cfg pktIdx ms segment st m st' := by
  obtain ⟨⟨m', pool⟩, halloc, heq⟩ := Option.map_eq_some_iff.mp h
  obtain ⟨rfl, rfl⟩ := Prod.mk.inj heq
  -- reference counting writes the release data and the checksum besides
  cases hrc : cfg.usingRefCounting with
  | false =>
    have hbuf : zeroCopyMbuf cfg segment = fun b => { b with
        lkey := cfg.txLkey, release := some .zeroCopyTxCompletion, head := cfg.region segment,
        headLen := cfg.segmentSize.toUInt32, data := cfg.region segment,
        len := cfg.segmentSize.toUInt32 } := by
      funext b
      simp [zeroCopyMbuf, hrc]
    refine ⟨halloc, ?_, rfl, rfl, rfl, rfl, rfl, rfl, ⟨_, (Function.update_eq_self ..).symm⟩, ?_,
      fun _ => rfl⟩
    · simp [hbuf, State.modifyMbuf, Heap.modify_modify, Function.comp_def, mbufInit]
    · rw [if_neg (ne_true_of_eq_false hrc)]
      rfl
  | true =>
    have hbuf : zeroCopyMbuf cfg segment = fun b => { b with
        lkey := cfg.txLkey, release := some .zeroCopyTxCompletion, releaseData := segment,
        head := cfg.region segment, headLen := cfg.segmentSize.toUInt32,
        data := cfg.region segment, len := cfg.segmentSize.toUInt32 } := by
      funext b
      simp [zeroCopyMbuf, hrc]
    refine ⟨halloc, ?_, rfl, rfl, rfl, rfl, rfl, rfl, ⟨_, rfl⟩, ?_,
      fun hfalse => absurd (hrc.symm.trans hfalse) (by simp)⟩
    · simp [hbuf, State.modifyMbuf, State.modifyHeader, serverChangeRefcnt, Heap.modify_modify,
        Function.comp_def, mbufInit]
    · rw [if_pos hrc]
      rfl

/-- A round succeeds when the pool has an mbuf. -/
theorem zeroCopySegment_isSome (cfg : Config) (pktIdx : ℕ) (ms : List Addr) (segment : UInt64)
    {st : State} (h : st.mbufMempool.freeList ≠ []) :
    ∃ m st', zeroCopySegment cfg pktIdx ms segment st = some (m, st') := by
  obtain ⟨m, rest, hfree⟩ := List.exists_cons_of_ne_nil h
  obtain ⟨pool, halloc, -⟩ := mempoolAlloc_of_freeList hfree
  exact ⟨m, _, by rw [zeroCopySegment, halloc, Option.map_some]⟩

/-! ## The loop over the segments -/

/-- An mbuf that describes the region of a segment, whatever it is linked to. -/
structure HoldsSegment (cfg : Config) (segment : UInt64) (b : Mbuf) : Prop where
  data : mbufData b = cfg.region segment
  len : mbufLength b = cfg.segmentSize.toUInt32
  lkey : b.lkey = cfg.txLkey
  release : b.release = some .zeroCopyTxCompletion
  releaseData : cfg.usingRefCounting = true → b.releaseData = segment

theorem holdsSegment_zeroCopyMbuf (cfg : Config) (segment : UInt64) (b : Mbuf) :
    HoldsSegment cfg segment (zeroCopyMbuf cfg segment b) :=
  ⟨rfl, rfl, rfl, rfl, fun hrc => if_pos hrc⟩

section Link

variable {heap : Heap} {ms : List Addr} {m a : Addr}

theorem Heap.linkLast_none (h : ms.getLast? = none) : heap.linkLast ms m = heap := by
  simp only [Heap.linkLast, h]

theorem Heap.linkLast_some {prev : Addr} (h : ms.getLast? = some prev) :
    heap.linkLast ms m = heap.modify prev fun b => { b with next := some m } := by
  simp only [Heap.linkLast, h]

/-- Linking touches no field but `next`. -/
theorem Heap.exists_linkLast (heap : Heap) (ms : List Addr) (m a : Addr) :
    ∃ n, heap.linkLast ms m a = { heap a with next := n } := by
  cases hlast : ms.getLast? with
  | none => exact ⟨_, by rw [Heap.linkLast_none hlast]⟩
  | some prev =>
    rw [Heap.linkLast_some hlast]
    by_cases h : a = prev
    · exact ⟨some m, by rw [h, Heap.modify_self]⟩
    · exact ⟨_, Heap.modify_of_ne _ h⟩

/-- Linking touches no mbuf but the last. -/
theorem Heap.linkLast_of_ne (h : ∀ prev ∈ ms.getLast?, a ≠ prev) :
    heap.linkLast ms m a = heap a := by
  cases hlast : ms.getLast? with
  | none => rw [Heap.linkLast_none hlast]
  | some prev =>
    rw [Heap.linkLast_some hlast]
    exact Heap.modify_of_ne _ (h prev hlast)

theorem Heap.linkLast_next (h : a ∈ ms.getLast?) : (heap.linkLast ms m a).next = some m := by
  rw [Heap.linkLast_some h, Heap.modify_self]

end Link

/-- Where the loop stands after the segments `done`, for which it made the mbufs `ms`. -/
structure SegmentsBuilt (cfg : Config) (pktIdx : ℕ) (st₀ : State) (done : List UInt64)
    (ms : List Addr) (st : State) : Prop where
  pool : st₀.mbufMempool.freeList = ms ++ st.mbufMempool.freeList
  allocated : st.mbufMempool.allocated = st₀.mbufMempool.allocated + ms.length
  capacity : st.mbufMempool.capacity = st₀.mbufMempool.capacity
  holds : List.Forall₂ (fun a segment => HoldsSegment cfg segment (st.heap a)) ms done
  linked : Linked (fun a => (st.heap a).next) ms
  frame : ∀ a ∉ ms, st.heap a = st₀.heap a
  mem : st.mem = st₀.mem
  txq : st.txq = st₀.txq
  rxq : st.rxq = st₀.rxq
  txBufMempool : st.txBufMempool = st₀.txBufMempool
  rxBufMempool : st.rxBufMempool = st₀.rxBufMempool
  trace : st.trace = st₀.trace ++ ms.map .created
  requestHeaders : ∃ checksum, st.requestHeaders = Function.update st₀.requestHeaders pktIdx
    { st₀.requestHeaders pktIdx with checksum := checksum }
  refcnts : st.workingSetRefcnts =
    if cfg.usingRefCounting then done.foldl (bumpRefcnt cfg) st₀.workingSetRefcnts
    else st₀.workingSetRefcnts
  noRefCounting : cfg.usingRefCounting = false → st.requestHeaders = st₀.requestHeaders

section Loop

variable {cfg : Config} {pktIdx : ℕ} {st₀ st st' : State} {done : List UInt64} {ms : List Addr}
  {m : Addr} {segment : UInt64}

theorem segmentsBuilt_nil (cfg : Config) (pktIdx : ℕ) (st : State) :
    SegmentsBuilt cfg pktIdx st [] [] st where
  pool := rfl
  allocated := rfl
  capacity := rfl
  holds := .nil
  linked := linked_nil _
  frame := fun _ _ => rfl
  mem := rfl
  txq := rfl
  rxq := rfl
  txBufMempool := rfl
  rxBufMempool := rfl
  trace := by simp
  requestHeaders := ⟨_, (Function.update_eq_self ..).symm⟩
  refcnts := by simp
  noRefCounting := fun _ => rfl

/-- One more segment. -/
theorem SegmentsBuilt.snoc (h : SegmentsBuilt cfg pktIdx st₀ done ms st)
    (hnodup : st₀.mbufMempool.freeList.Nodup)
    (hstep : SegmentBuilt cfg pktIdx ms segment st m st') :
    SegmentsBuilt cfg pktIdx st₀ (done ++ [segment]) (ms ++ [m]) st' := by
  have hpool := freeList_of_mempoolAlloc hstep.pool
  obtain ⟨-, -, hpool'⟩ := mempoolAlloc_eq_some hstep.pool
  -- the pool hands out an mbuf that is none of those made before
  have hfresh : m ∉ ms := by
    rw [h.pool, hpool] at hnodup
    exact fun hm => (List.nodup_append.mp hnodup).2.2 m hm m (by simp) rfl
  have hnodups : ms.Nodup := by
    rw [h.pool] at hnodup
    exact (List.nodup_append.mp hnodup).1
  -- linking changes at most the `next` of an earlier mbuf
  have hother : ∀ a ∈ ms, ∃ n, st'.heap a = { st.heap a with next := n } := by
    intro a ha
    rw [hstep.heap, Heap.modify_of_ne _ (by rintro rfl; exact hfresh ha)]
    exact st.heap.exists_linkLast ms m a
  -- the new one is not linked to anything yet
  have hself : st'.heap m = zeroCopyMbuf cfg segment (st.heap m) := by
    rw [hstep.heap, Heap.modify_self, Heap.linkLast_of_ne]
    rintro prev hprev rfl
    exact hfresh (List.mem_of_mem_getLast? hprev)
  constructor
  case pool =>
    rw [h.pool, hpool]
    simp
  case allocated =>
    rw [hpool', List.length_append]
    show st.mbufMempool.allocated + 1 = _
    rw [h.allocated]
    rfl
  case capacity =>
    rw [hpool']
    exact h.capacity
  case holds =>
    refine List.rel_append ?_ (.cons ?_ .nil)
    · refine List.forall₂_iff_zip.mpr ⟨h.holds.length_eq, fun {a seg} hmem => ?_⟩
      obtain ⟨n, hn⟩ := hother a (List.of_mem_zip hmem).1
      obtain ⟨hdata, hlen, hlkey, hrelease, hreleaseData⟩ :=
        (List.forall₂_iff_zip.mp h.holds).2 hmem
      rw [hn]
      exact ⟨hdata, hlen, hlkey, hrelease, hreleaseData⟩
    · rw [hself]
      exact holdsSegment_zeroCopyMbuf ..
  case linked =>
    refine Linked.snoc (h.linked.congr fun a ha => ?_) fun a ha => ?_
    -- only the last of the list gets a new `next`
    · have hne : ∀ prev ∈ ms.getLast?, a ≠ prev := by
        rintro prev hprev rfl
        exact (List.nodup_append.mp (List.dropLast_append_getLast? a hprev ▸ hnodups)).2.2
          a ha a (by simp) rfl
      rw [hstep.heap, Heap.modify_of_ne, Heap.linkLast_of_ne hne]
      rintro rfl
      exact hfresh (List.dropLast_subset _ ha)
    · rw [hstep.heap, Heap.modify_of_ne, Heap.linkLast_next ha]
      rintro rfl
      exact hfresh (List.mem_of_mem_getLast? ha)
  case frame =>
    intro a ha
    rw [List.mem_append, List.mem_singleton, not_or] at ha
    rw [hstep.heap, Heap.modify_of_ne _ ha.2, Heap.linkLast_of_ne, h.frame a ha.1]
    rintro prev hprev rfl
    exact ha.1 (List.mem_of_mem_getLast? hprev)
  case mem => rw [hstep.mem, h.mem]
  case txq => rw [hstep.txq, h.txq]
  case rxq => rw [hstep.rxq, h.rxq]
  case txBufMempool => rw [hstep.txBufMempool, h.txBufMempool]
  case rxBufMempool => rw [hstep.rxBufMempool, h.rxBufMempool]
  case trace =>
    rw [hstep.trace, h.trace]
    simp
  case requestHeaders =>
    obtain ⟨c, hc⟩ := h.requestHeaders
    obtain ⟨c', hc'⟩ := hstep.requestHeaders
    refine ⟨c', ?_⟩
    rw [hc', hc]
    simp
  case refcnts =>
    rw [hstep.refcnts, h.refcnts]
    split <;> simp
  case noRefCounting =>
    intro hrc
    rw [hstep.noRefCounting hrc, h.noRefCounting hrc]

/-- **What the loop over the segments builds.** -/
theorem zeroCopySegments_built {segments : List UInt64}
    (h : SegmentsBuilt cfg pktIdx st₀ done ms st) (hnodup : st₀.mbufMempool.freeList.Nodup)
    {ms' : List Addr} (hloop : zeroCopySegments cfg pktIdx segments ms st = (some ms', st')) :
    SegmentsBuilt cfg pktIdx st₀ (done ++ segments) ms' st' := by
  induction segments generalizing done ms st with
  | nil =>
    obtain ⟨hms, rfl⟩ := Prod.mk.inj hloop
    obtain rfl := Option.some.inj hms
    simpa using h
  | cons segment segments ih =>
    rw [zeroCopySegments] at hloop
    -- an empty pool ends the loop without a list
    split at hloop
    · simp at hloop
    · rename_i m st₁ hsegment
      have hstep := h.snoc hnodup (zeroCopySegment_built hsegment)
      simpa using ih hstep hloop

/-- The loop succeeds when the pool has an mbuf for every segment. -/
theorem zeroCopySegments_isSome (cfg : Config) (pktIdx : ℕ) (segments : List UInt64)
    (ms : List Addr) (hpool : segments.length ≤ st.mbufMempool.freeList.length) :
    ∃ ms' st', zeroCopySegments cfg pktIdx segments ms st = (some ms', st') := by
  induction segments generalizing ms st with
  | nil => exact ⟨ms, st, rfl⟩
  | cons segment segments ih =>
    rw [List.length_cons] at hpool
    obtain ⟨m, st₁, hsegment⟩ := zeroCopySegment_isSome cfg pktIdx ms segment
      (show st.mbufMempool.freeList ≠ [] by rintro hnil; simp [hnil] at hpool)
    have hfree := freeList_of_mempoolAlloc (zeroCopySegment_built hsegment).pool
    rw [hfree, List.length_cons] at hpool
    have hroom : segments.length ≤ st₁.mbufMempool.freeList.length := by omega
    obtain ⟨ms', st', hloop⟩ := ih (ms ++ [m]) hroom
    exact ⟨ms', st', by rw [zeroCopySegments, hsegment]; exact hloop⟩

end Loop

/-! ## The reply -/

/-- The checksum in the header of packet `pktIdx` before reference counts are added. -/
def replyChecksum (cfg : Config) (st : State) (pktIdx : ℕ) (request : Addr) : UInt64 :=
  if cfg.readIncomingPacket then incomingChecksum st.mem (st.heap request)
  else (st.requestHeaders pktIdx).checksum

/-- The header of the reply to `request`. -/
def replyHeader (cfg : Config) (st : State) (pktIdx : ℕ) (request : Addr) : RequestHeader :=
  parseOutgoingRequestHeader
    { st.requestHeaders pktIdx with checksum := replyChecksum cfg st pktIdx request }
    st.mem (st.heap request) cfg.payloadSize

/-- The segments that a request asks for. -/
def requestedSegments (cfg : Config) (st : State) (request : Addr) : List UInt64 :=
  readSegments cfg st.mem (payloadPtr (st.heap request))

/-- A zero-copy reply to `request`, packet `pktIdx` of its batch: the scatter
list `nodes` with head `m`. -/
structure ZeroCopyBuilt (cfg : Config) (pktIdx : ℕ) (request : Addr) (st : State) (m : Addr)
    (nodes : List Addr) (st' : State) : Prop where
  pool : st.mbufMempool.freeList = nodes ++ st'.mbufMempool.freeList
  allocated : st'.mbufMempool.allocated = st.mbufMempool.allocated + nodes.length
  capacity : st'.mbufMempool.capacity = st.mbufMempool.capacity
  chain : st'.heap.IsChain (some m) nodes
  holds : List.Forall₂ (fun a segment => HoldsSegment cfg segment (st'.heap a)) nodes
    (requestedSegments cfg st request)
  nbSegs : (st'.heap m).nbSegs = cfg.numSegments.toUInt32
  frame : ∀ a ∉ nodes, st'.heap a = st.heap a
  mem : st'.mem = st.mem
  txq : st'.txq = st.txq
  rxq : st'.rxq = st.rxq
  txBufMempool : st'.txBufMempool = st.txBufMempool
  rxBufMempool : st'.rxBufMempool = st.rxBufMempool
  trace : st'.trace = st.trace ++ nodes.map .created
  requestHeaders : ∃ checksum, st'.requestHeaders = Function.update st.requestHeaders pktIdx
    { replyHeader cfg st pktIdx request with checksum := checksum }
  refcnts : st'.workingSetRefcnts =
    if cfg.usingRefCounting then
      (requestedSegments cfg st request).foldl (bumpRefcnt cfg) st.workingSetRefcnts
    else st.workingSetRefcnts
  noRefCounting : cfg.usingRefCounting = false →
    st'.requestHeaders pktIdx = replyHeader cfg st pktIdx request

section Reply

variable {cfg : Config} {pktIdx : ℕ} {request m : Addr} {st st' : State}

/-- The zero-copy branch of one round of the loop over the batch. -/
theorem buildReply_zeroCopy (hzero : cfg.zeroCopy = true) (pktIdx : ℕ) (request : Addr)
    (st : State) :
    ∃ checksum, buildReply cfg pktIdx request st =
      scatterListReply cfg pktIdx (requestedSegments cfg st request)
        { st with
          checksum := checksum
          requestHeaders :=
            Function.update st.requestHeaders pktIdx (replyHeader cfg st pktIdx request) } := by
  simp only [buildReply, hzero, if_true, zeroCopyReply]
  cases hread : cfg.readIncomingPacket with
  | true =>
    refine ⟨incomingChecksum st.mem (st.heap request), ?_⟩
    simp [replyHeader, replyChecksum, hread, requestedSegments, State.modifyHeader]
  | false =>
    refine ⟨st.checksum, ?_⟩
    simp [replyHeader, replyChecksum, hread, requestedSegments, State.modifyHeader]

/-- Closing the scatter list: the first mbuf takes the counts, the last one ends the list. -/
theorem SegmentsBuilt.close {st₀ : State} {segments : List UInt64} {ms : List Addr} {last : Addr}
    (h : SegmentsBuilt cfg pktIdx st₀ segments ms st) (hnodup : ms.Nodup)
    (hfirst : ms.head? = some m) (hlast : ms.getLast? = some last) (nbSegs pktLen : UInt32) {heap : Heap}
    (hheap : heap = ((st.heap.modify m fun b => { b with nbSegs := nbSegs }).modify
      last fun b => { b with next := none }).modify m fun b => { b with pktLen := pktLen }) :
    heap.IsChain (some m) ms ∧
      List.Forall₂ (fun a segment => HoldsSegment cfg segment (heap a)) ms segments ∧
      (heap m).nbSegs = nbSegs ∧ ∀ a ∉ ms, heap a = st.heap a := by
  have hmem : m ∈ ms := List.mem_of_mem_head? hfirst
  have hmemlast : last ∈ ms := List.mem_of_mem_getLast? hlast
  have hnext : ∀ a, a ≠ last → (heap a).next = (st.heap a).next := by
    intro a ha
    rw [hheap]
    refine Heap.modify_keeps (P := fun b => b.next = (st.heap a).next) ?_ ?_ m
    · exact fun _ hb => hb
    rw [Heap.modify_of_ne _ ha]
    refine Heap.modify_keeps (P := fun b => b.next = (st.heap a).next) ?_ rfl m
    exact fun _ hb => hb
  refine ⟨?_, ?_, ?_, ?_⟩
  · rw [← hfirst]
    refine (h.linked.congr fun a ha => hnext a ?_).isChain fun a ha => ?_
    · rintro rfl
      exact (List.nodup_append.mp (List.dropLast_append_getLast? a hlast ▸ hnodup)).2.2
        a ha a (by simp) rfl
    · obtain rfl : last = a := Option.some.inj (hlast.symm.trans ha)
      rw [hheap]
      refine Heap.modify_keeps (P := fun b => b.next = none) ?_ ?_ m
      · exact fun _ hb => hb
      · rw [Heap.modify_self]
  · refine h.holds.imp fun a segment hholds => ?_
    have hfields : ∀ b b' : Mbuf, b'.data = b.data → b'.len = b.len → b'.lkey = b.lkey →
        b'.release = b.release → b'.releaseData = b.releaseData →
        HoldsSegment cfg segment b → HoldsSegment cfg segment b' :=
      fun b b' hdata hlen hlkey hrelease hreleaseData hb => ⟨hdata.trans hb.data,
        hlen.trans hb.len, hlkey.trans hb.lkey, hrelease.trans hb.release,
        fun hrc => hreleaseData.trans (hb.releaseData hrc)⟩
    rw [hheap]
    refine Heap.modify_keeps ?_ (Heap.modify_keeps ?_ (Heap.modify_keeps ?_ hholds m) last) m <;>
      exact fun b => hfields b _ rfl rfl rfl rfl rfl
  · rw [hheap]
    refine Heap.modify_keeps (P := fun b => b.nbSegs = nbSegs) ?_
      (Heap.modify_keeps (P := fun b => b.nbSegs = nbSegs) ?_ ?_ last) m
    · exact fun _ hb => hb
    · exact fun _ hb => hb
    · rw [Heap.modify_self]
  · intro a ha
    have ham : a ≠ m := by rintro rfl; exact ha hmem
    have hal : a ≠ last := by rintro rfl; exact ha hmemlast
    rw [hheap, Heap.modify_of_ne _ ham, Heap.modify_of_ne _ hal, Heap.modify_of_ne _ ham]

/-- **What a zero-copy reply is.** -/
theorem buildReply_zeroCopyBuilt (hzero : cfg.zeroCopy = true)
    (hnodup : st.mbufMempool.freeList.Nodup)
    (h : buildReply cfg pktIdx request st = some (.ok m, st')) :
    ∃ nodes, ZeroCopyBuilt cfg pktIdx request st m nodes st' := by
  obtain ⟨checksum, hbuild⟩ := buildReply_zeroCopy hzero pktIdx request st
  let st₁ : State := { st with
    checksum := checksum
    requestHeaders :=
      Function.update st.requestHeaders pktIdx (replyHeader cfg st pktIdx request) }
  have hscatter : scatterListReply cfg pktIdx (requestedSegments cfg st request) st₁ =
      some (.ok m, st') := hbuild ▸ h
  unfold scatterListReply at hscatter
  rcases hloop : zeroCopySegments cfg pktIdx (requestedSegments cfg st request) [] st₁ with
    ⟨_ | ms, st₂⟩
  · simp [hloop] at hscatter
  have hbuilt := zeroCopySegments_built (segmentsBuilt_nil cfg pktIdx st₁) hnodup hloop
  rw [List.nil_append] at hbuilt
  have hms : ms.Nodup := (List.nodup_append.mp (hbuilt.pool ▸ hnodup)).1
  rcases hfirst : ms.head? with _ | first
  · simp [hloop, hfirst] at hscatter
  rcases hlast : ms.getLast? with _ | last
  · simp [hloop, hfirst, hlast] at hscatter
  simp only [hloop, hfirst, hlast, Option.some.injEq, Prod.mk.injEq, Except.ok.injEq] at hscatter
  obtain ⟨rfl, rfl⟩ := hscatter
  obtain ⟨hchain, hholds, hnbSegs, hframe⟩ := hbuilt.close hms hfirst hlast
    cfg.numSegments.toUInt32 (cfg.segmentSize * cfg.numSegments).toUInt32 rfl
  refine ⟨ms, hbuilt.pool, hbuilt.allocated, hbuilt.capacity, hchain, hholds, hnbSegs, ?_,
    hbuilt.mem, hbuilt.txq, hbuilt.rxq, hbuilt.txBufMempool, hbuilt.rxBufMempool, hbuilt.trace, ?_,
    hbuilt.refcnts, ?_⟩
  · exact fun a ha => (hframe a ha).trans (hbuilt.frame a ha)
  · obtain ⟨c, hc⟩ := hbuilt.requestHeaders
    refine ⟨c, hc.trans ?_⟩
    simp [st₁]
  · intro hrc
    show st₂.requestHeaders pktIdx = _
    rw [hbuilt.noRefCounting hrc]
    simp [st₁]

end Reply

end Mlx5Netperf
