import Mlx5Netperf.Server.Copy

/-!
# The Outcome of Building One Reply

Whether a reply can be built depends on the pools only. This module says what
one round of the loop over a batch does in each case: the mbufs it takes from
the pools, the fields it sets in them, and what is left behind when an
allocation fails.
-/

namespace Mlx5Netperf

open NullTerminated

variable {cfg : Config} {pktIdx : ℕ} {request m : Addr} {st st' : State}

theorem length_requestedSegments (cfg : Config) (st : State) (request : Addr) :
    (requestedSegments cfg st request).length = cfg.numSegments.toNat := by
  rw [requestedSegments, readSegments, List.length_map, List.length_range]

/-! ## Zero copy -/

/-- What a zero-copy reply leaves when the pool runs out of mbufs: those of the
segments before, in `ms`. -/
structure ZeroCopyFailed (cfg : Config) (st : State) (ms : List Addr) (st' : State) : Prop where
  pool : st.mbufMempool.freeList = ms
  exhausted : st'.mbufMempool.freeList = []
  short : ms.length < cfg.numSegments.toNat
  allocated : st'.mbufMempool.allocated = st.mbufMempool.allocated + ms.length
  capacity : st'.mbufMempool.capacity = st.mbufMempool.capacity
  frame : ∀ a ∉ ms, st'.heap a = st.heap a
  txBufMempool : st'.txBufMempool = st.txBufMempool
  rxBufMempool : st'.rxBufMempool = st.rxBufMempool
  trace : st'.trace = st.trace ++ ms.map .created

/-- The loop over the segments stops at an empty pool. -/
theorem zeroCopySegments_none {st₀ : State} {done segments : List UInt64} {ms : List Addr}
    (h : SegmentsBuilt cfg pktIdx st₀ done ms st) (hnodup : st₀.mbufMempool.freeList.Nodup)
    (hloop : zeroCopySegments cfg pktIdx segments ms st = (none, st')) :
    ∃ done' ms', SegmentsBuilt cfg pktIdx st₀ done' ms' st' ∧ st'.mbufMempool.freeList = [] ∧
      done'.length < done.length + segments.length := by
  induction segments generalizing done ms st with
  | nil => simp [zeroCopySegments] at hloop
  | cons segment segments ih =>
    rw [zeroCopySegments] at hloop
    split at hloop
    · rename_i hnone
      obtain ⟨-, rfl⟩ := Prod.mk.inj hloop
      refine ⟨done, ms, h, ?_, by simp⟩
      -- with a free mbuf the round would have succeeded
      by_contra hfree
      obtain ⟨m, st₁, hsome⟩ := zeroCopySegment_isSome cfg pktIdx ms segment hfree
      simp [hnone] at hsome
    · rename_i m st₁ hsegment
      obtain ⟨done', ms', hbuilt, hempty, hlt⟩ :=
        ih (h.snoc hnodup (zeroCopySegment_built hsegment)) hloop
      refine ⟨done', ms', hbuilt, hempty, ?_⟩
      simp only [List.length_append, List.length_singleton] at hlt
      simp only [List.length_cons]
      omega

/-- **A failed zero-copy reply.** -/
theorem buildReply_zeroCopyFailed {e : BuildError} (hzero : cfg.zeroCopy = true)
    (hnodup : st.mbufMempool.freeList.Nodup)
    (h : buildReply cfg pktIdx request st = some (.error e, st')) :
    e = .noMbuf ∧ ∃ ms, ZeroCopyFailed cfg st ms st' := by
  obtain ⟨checksum, hbuild⟩ := buildReply_zeroCopy hzero pktIdx request st
  let st₁ : State := { st with
    checksum := checksum
    requestHeaders :=
      Function.update st.requestHeaders pktIdx (replyHeader cfg st pktIdx request) }
  have hscatter : scatterListReply cfg pktIdx (requestedSegments cfg st request) st₁ =
      some (.error e, st') := hbuild ▸ h
  unfold scatterListReply at hscatter
  rcases hloop : zeroCopySegments cfg pktIdx (requestedSegments cfg st request) [] st₁ with
    ⟨_ | ms, st₂⟩
  -- a list with mbufs has a first and a last one
  case some =>
    simp only [hloop] at hscatter
    split at hscatter <;> simp at hscatter
  case none =>
    simp only [hloop, Option.some.injEq, Prod.mk.injEq, Except.error.injEq] at hscatter
    obtain ⟨rfl, rfl⟩ := hscatter
    obtain ⟨done, ms, hbuilt, hempty, hlt⟩ :=
      zeroCopySegments_none (segmentsBuilt_nil cfg pktIdx st₁) hnodup hloop
    have hpool := hbuilt.pool
    rw [hempty, List.append_nil] at hpool
    rw [List.length_nil, Nat.zero_add, length_requestedSegments, ← hbuilt.holds.length_eq] at hlt
    exact ⟨rfl, ms, hpool, hempty, hlt, hbuilt.allocated, hbuilt.capacity, hbuilt.frame,
      hbuilt.txBufMempool, hbuilt.rxBufMempool, hbuilt.trace⟩

/-- A zero-copy reply is built when the pool has an mbuf for every segment. -/
theorem buildReply_zeroCopy_isOk (hzero : cfg.zeroCopy = true) (pktIdx : ℕ) (request : Addr)
    (hnodup : st.mbufMempool.freeList.Nodup) (hpos : 0 < cfg.numSegments.toNat)
    (hpool : cfg.numSegments.toNat ≤ st.mbufMempool.freeList.length) :
    ∃ m st', buildReply cfg pktIdx request st = some (.ok m, st') := by
  obtain ⟨checksum, hbuild⟩ := buildReply_zeroCopy hzero pktIdx request st
  let st₁ : State := { st with
    checksum := checksum
    requestHeaders :=
      Function.update st.requestHeaders pktIdx (replyHeader cfg st pktIdx request) }
  obtain ⟨ms, st₂, hloop⟩ := @zeroCopySegments_isSome st₁ cfg pktIdx
    (requestedSegments cfg st request) [] (by rwa [length_requestedSegments])
  have hbuilt := zeroCopySegments_built (segmentsBuilt_nil cfg pktIdx st₁) hnodup hloop
  -- one segment at least makes one mbuf
  have hne : ms ≠ [] := by
    intro hnil
    have hlength := hbuilt.holds.length_eq
    rw [hnil, List.nil_append, length_requestedSegments, List.length_nil] at hlength
    omega
  obtain ⟨first, hfirst⟩ : ∃ first, ms.head? = some first := ⟨_, List.head?_eq_some_head hne⟩
  obtain ⟨last, hlast⟩ : ∃ last, ms.getLast? = some last := ⟨_, List.getLast?_eq_some_getLast hne⟩
  rw [hbuild, scatterListReply, hloop]
  simp only [hfirst, hlast]
  exact ⟨first, _, rfl⟩

/-! ## Copy -/

/-- `header_len + segment_size * num_segments`, as it is stored in an mbuf. -/
def Config.copyLen (cfg : Config) : UInt32 :=
  (UInt64.ofNat headerLen + cfg.segmentSize * cfg.numSegments).toUInt32

/-- The mbuf of a copy reply with its transmit buffer. -/
def copyMbuf (cfg : Config) (buffer : Addr) (b : Mbuf) : Mbuf :=
  { mbufInit b buffer dataMbufsSize 0 with
    lkey := cfg.txLkey
    release := some .txCompletion
    next := none
    nbSegs := 1
    pktLen := cfg.copyLen
    len := cfg.copyLen }

/-- Copying the segments writes memory and the length of the mbuf, nothing else. -/
theorem exists_copySegments (cfg : Config) (m : Addr) (segments : List UInt64) (st : State) :
    ∃ mem len, copySegments cfg m segments st =
      { st with mem := mem, heap := st.heap.modify m fun b => { b with len := len } } := by
  unfold copySegments
  generalize segments.zipIdx = segments
  induction segments generalizing st with
  | nil => exact ⟨st.mem, (st.heap m).len, by simp [Heap.modify]⟩
  | cons segment segments ih =>
    let b := (mbufCopy st.mem (st.heap m)
      (st.mem.read (cfg.region segment.1).toNat cfg.segmentSize.toNat)
      (UInt64.ofNat headerLen + UInt64.ofNat segment.2 * cfg.segmentSize).toNat).2
    have hround : (copySegment cfg m segment.1 segment.2 st).heap =
        st.heap.modify m fun c => { c with len := b.len } := rfl
    obtain ⟨mem, len, hloop⟩ := ih (copySegment cfg m segment.1 segment.2 st)
    refine ⟨mem, len, ?_⟩
    rw [List.foldl_cons, hloop, hround, Heap.modify_modify]
    rfl

/-- A copy reply without its bytes: the mbuf `m` and the buffer that the pools
hand out, and the fields set in `m`. -/
structure CopyMbufBuilt (cfg : Config) (pktIdx : ℕ) (st : State) (m buffer : Addr) (st' : State) :
    Prop where
  pool : mempoolAlloc st.mbufMempool = some (m, st'.mbufMempool)
  buffers : mempoolAlloc st.txBufMempool = some (buffer, st'.txBufMempool)
  heap : st'.heap = st.heap.modify m (copyMbuf cfg buffer)
  txq : st'.txq = st.txq
  rxq : st'.rxq = st.rxq
  rxBufMempool : st'.rxBufMempool = st.rxBufMempool
  workingSetRefcnts : st'.workingSetRefcnts = st.workingSetRefcnts
  trace : st'.trace = st.trace

/-- What a copy reply leaves when there is no buffer for its mbuf `m`: only the
key of `m` was set. -/
structure CopyFailed (cfg : Config) (st : State) (m : Addr) (st' : State) : Prop where
  pool : mempoolAlloc st.mbufMempool = some (m, st'.mbufMempool)
  exhausted : st.txBufMempool.freeList = []
  heap : st'.heap = st.heap.modify m fun b => { b with lkey := cfg.txLkey }
  txBufMempool : st'.txBufMempool = st.txBufMempool
  rxBufMempool : st'.rxBufMempool = st.rxBufMempool
  workingSetRefcnts : st'.workingSetRefcnts = st.workingSetRefcnts
  trace : st'.trace = st.trace

/-- What both branches leave when there is no mbuf. -/
structure NoMbuf (st st' : State) : Prop where
  exhausted : st.mbufMempool.freeList = []
  mbufMempool : st'.mbufMempool = st.mbufMempool
  txBufMempool : st'.txBufMempool = st.txBufMempool
  heap : st'.heap = st.heap
  trace : st'.trace = st.trace

/-- **The outcomes of a copy reply.** -/
theorem buildReply_copy_cases (hzero : cfg.zeroCopy = false) (pktIdx : ℕ) (request : Addr)
    (st : State) :
    (∃ m buffer st', buildReply cfg pktIdx request st = some (.ok m, st') ∧
      CopyMbufBuilt cfg pktIdx st m buffer st') ∨
    (∃ m st', buildReply cfg pktIdx request st = some (.error (.noBuffer m), st') ∧
      CopyFailed cfg st m st') ∨
    ∃ st', buildReply cfg pktIdx request st = some (.error .noMbuf, st') ∧ NoMbuf st st' := by
  obtain ⟨checksum, hbuild⟩ := buildReply_copy hzero pktIdx request st
  rw [hbuild]
  -- first the mbuf, then the buffer
  rcases hmbuf : mempoolAlloc st.mbufMempool with _ | ⟨m, mbufs⟩
  · refine .inr (.inr ⟨_, by rw [copyReply, hmbuf], ?_⟩)
    exact ⟨mempoolAlloc_eq_none.mp hmbuf, rfl, rfl, rfl, rfl⟩
  rcases hbuffer : mempoolAlloc st.txBufMempool with _ | ⟨buffer, buffers⟩
  · refine .inr (.inl ⟨m, _, by simp only [copyReply, hmbuf, State.modifyMbuf, hbuffer]; rfl, ?_⟩)
    exact ⟨hmbuf, mempoolAlloc_eq_none.mp hbuffer, rfl, rfl, rfl, rfl, rfl⟩
  · let heap₁ := (st.heap.modify m fun b => { b with lkey := cfg.txLkey }).modify m fun b =>
      { mbufInit b buffer dataMbufsSize 0 with release := some .txCompletion, next := none }
    let st₁ : State := { st with
      mem := parseOutgoingRequestHeaderIntoMbuf st.mem (heap₁ m) (heap₁ request) cfg.payloadSize
      heap := heap₁
      mbufMempool := mbufs
      txBufMempool := buffers
      requestHeaders := Function.update st.requestHeaders pktIdx
        { st.requestHeaders pktIdx with checksum := replyChecksum cfg st pktIdx request }
      checksum := checksum }
    obtain ⟨mem, len, hcopied⟩ := exists_copySegments cfg m (requestedSegments cfg st request) st₁
    refine .inl ⟨m, buffer, (copySegments cfg m (requestedSegments cfg st request) st₁).modifyMbuf m
      fun b => { b with nbSegs := 1, pktLen := cfg.copyLen, len := cfg.copyLen }, ?_, ?_⟩
    · simp only [copyReply, hmbuf, State.modifyMbuf, hbuffer]
      rfl
    · rw [hcopied]
      refine ⟨hmbuf, hbuffer, ?_, rfl, rfl, rfl, rfl, rfl⟩
      simp only [State.modifyMbuf, st₁, heap₁, Heap.modify_modify]
      rfl

end Mlx5Netperf
