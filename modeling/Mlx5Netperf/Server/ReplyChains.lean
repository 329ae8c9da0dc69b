import Mlx5Netperf.Mlx5.ChainShape
import Mlx5Netperf.Mlx5.GatherRx
import Mlx5Netperf.Server.BatchOutcome
import Mlx5Netperf.Server.Echo

/-!
# The Chains of the Replies

The chains that `process_server_requests` and `process_echo_requests` build are
well formed whatever the mbufs held before.
-/

namespace Mlx5Netperf

/-! ## What the server means to send -/

/-- The data of a zero-copy reply. -/
def zeroCopySegs (cfg : Config) (segments : List UInt64) : List DataSeg :=
  segments.map fun segment => ⟨cfg.segmentSize.toUInt32, cfg.txLkey, cfg.region segment⟩

/-- The data of a copy reply in `buffer`. -/
def copySegs (cfg : Config) (buffer : Addr) : List DataSeg := [⟨cfg.copyLen, cfg.txLkey, buffer⟩]

/-- The data of a request that is sent back: the buffer it came in. -/
def echoSegs (cfg : Config) (request : Addr) : List DataSeg :=
  [⟨(cfg.dataSize + UInt64.ofNat sizeofRequestHeader).toUInt32, cfg.rxLkey,
    request + rxBufHead.toUInt64⟩]

/-! ## What it builds -/

variable {cfg : Config} {fuel i : ℕ} {requests heads : List Addr} {request m buffer : Addr}
  {st st' : State}

/-- The mbufs of a scatter list hold its data. -/
theorem map_dataSeg_of_holdsSegment {heap : Heap} {nodes : List Addr} {segments : List UInt64}
    (h : List.Forall₂ (fun a segment => HoldsSegment cfg segment (heap a)) nodes segments) :
    nodes.map (fun a => DataSeg.ofMbuf (heap a)) = zeroCopySegs cfg segments := by
  induction h with
  | nil => rfl
  | cons hholds _ ih =>
    rw [List.map_cons, ih, DataSeg.ofMbuf, hholds.len, hholds.lkey, hholds.data]
    rfl

/-- **A scatter list of the zero-copy mode** has its shape. -/
theorem ScatterListOf.chainShape {segments : List UInt64} {heap : Heap} {nodes : List Addr}
    (h : ScatterListOf cfg segments heap m nodes) (hlength : segments.length = cfg.numSegments.toNat)
    (hsmall : cfg.numSegments.toNat < 2 ^ 32) :
    ChainShape heap m (zeroCopySegs cfg segments) .zeroCopyTxCompletion := by
  refine ⟨⟨nodes, h.chain, ?_, map_dataSeg_of_holdsSegment h.holds⟩, h.release⟩
  rw [h.nbSegs, UInt64.toNat_toUInt32, Nat.mod_eq_of_lt hsmall, h.holds.length_eq, hlength]

theorem chainShape_zeroCopy (hzero : cfg.zeroCopy = true) (hsmall : cfg.numSegments.toNat < 2 ^ 32)
    (hnodup : st.mbufMempool.freeList.Nodup)
    (hfresh : ∀ r ∈ requests, r ∉ st.mbufMempool.freeList)
    (hbuild : buildReplies cfg fuel requests [] st = some (.ok heads, st'))
    (hrequest : requests[i]? = some request) (hhead : heads[i]? = some m) :
    ChainShape st'.heap m (zeroCopySegs cfg (requestedSegments cfg st request))
      .zeroCopyTxCompletion := by
  obtain ⟨replies, hbatch, rfl⟩ := buildReplies_zeroCopyBatch hzero hnodup hfresh hbuild
  obtain ⟨first, nodes, hreply, hlist⟩ := hbatch.exists_reply hrequest
  obtain rfl : first = m := by simpa [hreply] using hhead
  exact hlist.chainShape (length_requestedSegments ..) hsmall

theorem chainShape_copy (hzero : cfg.zeroCopy = false) (hnodup : st.mbufMempool.freeList.Nodup)
    (hbuild : buildReplies cfg fuel requests [] st = some (.ok heads, st'))
    (hhead : heads[i]? = some m) (hbuffer : st.txBufMempool.freeList[i]? = some buffer) :
    ChainShape st'.heap m (copySegs cfg buffer) .txCompletion := by
  obtain ⟨built, hrun, hheads⟩ := buildRun_of_ok hbuild
  obtain ⟨replies, hbatch, rfl⟩ := hrun.copyMbufs hzero hnodup
  rw [hheads, List.nil_append, List.getElem?_map] at hhead
  obtain ⟨reply, hreply, rfl⟩ := Option.map_eq_some_iff.mp hhead
  -- the reply has the buffer that the pool handed out for it
  obtain rfl : reply.2 = buffer := by
    have hlt := (List.getElem?_eq_some_iff.mp hreply).1
    rw [hbatch.buffers, List.getElem?_append_left (by simpa using hlt), List.getElem?_map,
      hreply] at hbuffer
    exact Option.some.inj hbuffer
  have hself := hbatch.heap reply (List.mem_of_getElem? hreply)
  have hdata : DataSeg.ofMbuf (st'.heap reply.1) = ⟨cfg.copyLen, cfg.txLkey, reply.2⟩ := by
    rw [hself]
    simp [DataSeg.ofMbuf, copyMbuf, mbufInit, mbufData, mbufLength]
  apply (ChainShape.singleton_iff hdata (by rw [hself]; rfl)).mpr
  rw [hself]
  exact ⟨rfl, rfl⟩

theorem chainShape_echo (hreceived : ∀ r ∈ requests, ∃ cqe b, st.heap r = mbufFillCqe r cqe b)
    (hbuild : echoRequests cfg requests [] st = (.ok heads, st')) (hhead : m ∈ heads) :
    ChainShape st'.heap m (echoSegs cfg m) .rxCompletion := by
  obtain rfl : requests = heads := by
    have hres := echoRequests_eq cfg requests [] st
    rw [hbuild] at hres
    dsimp only at hres
    split at hres
    · exact (Except.ok.inj hres).symm
    · simp at hres
  obtain ⟨cqe, b, hb⟩ := hreceived m hhead
  have hself := echoRequests_heap hbuild m hhead
  rw [hb] at hself
  apply (ChainShape.singleton_iff (by rw [hself]; rfl) (by rw [hself]; rfl)).mpr
  rw [hself]
  exact ⟨rfl, rfl⟩

end Mlx5Netperf
