import Mlx5Netperf.Client.Request
import Mlx5Netperf.Server.BatchOutcome
import Mlx5Netperf.Server.Echo
import Mlx5Netperf.Server.ReceivedBytes
import Mlx5Netperf.Server.RequestedData

/-!
# What the Client Makes of a Reply

`do_client` takes the id and the payload length of a reply and asserts that the
payload is as long as the requested segments. The three ways to make a reply put
a header of 16 or 22 further bytes in front of them.
-/

namespace Mlx5Netperf

open ByteMemory

/-- What `do_client` reads of a received packet: `read_u64(payload, ID_OFF)` and
`payload_len`. -/
def clientReads (mem : ByteMemory) (m : Mbuf) (clientMac : EthAddr) : Option (UInt64 × UInt32) :=
  (checkValidPacket mem m clientMac).map fun (payload, payloadLen) => (readU64 mem payload, payloadLen)

/-- The client accepts the packet, reads this id and passes its assertion about
the length. -/
def ClientUnderstands (cfg : Config) (clientMac : EthAddr) (mem : ByteMemory) (m : Mbuf)
    (packetId : UInt32) : Prop :=
  ∃ payloadLen, clientReads mem m clientMac = some (packetId.toUInt64, payloadLen) ∧
    payloadLen.toUInt64 = cfg.numSegments * cfg.segmentSize

/-- The bytes of a reply before its segments: the inlined or copied header, or in
echo mode the size of a `RequestHeader`. -/
def replyOverhead (cfg : Config) : ℕ := if cfg.echoMode then 64 else 58

/-- The id that the server finds in a request. -/
def requestPacketId (st : State) (request : Addr) : UInt32 :=
  readU32 st.mem (payloadPtr (st.heap request))

section Length

variable {cfg : Config} {fuel : ℕ} {st st' : State} {requests heads nodes : List Addr} {i : ℕ}
  {m : Addr}

/-- The data of a single mbuf. -/
theorem length_gatherBytes_singleton (mem : ByteMemory) (heap : Heap) (m : Addr) :
    (gatherBytes mem heap [m]).length = (mbufLength (heap m)).toNat := by
  simp [gatherBytes]

/-- A chain that ends with its head is the head alone. -/
theorem Heap.IsChain.eq_singleton {heap : Heap} (h : heap.IsChain (some m) nodes)
    (hnext : (heap m).next = none) : nodes = [m] :=
  h.unique (NullTerminated.isChain_singleton hnext)

/-- An echoed request has 64 bytes of headers. -/
theorem length_echoedReply (hecho : cfg.echoMode = true)
    (hfits : replyOverhead cfg + cfg.numSegments.toNat * cfg.segmentSize.toNat ≤ 16384)
    (h : echoRequests cfg requests [] st = (.ok heads, st')) (hhead : heads[i]? = some m)
    (hchain : st'.heap.IsChain (some m) nodes) :
    (transmittedFrame cfg st' i nodes).length =
      replyOverhead cfg + cfg.numSegments.toNat * cfg.segmentSize.toNat := by
  have hoverhead : replyOverhead cfg = 64 := by simp [replyOverhead, hecho]
  rw [hoverhead] at hfits ⊢
  have hheads := echoRequests_eq cfg requests [] st
  rw [h] at hheads
  split at hheads
  case isTrue =>
    obtain rfl := Except.ok.inj hheads
    have hself := echoRequests_heap h m (List.mem_of_getElem? hhead)
    obtain rfl := hchain.eq_singleton (by rw [hself]; rfl)
    -- the frame fits a buffer, so no size wraps around
    have hsize : (cfg.dataSize + UInt64.ofNat sizeofRequestHeader).toUInt32.toNat =
        64 + cfg.numSegments.toNat * cfg.segmentSize.toNat := by
      have hheader : (UInt64.ofNat sizeofRequestHeader).toNat = 64 := rfl
      rw [Config.dataSize, UInt64.toNat_toUInt32, UInt64.toNat_add, UInt64.toNat_mul, hheader]
      omega
    rw [transmittedFrame, requestHeaderPtr, hecho]
    simp only [if_true, Option.elim_none, List.nil_append]
    rw [length_gatherBytes_singleton, hself]
    exact hsize
  case isFalse => simp at hheads

/-- A zero-copy reply has its header inline, and a region for each segment. -/
theorem length_zeroCopyReply (hecho : cfg.echoMode = false) (hzero : cfg.zeroCopy = true)
    (hnodup : st.mbufMempool.freeList.Nodup) (hfresh : ∀ r ∈ requests, r ∉ st.mbufMempool.freeList)
    (hfits : replyOverhead cfg + cfg.numSegments.toNat * cfg.segmentSize.toNat ≤ 16384)
    (hrun : BuildRun cfg 0 requests st heads st') (hhead : heads[i]? = some m)
    (hchain : st'.heap.IsChain (some m) nodes) :
    (transmittedFrame cfg st' i nodes).length =
      replyOverhead cfg + cfg.numSegments.toNat * cfg.segmentSize.toNat := by
  have hoverhead : replyOverhead cfg = 58 := by simp [replyOverhead, hecho]
  rw [hoverhead] at hfits ⊢
  obtain ⟨replies, hbatch, rfl⟩ := hrun.zeroCopyBatch hzero hnodup hfresh
  obtain ⟨reply, hreply, rfl⟩ : ∃ reply, replies[i]? = some reply ∧ reply.1 = m := by
    simpa using hhead
  obtain ⟨hlt, -⟩ := List.getElem?_eq_some_iff.mp hreply
  have hlt' : i < requests.length := hbatch.lists.length_eq.symm ▸ hlt
  obtain ⟨m', nodes', hreply', hlist⟩ := hbatch.exists_reply (List.getElem?_eq_getElem hlt')
  obtain rfl : reply = (m', nodes') := Option.some.inj (hreply.symm.trans hreply')
  obtain rfl := hlist.chain.unique hchain
  -- a reply has a segment, and no segment is longer than the frame
  have hpos := hbatch.numSegments_pos (List.ne_nil_of_length_pos (by omega))
  have hsegment : cfg.segmentSize.toUInt32.toNat = cfg.segmentSize.toNat := by
    have hle : cfg.segmentSize.toNat ≤ cfg.numSegments.toNat * cfg.segmentSize.toNat :=
      Nat.le_mul_of_pos_left _ hpos
    rw [UInt64.toNat_toUInt32, Nat.mod_eq_of_lt (by omega)]
  rw [transmittedFrame, requestHeaderPtr, hecho, hzero]
  simp only [Bool.false_eq_true, if_false, if_true, Option.elim_some, flatMap_inlinePieces]
  rw [List.length_append, RequestHeader.length_wireBytes, hlist.length_gatherBytes,
    length_requestedSegments, hsegment]

/-- A copied reply is a single mbuf. -/
theorem length_copiedReply (hecho : cfg.echoMode = false) (hzero : cfg.zeroCopy = false)
    (hnodup : st.mbufMempool.freeList.Nodup)
    (hfits : replyOverhead cfg + cfg.numSegments.toNat * cfg.segmentSize.toNat ≤ 16384)
    (hrun : BuildRun cfg 0 requests st heads st') (hhead : heads[i]? = some m)
    (hchain : st'.heap.IsChain (some m) nodes) :
    (transmittedFrame cfg st' i nodes).length =
      replyOverhead cfg + cfg.numSegments.toNat * cfg.segmentSize.toNat := by
  have hoverhead : replyOverhead cfg = 58 := by simp [replyOverhead, hecho]
  rw [hoverhead] at hfits ⊢
  obtain ⟨replies, hbatch, rfl⟩ := hrun.copyMbufs hzero hnodup
  obtain ⟨reply, hreply, rfl⟩ : ∃ reply, replies[i]? = some reply ∧ reply.1 = m := by
    simpa using hhead
  have hself := hbatch.heap reply (List.mem_of_getElem? hreply)
  obtain rfl := hchain.eq_singleton (by rw [hself]; rfl)
  have hsize : cfg.copyLen.toNat = 58 + cfg.numSegments.toNat * cfg.segmentSize.toNat := by
    have hheader : (UInt64.ofNat headerLen).toNat = 58 := rfl
    have hcomm : cfg.segmentSize.toNat * cfg.numSegments.toNat =
        cfg.numSegments.toNat * cfg.segmentSize.toNat := Nat.mul_comm ..
    rw [Config.copyLen, UInt64.toNat_toUInt32, UInt64.toNat_add, UInt64.toNat_mul, hheader]
    omega
  rw [transmittedFrame, requestHeaderPtr, hecho, hzero]
  simp only [Bool.false_eq_true, if_false, Option.elim_none, List.nil_append]
  rw [length_gatherBytes_singleton, hself]
  exact hsize

/-- **The length of a reply**, in every mode. -/
theorem length_transmittedFrame (hnodup : st.mbufMempool.freeList.Nodup)
    (hfresh : ∀ r ∈ requests, r ∉ st.mbufMempool.freeList)
    (hfits : replyOverhead cfg + cfg.numSegments.toNat * cfg.segmentSize.toNat ≤ 16384)
    (h : prepareReplies cfg fuel requests st = some (.ok heads, st')) (hhead : heads[i]? = some m)
    (hchain : st'.heap.IsChain (some m) nodes) :
    (transmittedFrame cfg st' i nodes).length =
      replyOverhead cfg + cfg.numSegments.toNat * cfg.segmentSize.toNat := by
  rw [prepareReplies] at h
  cases hecho : cfg.echoMode with
  | true =>
    rw [if_pos hecho] at h
    exact length_echoedReply hecho hfits (Option.some.inj h) hhead hchain
  | false =>
    rw [if_neg (ne_true_of_eq_false hecho)] at h
    obtain ⟨built, hrun, hbuilt⟩ := buildRun_of_ok h
    obtain rfl : heads = built := hbuilt.trans (List.nil_append built)
    cases hzero : cfg.zeroCopy with
    | true => exact length_zeroCopyReply hecho hzero hnodup hfresh hfits hrun hhead hchain
    | false => exact length_copiedReply hecho hzero hnodup hfits hrun hhead hchain

end Length

section Understanding

variable {cfg : Config} {fuel : ℕ} {st st' : State} {requests heads nodes : List Addr} {i : ℕ}
  {request head : Addr} {mem : ByteMemory} {m : Mbuf} {clientMac : EthAddr}

/-- The client counts the rest of the header to the payload. -/
theorem not_clientUnderstands {frame : List UInt8} {packetId : UInt32}
    (hlength : frame.length = replyOverhead cfg + cfg.numSegments.toNat * cfg.segmentSize.toNat)
    (hfits : replyOverhead cfg + cfg.numSegments.toNat * cfg.segmentSize.toNat ≤ 16384)
    (hreceived : ReceivedAs mem m frame) : ¬ ClientUnderstands cfg clientMac mem m packetId := by
  rintro ⟨payloadLen, hreads, hequal⟩
  obtain ⟨⟨payload, len⟩, hvalid, hpair⟩ := Option.map_eq_some_iff.mp hreads
  obtain ⟨-, rfl⟩ := Prod.mk.inj hpair
  -- the client takes off 42 bytes of header, the server put more
  have hover : 58 ≤ replyOverhead cfg := by
    unfold replyOverhead
    split <;> omega
  have hlen : len.toNat + 42 = frame.length := by
    rw [(checkValidPacket_eq_some hvalid).2, ← hreceived.len]
    exact payloadLen_of_le (by rw [hreceived.len, hlength]; omega)
  have hsize := congrArg UInt64.toNat hequal
  rw [UInt32.toNat_toUInt64, UInt64.toNat_mul, Nat.mod_eq_of_lt (by omega)] at hsize
  omega

/-- **No reply is as long as the client expects**: whatever the mode, the number
and the size of the segments, the client that receives a reply fails its
assertion. -/
theorem client_never_understands_reply (hnodup : st.mbufMempool.freeList.Nodup)
    (hfresh : ∀ r ∈ requests, r ∉ st.mbufMempool.freeList)
    (hfits : replyOverhead cfg + cfg.numSegments.toNat * cfg.segmentSize.toNat ≤ 16384)
    (hreply : prepareReplies cfg fuel requests st = some (.ok heads, st'))
    (hhead : heads[i]? = some head) (hchain : st'.heap.IsChain (some head) nodes)
    (hreceived : ReceivedAs mem m (transmittedFrame cfg st' i nodes)) (packetId : UInt32) :
    ¬ ClientUnderstands cfg clientMac mem m packetId :=
  not_clientUnderstands (length_transmittedFrame hnodup hfresh hfits hreply hhead hchain) hfits
    hreceived

end Understanding

/-- A frame is received into a buffer at `0x7000`. -/
def received (frame : List UInt8) : ByteMemory × Mbuf :=
  (store (fun _ => 0) ⟨0x7000, frame⟩,
    { Mbuf.zeroed with data := 0x7000, len := UInt32.ofNat frame.length })

theorem receivedAs_received {frame : List UInt8} (h : frame.length < 2 ^ 32) :
    ReceivedAs (received frame).1 (received frame).2 frame where
  len := WordArith.toNat_ofNat_of_lt h
  bytes := read_store_self (fun _ => 0) ⟨0x7000, frame⟩

/-- The copied reply to the one request, with its chain. -/
theorem exists_reply_oneRequest :
    ∃ heads st' head nodes,
      prepareReplies (oneRegionServer false) 4 [0x5000] oneRequestState = some (.ok heads, st') ∧
      heads[0]? = some head ∧ st'.heap.IsChain (some head) nodes ∧
      (transmittedFrame (oneRegionServer false) st' 0 nodes).length = 58 + 1024 := by
  obtain ⟨heads, st', h⟩ : ∃ heads st',
      prepareReplies (oneRegionServer false) 4 [0x5000] oneRequestState = some (.ok heads, st') :=
    ⟨_, _, rfl⟩
  have hok := batchOk_oneRequestState false
  have hbuild : buildReplies (oneRegionServer false) 4 [0x5000] [] oneRequestState =
      some (.ok heads, st') := h
  obtain ⟨head, nodes, hhead, hchain, -⟩ := buildReplies_transmittedFrame hok hbuild (i := 0) rfl
  exact ⟨heads, st', head, nodes, h, hhead, hchain,
    length_transmittedFrame hok.nodup hok.fresh (by decide) h hhead hchain⟩

/-- The client does not understand the frame of the reply to the one request. -/
theorem client_never_understands_reply_oneRequest :
    ∃ heads st' head nodes,
      prepareReplies (oneRegionServer false) 4 [0x5000] oneRequestState = some (.ok heads, st') ∧
      heads[0]? = some head ∧ st'.heap.IsChain (some head) nodes ∧
      ¬ ClientUnderstands (oneRegionServer false) (Vector.replicate 6 0)
        (received (transmittedFrame (oneRegionServer false) st' 0 nodes)).1
        (received (transmittedFrame (oneRegionServer false) st' 0 nodes)).2 0 := by
  obtain ⟨heads, st', head, nodes, hreply, hhead, hchain, hlength⟩ := exists_reply_oneRequest
  have hok := batchOk_oneRequestState false
  exact ⟨heads, st', head, nodes, hreply, hhead, hchain,
    client_never_understands_reply hok.nodup hok.fresh (by decide) hreply hhead hchain
      (receivedAs_received (by rw [hlength]; decide)) 0⟩

/-- The reply to a request for one region of a kilobyte has a payload of 1040 bytes. -/
theorem reply_not_understood_oneRequest :
    ¬ ∀ (cfg : Config) (fuel : ℕ) (st st' : State) (requests heads nodes : List Addr) (i : ℕ)
      (request head : Addr) (mem : ByteMemory) (m : Mbuf) (clientMac : EthAddr),
      1 ≤ cfg.numSegments.toNat → cfg.numSegments.toNat ≤ 32 → WorkingSetOk cfg →
      replyOverhead cfg + cfg.numSegments.toNat * cfg.segmentSize.toNat ≤ 16384 →
      st.mbufMempool.freeList.Nodup → (∀ r ∈ requests, r ∉ st.mbufMempool.freeList) →
      prepareReplies cfg fuel requests st = some (.ok heads, st') →
      requests[i]? = some request →
      (checkValidPacket st.mem (st.heap request) cfg.serverMac).isSome = true →
      (EthHdr.ofMem st.mem (mbufData (st.heap request)).toNat).shost = clientMac →
      heads[i]? = some head → st'.heap.IsChain (some head) nodes →
      ReceivedAs mem m (transmittedFrame cfg st' i nodes) →
      ClientUnderstands cfg clientMac mem m (requestPacketId st request) := by
  intro hclaim
  obtain ⟨heads, st', head, nodes, hreply, hhead, hchain, hlength⟩ := exists_reply_oneRequest
  have hok := batchOk_oneRequestState false
  have hreceived := receivedAs_received
    (show (transmittedFrame (oneRegionServer false) st' 0 nodes).length < 2 ^ 32 by
      rw [hlength]; decide)
  have hunderstands := hclaim _ 4 _ st' _ heads nodes 0 0x5000 head _ _ (Vector.replicate 6 0)
    (by decide) (by decide) (workingSetOk_oneRegionServer false) (by decide) hok.nodup hok.fresh
    hreply rfl accepts_oneRequestState (by decide +kernel) hhead hchain hreceived
  exact not_clientUnderstands (by rw [hlength]; decide) (by decide) hreceived hunderstands

end Mlx5Netperf
