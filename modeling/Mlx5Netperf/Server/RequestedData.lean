import Mathlib.Data.UInt
import Mlx5Netperf.Server.Batch

/-!
# Replies Carry the Requested Data

What a client finds in the frame of a reply: its id, its addresses as the
destination, and behind 58 bytes of header the regions it asked for, in the
order of its request.
-/

namespace Mlx5Netperf

open ByteMemory

/-- `n` bytes of a frame from offset `o` on. -/
def slice (frame : List UInt8) (o n : ℕ) : List UInt8 := (frame.drop o).take n

/-- The frame answers the request: the data part is made of the regions that its
segment ids stand for, each inside the working set, and the headers are those of
the request with the two sides swapped. -/
structure AnswersRequest (cfg : Config) (st : State) (request : Addr) (frame : List UInt8) :
    Prop where
  data : frame.drop 58 = (requestedSegments cfg st request).flatMap fun id => st.mem.read
    (cfg.serverWorkingSet.toNat + id.toNat % cfg.numTotalSegments.toNat * cfg.segmentSize.toNat)
    cfg.segmentSize.toNat
  inside : ∀ id ∈ requestedSegments cfg st request,
    id.toNat % cfg.numTotalSegments.toNat * cfg.segmentSize.toNat + cfg.segmentSize.toNat ≤
      cfg.workingSetSize.toNat
  packetId : slice frame 42 4 = st.mem.read ((mbufData (st.heap request)).toNat + 42) 4
  dhost : slice frame 0 6 = st.mem.read ((mbufData (st.heap request)).toNat + 6) 6
  shost : slice frame 6 6 = st.mem.read (mbufData (st.heap request)).toNat 6
  saddr : slice frame 26 4 = st.mem.read ((mbufData (st.heap request)).toNat + 30) 4
  daddr : slice frame 30 4 = st.mem.read ((mbufData (st.heap request)).toNat + 26) 4
  srcPort : slice frame 34 2 = st.mem.read ((mbufData (st.heap request)).toNat + 36) 2
  dstPort : slice frame 36 2 = st.mem.read ((mbufData (st.heap request)).toNat + 34) 2

/-! ## The header -/

/-- A slice in the front of a frame is a slice of its front. -/
theorem slice_of_take {frame front : List UInt8} {k o n : ℕ} (h : frame.take k = front)
    (hle : o + n ≤ k) : slice frame o n = slice front o n := by
  rw [← h, slice, slice, List.drop_take, List.take_take, Nat.min_eq_left (by omega)]

section Header

variable {cfg : Config} {st : State} {i : ℕ} {request : Addr}

/-- The first forty bytes of a reply header, piece by piece. -/
theorem take_wireBytes_replyHeader (cfg : Config) (st : State) (i : ℕ) (request : Addr) :
    (replyHeader cfg st i request).wireBytes.take 40 =
      st.mem.read ((mbufData (st.heap request)).toNat + 6) 6 ++
      st.mem.read (mbufData (st.heap request)).toNat 6 ++
      (le16 (htons ethtypeIp) ++ [versionIhl, 0] ++
        le16 (htons (20 + 8 + cfg.payloadSize).toUInt16) ++ le16 (htons 1) ++ le16 0 ++
        [64, ipprotoUdp] ++ le16 0) ++
      st.mem.read ((mbufData (st.heap request)).toNat + 30) 4 ++
      st.mem.read ((mbufData (st.heap request)).toNat + 26) 4 ++
      st.mem.read ((mbufData (st.heap request)).toNat + 36) 2 ++
      st.mem.read ((mbufData (st.heap request)).toNat + 34) 2 ++
      le16 (htons (8 + cfg.payloadSize).toUInt16) := by
  let ptr := (mbufData (st.heap request)).toNat
  have hwire : (replyHeader cfg st i request).wireBytes =
      (st.mem.read (ptr + 6) 6 ++ st.mem.read ptr 6 ++
        (le16 (htons ethtypeIp) ++ [versionIhl, 0] ++
          le16 (htons (20 + 8 + cfg.payloadSize).toUInt16) ++ le16 (htons 1) ++ le16 0 ++
          [64, ipprotoUdp] ++ le16 0) ++
        st.mem.read (ptr + 30) 4 ++ st.mem.read (ptr + 26) 4 ++ st.mem.read (ptr + 36) 2 ++
        st.mem.read (ptr + 34) 2 ++ le16 (htons (8 + cfg.payloadSize).toUInt16)) ++
      (le16 (replyHeader cfg st i request).packetHeader.udp.chksum ++
        (le32 (replyHeader cfg st i request).packetId ++
          le32 (replyHeader cfg st i request).idPadding) ++
        le64 (replyHeader cfg st i request).checksum) := by
    simp only [RequestHeader.wireBytes, EthHdr.bytes, IpHdr.bytes, UdpHdr.bytes, replyHeader,
      parseOutgoingRequestHeader, initializeReverseRequestHeader, EthHdr.ofMem, IpHdr.ofMem,
      UdpHdr.ofMem, EthAddr.toList_ofMem, le16_readU16, le32_readU32, sizeofEthHdr, sizeofIpHdr,
      sizeofUdpHdr, ptr, Nat.add_assoc, Nat.reduceAdd, List.append_assoc, List.cons_append,
      List.nil_append]
  -- the first part is forty bytes long
  rw [hwire, List.take_left']
  simp only [List.length_append, length_read, length_le16, List.length_cons, List.length_nil]

/-- The ids of a reply header are the packet id of the request and a zero. -/
theorem take_drop_wireBytes_replyHeader (cfg : Config) (st : State) (i : ℕ) (request : Addr) :
    ((replyHeader cfg st i request).wireBytes.drop 42).take 8 =
      st.mem.read ((mbufData (st.heap request)).toNat + 42) 4 ++ le32 0 := by
  have hids : le32 (replyHeader cfg st i request).packetId ++
      le32 (replyHeader cfg st i request).idPadding =
        st.mem.read ((mbufData (st.heap request)).toNat + 42) 4 ++ le32 0 := by
    simp only [replyHeader, parseOutgoingRequestHeader, initializeReverseRequestHeader,
      le32_readU32, sizeofEthHdr, sizeofIpHdr, sizeofUdpHdr, Nat.add_assoc, Nat.reduceAdd]
  rw [RequestHeader.wireBytes, List.append_assoc, List.drop_left' (by simp), List.take_left'
    (by simp), hids]

/-- A frame with the header and the data of a reply answers the request. -/
theorem answersRequest_of_parts (hws : WorkingSetOk cfg) {frame : List UInt8}
    (hfront : frame.take 40 = (replyHeader cfg st i request).wireBytes.take 40)
    (hids : (frame.drop 42).take 8 = ((replyHeader cfg st i request).wireBytes.drop 42).take 8)
    (hdata : frame.drop 58 = replyData cfg st request) :
    AnswersRequest cfg st request frame := by
  rw [take_wireBytes_replyHeader] at hfront
  rw [take_drop_wireBytes_replyHeader] at hids
  refine ⟨?_, ?_, ?_, ?_, ?_, ?_, ?_, ?_, ?_⟩
  · rw [hdata, replyData, regionBytes, List.flatMap_def]
    refine congrArg List.flatten (List.map_congr_left fun id _ => ?_)
    rw [hws.mapped.region_toNat, UInt64.toNat_mod]
  · intro id _
    have hle := hws.mapped.region_le id
    rwa [UInt64.toNat_mod] at hle
  -- the packet id is the first of the two ids
  · have htwice : slice frame 42 4 = ((frame.drop 42).take 8).take 4 := by
      rw [slice, List.take_take]
      rfl
    rw [htwice, hids, List.take_left' (by simp)]
  -- the remaining fields all lie in the first forty bytes
  all_goals
    rw [slice_of_take hfront (by omega)]
    simp [slice, List.drop_append, List.drop_eq_nil_of_le]

/-- **The frame of a zero-copy reply answers its request.** -/
theorem answersRequest_zeroCopyFrame (hws : WorkingSetOk cfg) :
    AnswersRequest cfg st request (zeroCopyFrame cfg st i request) := by
  have hwire := (replyHeader cfg st i request).length_wireBytes
  refine answersRequest_of_parts (i := i) hws ?_ ?_ ?_
  · rw [zeroCopyFrame, List.take_append_of_le_length (by omega)]
  · rw [zeroCopyFrame, List.drop_append_of_le_length (by omega),
      List.take_append_of_le_length (by simp)]
  · rw [zeroCopyFrame, List.drop_left' hwire]

/-- **The frame of a copy reply answers its request**, whatever its buffer held before. -/
theorem answersRequest_copyFrame (hws : WorkingSetOk cfg) (buffer : Addr) :
    AnswersRequest cfg st request (copyFrame cfg st i request buffer) := by
  have hfront : ((replyHeader cfg st i request).wireBytes.take 40).length = 40 := by simp
  have hids : (((replyHeader cfg st i request).wireBytes.drop 42).take 8).length = 8 := by simp
  refine answersRequest_of_parts (i := i) hws ?_ ?_ ?_
  · simp only [copyFrame, List.append_assoc]
    rw [List.take_left' hfront]
  · simp only [copyFrame, List.append_assoc]
    rw [← List.append_assoc, List.drop_left' (by simp), List.take_left' hids]
  · rw [copyFrame, List.drop_left' (by simp)]

end Header

/-! ## The batch -/

/-- **Every reply carries the requested data**: with reference counting off and
segments below 4 GiB in zero-copy mode, the packet that is handed to the send
ring for a request answers it, at every position of a batch whose allocations
succeed. -/
theorem replies_carry_requested_data {cfg : Config} {fuel : ℕ} {st st' : State}
    {requests heads : List Addr} (hok : BatchOk cfg st requests)
    (h : buildReplies cfg fuel requests [] st = some (.ok heads, st')) {i : ℕ} {request : Addr}
    (hrequest : requests[i]? = some request) :
    ∃ m nodes, heads[i]? = some m ∧ st'.heap.IsChain (some m) nodes ∧
      AnswersRequest cfg st request (transmittedFrame cfg st' i nodes) := by
  obtain ⟨m, nodes, hhead, hchain, hframe⟩ := buildReplies_transmittedFrame hok h hrequest
  refine ⟨m, nodes, hhead, hchain, ?_⟩
  rw [hframe, replyFrame]
  split
  · exact answersRequest_zeroCopyFrame hok.workingSet
  · exact answersRequest_copyFrame hok.workingSet _

/-- A server with 16 regions of a kilobyte that is asked for one of them. -/
def oneRegionServer (zeroCopy : Bool) : Config :=
  { Config.default with zeroCopy := zeroCopy, numTotalSegments := 16, serverWorkingSet := 0x20000 }

/-- A state with four free mbufs, two free transmit buffers, and at `0x5000` a UDP
packet of 58 bytes that is zero otherwise. -/
def oneRequestState : State :=
  { State.zeroed 128 128 with
    mem := fun a => if a = 0x600c then 8 else if a = 0x6017 then 17 else 0
    heap := fun _ => { Mbuf.zeroed with data := 0x6000, len := 58 }
    mbufMempool := ⟨fun i => 0x100000 + 256 * UInt64.ofNat i, 0, 4, 256⟩
    txBufMempool := ⟨fun i => 0x200000 + 16384 * UInt64.ofNat i, 0, 2, 16384⟩ }

theorem freeList_mbufs_oneRequestState :
    oneRequestState.mbufMempool.freeList = [0x100000, 0x100100, 0x100200, 0x100300] := by
  decide

theorem freeList_txBufs_oneRequestState :
    oneRequestState.txBufMempool.freeList = [0x200000, 0x204000] := by
  decide

theorem workingSetOk_oneRegionServer (zeroCopy : Bool) :
    WorkingSetOk (oneRegionServer zeroCopy) where
  pos := by decide +revert
  size_pos := by decide +revert
  dvd := by decide +revert
  total := by decide +revert
  bound := by decide +revert

theorem requestSpan_oneRequestState (zeroCopy : Bool) (request : Addr) :
    requestSpan (oneRegionServer zeroCopy) (oneRequestState.heap request) = 58 := by
  show requestSpan (oneRegionServer zeroCopy) { Mbuf.zeroed with data := 0x6000, len := 58 } = 58
  clear request
  decide +revert

theorem batchOk_oneRequestState (zeroCopy : Bool) :
    BatchOk (oneRegionServer zeroCopy) oneRequestState [0x5000] where
  echoMode := rfl
  noRefCounting := rfl
  workingSet := workingSetOk_oneRegionServer zeroCopy
  nodup := by rw [freeList_mbufs_oneRequestState]; simp
  fresh := by rw [freeList_mbufs_oneRequestState]; simp
  zeroCopy := fun _ => by decide +revert
  copy := fun _ => {
    workingSet := workingSetOk_oneRegionServer zeroCopy
    fits := by decide +revert
    nodup := by rw [freeList_mbufs_oneRequestState]; simp
    fresh := by rw [freeList_mbufs_oneRequestState]; simp
    buffers := by
      rw [freeList_txBufs_oneRequestState]
      simp [RangesApart]
    buffers_workingSet := by
      rw [freeList_txBufs_oneRequestState]
      intro b hb
      have hend : (oneRegionServer zeroCopy).serverWorkingSet.toNat +
          (oneRegionServer zeroCopy).workingSetSize.toNat ≤ 0x200000 := by decide +revert
      rcases List.mem_pair.mp hb with rfl | rfl
      · exact .inr hend
      · exact .inr (hend.trans (by decide))
    buffers_requests := by
      rw [freeList_txBufs_oneRequestState]
      intro b hb r _
      have hend : (mbufData (oneRequestState.heap r)).toNat + 58 ≤ 0x200000 := by
        show (0x6000 : UInt64).toNat + 58 ≤ 0x200000
        decide
      rw [requestSpan_oneRequestState]
      rcases List.mem_pair.mp hb with rfl | rfl
      · exact .inr hend
      · exact .inr (hend.trans (by decide)) }

/-- The server accepts the request. -/
theorem accepts_oneRequestState :
    (checkValidPacket oneRequestState.mem (oneRequestState.heap 0x5000)
      (Vector.replicate 6 0)).isSome = true := by
  decide

/-- The reply to the request, in both modes. -/
theorem replies_carry_requested_data_oneRequest :
    (∃ heads st' m nodes,
      buildReplies (oneRegionServer true) 4 [0x5000] [] oneRequestState = some (.ok heads, st') ∧
      heads[0]? = some m ∧ st'.heap.IsChain (some m) nodes ∧
      AnswersRequest (oneRegionServer true) oneRequestState 0x5000
        (transmittedFrame (oneRegionServer true) st' 0 nodes)) ∧
    ∃ heads st' m nodes,
      buildReplies (oneRegionServer false) 4 [0x5000] [] oneRequestState = some (.ok heads, st') ∧
      heads[0]? = some m ∧ st'.heap.IsChain (some m) nodes ∧
      AnswersRequest (oneRegionServer false) oneRequestState 0x5000
        (transmittedFrame (oneRegionServer false) st' 0 nodes) := by
  refine ⟨?_, ?_⟩
  · obtain ⟨heads, st', h⟩ : ∃ heads st',
        buildReplies (oneRegionServer true) 4 [0x5000] [] oneRequestState = some (.ok heads, st') :=
      ⟨_, _, rfl⟩
    obtain ⟨m, nodes, hreply⟩ :=
      replies_carry_requested_data (batchOk_oneRequestState true) h (i := 0) rfl
    exact ⟨heads, st', m, nodes, h, hreply⟩
  · obtain ⟨heads, st', h⟩ : ∃ heads st',
        buildReplies (oneRegionServer false) 4 [0x5000] [] oneRequestState = some (.ok heads, st') :=
      ⟨_, _, rfl⟩
    obtain ⟨m, nodes, hreply⟩ :=
      replies_carry_requested_data (batchOk_oneRequestState false) h (i := 0) rfl
    exact ⟨heads, st', m, nodes, h, hreply⟩

/-- A server whose only region is longer than an mbuf can say. -/
def hugeRegionServer : Config :=
  { Config.default with
    segmentSize := 2 ^ 32 + 1024, workingSetSize := 2 ^ 32 + 1024, numTotalSegments := 1
    serverWorkingSet := 0x20000 }

theorem workingSetOk_hugeRegionServer : WorkingSetOk hugeRegionServer where
  pos := by decide
  size_pos := by decide
  dvd := by decide
  total := by decide
  bound := by decide

/-- In zero-copy mode a reply of a region of 4 GiB and a kilobyte has a kilobyte of data. -/
theorem reply_truncated_hugeRegion :
    ¬ ∀ (cfg : Config) (fuel : ℕ) (st st' : State) (requests heads : List Addr) (i : ℕ)
      (request : Addr), cfg.echoMode = false → cfg.usingRefCounting = false →
      1 ≤ cfg.numSegments.toNat → cfg.numSegments.toNat ≤ 32 → WorkingSetOk cfg →
      st.mbufMempool.freeList.Nodup → (∀ r ∈ requests, r ∉ st.mbufMempool.freeList) →
      (cfg.zeroCopy = false → CopyLayout cfg st requests) →
      buildReplies cfg fuel requests [] st = some (.ok heads, st') →
      requests[i]? = some request →
      (checkValidPacket st.mem (st.heap request) cfg.serverMac).isSome = true →
      ∃ m nodes, heads[i]? = some m ∧ st'.heap.IsChain (some m) nodes ∧
        AnswersRequest cfg st request (transmittedFrame cfg st' i nodes) := by
  intro hclaim
  have hnodup : oneRequestState.mbufMempool.freeList.Nodup := (batchOk_oneRequestState true).nodup
  have hfresh := (batchOk_oneRequestState true).fresh
  obtain ⟨heads, st', h⟩ : ∃ heads st',
      buildReplies hugeRegionServer 4 [0x5000] [] oneRequestState = some (.ok heads, st') :=
    ⟨_, _, rfl⟩
  obtain ⟨m, nodes, hhead, hchain, hanswers⟩ := hclaim hugeRegionServer 4 oneRequestState st'
    [0x5000] heads 0 0x5000 rfl rfl (by decide) (by decide) workingSetOk_hugeRegionServer hnodup
    hfresh (fun hcopy => absurd hcopy (by decide)) h rfl accepts_oneRequestState
  -- what is handed to the ring is what the mbuf says
  obtain ⟨replies, hbatch, hheads⟩ := buildReplies_zeroCopyBatch rfl hnodup hfresh h
  obtain ⟨m', nodes', hreply, hlist⟩ := hbatch.exists_reply (i := 0) rfl
  have hm : m' = m := by
    rw [hheads, List.nil_append, List.getElem?_map, hreply] at hhead
    exact Option.some.inj hhead
  obtain rfl : nodes' = nodes := (hm ▸ hlist.chain).unique hchain
  -- the frame has 58 bytes of header and one segment of the truncated length
  have hshort : ((transmittedFrame hugeRegionServer st' 0 nodes').drop 58).length = 1024 := by
    rw [transmittedFrame, requestHeaderPtr, show hugeRegionServer.echoMode = false from rfl,
      show hugeRegionServer.zeroCopy = true from rfl]
    simp only [if_true, Bool.false_eq_true, if_false, Option.elim_some, flatMap_inlinePieces]
    rw [List.drop_left' (RequestHeader.length_wireBytes _), hlist.length_gatherBytes,
      requestedSegments, readSegments, List.length_map, List.length_range]
    decide
  have hlong : ((transmittedFrame hugeRegionServer st' 0 nodes').drop 58).length =
      2 ^ 32 + 1024 := by
    obtain ⟨id, hid⟩ : ∃ id, requestedSegments hugeRegionServer oneRequestState 0x5000 = [id] :=
      ⟨_, rfl⟩
    rw [hanswers.data, hid, List.flatMap_singleton, length_read]
    decide
  omega

end Mlx5Netperf
