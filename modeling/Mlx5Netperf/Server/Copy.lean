import Mlx5Netperf.Server.Process
import Mlx5Netperf.Server.ZeroCopy

/-!
# The Buffer of a Copy Reply

What the copy branch of `process_server_requests` leaves in the transmit buffer:
the reversed header except for its UDP checksum, the ids, eight bytes that were
there before, and the requested regions.
-/

namespace Mlx5Netperf

open ByteMemory

/-! ## The header -/

/-- The stores of `parse_outgoing_request_header_into_mbuf` for the header `h`. -/
def replyHeaderStores (out : ℕ) (h : RequestHeader) : List Store :=
  let eth := h.packetHeader.eth
  let ipv4 := h.packetHeader.ipv4
  let udp := h.packetHeader.udp
  [⟨out + 42, le32 h.packetId⟩, ⟨out + 46, le32 h.idPadding⟩, ⟨out + 6, eth.shost.toList⟩,
    ⟨out, eth.dhost.toList⟩, ⟨out + 12, le16 eth.type⟩, ⟨out + 14, [ipv4.versionIhl]⟩,
    ⟨out + 15, [ipv4.tos]⟩, ⟨out + 16, le16 ipv4.len⟩, ⟨out + 18, le16 ipv4.id⟩,
    ⟨out + 20, le16 ipv4.off⟩, ⟨out + 22, [ipv4.ttl]⟩, ⟨out + 23, [ipv4.proto]⟩,
    ⟨out + 24, le16 ipv4.chksum⟩, ⟨out + 30, le32 ipv4.daddr⟩, ⟨out + 26, le32 ipv4.saddr⟩,
    ⟨out + 34, le16 udp.srcPort⟩, ⟨out + 36, le16 udp.dstPort⟩, ⟨out + 38, le16 udp.len⟩]

/-- Where the stores go, and how long they are. -/
theorem hasLayout_replyHeaderStores (out : ℕ) (h : RequestHeader) :
    HasLayout (replyHeaderStores out h) out [(42, 4), (46, 4), (6, 6), (0, 6), (12, 2), (14, 1),
      (15, 1), (16, 2), (18, 2), (20, 2), (22, 1), (23, 1), (24, 2), (30, 4), (26, 4), (34, 2),
      (36, 2), (38, 2)] := by
  simp only [HasLayout, replyHeaderStores, List.map_cons, List.map_nil, length_le16, length_le32,
    Vector.length_toList, List.length_singleton, Nat.add_zero]

/-- The stores of the header stay in front of the payload. -/
theorem within_of_mem_replyHeaderStores {out : ℕ} {h : RequestHeader} {s : Store}
    (hs : s ∈ replyHeaderStores out h) : s.Within out 50 :=
  (hasLayout_replyHeaderStores out h).within (by decide) hs

/-- **The in-place header is the header of the other branch**, as long as the
transmit buffer does not overlap the request. -/
theorem parseOutgoingRequestHeaderIntoMbuf_eq (mem : ByteMemory) (outgoing m : Mbuf)
    (payloadSize : UInt64) (h : RequestHeader)
    (hapart : RangesApart (mbufData outgoing).toNat 50 (mbufData m).toNat 46) :
    parseOutgoingRequestHeaderIntoMbuf mem outgoing m payloadSize =
      mem.stores (replyHeaderStores (mbufData outgoing).toNat
        (parseOutgoingRequestHeader h mem m payloadSize)) := by
  let out := (mbufData outgoing).toNat
  let ptr := (mbufData m).toNat
  -- the statements of the function, each on the memory that the earlier ones left
  let statements : List (ByteMemory → Store) :=
    [fun mem => ⟨out + 14 + 20 + 8, le32 (readU32 mem (ptr + 14 + 20 + 8))⟩,
      fun _ => ⟨out + 14 + 20 + 8 + 4, le32 0⟩, fun mem => ⟨out + 6, mem.read ptr 6⟩,
      fun mem => ⟨out, mem.read (ptr + 6) 6⟩, fun _ => ⟨out + 12, le16 (htons ethtypeIp)⟩,
      fun _ => ⟨out + 14, [versionIhl]⟩, fun _ => ⟨out + 14 + 1, [0]⟩,
      fun _ => ⟨out + 14 + 2, le16 (htons (20 + 8 + payloadSize).toUInt16)⟩,
      fun _ => ⟨out + 14 + 4, le16 (htons 1)⟩, fun _ => ⟨out + 14 + 6, le16 0⟩,
      fun _ => ⟨out + 14 + 8, [64]⟩, fun _ => ⟨out + 14 + 9, [ipprotoUdp]⟩,
      fun _ => ⟨out + 14 + 10, le16 0⟩,
      fun mem => ⟨out + 14 + 16, mem.read (ptr + 14 + 12) 4⟩,
      fun mem => ⟨out + 14 + 12, mem.read (ptr + 14 + 16) 4⟩,
      fun mem => ⟨out + 14 + 20, mem.read (ptr + 14 + 20 + 2) 2⟩,
      fun mem => ⟨out + 14 + 20 + 2, mem.read (ptr + 14 + 20) 2⟩,
      fun _ => ⟨out + 14 + 20 + 4, le16 (htons (8 + payloadSize).toUInt16)⟩]
  have hstores : statements.map (fun f => f mem) =
      replyHeaderStores out (parseOutgoingRequestHeader h mem m payloadSize) := by
    simp only [statements, out, ptr, replyHeaderStores, parseOutgoingRequestHeader,
      initializeReverseRequestHeader, EthHdr.ofMem, IpHdr.ofMem, UdpHdr.ofMem,
      EthAddr.toList_ofMem, le16_readU16, le32_readU32, sizeofEthHdr, sizeofIpHdr, sizeofUdpHdr,
      Nat.add_assoc, Nat.reduceAdd, List.map_cons, List.map_nil]
  have hreads : ∀ f ∈ statements, ∀ m', AgreeOn mem m' ptr 46 → f m' = f mem := by
    have hread : ∀ {m' : ByteMemory} {a n : ℕ}, AgreeOn mem m' ptr 46 → ptr ≤ a →
        a + n ≤ ptr + 46 → m'.read a n = mem.read a n :=
      fun hagree hlo hhi => hagree.read hlo hhi
    simp only [statements, List.forall_mem_cons, le32_readU32]
    refine ⟨?_, ?_, ?_, ?_, ?_, ?_, ?_, ?_, ?_, ?_, ?_, ?_, ?_, ?_, ?_, ?_, ?_, ?_, by simp⟩ <;>
      intro m' hagree <;> first | trivial | (rw [hread hagree] <;> omega)
  have hmisses : ∀ f ∈ statements, (f mem).Misses ptr 46 := fun f hf =>
    (within_of_mem_replyHeaderStores (hstores ▸ List.mem_map_of_mem hf)).misses hapart
  rw [← hstores, ← storeEach_eq_stores hreads hmisses]
  rfl

/-- The header bytes that are written: all but the UDP checksum, and the ids. -/
theorem read_replyHeaderStores (mem : ByteMemory) (out : ℕ) (h : RequestHeader) :
    (mem.stores (replyHeaderStores out h)).read out 50 =
      h.wireBytes.take 40 ++ mem.read (out + 40) 2 ++ (h.wireBytes.drop 42).take 8 := by
  -- what stands in front of the checksum, and behind it
  let front : List (List UInt8) := [h.packetHeader.eth.dhost.toList, h.packetHeader.eth.shost.toList,
    le16 h.packetHeader.eth.type, [h.packetHeader.ipv4.versionIhl], [h.packetHeader.ipv4.tos],
    le16 h.packetHeader.ipv4.len, le16 h.packetHeader.ipv4.id, le16 h.packetHeader.ipv4.off,
    [h.packetHeader.ipv4.ttl], [h.packetHeader.ipv4.proto], le16 h.packetHeader.ipv4.chksum,
    le32 h.packetHeader.ipv4.saddr, le32 h.packetHeader.ipv4.daddr,
    le16 h.packetHeader.udp.srcPort, le16 h.packetHeader.udp.dstPort, le16 h.packetHeader.udp.len]
  let ids : List (List UInt8) := [le32 h.packetId, le32 h.idPadding]
  have hwire : h.wireBytes =
      front.flatten ++ le16 h.packetHeader.udp.chksum ++ ids.flatten ++ le64 h.checksum := by
    simp only [RequestHeader.wireBytes, EthHdr.bytes, IpHdr.bytes, UdpHdr.bytes, front, ids,
      List.flatten_cons, List.flatten_nil, List.append_assoc, List.append_nil, List.cons_append,
      List.nil_append]
  have hfront : front.flatten.length = 40 := by simp [front]
  have hids : ids.flatten.length = 8 := by simp [ids]
  have hlayout := hasLayout_replyHeaderStores out h
  -- the stores do not overlap, and none hits the checksum
  have hapart := hlayout.pairwise_apart (by decide)
  have hreadFront : (mem.stores (replyHeaderStores out h)).read out front.flatten.length =
      front.flatten :=
    read_stores_of_consecutive hapart (by simp [consecutive, front, replyHeaderStores])
  have hreadIds : (mem.stores (replyHeaderStores out h)).read (out + 42) ids.flatten.length =
      ids.flatten :=
    read_stores_of_consecutive hapart (by simp [consecutive, ids, replyHeaderStores])
  have hreadGap : (mem.stores (replyHeaderStores out h)).read (out + 40) 2 =
      mem.read (out + 40) 2 :=
    read_stores_of_misses fun s hs => hlayout.misses (by decide) hs
  rw [hfront] at hreadFront
  rw [hids] at hreadIds
  have htake : h.wireBytes.take 40 = front.flatten := by
    rw [hwire, List.append_assoc, List.append_assoc, List.take_left' hfront]
  have hdrop : (h.wireBytes.drop 42).take 8 = ids.flatten := by
    rw [hwire, List.append_assoc, List.drop_left' (by simp [hfront]), List.take_left' hids]
  rw [htake, hdrop, ← hreadFront, ← hreadIds, ← hreadGap]
  rw [show (50 : ℕ) = 40 + (2 + 8) from rfl, read_add, read_add, List.append_assoc, Nat.add_assoc]

/-! ## The regions -/

/-- The working set is a whole number of segments, as `parse_args` sets it up,
and lies in the address space. -/
structure WorkingSetOk (cfg : Config) : Prop where
  pos : 0 < cfg.segmentSize.toNat
  size_pos : 0 < cfg.workingSetSize.toNat
  dvd : cfg.segmentSize.toNat ∣ cfg.workingSetSize.toNat
  total : cfg.numTotalSegments = cfg.workingSetSize / cfg.segmentSize
  bound : cfg.serverWorkingSet.toNat + cfg.workingSetSize.toNat ≤ 2 ^ 64

section Region

variable {cfg : Config}

theorem WorkingSetOk.mapped (h : WorkingSetOk cfg) : WorkingSetMapped cfg where
  pos := h.pos
  le := Nat.le_of_dvd h.size_pos h.dvd
  total := h.total
  bound := h.bound

/-- The address space that a region lies in. -/
theorem WorkingSetOk.region_apart (h : WorkingSetOk cfg) (segment : UInt64) {a n : ℕ}
    (hapart : RangesApart a n cfg.serverWorkingSet.toNat cfg.workingSetSize.toNat) :
    RangesApart a n (cfg.region segment).toNat cfg.segmentSize.toNat := by
  have hle := h.mapped.region_le segment
  rw [h.mapped.region_toNat segment]
  rcases hapart with hbefore | hafter
  · exact .inl (by omega)
  · exact .inr (by omega)

end Region

/-! ## Copying the regions -/

/-- The bytes of the regions that the segment ids stand for. -/
def regionBytes (cfg : Config) (mem : ByteMemory) (segments : List UInt64) : List (List UInt8) :=
  segments.map fun segment => mem.read (cfg.region segment).toNat cfg.segmentSize.toNat

/-- The regions together are as long as their number says. -/
theorem length_flatten_regionBytes (cfg : Config) (mem : ByteMemory) (segments : List UInt64) :
    (regionBytes cfg mem segments).flatten.length =
      segments.length * cfg.segmentSize.toNat := by
  induction segments with
  | nil => simp [regionBytes]
  | cons segment segments ih =>
    rw [regionBytes, List.map_cons, List.flatten_cons, List.length_append, length_read,
      List.length_cons, Nat.succ_mul, Nat.add_comm]
    exact congrArg (· + _) ih

section Loop

variable {cfg : Config} {st : State} {m : Addr}

/-- The offset that a region is copied to is computed without overflow. -/
theorem toNat_copyOffset {seg : ℕ} {size : UInt64} (hpos : 0 < size.toNat)
    (hfit : 58 + seg * size.toNat ≤ 16384) :
    (UInt64.ofNat headerLen + UInt64.ofNat seg * size).toNat = 58 + seg * size.toNat := by
  -- a segment is not empty, so its number is bounded as well
  have hseg : seg ≤ seg * size.toNat := Nat.le_mul_of_pos_right seg hpos
  have hheader : (UInt64.ofNat headerLen).toNat = 58 := rfl
  rw [UInt64.toNat_add, UInt64.toNat_mul, hheader, UInt64.toNat_ofNat',
    Nat.mod_eq_of_lt (a := seg) (by omega), Nat.mod_eq_of_lt (a := _ * _) (by omega),
    Nat.mod_eq_of_lt (by omega)]

/-- **The loop over the segments copies the regions one behind the other**, when
they do not overlap the buffer. -/
theorem copySegments_zipIdx (hws : WorkingSetOk cfg) (segments : List UInt64) (k : ℕ)
    (hfit : 58 + (k + segments.length) * cfg.segmentSize.toNat ≤ 16384)
    (hapart : RangesApart (mbufData (st.heap m)).toNat 16384 cfg.serverWorkingSet.toNat
      cfg.workingSetSize.toNat) :
    ∃ len, (segments.zipIdx k).foldl (fun st (segment, seg) => copySegment cfg m segment seg st)
        st =
      { st with
        mem := st.mem.stores (consecutive
          ((mbufData (st.heap m)).toNat + 58 + k * cfg.segmentSize.toNat)
          (regionBytes cfg st.mem segments))
        heap := st.heap.modify m fun b => { b with len := len } } := by
  induction segments generalizing st k with
  | nil =>
    refine ⟨(st.heap m).len, ?_⟩
    simp [regionBytes, consecutive, Heap.modify]
  | cons segment segments ih =>
    have hround : (k + (segments.length + 1)) * cfg.segmentSize.toNat =
        k * cfg.segmentSize.toNat + cfg.segmentSize.toNat +
          segments.length * cfg.segmentSize.toNat := by ring
    have hnext : (k + 1) * cfg.segmentSize.toNat =
        k * cfg.segmentSize.toNat + cfg.segmentSize.toNat := by ring
    rw [List.length_cons, hround] at hfit
    have hoff : (UInt64.ofNat headerLen + UInt64.ofNat k * cfg.segmentSize).toNat =
        58 + k * cfg.segmentSize.toNat := toNat_copyOffset hws.pos (by omega)
    -- the region of this segment behind those before it
    let store : Store := ⟨(mbufData (st.heap m)).toNat + (58 + k * cfg.segmentSize.toNat),
      st.mem.read (cfg.region segment).toNat cfg.segmentSize.toNat⟩
    let st₁ := copySegment cfg m segment k st
    have hst₁ : st₁ = { st with
        mem := st.mem.store store
        heap := st.heap.modify m fun b =>
          { b with len := b.len + UInt32.ofNat store.bytes.length } } := by
      simp only [st₁, copySegment, mbufCopy, hoff, store, mbufData]
      rfl
    have hdata : mbufData (st₁.heap m) = mbufData (st.heap m) := by
      simp [hst₁, mbufData]
    -- the buffer is apart from the working set, so the later regions are as before
    have hregions : regionBytes cfg st₁.mem segments = regionBytes cfg st.mem segments := by
      refine List.map_congr_left fun s _ => ?_
      have hwithin : store.Within (mbufData (st.heap m)).toNat 16384 :=
        ⟨by simp only [store]; omega, by simp only [store, length_read]; omega⟩
      rw [hst₁]
      exact read_store_of_misses (hwithin.misses (hws.region_apart s hapart))
    obtain ⟨len, hloop⟩ := @ih st₁ (k + 1)
      (by rw [Nat.add_mul, hnext]; omega) (by rw [hdata]; exact hapart)
    refine ⟨len, ?_⟩
    rw [List.zipIdx_cons, List.foldl_cons]
    refine hloop.trans ?_
    rw [hdata, hregions, hst₁]
    simp only [regionBytes, List.map_cons, consecutive, stores_cons, length_read,
      Heap.modify_modify, hnext, store, Nat.add_assoc]
    rfl

end Loop

/-! ## The reply -/

/-- A copy reply to `request`, packet `pktIdx` of its batch: one mbuf `m` with the
transmit buffer `buffer`. -/
structure CopyBuilt (cfg : Config) (pktIdx : ℕ) (request : Addr) (st : State) (m buffer : Addr)
    (st' : State) : Prop where
  pool : st.mbufMempool.freeList = m :: st'.mbufMempool.freeList
  buffers : st.txBufMempool.freeList = buffer :: st'.txBufMempool.freeList
  next : (st'.heap m).next = none
  data : mbufData (st'.heap m) = buffer
  len : mbufLength (st'.heap m) =
    (UInt64.ofNat headerLen + cfg.segmentSize * cfg.numSegments).toUInt32
  nbSegs : (st'.heap m).nbSegs = 1
  release : (st'.heap m).release = some .txCompletion
  lkey : (st'.heap m).lkey = cfg.txLkey
  frame : ∀ a, a ≠ m → st'.heap a = st.heap a
  mem : st'.mem = (st.mem.stores
    (replyHeaderStores buffer.toNat (replyHeader cfg st pktIdx request))).stores
      (consecutive (buffer.toNat + 58)
        (regionBytes cfg st.mem (requestedSegments cfg st request)))
  requestHeaders : st'.requestHeaders = Function.update st.requestHeaders pktIdx
    { st.requestHeaders pktIdx with checksum := replyChecksum cfg st pktIdx request }

/-- Where the buffers of a copy reply may lie. -/
structure CopyApart (cfg : Config) (st : State) (request m buffer : Addr) : Prop where
  request_ne : request ≠ m
  request : RangesApart buffer.toNat 16384 (mbufData (st.heap request)).toNat 46
  workingSet : RangesApart buffer.toNat 16384 cfg.serverWorkingSet.toNat cfg.workingSetSize.toNat

section Reply

variable {cfg : Config} {pktIdx : ℕ} {request m : Addr} {st st' : State}

/-- The copy branch of one round of the loop over the batch. -/
theorem buildReply_copy (hzero : cfg.zeroCopy = false) (pktIdx : ℕ) (request : Addr) (st : State) :
    ∃ checksum, buildReply cfg pktIdx request st =
      some (copyReply cfg request (requestedSegments cfg st request)
        { st with
          checksum := checksum
          requestHeaders := Function.update st.requestHeaders pktIdx
            { st.requestHeaders pktIdx with checksum := replyChecksum cfg st pktIdx request } }) := by
  simp only [buildReply, hzero]
  cases hread : cfg.readIncomingPacket with
  | true =>
    refine ⟨incomingChecksum st.mem (st.heap request), ?_⟩
    simp [replyChecksum, hread, requestedSegments, State.modifyHeader]
  | false =>
    refine ⟨st.checksum, ?_⟩
    simp [replyChecksum, hread, requestedSegments]

/-- **What a copy reply is.** -/
theorem buildReply_copyBuilt (hzero : cfg.zeroCopy = false) (hws : WorkingSetOk cfg)
    (hfit : 58 + cfg.numSegments.toNat * cfg.segmentSize.toNat ≤ 16384)
    (hapart : ∀ m ∈ st.mbufMempool.freeList, ∀ buffer ∈ st.txBufMempool.freeList,
      CopyApart cfg st request m buffer)
    (h : buildReply cfg pktIdx request st = some (.ok m, st')) :
    ∃ buffer, CopyBuilt cfg pktIdx request st m buffer st' := by
  obtain ⟨checksum, hbuild⟩ := buildReply_copy hzero pktIdx request st
  have hcopy := Option.some.inj (hbuild.symm.trans h)
  unfold copyReply at hcopy
  rcases hmbuf : mempoolAlloc st.mbufMempool with _ | ⟨m', mbufs⟩
  · simp [hmbuf] at hcopy
  rcases hbuffer : mempoolAlloc st.txBufMempool with _ | ⟨buffer, buffers⟩
  · simp [hmbuf, hbuffer, State.modifyMbuf] at hcopy
  have hpool := freeList_of_mempoolAlloc hmbuf
  have hbuffers := freeList_of_mempoolAlloc hbuffer
  obtain ⟨hne, hrequest, hworkingSet⟩ := hapart m' (by simp [hpool]) buffer (by simp [hbuffers])
  -- the mbuf as it is when the header is written and the regions are copied
  let setup : Mbuf → Mbuf := fun b =>
    { mbufInit { b with lkey := cfg.txLkey } buffer dataMbufsSize 0 with
      release := some .txCompletion, next := none }
  let heap₁ := (st.heap.modify m' fun b => { b with lkey := cfg.txLkey }).modify m' fun b =>
    { mbufInit b buffer dataMbufsSize 0 with release := some .txCompletion, next := none }
  have hheap₁ : heap₁ = st.heap.modify m' setup := Heap.modify_modify ..
  have hdata : mbufData (heap₁ m') = buffer := by
    simp [hheap₁, setup, mbufData, mbufInit]
  let st₁ : State := { st with
    mem := parseOutgoingRequestHeaderIntoMbuf st.mem (heap₁ m') (heap₁ request) cfg.payloadSize
    heap := heap₁
    mbufMempool := mbufs
    txBufMempool := buffers
    requestHeaders := Function.update st.requestHeaders pktIdx
      { st.requestHeaders pktIdx with checksum := replyChecksum cfg st pktIdx request }
    checksum := checksum }
  -- the header is written before the first region is copied
  have hmem₁ : st₁.mem = st.mem.stores
      (replyHeaderStores buffer.toNat (replyHeader cfg st pktIdx request)) := by
    have hrequest₁ : heap₁ request = st.heap request := by
      rw [hheap₁, Heap.modify_of_ne _ hne]
    show parseOutgoingRequestHeaderIntoMbuf st.mem (heap₁ m') (heap₁ request) cfg.payloadSize = _
    rw [hrequest₁, parseOutgoingRequestHeaderIntoMbuf_eq _ _ _ _
      { st.requestHeaders pktIdx with checksum := replyChecksum cfg st pktIdx request }
      (by rw [hdata]; exact hrequest.mono (by omega) le_rfl), hdata]
    rfl
  obtain ⟨len, hcopied⟩ := @copySegments_zipIdx _ st₁ m' hws
    (requestedSegments cfg st request) 0 (by simpa [requestedSegments, readSegments] using hfit)
    (by rw [show st₁.heap = heap₁ from rfl, hdata]; exact hworkingSet)
  -- the header does not reach into the working set either
  have hregions : regionBytes cfg st₁.mem (requestedSegments cfg st request) =
      regionBytes cfg st.mem (requestedSegments cfg st request) := by
    refine List.map_congr_left fun s _ => ?_
    rw [hmem₁]
    refine read_stores_of_misses fun store hstore => ?_
    have hregion := hws.region_apart s hworkingSet
    exact (within_of_mem_replyHeaderStores hstore).misses (hregion.mono (by omega) le_rfl)
  simp only [hmbuf, hbuffer, State.modifyMbuf] at hcopy
  change (Except.ok m', (copySegments cfg m' (requestedSegments cfg st request) st₁).modifyMbuf m'
    _) = _ at hcopy
  rw [Prod.mk.injEq, Except.ok.injEq, copySegments, hcopied] at hcopy
  obtain ⟨rfl, rfl⟩ := hcopy
  refine ⟨buffer, hpool, hbuffers, ?_, ?_, ?_, ?_, ?_, ?_, ?_, ?_, rfl⟩
  · simp [State.modifyMbuf, st₁, hheap₁, setup]
  · simp [State.modifyMbuf, st₁, hheap₁, setup, mbufData, mbufInit]
  · simp [State.modifyMbuf, st₁, mbufLength]
  · simp [State.modifyMbuf, st₁]
  · simp [State.modifyMbuf, st₁, hheap₁, setup]
  · simp [State.modifyMbuf, st₁, hheap₁, setup, mbufInit]
  · intro a ha
    simp only [State.modifyMbuf, st₁, hheap₁, Heap.modify_of_ne _ ha]
  · show st₁.mem.stores (consecutive _ (regionBytes cfg st₁.mem _)) = _
    rw [hregions, hmem₁, show st₁.heap = heap₁ from rfl, hdata, Nat.zero_mul, Nat.add_zero]

end Reply

end Mlx5Netperf
