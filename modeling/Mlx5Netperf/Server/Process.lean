import Mlx5Netperf.Completion
import Mlx5Netperf.Mlx5.FillTxSegment
import Mlx5Netperf.Server.Request

/-!
# Building the Replies of a Batch

`process_server_requests` of `main.c` up to its call of `post_mbufs`: one reply
for each request, a scatter list over the working set in zero-copy mode and one
filled buffer in copy mode, and what it does when an allocation fails. Behind it
stands the working set: the number of its regions is rounded down, and a segment
id is taken modulo that number.
-/

namespace Mlx5Netperf

open ByteMemory

/-- Change one mbuf. -/
def State.modifyMbuf (st : State) (m : Addr) (f : Mbuf → Mbuf) : State :=
  { st with heap := st.heap.modify m f }

/-- Change `request_headers[pktIdx]`. -/
def State.modifyHeader (st : State) (pktIdx : ℕ) (f : RequestHeader → RequestHeader) : State :=
  { st with requestHeaders :=
      Function.update st.requestHeaders pktIdx (f (st.requestHeaders pktIdx)) }

/-- `get_server_region(server_working_set, segment % num_total_segments, segment_size)` -/
def Config.region (cfg : Config) (segment : UInt64) : UInt64 :=
  getServerRegion cfg.serverWorkingSet (segment % cfg.numTotalSegments) cfg.segmentSize

/-! ## Zero copy -/

/-- `if (prev != NULL) prev->next = m`, where `prev` is the last of `ms` -/
def Heap.linkLast (heap : Heap) (ms : List Addr) (m : Addr) : Heap :=
  match ms.getLast? with
  | none => heap
  | some prev => heap.modify prev fun b => { b with next := some m }

/-- The mbuf of one segment, fields in the order they are set: linked behind the
last one of `ms`, the mbufs made so far. `none` is a failed allocation. -/
def zeroCopySegment (cfg : Config) (pktIdx : ℕ) (ms : List Addr) (segment : UInt64) (st : State) :
    Option (Addr × State) :=
  (mempoolAlloc st.mbufMempool).map fun (m, pool) =>
    let st := { st with mbufMempool := pool }
    -- the list is linked before the new mbuf is initialized
    let st := { st with heap := st.heap.linkLast ms m }
    let st := st.modifyMbuf m fun b =>
      { b with lkey := cfg.txLkey, release := some .zeroCopyTxCompletion }
    -- the new count goes into the header, the segment into the mbuf
    let st := if cfg.usingRefCounting then
        let (currefcnt, st) := serverChangeRefcnt cfg st segment 1
        let st := st.modifyHeader pktIdx fun h =>
          { h with checksum := h.checksum + currefcnt.toUInt64 }
        st.modifyMbuf m fun b => { b with releaseData := segment }
      else st
    let st := st.modifyMbuf m fun b =>
      -- `mbuf_init` clears the length, so it is set afterwards
      { mbufInit b (cfg.region segment) cfg.segmentSize.toUInt32 0 with
        len := cfg.segmentSize.toUInt32 }
    (m, st.log (.created m))

/-- The loop over the segments; `none` for the mbufs when an allocation failed. -/
def zeroCopySegments (cfg : Config) (pktIdx : ℕ) :
    List UInt64 → List Addr → State → Option (List Addr) × State
  | [], ms, st => (some ms, st)
  | segment :: segments, ms, st =>
    match zeroCopySegment cfg pktIdx ms segment st with
    | none => (none, st)
    | some (m, st) => zeroCopySegments cfg pktIdx segments (ms ++ [m]) st

/-- Which allocation failed. -/
inductive BuildError where
  /-- no mbuf -/
  | noMbuf
  /-- no buffer for the mbuf `m` -/
  | noBuffer (m : Addr)

/-- `num_segments * segment_size + 16` -/
def Config.payloadSize (cfg : Config) : UInt64 := cfg.numSegments * cfg.segmentSize + 16

/-- The scatter list of a zero-copy reply. Without segments the code writes
through a pointer it never set; this is `none`. -/
def scatterListReply (cfg : Config) (pktIdx : ℕ) (segments : List UInt64) (st : State) :
    Option (Except BuildError Addr × State) :=
  match zeroCopySegments cfg pktIdx segments [] st with
  | (none, st) => some (.error .noMbuf, st)
  | (some ms, st) =>
    match ms.head?, ms.getLast? with
    | some first, some last =>
      -- the totals are those of the options, not of the list
      let st := st.modifyMbuf first fun b => { b with nbSegs := cfg.numSegments.toUInt32 }
      let st := st.modifyMbuf last fun b => { b with next := none }
      let st := st.modifyMbuf first fun b =>
        { b with pktLen := (cfg.segmentSize * cfg.numSegments).toUInt32 }
      some (.ok first, st)
    | _, _ => none

/-- The zero-copy branch: the header, then the scatter list. -/
def zeroCopyReply (cfg : Config) (pktIdx : ℕ) (request : Addr) (segments : List UInt64)
    (st : State) : Option (Except BuildError Addr × State) :=
  scatterListReply cfg pktIdx segments (st.modifyHeader pktIdx fun h =>
    parseOutgoingRequestHeader h st.mem (st.heap request) cfg.payloadSize)

/-! ## Copy -/

/-- `header_len` -/
def headerLen : ℕ := fullProtoHeader + 16

/-- Copy one region of the working set behind the header and the earlier regions. -/
def copySegment (cfg : Config) (m : Addr) (segment : UInt64) (seg : ℕ) (st : State) : State :=
  -- the whole region, whatever room is left in the buffer
  let source := st.mem.read (cfg.region segment).toNat cfg.segmentSize.toNat
  let (mem, b) := mbufCopy st.mem (st.heap m) source
    (UInt64.ofNat headerLen + UInt64.ofNat seg * cfg.segmentSize).toNat
  { st with mem := mem, heap := Function.update st.heap m b }

/-- The loop over the segments. -/
def copySegments (cfg : Config) (m : Addr) (segments : List UInt64) (st : State) : State :=
  segments.zipIdx.foldl (fun st (segment, seg) => copySegment cfg m segment seg st) st

/-- The copy branch. -/
def copyReply (cfg : Config) (request : Addr) (segments : List UInt64) (st : State) :
    Except BuildError Addr × State :=
  match mempoolAlloc st.mbufMempool with
  | none => (.error .noMbuf, st)
  | some (m, mbufs) =>
    let st := { st with mbufMempool := mbufs }
    let st := st.modifyMbuf m fun b => { b with lkey := cfg.txLkey }
    match mempoolAlloc st.txBufMempool with
    -- the mbuf is kept: the caller frees it
    | none => (.error (.noBuffer m), st)
    | some (buffer, buffers) =>
      let st := { st with txBufMempool := buffers }
      let st := st.modifyMbuf m fun b =>
        { mbufInit b buffer dataMbufsSize 0 with release := some .txCompletion, next := none }
      -- the header reads the request and is written to the buffer
      let mem := parseOutgoingRequestHeaderIntoMbuf st.mem (st.heap m) (st.heap request)
        cfg.payloadSize
      let st := { st with mem := mem }
      let st := copySegments cfg m segments st
      -- set last: copying has added up the lengths in `len` before
      let len := UInt64.ofNat headerLen + cfg.segmentSize * cfg.numSegments
      let st := st.modifyMbuf m fun b =>
        { b with nbSegs := 1, pktLen := len.toUInt32, len := len.toUInt32 }
      (.ok m, st)

/-! ## The batch -/

/-- One round of the loop over the batch: the reply to the request number `pktIdx`. -/
def buildReply (cfg : Config) (pktIdx : ℕ) (request : Addr) (st : State) :
    Option (Except BuildError Addr × State) :=
  let b := st.heap request
  -- the segment list is read before anything is written
  let segments := readSegments cfg st.mem (payloadPtr b)
  -- without reading, the field keeps what the last reply left in it
  let st := if cfg.readIncomingPacket then
      let checksum := incomingChecksum st.mem b
      { st with checksum := checksum }.modifyHeader pktIdx fun h => { h with checksum := checksum }
    else st
  if cfg.zeroCopy then zeroCopyReply cfg pktIdx request segments st
  else some (copyReply cfg request segments st)

/-- `for (pkt = 0; pkt < pkt_idx - 1; pkt++) mbuf_free(send_mbufs[pkt][0])`: for the
first packet the bound wraps around, and the loop runs into entries never set. -/
def freePrevious (cfg : Config) (fuel : ℕ) (heads : List Addr) (st : State) : Option State :=
  let bound := WordArith.sizeSub heads.length 1
  if bound ≤ heads.length then mbufFreeAll cfg fuel st (heads.take bound) else none

/-- The loop over the batch; `heads` are the replies built so far. The result is
the list of all replies, or the error that `process_server_requests` returns. -/
def buildReplies (cfg : Config) (fuel : ℕ) :
    List Addr → List Addr → State → Option (Except Int32 (List Addr) × State)
  | [], heads, st => some (.ok heads, st)
  | request :: requests, heads, st =>
    match buildReply cfg heads.length request st with
    | none => none
    | some (.ok m, st) => buildReplies cfg fuel requests (heads ++ [m]) st
    -- the replies built so far are freed
    | some (.error .noMbuf, st) =>
      (freePrevious cfg fuel heads st).map fun st => (.error enomem, st)
    -- only the mbuf without a buffer is freed
    | some (.error (.noBuffer m), st) =>
      (mbufFree cfg fuel st (some m)).map fun st => (.error enomem, st)

/-- `request_header_ptrs[i]` -/
def requestHeaderPtr (cfg : Config) (st : State) (i : ℕ) : Option RequestHeader :=
  if cfg.echoMode then none else if cfg.zeroCopy then some (st.requestHeaders i) else none

/-- `inline_lengths[i]` -/
def inlineLength (cfg : Config) : ℕ :=
  if cfg.echoMode then 0
  else if cfg.zeroCopy then sizeofEthHdr + sizeofIpHdr + sizeofUdpHdr + 8 + 8
  else 0

/-! ## What is transmitted -/

/-- The data of a scatter list, in order. -/
def gatherBytes (mem : ByteMemory) (heap : Heap) (nodes : List Addr) : List UInt8 :=
  nodes.flatMap fun a => mem.read (mbufData (heap a)).toNat (mbufLength (heap a)).toNat

/-- The bytes on the wire for packet `i` of a batch: the inlined members of its
header, if any, and the data of its scatter list. -/
def transmittedFrame (cfg : Config) (st : State) (i : ℕ) (nodes : List Addr) : List UInt8 :=
  ((requestHeaderPtr cfg st i).elim [] fun h => h.inlinePieces.flatMap Prod.snd) ++
    gatherBytes st.mem st.heap nodes

/-! ## The working set -/

/-- The working set as `parse_args` counts its regions, after any option, and as it
was mapped. It may have no region. -/
structure WorkingSetPlaced (cfg : Config) : Prop where
  pos : 0 < cfg.segmentSize.toNat
  total : cfg.numTotalSegments = cfg.workingSetSize / cfg.segmentSize
  bound : cfg.serverWorkingSet.toNat + cfg.workingSetSize.toNat ≤ 2 ^ 64

/-- The working set is mapped, and holds at least one region. -/
structure WorkingSetMapped (cfg : Config) : Prop where
  pos : 0 < cfg.segmentSize.toNat
  le : cfg.segmentSize.toNat ≤ cfg.workingSetSize.toNat
  total : cfg.numTotalSegments = cfg.workingSetSize / cfg.segmentSize
  bound : cfg.serverWorkingSet.toNat + cfg.workingSetSize.toNat ≤ 2 ^ 64

/-- A number of regions other than zero says that there is one. -/
theorem WorkingSetPlaced.mapped {cfg : Config} (h : WorkingSetPlaced cfg)
    (htotal : cfg.numTotalSegments ≠ 0) : WorkingSetMapped cfg where
  pos := h.pos
  le := by
    by_contra hlt
    refine htotal (UInt64.toNat_inj.mp ?_)
    rw [h.total, UInt64.toNat_div]
    exact Nat.div_eq_of_lt (not_le.mp hlt)
  total := h.total
  bound := h.bound

namespace WorkingSetMapped

variable {cfg : Config}

theorem total_toNat (h : WorkingSetMapped cfg) :
    cfg.numTotalSegments.toNat = cfg.workingSetSize.toNat / cfg.segmentSize.toNat := by
  rw [h.total, UInt64.toNat_div]

theorem total_pos (h : WorkingSetMapped cfg) : 0 < cfg.numTotalSegments.toNat := by
  rw [h.total_toNat]
  exact Nat.div_pos h.le h.pos

/-- **A region lies inside the working set**, whatever the segment id is. -/
theorem region_le (h : WorkingSetMapped cfg) (segment : UInt64) :
    (segment % cfg.numTotalSegments).toNat * cfg.segmentSize.toNat + cfg.segmentSize.toNat ≤
      cfg.workingSetSize.toNat := by
  -- a remainder is below the number of regions
  have hlt : (segment % cfg.numTotalSegments).toNat < cfg.numTotalSegments.toNat := by
    rw [UInt64.toNat_mod]
    exact Nat.mod_lt _ h.total_pos
  calc (segment % cfg.numTotalSegments).toNat * cfg.segmentSize.toNat + cfg.segmentSize.toNat
      = ((segment % cfg.numTotalSegments).toNat + 1) * cfg.segmentSize.toNat := by ring
    _ ≤ cfg.numTotalSegments.toNat * cfg.segmentSize.toNat := Nat.mul_le_mul_right _ hlt
    _ ≤ cfg.workingSetSize.toNat := by
      rw [h.total_toNat]
      exact Nat.div_mul_le_self _ _

/-- The address of a region is computed without overflow. -/
theorem region_toNat (h : WorkingSetMapped cfg) (segment : UInt64) :
    (cfg.region segment).toNat = cfg.serverWorkingSet.toNat +
      (segment % cfg.numTotalSegments).toNat * cfg.segmentSize.toNat := by
  have hle := h.region_le segment
  have hpos := h.pos
  have hbound := h.bound
  rw [Config.region, getServerRegion, UInt64.toNat_add, UInt64.toNat_mul,
    Nat.mod_eq_of_lt (a := _ * _) (by omega), Nat.mod_eq_of_lt (by omega)]

end WorkingSetMapped

end Mlx5Netperf
