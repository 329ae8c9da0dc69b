import Mlx5Netperf.Mlx5.Gather

/-!
# Filling a Send Descriptor, and Sending

`mlx5_inline_data` and `mlx5_fill_tx_segment` of `mlx5_rxtx.c`. The stores into
the ring are kept as lists, so that their footprint can be talked about, and
then performed on the memory. At the end stand the functions that call them:
`mlx5_ring_doorbell`, `mlx5_post_transmission` and `mlx5_transmit_one`.
-/

namespace Mlx5Netperf

open ByteMemory ByteOrder NullTerminated WordArith

/-! ## Descriptor layout (`mlx5dv.h`) -/

def sizeofCtrlSeg : ℕ := 16
def sizeofEthSeg : ℕ := 32
def sizeofDataSeg : ℕ := 16
/-- `offsetof(struct mlx5_wqe_eth_seg, inline_hdr_start)` -/
def offsetofInlineHdrStart : ℕ := 14
/-- `offsetof(struct mlx5_wqe_eth_seg, inline_hdr)` -/
def offsetofInlineHdr : ℕ := 16
def mlx5OpcodeSend : UInt32 := 0x0a
def mlx5WqeCtrlCqUpdate : UInt8 := 8
def mlx5EthWqeL3Csum : UInt8 := 0x40
def mlx5EthWqeL4Csum : UInt8 := 0x80

/-! ## Inlined header -/

/-- `mlx5_inline_data`: the stores that copy `data` to `offset` from the inline
header of the current block. -/
def mlx5InlineData (v : Mlx5Txq) (offset : ℕ) (data : List UInt8) : List Store :=
  let currentSegmentPtr := getSegment v v.currentIdx
  let inlineStart := currentSegmentPtr + sizeofCtrlSeg + offsetofInlineHdrStart
  let endPtr := v.endPtr
  let inlineOffStart :=
    if inlineStart + offset ≥ endPtr then
      -- the length of this piece stands where its offset should
      let endChunk := sizeSub data.length (sizeSub endPtr inlineStart)
      sizeAdd v.sq.buf endChunk
    else inlineStart + offset
  if sizeSub endPtr inlineOffStart < data.length then
    -- a piece that runs over the end is split
    let firstChunk := sizeSub endPtr inlineOffStart
    [⟨inlineOffStart, data.take firstChunk⟩, ⟨v.sq.buf, data.drop firstChunk⟩]
  else [⟨inlineOffStart, data⟩]

/-- The pieces of a request header that are inlined: where each one goes and
the bytes it is read from in the `RequestHeader` object. -/
def RequestHeader.inlinePieces (h : RequestHeader) : List (ℕ × List UInt8) :=
  let member (off len : ℕ) := (h.bytes.drop off).take len
  [(0, member 0 sizeofEthHdr),
    (sizeofEthHdr, member 16 sizeofIpHdr),
    (sizeofEthHdr + sizeofIpHdr, member 36 sizeofUdpHdr),
    (sizeofEthHdr + sizeofIpHdr + sizeofUdpHdr, member 44 8),
    (sizeofEthHdr + sizeofIpHdr + sizeofUdpHdr + 8, member 56 8)]

/-- The stores of the five `mlx5_inline_data` calls. -/
def inlineStores (v : Mlx5Txq) (h : RequestHeader) : List Store :=
  h.inlinePieces.flatMap fun (offset, data) => mlx5InlineData v offset data

/-! ## Sizes -/

/-- `num_hdr_segs`: 16-byte units of control segment, Ethernet segment and inlined data. -/
def numHdrSegs (inlineLen : ℕ) : Int32 :=
  if inlineLen > 0 then
    -- two bytes of the inlined data are in the Ethernet segment already
    Int32.ofNat (sizeofCtrlSeg / 16 + offsetofInlineHdr / 16 +
      sizeAdd (sizeSub inlineLen 2) 15 / 16)
  else 2

/-- `num_dpsegs` -/
def numDpsegs (nbSegs : UInt32) : Int32 := Int32.ofNat (sizeofDataSeg * nbSegs.toNat / 16)

/-- The units of a descriptor, as its control segment counts them. -/
def numUnits (inlineLen : ℕ) (nbSegs : UInt32) : Int32 := numHdrSegs inlineLen + numDpsegs nbSegs

/-- `num_wqes`: blocks of four units. -/
def numWqes (units : Int32) : Int32 := (units + 3) / 4

/-! ## The descriptor -/

/-- The stores that fill the control segment at `ptr`. -/
def ctrlSegStores (v : Mlx5Txq) (ptr : ℕ) (units : Int32) : List Store :=
  [⟨ptr + 8, le32 0⟩, ⟨ptr + 12, le32 0⟩, ⟨ptr + 11, [mlx5WqeCtrlCqUpdate]⟩,
    ⟨ptr + 4, le32 (htobe32 (units.toUInt32 ||| (v.qpNum <<< 8)))⟩,
    ⟨ptr, le32 (htobe32 (((v.sqHead &&& 0xffff) <<< 8) ||| mlx5OpcodeSend))⟩]

/-- The stores that fill the Ethernet segment at `ptr`, zeroed first. -/
def ethSegStores (ptr inlineLen : ℕ) : List Store :=
  [⟨ptr, List.replicate sizeofEthSeg 0⟩,
    ⟨ptr + 4, [0 ||| (mlx5EthWqeL3Csum ||| mlx5EthWqeL4Csum)]⟩,
    ⟨ptr + 12, le16 (htobe16 (UInt16.ofNat inlineLen))⟩]

/-- Where the first data segment goes, three wrap rules. -/
def dpsegStart (v : Mlx5Txq) (inlineLen : ℕ) : ℕ :=
  let ethSegPtr := getSegment v v.currentIdx + sizeofCtrlSeg
  let endPtr := v.endPtr
  if inlineLen > 0 then
    let ptr := ethSegPtr + offsetofInlineHdrStart
    -- the inlined data wrapped around
    if sizeSub endPtr ptr < inlineLen then
      let firstChunkSize := sizeSub endPtr ptr
      v.sq.buf + sizeAdd (sizeSub inlineLen firstChunkSize) 15 / 16 * 16
    else
      ptr + 2 + sizeAdd (sizeSub inlineLen 2) 15 / 16 * 16
  else
    let ptr := ethSegPtr + 16
    -- nothing is inlined, and the ring may end behind the Ethernet segment
    if ptr = endPtr then v.sq.buf else ptr

/-- The three stores of one data segment. -/
def dpsegStores (curr : Mbuf) (ptr : ℕ) : List Store :=
  [⟨ptr, le32 (htobe32 (mbufLength curr))⟩, ⟨ptr + 8, le64 (htobe64 (mbufData curr))⟩,
    ⟨ptr + 4, le32 (htobe32 curr.lkey)⟩]

/-- The next 16-byte unit of the ring. -/
def nextSegmentPtr (v : Mlx5Txq) (ptr : ℕ) : ℕ :=
  if ptr + sizeofDataSeg = v.endPtr then v.sq.buf else ptr + sizeofDataSeg

/-- One round of the loop over the scatter list: the pointer and the stores so far. -/
def dpsegStep (v : Mlx5Txq) (heap : Heap) (curr : Addr) (acc : ℕ × List Store) : ℕ × List Store :=
  (nextSegmentPtr v acc.1, acc.2 ++ dpsegStores (heap curr) acc.1)

/-! ## Reservation -/

/-- `(sq.wqe_cnt - nr_inflight_tx(v)) < num_wqes`, compared unsigned -/
def sqFull (v : Mlx5Txq) (n : Int32) : Bool := v.sq.wqeCnt - nrInflightTx v < n.toUInt32

/-- Make room for `n` blocks, gathering completions once if there is none.
The result says whether there is room. -/
def reserveWqes (cfg : Config) (fuel : ℕ) (st : State) (n : Int32) : Option (Bool × State) :=
  if sqFull st.txq n then
    (gatherAndFree cfg fuel st).map fun st => (!sqFull st.txq n, st)
  else some (true, st)

/-- The stores of a whole descriptor of the given number of 16-byte units. -/
def segmentStores (fuel : ℕ) (st : State) (m : Addr) (requestHeader : Option RequestHeader)
    (inlineLen : ℕ) (units : Int32) : Option (List Store) :=
  let v := st.txq
  let ptr := getSegment v v.currentIdx
  let header := if inlineLen > 0 then requestHeader.map (inlineStores v) else some []
  header.bind fun header =>
    (traverse (fun a => (st.heap a).next) (dpsegStep v st.heap) fuel (some m)
      (dpsegStart v inlineLen, [])).map fun (_, dpsegs) =>
        -- later stores win where the segments overlap
        ctrlSegStores v ptr units ++ ethSegStores (ptr + sizeofCtrlSeg) inlineLen ++ header ++
          dpsegs

/-- Record the chain for its completion and advance `sq_head`. -/
def Mlx5Txq.push (v : Mlx5Txq) (m : Addr) (n : Int32) : Mlx5Txq :=
  { v with
    buffers := Function.update v.buffers v.currentIdx.toNat (some m)
    sqHead := v.sqHead + n.toUInt32 }

/-- `m->num_wqes = num_wqes` and the recording of the send. -/
def State.push (st : State) (m : Addr) (n : Int32) : State :=
  { st with
    heap := st.heap.modify m fun b => { b with numWqes := n.toInt64.toUInt64 }
    txq := st.txq.push m n }.log (.posted ⟨m, st.txq.sqHead, n.toInt64.toUInt64⟩)

/-- `mlx5_fill_tx_segment` -/
def mlx5FillTxSegment (cfg : Config) (fuel : ℕ) (st : State) (m : Addr)
    (requestHeader : Option RequestHeader) (inlineLen : ℕ) : Option (Int32 × State) :=
  let units := numUnits inlineLen (st.heap m).nbSegs
  let n := numWqes units
  (reserveWqes cfg fuel st n).bind fun (room, st) =>
    if room then
      -- the stores are made on the ring as it is after the reservation
      (segmentStores fuel st m requestHeader inlineLen units).map fun stores =>
        (0, { st with mem := st.mem.stores stores }.push m n)
    else some (enomem, st)

/-- The stores of the loop over the scatter list. -/
def dpsegListStores (v : Mlx5Txq) (heap : Heap) (nodes : List Addr) (start : ℕ) : List Store :=
  (nodes.foldl (fun acc a => dpsegStep v heap a acc) (start, [])).2

/-- The stores of the header that is inlined, if any. -/
def headerStores (v : Mlx5Txq) (requestHeader : Option RequestHeader) (inlineLen : ℕ) :
    List Store :=
  if 0 < inlineLen then (requestHeader.map (inlineStores v)).getD [] else []

/-- All stores of a descriptor, in order. -/
def descriptorStores (v : Mlx5Txq) (heap : Heap) (nodes : List Addr)
    (requestHeader : Option RequestHeader) (inlineLen : ℕ) (units : Int32) : List Store :=
  ctrlSegStores v (getSegment v v.currentIdx) units ++
    ethSegStores (getSegment v v.currentIdx + sizeofCtrlSeg) inlineLen ++
    headerStores v requestHeader inlineLen ++
    dpsegListStores v heap nodes (dpsegStart v inlineLen)

/-- With a header to inline and a scatter list within the fuel, the descriptor is filled. -/
theorem segmentStores_eq {fuel : ℕ} {st : State} {m : Addr} {requestHeader : Option RequestHeader}
    {inlineLen : ℕ} {nodes : List Addr} (units : Int32)
    (hchain : st.heap.IsChain (some m) nodes) (hfuel : nodes.length ≤ fuel)
    (hheader : 0 < inlineLen → requestHeader ≠ none) :
    segmentStores fuel st m requestHeader inlineLen units =
      some (descriptorStores st.txq st.heap nodes requestHeader inlineLen units) := by
  have htraverse := hchain.traverse_eq (dpsegStep st.txq st.heap) hfuel
    (dpsegStart st.txq inlineLen, [])
  simp only [segmentStores, htraverse, descriptorStores, headerStores, dpsegListStores]
  -- with and without a header to inline
  by_cases hpos : 0 < inlineLen
  · obtain ⟨h, rfl⟩ := Option.ne_none_iff_exists'.mp (hheader hpos)
    simp [hpos]
  · simp [hpos]

/-- A descriptor that was filled had both. -/
theorem segmentStores_inv {fuel : ℕ} {st : State} {m : Addr} {requestHeader : Option RequestHeader}
    {inlineLen : ℕ} {units : Int32} {stores : List Store}
    (h : segmentStores fuel st m requestHeader inlineLen units = some stores) :
    ∃ nodes, st.heap.IsChain (some m) nodes ∧ nodes.length ≤ fuel ∧
      stores = descriptorStores st.txq st.heap nodes requestHeader inlineLen units := by
  have hunfold := h
  simp only [segmentStores] at hunfold
  obtain ⟨header, hheader, hmap⟩ := Option.bind_eq_some_iff.mp hunfold
  obtain ⟨acc, htraverse, -⟩ := Option.map_eq_some_iff.mp hmap
  obtain ⟨nodes, hchain, hlen, -⟩ := exists_chain_of_traverse htraverse
  -- without a header the inlining would have failed
  have hsome : 0 < inlineLen → requestHeader ≠ none := by
    intro hpos hnone
    simp [hpos, hnone] at hheader
  rw [segmentStores_eq units hchain hlen hsome] at h
  exact ⟨nodes, hchain, hlen, (Option.some.inj h).symm⟩

/-- What an accepted send leaves behind. -/
theorem mlx5FillTxSegment_of_room {cfg : Config} {fuel : ℕ} {st st₁ : State} {m : Addr}
    {requestHeader : Option RequestHeader} {inlineLen : ℕ} {stores : List Store}
    (hreserve : reserveWqes cfg fuel st (numWqes (numUnits inlineLen (st.heap m).nbSegs)) =
      some (true, st₁))
    (hstores : segmentStores fuel st₁ m requestHeader inlineLen
      (numUnits inlineLen (st.heap m).nbSegs) = some stores) :
    mlx5FillTxSegment cfg fuel st m requestHeader inlineLen =
      some (0, { st₁ with mem := st₁.mem.stores stores }.push m
        (numWqes (numUnits inlineLen (st.heap m).nbSegs))) := by
  simp only [mlx5FillTxSegment, hreserve, Option.bind_some, if_true, hstores, Option.map_some]

/-- Making room changes nothing but what was gathered. -/
theorem reserveWqes_sameRing {cfg : Config} {fuel : ℕ} {st st' : State} {n : Int32} {room : Bool}
    (h : reserveWqes cfg fuel st n = some (room, st')) : st.SameRing st' := by
  unfold reserveWqes at h
  split at h
  · obtain ⟨st₁, hgather, heq⟩ := Option.map_eq_some_iff.mp h
    obtain ⟨-, rfl⟩ := Prod.mk.inj heq
    exact gatherAndFree_sameRing hgather
  · obtain ⟨-, rfl⟩ := Prod.mk.inj (Option.some.inj h)
    exact .refl st

/-- **An accepted send**: there was room after the reservation, and the descriptor was filled. -/
theorem mlx5FillTxSegment_inv {cfg : Config} {fuel : ℕ} {st st' : State} {m : Addr}
    {requestHeader : Option RequestHeader} {inlineLen : ℕ}
    (h : mlx5FillTxSegment cfg fuel st m requestHeader inlineLen = some (0, st')) :
    ∃ st₁ nodes, reserveWqes cfg fuel st (numWqes (numUnits inlineLen (st.heap m).nbSegs)) =
        some (true, st₁) ∧ st₁.heap.IsChain (some m) nodes ∧ nodes.length ≤ fuel ∧
      st' = { st₁ with mem := st₁.mem.stores (descriptorStores st₁.txq st₁.heap nodes requestHeader
        inlineLen (numUnits inlineLen (st.heap m).nbSegs)) }.push m
          (numWqes (numUnits inlineLen (st.heap m).nbSegs)) := by
  obtain ⟨⟨room, st₁⟩, hreserve, hrest⟩ := Option.bind_eq_some_iff.mp h
  cases room with
  | false =>
    obtain ⟨hcode, -⟩ := Prod.mk.inj (Option.some.inj hrest)
    -- a full ring is `ENOMEM`, not zero
    exact absurd hcode (by decide)
  | true =>
    obtain ⟨stores, hstores, heq⟩ := Option.map_eq_some_iff.mp hrest
    obtain ⟨-, rfl⟩ := Prod.mk.inj heq
    obtain ⟨nodes, hchain, hlen, rfl⟩ := segmentStores_inv hstores
    exact ⟨st₁, nodes, hreserve, hchain, hlen, rfl⟩

/-- Whether a send is accepted does not depend on the contents of its header. -/
theorem mlx5FillTxSegment_any_header {cfg : Config} {fuel : ℕ} {st st' : State} {m : Addr}
    {requestHeader : Option RequestHeader} {inlineLen : ℕ}
    (h : mlx5FillTxSegment cfg fuel st m requestHeader inlineLen = some (0, st'))
    (header : RequestHeader) :
    ∃ st'', mlx5FillTxSegment cfg fuel st m (some header) inlineLen = some (0, st'') := by
  obtain ⟨st₁, nodes, hreserve, hchain, hlen, -⟩ := mlx5FillTxSegment_inv h
  exact ⟨_, mlx5FillTxSegment_of_room hreserve (segmentStores_eq _ hchain hlen (by simp))⟩

/-! ## Sizes without overflow -/

/-- The 16-byte units in front of the data segments. -/
def hdrUnits (inlineLen : ℕ) : ℕ := if inlineLen > 0 then 2 + (inlineLen - 2 + 15) / 16 else 2

/-- The blocks of four units that hold all units of a descriptor. -/
def wqeBlocks (inlineLen nbSegs : ℕ) : ℕ := (hdrUnits inlineLen + nbSegs + 3) / 4

theorem wqeBlocks_pos (inlineLen nbSegs : ℕ) : 0 < wqeBlocks inlineLen nbSegs := by
  unfold wqeBlocks hdrUnits
  split <;> omega

/-- What is promised about the length of inlined data. -/
def InlineLenOk (inlineLen : ℕ) : Prop := inlineLen = 0 ∨ 58 ≤ inlineLen ∧ inlineLen ≤ 64

theorem hdrUnits_le {inlineLen : ℕ} (h : InlineLenOk inlineLen) : hdrUnits inlineLen ≤ 6 := by
  unfold hdrUnits
  rcases h with rfl | ⟨hlo, hhi⟩
  · simp
  · split <;> omega

theorem numHdrSegs_eq {inlineLen : ℕ} (h : InlineLenOk inlineLen) :
    numHdrSegs inlineLen = Int32.ofNat (hdrUnits inlineLen) := by
  rcases h with rfl | ⟨hlo, hhi⟩
  · rfl
  -- from 58 to 64 bytes nothing overflows
  · have hsub : sizeSub inlineLen 2 = inlineLen - 2 := sizeSub_of_le (by omega) (by omega)
    have hadd : sizeAdd (inlineLen - 2) 15 = inlineLen - 2 + 15 := sizeAdd_of_lt (by omega)
    have hpos : inlineLen > 0 := by omega
    simp only [numHdrSegs, hdrUnits, hpos, if_true, hsub, hadd]
    rfl

/-- The unit count is exact as long as the `int` arithmetic does not overflow. -/
theorem numUnits_eq {inlineLen : ℕ} (h : InlineLenOk inlineLen) (nbSegs : UInt32) :
    numUnits inlineLen nbSegs = Int32.ofNat (hdrUnits inlineLen + nbSegs.toNat) := by
  have hdps : sizeofDataSeg * nbSegs.toNat / 16 = nbSegs.toNat := by
    rw [sizeofDataSeg]
    omega
  rw [numUnits, numHdrSegs_eq h, numDpsegs, hdps, Int32.ofNat_add]

theorem numWqes_eq {inlineLen : ℕ} (h : InlineLenOk inlineLen) {nbSegs : UInt32}
    (hrange : nbSegs.toNat + 9 < 2 ^ 31) :
    numWqes (numUnits inlineLen nbSegs) = Int32.ofNat (wqeBlocks inlineLen nbSegs.toNat) := by
  have hle := hdrUnits_le h
  rw [numWqes, numUnits_eq h, wqeBlocks, Int32.ofNat_div (by omega) (by omega),
    Int32.ofNat_add _ 3]
  rfl

theorem wqeBlocks_lt {inlineLen n : ℕ} (h : InlineLenOk inlineLen) (hrange : n + 9 < 2 ^ 31) :
    wqeBlocks inlineLen n < 2 ^ 31 := by
  have hle := hdrUnits_le h
  unfold wqeBlocks
  omega

/-- `num_wqes` as `sq_head` and the mbuf take it. -/
theorem numWqes_toNat {inlineLen : ℕ} (h : InlineLenOk inlineLen) (nbSegs : UInt32)
    (hrange : nbSegs.toNat + 9 < 2 ^ 31) :
    (numWqes (numUnits inlineLen nbSegs)).toUInt32.toNat = wqeBlocks inlineLen nbSegs.toNat ∧
      (numWqes (numUnits inlineLen nbSegs)).toInt64.toUInt64.toNat =
        wqeBlocks inlineLen nbSegs.toNat := by
  have hlt := wqeBlocks_lt h hrange
  have hmax : (wqeBlocks inlineLen nbSegs.toNat : ℤ) ≤ Int32.maxValue.toInt := by
    rw [Int32.toInt_maxValue]
    omega
  rw [numWqes_eq h hrange, Int32.toUInt32_ofNat', Int32.toInt64_ofNat' hmax,
    Int64.toUInt64_ofNat', UInt32.toNat_ofNat', UInt64.toNat_ofNat']
  constructor <;> omega

/-! ## Sending -/

/-- `mlx5_ring_doorbell`: the new head to the doorbell record, the first eight
bytes of the control segment to the device. -/
def mlx5RingDoorbell (st : State) (ctrl : ℕ) : State :=
  { st with txq := { st.txq with
    dbrec := htobe32 (st.txq.sqHead &&& 0xffff)
    bfReg := st.mem.read ctrl 8 } }

/-- `mlx5_post_transmission`: the control segment, or `none` when the ring is full. -/
def mlx5PostTransmission (cfg : Config) (fuel : ℕ) (st : State) (m : Addr)
    (requestHeader : Option RequestHeader) (inlineLen : ℕ) : Option (Option ℕ × State) :=
  let ctrl := getSegment st.txq st.txq.currentIdx
  (mlx5FillTxSegment cfg fuel st m requestHeader inlineLen).map fun (ret, st) =>
    if ret = enomem then (none, st) else (some ctrl, st)

/-- `mlx5_transmit_one`: 1 when sent, 0 when the ring is full. -/
def mlx5TransmitOne (cfg : Config) (fuel : ℕ) (st : State) (m : Addr)
    (requestHeader : Option RequestHeader) (inlineLen : ℕ) : Option (ℕ × State) :=
  (mlx5PostTransmission cfg fuel st m requestHeader inlineLen).bind fun (ctrl, st) =>
    match ctrl with
    | none => some (0, st)
    | some ctrl =>
      let st := mlx5RingDoorbell st ctrl
      -- completions are gathered once more when the ring fills up
      if nrInflightTx st.txq ≥ sqCleanThresh then
        (gatherAndFree cfg fuel st).map fun st => (1, st)
      else some (1, st)

end Mlx5Netperf
