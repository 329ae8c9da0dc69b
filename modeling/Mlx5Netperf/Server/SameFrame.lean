import Mlx5Netperf.Server.RequestedData

/-!
# The Two Modes Compared

The zero-copy reply and the copy reply to one request, byte by byte. Copy mode
reserves eight bytes behind the ids for the checksum of the header, as zero-copy
mode does, but never writes them: the frame carries what the recycled transmit
buffer held.
-/

namespace Mlx5Netperf

open ByteMemory

/-- The frames are the same but for the IPv4 and the UDP checksum. -/
def SameButChecksums (frame frame' : List UInt8) : Prop :=
  frame'.length = frame.length ∧
    ∀ k, k ≠ 24 → k ≠ 25 → k ≠ 40 → k ≠ 41 → frame'[k]? = frame[k]?

/-- Byte strings that differ in one piece agree outside of it. -/
theorem getElem?_append_of_outside {x a b y : List UInt8} (hlen : b.length = a.length) {k : ℕ}
    (hk : k < x.length ∨ x.length + a.length ≤ k) : (x ++ b ++ y)[k]? = (x ++ a ++ y)[k]? := by
  rcases hk with hbefore | hafter
  · rw [List.append_assoc, List.append_assoc, List.getElem?_append_left hbefore,
      List.getElem?_append_left hbefore]
  · have ha : (x ++ a).length ≤ k := by rw [List.length_append]; omega
    have hb : (x ++ b).length ≤ k := by rw [List.length_append, hlen]; omega
    rw [List.getElem?_append_right ha, List.getElem?_append_right hb, List.length_append,
      List.length_append, hlen]

/-- A slice is determined by its bytes. -/
theorem slice_congr {frame frame' : List UInt8} {o n : ℕ}
    (h : ∀ k, o ≤ k → k < o + n → frame'[k]? = frame[k]?) : slice frame' o n = slice frame o n := by
  refine List.ext_getElem? fun k => ?_
  simp only [slice, List.getElem?_take, List.getElem?_drop]
  split
  · exact h (o + k) (by omega) (by omega)
  · rfl

section Frames

variable {cfg : Config} {st : State} {i : ℕ} {request buffer : Addr}

/-- The wire bytes of a header with the UDP checksum and the header checksum set apart. -/
theorem wireBytes_eq (h : RequestHeader) :
    h.wireBytes = h.wireBytes.take 40 ++ le16 h.packetHeader.udp.chksum ++
      ((h.wireBytes.drop 42).take 8 ++ le64 h.checksum) := by
  have hfront : (h.packetHeader.eth.bytes ++ h.packetHeader.ipv4.bytes ++
      (le16 h.packetHeader.udp.srcPort ++ le16 h.packetHeader.udp.dstPort ++
        le16 h.packetHeader.udp.len)).length = 40 := by simp
  have hwire : h.wireBytes = (h.packetHeader.eth.bytes ++ h.packetHeader.ipv4.bytes ++
      (le16 h.packetHeader.udp.srcPort ++ le16 h.packetHeader.udp.dstPort ++
        le16 h.packetHeader.udp.len)) ++ le16 h.packetHeader.udp.chksum ++
      ((le32 h.packetId ++ le32 h.idPadding) ++ le64 h.checksum) := by
    simp only [RequestHeader.wireBytes, UdpHdr.bytes, List.append_assoc]
  have htake : h.wireBytes.take 40 = h.packetHeader.eth.bytes ++ h.packetHeader.ipv4.bytes ++
      (le16 h.packetHeader.udp.srcPort ++ le16 h.packetHeader.udp.dstPort ++
        le16 h.packetHeader.udp.len) := by
    rw [hwire, List.append_assoc, List.take_left' hfront]
  have hids : (h.wireBytes.drop 42).take 8 = le32 h.packetId ++ le32 h.idPadding := by
    rw [hwire, List.drop_left' (by simp), List.take_left' (by simp)]
  rw [htake, hids]
  exact hwire

theorem checksum_replyHeader (cfg : Config) (st : State) (i : ℕ) (request : Addr) :
    (replyHeader cfg st i request).checksum = replyChecksum cfg st i request := rfl

/-- The zero-copy frame, with the pieces set apart in which the copy frame may differ. -/
theorem zeroCopyFrame_eq (cfg : Config) (st : State) (i : ℕ) (request : Addr) :
    zeroCopyFrame cfg st i request = (replyHeader cfg st i request).wireBytes.take 40 ++
      le16 (replyHeader cfg st i request).packetHeader.udp.chksum ++
      (((replyHeader cfg st i request).wireBytes.drop 42).take 8 ++
        le64 (replyChecksum cfg st i request) ++ replyData cfg st request) := by
  calc zeroCopyFrame cfg st i request
      = ((replyHeader cfg st i request).wireBytes.take 40 ++
          le16 (replyHeader cfg st i request).packetHeader.udp.chksum ++
          (((replyHeader cfg st i request).wireBytes.drop 42).take 8 ++
            le64 (replyHeader cfg st i request).checksum)) ++ replyData cfg st request :=
        congrArg (· ++ _) (wireBytes_eq (replyHeader cfg st i request))
    _ = _ := by simp only [checksum_replyHeader, List.append_assoc]

theorem slice_zeroCopyFrame_checksum (cfg : Config) (st : State) (i : ℕ) (request : Addr) :
    slice (zeroCopyFrame cfg st i request) 50 8 = le64 (replyChecksum cfg st i request) := by
  rw [zeroCopyFrame_eq, slice, ← List.append_assoc, ← List.append_assoc,
    List.append_assoc _ (le64 _), List.drop_left' (by simp), List.take_left' (by simp)]

theorem slice_copyFrame_checksum (cfg : Config) (st : State) (i : ℕ) (request buffer : Addr) :
    slice (copyFrame cfg st i request buffer) 50 8 = st.mem.read (buffer.toNat + 50) 8 := by
  rw [copyFrame, slice, List.append_assoc _ (st.mem.read _ 8), List.drop_left' (by simp),
    List.take_left' (by simp)]

/-- **The frames compared**: they are the same but for the checksums exactly when
the buffer happens to hold the checksum of the header already. -/
theorem sameButChecksums_iff (cfg : Config) (st : State) (i : ℕ) (request buffer : Addr) :
    SameButChecksums (zeroCopyFrame cfg st i request) (copyFrame cfg st i request buffer) ↔
      st.mem.read (buffer.toNat + 50) 8 = le64 (replyChecksum cfg st i request) := by
  constructor
  · rintro ⟨-, hsame⟩
    rw [← slice_copyFrame_checksum cfg st i request buffer,
      ← slice_zeroCopyFrame_checksum cfg st i request]
    exact slice_congr fun k hlo hhi => hsame k (by omega) (by omega) (by omega) (by omega)
  · intro hbuffer
    refine ⟨by rw [length_copyFrame, length_zeroCopyFrame], fun k _ _ h40 h41 => ?_⟩
    rw [zeroCopyFrame_eq, copyFrame, hbuffer]
    have hfront : ((replyHeader cfg st i request).wireBytes.take 40).length = 40 := by simp
    have houtside := getElem?_append_of_outside
      (x := (replyHeader cfg st i request).wireBytes.take 40)
      (a := le16 (replyHeader cfg st i request).packetHeader.udp.chksum)
      (b := st.mem.read (buffer.toNat + 40) 2)
      (y := ((replyHeader cfg st i request).wireBytes.drop 42).take 8 ++
        le64 (replyChecksum cfg st i request) ++ replyData cfg st request)
      (by simp) (k := k) (by rw [hfront, length_le16]; omega)
    rw [← houtside]
    simp only [List.append_assoc]

end Frames

/-! ## A batch in both modes -/

/-- The same server in zero-copy mode, or in copy mode. -/
def Config.inMode (cfg : Config) (zeroCopy : Bool) : Config := { cfg with zeroCopy := zeroCopy }

/-- The layout of a batch of copy replies is one for both modes. -/
theorem CopyLayout.batchOk {cfg : Config} {st : State} {requests : List Addr}
    (h : CopyLayout cfg st requests) (hecho : cfg.echoMode = false)
    (hrc : cfg.usingRefCounting = false) (hn : 1 ≤ cfg.numSegments.toNat) (zeroCopy : Bool) :
    BatchOk (cfg.inMode zeroCopy) st requests := by
  have hws : WorkingSetOk (cfg.inMode zeroCopy) := ⟨h.workingSet.pos, h.workingSet.size_pos,
    h.workingSet.dvd, h.workingSet.total, h.workingSet.bound⟩
  refine ⟨hecho, hrc, hws, h.nodup, h.fresh, fun _ => ?_, fun _ => ?_⟩
  · have hle : cfg.segmentSize.toNat ≤ cfg.numSegments.toNat * cfg.segmentSize.toNat :=
      Nat.le_mul_of_pos_left _ hn
    have hfits := h.fits
    show cfg.segmentSize.toNat < 2 ^ 32
    omega
  · exact ⟨hws, h.fits, h.nodup, h.fresh, h.buffers, h.buffers_workingSet, h.buffers_requests⟩

/-- **When the two modes send the same frame**: for a request at any position of a
batch that succeeds in both modes, the frames agree outside the checksums exactly
when the transmit buffer that copy mode takes for it holds, in the eight bytes
behind the ids, the checksum that zero-copy mode sends. -/
theorem replies_same_frame_iff {cfg : Config} {fuel fuel' : ℕ} {st stZero stCopy : State}
    {requests headsZero headsCopy : List Addr} (hecho : cfg.echoMode = false)
    (hrc : cfg.usingRefCounting = false) (hn : 1 ≤ cfg.numSegments.toNat)
    (hlayout : CopyLayout cfg st requests)
    (hzero : buildReplies (cfg.inMode true) fuel requests [] st = some (.ok headsZero, stZero))
    (hcopy : buildReplies (cfg.inMode false) fuel' requests [] st = some (.ok headsCopy, stCopy))
    {i : ℕ} {request : Addr} (hrequest : requests[i]? = some request) :
    ∃ mZero nodesZero mCopy nodesCopy,
      headsZero[i]? = some mZero ∧ stZero.heap.IsChain (some mZero) nodesZero ∧
      headsCopy[i]? = some mCopy ∧ stCopy.heap.IsChain (some mCopy) nodesCopy ∧
      (SameButChecksums (transmittedFrame (cfg.inMode true) stZero i nodesZero)
          (transmittedFrame (cfg.inMode false) stCopy i nodesCopy) ↔
        st.mem.read ((st.txBufMempool.freeList.getD i 0).toNat + 50) 8 =
          le64 (replyChecksum cfg st i request)) := by
  obtain ⟨mZero, nodesZero, hheadZero, hchainZero, hframeZero⟩ :=
    buildReplies_transmittedFrame (hlayout.batchOk hecho hrc hn true) hzero hrequest
  obtain ⟨mCopy, nodesCopy, hheadCopy, hchainCopy, hframeCopy⟩ :=
    buildReplies_transmittedFrame (hlayout.batchOk hecho hrc hn false) hcopy hrequest
  refine ⟨mZero, nodesZero, mCopy, nodesCopy, hheadZero, hchainZero, hheadCopy, hchainCopy, ?_⟩
  rw [hframeZero, hframeCopy]
  exact sameButChecksums_iff cfg st i request _

/-- The layout of the sample batch, in either mode. -/
theorem copyLayout_oneRequestState :
    CopyLayout (oneRegionServer true) oneRequestState [0x5000] := by
  obtain ⟨-, hfits, hnodup, hfresh, hbuffers, hworkingSet, hrequests⟩ :=
    (batchOk_oneRequestState false).copy rfl
  exact ⟨workingSetOk_oneRegionServer true, hfits, hnodup, hfresh, hbuffers, hworkingSet, hrequests⟩

/-- The reply to the sample request is the same in both modes, since its checksum
is zero and its transmit buffer is zeroed. -/
theorem replies_same_frame_oneRequest :
    ∃ headsZero stZero headsCopy stCopy mZero nodesZero mCopy nodesCopy,
      buildReplies ((oneRegionServer true).inMode true) 4 [0x5000] [] oneRequestState =
        some (.ok headsZero, stZero) ∧
      buildReplies ((oneRegionServer true).inMode false) 4 [0x5000] [] oneRequestState =
        some (.ok headsCopy, stCopy) ∧
      headsZero[0]? = some mZero ∧ headsCopy[0]? = some mCopy ∧
      SameButChecksums (transmittedFrame ((oneRegionServer true).inMode true) stZero 0 nodesZero)
        (transmittedFrame ((oneRegionServer true).inMode false) stCopy 0 nodesCopy) := by
  obtain ⟨headsZero, stZero, hzero⟩ : ∃ heads st',
      buildReplies ((oneRegionServer true).inMode true) 4 [0x5000] [] oneRequestState =
        some (.ok heads, st') := ⟨_, _, rfl⟩
  obtain ⟨headsCopy, stCopy, hcopy⟩ : ∃ heads st',
      buildReplies ((oneRegionServer true).inMode false) 4 [0x5000] [] oneRequestState =
        some (.ok heads, st') := ⟨_, _, rfl⟩
  obtain ⟨mZero, nodesZero, mCopy, nodesCopy, hheadZero, -, hheadCopy, -, hiff⟩ :=
    replies_same_frame_iff rfl rfl (by decide) copyLayout_oneRequestState hzero hcopy (i := 0) rfl
  exact ⟨headsZero, stZero, headsCopy, stCopy, mZero, nodesZero, mCopy, nodesCopy, hzero, hcopy,
    hheadZero, hheadCopy, hiff.mpr (by decide)⟩

/-- The same state with transmit buffers that were used before. -/
def usedBufferState : State :=
  { oneRequestState with mem := fun a => if a < 0x200000 then oneRequestState.mem a else 1 }

/-- With a recycled transmit buffer the frames differ in the eight bytes of the checksum. -/
theorem replies_differ_usedBuffer :
    ¬ ∀ (cfg : Config) (fuel : ℕ) (st stZero stCopy : State)
      (requests headsZero headsCopy : List Addr) (i : ℕ) (request mZero mCopy : Addr)
      (nodesZero nodesCopy : List Addr),
      cfg.echoMode = false → cfg.usingRefCounting = false → 1 ≤ cfg.numSegments.toNat →
      cfg.numSegments.toNat ≤ 32 → CopyLayout cfg st requests →
      (checkValidPacket st.mem (st.heap request) cfg.serverMac).isSome = true →
      buildReplies (cfg.inMode true) fuel requests [] st = some (.ok headsZero, stZero) →
      buildReplies (cfg.inMode false) fuel requests [] st = some (.ok headsCopy, stCopy) →
      requests[i]? = some request → headsZero[i]? = some mZero →
      stZero.heap.IsChain (some mZero) nodesZero → headsCopy[i]? = some mCopy →
      stCopy.heap.IsChain (some mCopy) nodesCopy →
      SameButChecksums (transmittedFrame (cfg.inMode true) stZero i nodesZero)
        (transmittedFrame (cfg.inMode false) stCopy i nodesCopy) := by
  intro hclaim
  have hlayout : CopyLayout (oneRegionServer true) usedBufferState [0x5000] := by
    obtain ⟨hws, hfits, hnodup, hfresh, hbuffers, hworkingSet, hrequests⟩ :=
      copyLayout_oneRequestState
    exact ⟨hws, hfits, hnodup, hfresh, hbuffers, hworkingSet, hrequests⟩
  obtain ⟨headsZero, stZero, hzero⟩ : ∃ heads st',
      buildReplies ((oneRegionServer true).inMode true) 4 [0x5000] [] usedBufferState =
        some (.ok heads, st') := ⟨_, _, rfl⟩
  obtain ⟨headsCopy, stCopy, hcopy⟩ : ∃ heads st',
      buildReplies ((oneRegionServer true).inMode false) 4 [0x5000] [] usedBufferState =
        some (.ok heads, st') := ⟨_, _, rfl⟩
  obtain ⟨mZero, nodesZero, hheadZero, hchainZero, hframeZero⟩ :=
    buildReplies_transmittedFrame (hlayout.batchOk rfl rfl (by decide) true) hzero (i := 0) rfl
  obtain ⟨mCopy, nodesCopy, hheadCopy, hchainCopy, hframeCopy⟩ :=
    buildReplies_transmittedFrame (hlayout.batchOk rfl rfl (by decide) false) hcopy (i := 0) rfl
  have hsame := hclaim (oneRegionServer true) 4 usedBufferState stZero stCopy [0x5000] headsZero
    headsCopy 0 0x5000 mZero mCopy nodesZero nodesCopy rfl rfl (by decide) (by decide) hlayout
    (by decide) hzero hcopy rfl hheadZero hchainZero hheadCopy hchainCopy
  rw [hframeZero, hframeCopy] at hsame
  have hbuffer := (sameButChecksums_iff (oneRegionServer true) usedBufferState 0 0x5000 _).mp hsame
  have hdiffer : usedBufferState.mem.read
      ((usedBufferState.txBufMempool.freeList.getD 0 0).toNat + 50) 8 ≠
        le64 (replyChecksum (oneRegionServer true) usedBufferState 0 0x5000) := by decide
  exact hdiffer hbuffer

end Mlx5Netperf
