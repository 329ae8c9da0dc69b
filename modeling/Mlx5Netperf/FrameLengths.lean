import Mlx5Netperf.Client.Reply
import Mlx5Netperf.Server.FlipHeaders
import Mlx5Netperf.Server.ReplyChecksums

/-!
# Length Fields and Transmitted Lengths

The program builds frames in four ways. Each sets the length fields of its
headers in one place and the number of transmitted bytes in another: in the two
reply modes they agree, the client sends two bytes of padding more than its
headers say, and an echo 22 bytes more.
-/

namespace Mlx5Netperf

open ByteMemory ByteOrder

/-! ## The fields -/

/-- The ways in which the program makes a frame. -/
inductive FrameKind where
  | request
  | zeroCopy
  | copy
  | echo
  deriving DecidableEq

/-- Where the program writes the IPv4 header: in an `OutgoingHeader` it is
aligned, elsewhere it follows the Ethernet header. -/
def FrameKind.ipv4Offset : FrameKind → ℕ
  | .request => 16
  | _ => sizeofEthHdr

/-- The length fields of the headers at `o` say what is transmitted. -/
def LengthsMatch (o : ℕ) (frame : List UInt8) : Prop :=
  beValue (slice frame (o + 2) 2) + 14 = frame.length ∧
    beValue (slice frame (o + 24) 2) + 34 = frame.length

/-- A field in network order. -/
theorem beValue_le16_htons (x : UInt16) : beValue (le16 (htons x)) = x.toNat := by
  have hlt : x.toNat < 256 ^ 2 := x.toNat_lt
  rw [le16, htons, toNat_bswap16, leBytes_swap, beValue_beBytes_of_lt hlt]

/-- The fields as every path writes them, for its own payload. -/
structure LengthFields (o : ℕ) (frame : List UInt8) (payloadSize : UInt64) : Prop where
  ipv4 : slice frame (o + 2) 2 = le16 (htons (20 + 8 + payloadSize).toUInt16)
  udp : slice frame (o + 24) 2 = le16 (htons (8 + payloadSize).toUInt16)

/-- **Which payload matches**: the one that the frame has behind its UDP header,
when it is counted from 42 bytes on. -/
theorem LengthFields.lengthsMatch_iff {o : ℕ} {frame : List UInt8} {payloadSize : UInt64}
    (h : LengthFields o frame payloadSize) :
    LengthsMatch o frame ↔ (28 + payloadSize.toNat) % 65536 + 14 = frame.length ∧
      (8 + payloadSize.toNat) % 65536 + 34 = frame.length := by
  -- a field has 16 bits, whatever the payload
  have hudp : ((8 + payloadSize).toUInt16).toNat = (8 + payloadSize.toNat) % 65536 := by
    have hsum : (8 + payloadSize).toNat = (8 + payloadSize.toNat) % 2 ^ 64 := UInt64.toNat_add ..
    rw [UInt64.toNat_toUInt16, hsum]
    omega
  have hipv4 : ((20 + 8 + payloadSize).toUInt16).toNat = (28 + payloadSize.toNat) % 65536 := by
    have hsum : (20 + 8 + payloadSize).toNat = (28 + payloadSize.toNat) % 2 ^ 64 :=
      UInt64.toNat_add ..
    rw [UInt64.toNat_toUInt16, hsum]
    omega
  rw [LengthsMatch, h.ipv4, h.udp, beValue_le16_htons, beValue_le16_htons, hipv4, hudp]

/-- A slice of bytes in memory. -/
theorem slice_read (mem : ByteMemory) (p : ℕ) {k o n : ℕ} (hle : o + n ≤ k) :
    slice (mem.read p k) o n = mem.read (p + o) n := by
  obtain ⟨rest, rfl⟩ := Nat.exists_eq_add_of_le hle
  have hlength : (mem.read p o).length = o := length_read ..
  rw [slice, Nat.add_assoc, read_add, List.drop_left' hlength, read_add,
    List.take_left' (length_read ..)]

/-- A slice behind a front of the frame. -/
theorem slice_append (front rest : List UInt8) (o n : ℕ) :
    slice (front ++ rest) (front.length + o) n = slice rest o n := by
  simp only [slice, List.drop_append, List.drop_eq_nil_of_le (Nat.le_add_right front.length o),
    Nat.add_sub_cancel_left, List.nil_append]

/-- The fields of two headers that lie behind each other. -/
theorem lengthFields_of_headers {front rest : List UInt8} {ipv4 : IpHdr} {udp : UdpHdr}
    {payloadSize : UInt64} (hipv4 : ipv4.len = htons (20 + 8 + payloadSize).toUInt16)
    (hudp : udp.len = htons (8 + payloadSize).toUInt16) :
    LengthFields front.length (front ++ (ipv4.bytes ++ (udp.bytes ++ rest))) payloadSize := by
  constructor
  · rw [slice_append, ← hipv4]
    simp [slice, IpHdr.bytes]
  -- the UDP length is 24 bytes behind the IPv4 header
  · have hlength : front.length + 24 = (front ++ ipv4.bytes).length + 4 := by simp
    rw [hlength, ← List.append_assoc, slice_append, ← hudp]
    simp [slice, UdpHdr.bytes, List.drop_append, List.drop_eq_nil_of_le]

/-- The fields depend on the front of a frame only. -/
theorem LengthFields.of_take {o k : ℕ} {frame frame' : List UInt8} {payloadSize : UInt64}
    (h : LengthFields o frame payloadSize) (htake : frame'.take k = frame.take k)
    (hle : o + 26 ≤ k) : LengthFields o frame' payloadSize := by
  constructor
  · rw [slice_of_take htake (by omega), ← slice_of_take rfl (by omega), h.ipv4]
  · rw [slice_of_take htake (by omega), ← slice_of_take rfl (by omega), h.udp]

/-! ## Requests -/

section Request

variable {cfg : ClientConfig} {r : ClientRequest}

theorem lengthFields_clientFrame (cfg : ClientConfig) (r : ClientRequest) :
    LengthFields 16 (clientFrame cfg r) (clientPayloadSize cfg) := by
  -- the Ethernet header and its two bytes of padding stand in front
  have hframe : clientFrame cfg r = ((clientHeader cfg).eth.bytes ++ [0, 0]) ++
      ((clientHeader cfg).ipv4.bytes ++ ((clientHeader cfg).udp.bytes ++
        (r.bytes.drop 8).take (clientPayloadSize cfg).toNat)) := by
    simp only [clientFrame, OutgoingHeader.bytes_eq, List.append_assoc]
  have hfront : ((clientHeader cfg).eth.bytes ++ [0, 0]).length = 16 := by simp
  rw [hframe, ← hfront]
  exact lengthFields_of_headers rfl rfl

/-- The padding of the header object is sent as well. -/
theorem not_lengthsMatch_clientFrame (hn : cfg.numSegments.toNat ≤ 32) :
    ¬ LengthsMatch 16 (clientFrame cfg r) := by
  rw [(lengthFields_clientFrame cfg r).lengthsMatch_iff, length_clientFrame hn,
    clientPayloadSize_toNat hn]
  -- the headers count 14 + 20 + 8 bytes in front of the payload, and 44 are sent
  omega

end Request

/-! ## Replies -/

section Reply

variable {cfg : Config} {fuel i : ℕ} {st st' : State} {request m : Addr}
  {requests heads nodes : List Addr}

theorem lengthFields_replyHeader (cfg : Config) (st : State) (i : ℕ) (request : Addr)
    (checksum : UInt64) (rest : List UInt8) :
    LengthFields 14 ({ replyHeader cfg st i request with checksum := checksum }.wireBytes ++ rest)
      cfg.payloadSize := by
  let header := { replyHeader cfg st i request with checksum := checksum }
  have hframe : header.wireBytes ++ rest = header.packetHeader.eth.bytes ++
      (header.packetHeader.ipv4.bytes ++ (header.packetHeader.udp.bytes ++
        ((le32 header.packetId ++ le32 header.idPadding) ++ le64 header.checksum ++ rest))) := by
    simp only [RequestHeader.wireBytes, List.append_assoc]
  have hfront : header.packetHeader.eth.bytes.length = 14 := EthHdr.length_bytes _
  rw [hframe, ← hfront]
  exact lengthFields_of_headers rfl rfl

/-- The payload of a reply, as the length fields count it. -/
theorem payloadSize_mod (cfg : Config) : cfg.payloadSize.toNat % 65536 =
    (16 + cfg.numSegments.toNat * cfg.segmentSize.toNat) % 65536 := by
  have hpad : (16 : UInt64).toNat = 16 := rfl
  rw [Config.payloadSize, UInt64.toNat_add, UInt64.toNat_mul, hpad]
  omega

/-- A frame with a reply header matches when it has the data that were asked for. -/
theorem LengthFields.lengthsMatch_reply {frame : List UInt8}
    (h : LengthFields 14 frame cfg.payloadSize) {size : ℕ} (hlength : frame.length = 58 + size)
    (hsize : size % 65536 = cfg.numSegments.toNat * cfg.segmentSize.toNat % 65536)
    (hshort : frame.length ≤ 65535) : LengthsMatch 14 frame := by
  have hpayload := payloadSize_mod cfg
  rw [h.lengthsMatch_iff]
  -- 42 bytes of headers, and the id and the checksum are part of the payload
  omega

/-- **Zero-copy replies match**, also when a region is longer than an mbuf can say. -/
theorem lengthsMatch_zeroCopy (hzero : cfg.zeroCopy = true) (hecho : cfg.echoMode = false)
    (hnodup : st.mbufMempool.freeList.Nodup) (hfresh : ∀ r ∈ requests, r ∉ st.mbufMempool.freeList)
    (hbuild : buildReplies cfg fuel requests [] st = some (.ok heads, st'))
    (hhead : heads[i]? = some m) (hchain : st'.heap.IsChain (some m) nodes)
    (hshort : (transmittedFrame cfg st' i nodes).length ≤ 65535) :
    LengthsMatch 14 (transmittedFrame cfg st' i nodes) := by
  obtain ⟨built, hrun, hbuilt⟩ := buildRun_of_ok hbuild
  rw [List.nil_append] at hbuilt
  subst hbuilt
  obtain ⟨replies, hbatch, rfl⟩ := hrun.zeroCopyBatch hzero hnodup hfresh
  obtain ⟨reply, hreply, rfl⟩ : ∃ reply, replies[i]? = some reply ∧ reply.1 = m := by
    simpa using hhead
  obtain ⟨hlt, -⟩ := List.getElem?_eq_some_iff.mp hreply
  have hlt' : i < requests.length := hbatch.lists.length_eq.symm ▸ hlt
  have hrequest : requests[i]? = some requests[i] := List.getElem?_eq_getElem hlt'
  obtain ⟨m', nodes', hreply', hlist⟩ := hbatch.exists_reply hrequest
  obtain rfl : reply = (m', nodes') := Option.some.inj (hreply.symm.trans hreply')
  obtain rfl := hlist.chain.unique hchain
  -- the header comes from the state of its own round
  obtain ⟨before, -, -, hbefore, -, -⟩ := hrun.split hrequest
  have hheader := hrun.requestHeader hzero hrequest hbefore
  rw [List.length_nil, Nat.zero_add] at hheader
  have hframe : transmittedFrame cfg st' i nodes' =
      { replyHeader cfg before i requests[i] with
        checksum := replyChecksum cfg before i requests[i] +
          addedCounts cfg (requestedSegments cfg before requests[i]) before }.wireBytes ++
        gatherBytes st'.mem st'.heap nodes' := by
    rw [transmittedFrame, requestHeaderPtr, hecho, hzero]
    simp only [Bool.false_eq_true, if_false, if_true, Option.elim_some, flatMap_inlinePieces, hheader]
  have hfields : LengthFields 14 (transmittedFrame cfg st' i nodes') cfg.payloadSize := by
    rw [hframe]
    exact lengthFields_replyHeader ..
  have hlength : (transmittedFrame cfg st' i nodes').length =
      58 + cfg.numSegments.toNat * (cfg.segmentSize.toNat % 2 ^ 32) := by
    rw [hframe, List.length_append, RequestHeader.length_wireBytes, hlist.length_gatherBytes,
      length_requestedSegments, UInt64.toNat_toUInt32]
  -- a region is cut to 32 bits in an mbuf and to 16 in a field
  have hsize : cfg.numSegments.toNat * (cfg.segmentSize.toNat % 2 ^ 32) % 65536 =
      cfg.numSegments.toNat * cfg.segmentSize.toNat % 65536 := by
    rw [Nat.mul_mod, Nat.mul_mod cfg.numSegments.toNat]
    congr 2
    omega
  exact hfields.lengthsMatch_reply hlength hsize hshort

/-- **Copy replies match.** -/
theorem lengthsMatch_copy (hzero : cfg.zeroCopy = false) (hecho : cfg.echoMode = false)
    (hlayout : CopyLayout cfg st requests)
    (hbuild : buildReplies cfg fuel requests [] st = some (.ok heads, st'))
    (hhead : heads[i]? = some m) (hchain : st'.heap.IsChain (some m) nodes) :
    LengthsMatch 14 (transmittedFrame cfg st' i nodes) := by
  obtain ⟨replies, hbatch, hheads⟩ := buildReplies_copyBatch hzero hlayout hbuild
  rw [List.nil_append] at hheads
  subst hheads
  obtain ⟨reply, hreply, rfl⟩ : ∃ reply, replies[i]? = some reply ∧ reply.1 = m := by
    simpa using hhead
  obtain ⟨hlt, -⟩ := List.getElem?_eq_some_iff.mp hreply
  have hlt' : i < requests.length := hbatch.length_eq ▸ hlt
  have hrequest : requests[i]? = some requests[i] := List.getElem?_eq_getElem hlt'
  have hbuilt := hbatch.built i _ reply hrequest hreply
  obtain rfl := hchain.eq_singleton hbuilt.next
  rw [List.length_nil, Nat.zero_add] at hbuilt
  have hframe : transmittedFrame cfg st' i [reply.1] = copyFrame cfg st i requests[i] reply.2 := by
    rw [transmittedFrame, requestHeaderPtr, hecho, hzero]
    simp only [Bool.false_eq_true, if_false, Option.elim_none, List.nil_append, gatherBytes,
      List.flatMap_cons, List.flatMap_nil, List.append_nil]
    rw [hbuilt.data, hbuilt.len, hbuilt.frame]
  -- the data are copied behind the header, whose front stays as it was
  have hfront : (copyFrame cfg st i requests[i] reply.2).take 40 =
      (replyHeader cfg st i requests[i]).wireBytes.take 40 := by
    simp only [copyFrame, List.append_assoc]
    exact List.take_left' (by simp)
  have hfields := lengthFields_replyHeader cfg st i requests[i]
    (replyHeader cfg st i requests[i]).checksum []
  rw [List.append_nil] at hfields
  have hlength := length_copyFrame cfg st i requests[i] reply.2
  have hfits := hlayout.fits
  rw [hframe]
  exact (hfields.of_take hfront (by omega)).lengthsMatch_reply hlength rfl (by omega)

end Reply

/-! ## Echoes -/

section Echo

variable {cfg : Config} {i : ℕ} {st st' : State} {m : Addr} {requests heads nodes : List Addr}

/-- Where the headers of a request start. -/
def headerPtr (st : State) (request : Addr) : ℕ := (mbufData (st.heap request)).toNat

/-- One round leaves the data of every mbuf where they are. -/
theorem headerPtr_echoRequest (cfg : Config) (request : Addr) (st : State) (a : Addr) :
    headerPtr (echoRequest cfg request st).2 a = headerPtr st a := by
  -- the length is all that a round writes in an mbuf
  have hkeeps : ∀ f : Mbuf → Mbuf, (∀ b, mbufData (f b) = mbufData b) →
      mbufData (st.heap.modify request f a) = mbufData (st.heap a) := by
    intro f hf
    exact Heap.modify_keeps (P := fun b => mbufData b = mbufData (st.heap a))
      (fun b hb => (hf b).trans hb) rfl request
  rw [echoRequest_eq]
  split
  · exact congrArg UInt64.toNat (hkeeps _ fun _ => rfl)
  · exact congrArg UInt64.toNat (hkeeps _ fun _ => rfl)

theorem echoRequest_mem (cfg : Config) (request : Addr) (st : State) :
    (echoRequest cfg request st).2.mem =
      flipHeadersStores st.mem (headerPtr st request) cfg.dataSize := by
  rw [echoRequest_eq]
  split <;> rfl

/-- The length fields behind a pointer. -/
def FieldsInMemory (cfg : Config) (mem : ByteMemory) (ptr : ℕ) : Prop :=
  mem.read (ptr + 16) 2 = le16 (htons (20 + 8 + cfg.dataSize).toUInt16) ∧
    mem.read (ptr + 38) 2 = le16 (htons (8 + cfg.dataSize).toUInt16)

theorem fieldsInMemory_flipHeadersStores (cfg : Config) (mem : ByteMemory) (ptr : ℕ) :
    FieldsInMemory cfg (flipHeadersStores mem ptr cfg.dataSize) ptr := by
  have hipv4 := congrArg IpHdr.len (ipHdr_flipHeadersStores mem ptr cfg.dataSize)
  have hudp := congrArg UdpHdr.len (udpHdr_flipHeadersStores mem ptr cfg.dataSize)
  constructor
  · exact (le16_readU16 _ _).symm.trans (congrArg le16 hipv4)
  · exact (le16_readU16 _ _).symm.trans (congrArg le16 hudp)

/-- The rounds store nothing apart from the headers of their requests. -/
theorem echoRequests_read {res : Except Int32 (List Addr)} {a n : ℕ}
    (h : echoRequests cfg requests heads st = (res, st'))
    (hapart : ∀ r ∈ requests, RangesApart (headerPtr st r) 42 a n) :
    st'.mem.read a n = st.mem.read a n := by
  induction requests generalizing heads st with
  | nil =>
    obtain ⟨-, rfl⟩ := Prod.mk.inj h
    rfl
  | cons request requests ih =>
    have hround : (echoRequest cfg request st).2.mem.read a n = st.mem.read a n := by
      rw [echoRequest_mem]
      exact read_flipHeadersStores_of_apart _ _ _ (hapart request (List.mem_cons_self ..))
    have hptr := headerPtr_echoRequest cfg request st
    rw [echoRequests] at h
    rcases hret : echoRequest cfg request st with ⟨ret, st₁⟩
    rw [hret] at h hround hptr
    dsimp only at h hround hptr
    split at h
    -- the batch ends at the first request that does not fit
    case isTrue =>
      obtain ⟨-, rfl⟩ := Prod.mk.inj h
      exact hround
    case isFalse =>
      have hrest := ih h fun r hr => by
        rw [hptr]
        exact hapart r (List.mem_cons_of_mem _ hr)
      exact hrest.trans hround

/-- **Every echo has the fields of its own round**, when no two headers overlap. -/
theorem echoRequests_fields {heads' : List Addr}
    (h : echoRequests cfg requests heads st = (.ok heads', st'))
    (hapart : requests.Pairwise fun r r' => RangesApart (headerPtr st r) 42 (headerPtr st r') 42) :
    ∀ r ∈ requests, FieldsInMemory cfg st'.mem (headerPtr st r) := by
  induction requests generalizing heads st with
  | nil => exact fun r hr => absurd hr List.not_mem_nil
  | cons request requests ih =>
    obtain ⟨hfirst, hlater⟩ := List.pairwise_cons.mp hapart
    have hmem := echoRequest_mem cfg request st
    have hptr := headerPtr_echoRequest cfg request st
    rw [echoRequests] at h
    rcases hret : echoRequest cfg request st with ⟨ret, st₁⟩
    rw [hret] at h hmem hptr
    dsimp only at h hmem hptr
    split at h
    case isTrue => simp at h
    case isFalse =>
      intro r hr
      cases List.mem_cons.mp hr with
      | inl heq =>
        -- the later rounds keep away from the first headers
        subst heq
        have hkeep : ∀ o n, o + n ≤ 42 → st'.mem.read (headerPtr st r + o) n =
            st₁.mem.read (headerPtr st r + o) n := by
          intro o n hle
          refine echoRequests_read h fun r' hr' => ?_
          rw [hptr]
          have hranges := hfirst r' hr'
          simp only [RangesApart] at hranges ⊢
          omega
        have hown := fieldsInMemory_flipHeadersStores cfg st.mem (headerPtr st r)
        rw [← hmem] at hown
        exact ⟨(hkeep 16 2 (by omega)).trans hown.1, (hkeep 38 2 (by omega)).trans hown.2⟩
      | inr hin =>
        have hrest := ih h (by simpa only [hptr] using hlater) r hin
        rwa [hptr] at hrest

/-- **Headers that count 42 bytes** never match 64 bytes of header and the data. -/
theorem not_lengthsMatch_read {mem : ByteMemory} {ptr size : ℕ} (hfields : FieldsInMemory cfg mem ptr)
    (hsize : size = (cfg.dataSize.toNat + 64) % 2 ^ 64 % 2 ^ 32) (hshort : size ≤ 65535) :
    ¬ LengthsMatch 14 (mem.read ptr size) := by
  by_cases hheader : 40 ≤ size
  -- 64 bytes are added to the data, and the fields count 42
  case pos =>
    have hslices : LengthFields 14 (mem.read ptr size) cfg.dataSize := by
      constructor
      · rw [slice_read _ _ (by omega)]
        exact hfields.1
      · rw [slice_read _ _ (by omega)]
        exact hfields.2
    rw [hslices.lengthsMatch_iff, length_read]
    omega
  case neg =>
    -- a wrapped length cuts the fields off, and one of the two is too long for what is left
    intro hmatch
    obtain ⟨hipv4, hudp⟩ := hmatch
    rw [length_read] at hipv4 hudp
    by_cases hlong : 18 ≤ size
    case pos =>
      rw [slice_read _ _ (by omega)] at hipv4
      rw [show ptr + (14 + 2) = ptr + 16 from rfl, hfields.1, beValue_le16_htons,
        UInt64.toNat_toUInt16, UInt64.toNat_add] at hipv4
      have hheaders : (20 + 8 : UInt64).toNat = 28 := rfl
      omega
    case neg =>
      have hnil : slice (mem.read ptr size) (14 + 24) 2 = [] := by
        rw [slice, List.drop_eq_nil_of_le (by rw [length_read]; omega), List.take_nil]
      rw [hnil] at hudp
      have hzero : beValue [] = 0 := rfl
      omega

/-- **Echoes never match.** -/
theorem not_lengthsMatch_echo (hecho : cfg.echoMode = true)
    (hapart : requests.Pairwise fun r r' => RangesApart (headerPtr st r) 42 (headerPtr st r') 42)
    (hbuild : echoRequests cfg requests [] st = (.ok heads, st')) (hhead : heads[i]? = some m)
    (hchain : st'.heap.IsChain (some m) nodes)
    (hshort : (transmittedFrame cfg st' i nodes).length ≤ 65535) :
    ¬ LengthsMatch 14 (transmittedFrame cfg st' i nodes) := by
  have hheads := echoRequests_eq cfg requests [] st
  rw [hbuild] at hheads
  split at hheads
  case isFalse => simp at hheads
  -- every request of the batch was accepted
  case isTrue =>
    obtain rfl : heads = requests := Except.ok.inj hheads
    have hmem : m ∈ heads := List.mem_of_getElem? hhead
    have hself := echoRequests_heap hbuild m hmem
    have hfields := echoRequests_fields hbuild hapart m hmem
    obtain rfl := hchain.eq_singleton (by rw [hself]; rfl)
    let size := (cfg.dataSize + UInt64.ofNat sizeofRequestHeader).toUInt32.toNat
    have hframe : transmittedFrame cfg st' i [m] = st'.mem.read (headerPtr st m) size := by
      rw [transmittedFrame, requestHeaderPtr, hecho]
      simp only [if_true, Option.elim_none, List.nil_append, gatherBytes, List.flatMap_cons,
        List.flatMap_nil, List.append_nil]
      rw [hself]
      rfl
    -- `outgoing_size` is 64 bits wide, the length of an mbuf 32
    have hsize : size = (cfg.dataSize.toNat + 64) % 2 ^ 64 % 2 ^ 32 := by
      show UInt32.toNat _ = _
      rw [UInt64.toNat_toUInt32, UInt64.toNat_add]
      rfl
    rw [hframe, length_read] at hshort
    rw [hframe]
    exact not_lengthsMatch_read hfields hsize hshort

end Echo

/-! ## All frames -/

/-- The frames that the program transmits: the packet of `do_client`, and the
replies of a batch in its three modes. The packets are in separate buffers. As in the
model the list of segments has no end, the replies are the program's for at most
`MAX_SCATTERS` segments. -/
inductive Transmitted : FrameKind → List UInt8 → Prop where
  | request {cfg : ClientConfig} {r : ClientRequest} {mem : ByteMemory} {pkt : Mbuf} {buffer : Addr}
      (hn : cfg.numSegments.toNat ≤ 32) :
      Transmitted .request (packetBytes (fillClientPacket cfg r mem pkt buffer))
  | zeroCopy {cfg : Config} {fuel i : ℕ} {st st' : State} {requests heads nodes : List Addr}
      {m : Addr} (hzero : cfg.zeroCopy = true) (hecho : cfg.echoMode = false)
      (hnodup : st.mbufMempool.freeList.Nodup)
      (hfresh : ∀ r ∈ requests, r ∉ st.mbufMempool.freeList)
      (hbuild : buildReplies cfg fuel requests [] st = some (.ok heads, st'))
      (hhead : heads[i]? = some m) (hchain : st'.heap.IsChain (some m) nodes) :
      Transmitted .zeroCopy (transmittedFrame cfg st' i nodes)
  | copy {cfg : Config} {fuel i : ℕ} {st st' : State} {requests heads nodes : List Addr} {m : Addr}
      (hzero : cfg.zeroCopy = false) (hecho : cfg.echoMode = false)
      (hlayout : CopyLayout cfg st requests)
      (hbuild : buildReplies cfg fuel requests [] st = some (.ok heads, st'))
      (hhead : heads[i]? = some m) (hchain : st'.heap.IsChain (some m) nodes) :
      Transmitted .copy (transmittedFrame cfg st' i nodes)
  | echo {cfg : Config} {i : ℕ} {st st' : State} {requests heads nodes : List Addr} {m : Addr}
      (hecho : cfg.echoMode = true)
      (hapart : requests.Pairwise fun r r' => RangesApart (headerPtr st r) 42 (headerPtr st r') 42)
      (hbuild : echoRequests cfg requests [] st = (.ok heads, st'))
      (hhead : heads[i]? = some m) (hchain : st'.heap.IsChain (some m) nodes) :
      Transmitted .echo (transmittedFrame cfg st' i nodes)

/-- **Which frames have the length that their headers say**: the replies that
`process_server_requests` builds, and neither requests nor echoes. -/
theorem lengths_match_iff {kind : FrameKind} {frame : List UInt8} (h : Transmitted kind frame)
    (hshort : frame.length ≤ 65535) :
    LengthsMatch kind.ipv4Offset frame ↔ kind = .zeroCopy ∨ kind = .copy := by
  cases h with
  | request hn =>
    rw [packetBytes_fillClientPacket hn]
    exact iff_of_false (not_lengthsMatch_clientFrame hn) (by simp)
  | zeroCopy hzero hecho hnodup hfresh hbuild hhead hchain =>
    exact iff_of_true
      (lengthsMatch_zeroCopy hzero hecho hnodup hfresh hbuild hhead hchain hshort) (by simp)
  | copy hzero hecho hlayout hbuild hhead hchain =>
    exact iff_of_true (lengthsMatch_copy hzero hecho hlayout hbuild hhead hchain) (by simp)
  | echo hecho hapart hbuild hhead hchain =>
    exact iff_of_false (not_lengthsMatch_echo hecho hapart hbuild hhead hchain hshort) (by simp)

/-- A zero-copy reply with one segment. -/
theorem lengths_match_oneRequest :
    ∃ heads st' m nodes,
      buildReplies (oneRegionServer true) 4 [0x5000] [] oneRequestState = some (.ok heads, st') ∧
      heads[0]? = some m ∧ st'.heap.IsChain (some m) nodes ∧
      LengthsMatch 14 (transmittedFrame (oneRegionServer true) st' 0 nodes) := by
  obtain ⟨heads, st', hbuild⟩ : ∃ heads st', buildReplies (oneRegionServer true) 4 [0x5000] []
      oneRequestState = some (.ok heads, st') := ⟨_, _, rfl⟩
  have hok := batchOk_oneRequestState true
  obtain ⟨m, nodes, hhead, hchain, hframe⟩ := buildReplies_transmittedFrame hok hbuild (i := 0) rfl
  have hlength : (transmittedFrame (oneRegionServer true) st' 0 nodes).length = 1082 := by
    rw [hframe]
    exact length_zeroCopyFrame ..
  refine ⟨heads, st', m, nodes, hbuild, hhead, hchain, ?_⟩
  exact (lengths_match_iff (.zeroCopy rfl rfl hok.nodup hok.fresh hbuild hhead hchain)
    (by rw [hlength]; decide)).mpr (.inl rfl)

/-- The first request of a client is two bytes longer than its headers say. -/
theorem not_lengths_match_firstPacket :
    ¬ ∀ (kind : FrameKind) (frame : List UInt8), Transmitted kind frame → frame.length ≤ 65535 →
      LengthsMatch kind.ipv4Offset frame := by
  intro hclaim
  have hn : oneSegmentClient.numSegments.toNat ≤ 32 := by decide
  have hlength : (packetBytes firstPacket).length = 60 := by
    rw [firstPacket, packetBytes_fillClientPacket hn]
    exact length_clientFrame hn
  have hmatch := hclaim .request (packetBytes firstPacket) (.request hn) (by omega)
  rw [firstPacket, packetBytes_fillClientPacket hn] at hmatch
  exact not_lengthsMatch_clientFrame hn hmatch

end Mlx5Netperf
