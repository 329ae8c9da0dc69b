import Mlx5Netperf.Server.Request

/-!
# What the Client Sends and the Server Reads

The frame that `do_client` builds for a request, and whether the server finds
the request in it. The client copies an `OutgoingHeader` object with its
padding; the server looks for the headers without.
-/

namespace Mlx5Netperf

open ByteMemory ByteOrder

/-! ## The client -/

/-- The options of a client that end up in its frames. -/
structure ClientConfig where
  clientMac : EthAddr
  serverMac : EthAddr
  clientIp : UInt32
  serverIp : UInt32
  clientPort : UInt32
  serverPort : UInt32
  numSegments : UInt64
  txLkey : UInt32

/-- `client_payload_size` -/
def clientPayloadSize (cfg : ClientConfig) : UInt64 := 8 * (cfg.numSegments + 1)

/-- The static header of `init_workload`. -/
def clientHeader (cfg : ClientConfig) : OutgoingHeader :=
  initializeOutgoingHeader cfg.clientMac cfg.serverMac cfg.clientIp cfg.serverIp
    cfg.clientPort.toUInt16 cfg.serverPort.toUInt16 (clientPayloadSize cfg)

/-- `REQ_MBUFS_SIZE` -/
def reqMbufsSize : UInt32 := 16384

/-- `do_client` fills a packet: header object first, then the request behind its timestamp.
The copy ends with the request here; that of the code goes on behind it when there are
more than `MAX_SCATTERS` segments. -/
def fillClientPacket (cfg : ClientConfig) (r : ClientRequest) (mem : ByteMemory) (pkt : Mbuf)
    (buffer : Addr) : ByteMemory × Mbuf :=
  let pkt := mbufInit pkt buffer reqMbufsSize 0
  let pkt := { pkt with release := some .txCompletion, lkey := cfg.txLkey }
  let (mem, pkt) := mbufCopy mem pkt (clientHeader cfg).bytes 0
  mbufCopy mem pkt ((r.bytes.drop 8).take (clientPayloadSize cfg).toNat) sizeofOutgoingHeader

/-- The data of a packet in memory. -/
def packetBytes (packet : ByteMemory × Mbuf) : List UInt8 :=
  packet.1.read (mbufData packet.2).toNat (mbufLength packet.2).toNat

/-- The frame of a request: the header object, the ids and the first `num_segments` offsets,
of which a request has `MAX_SCATTERS`. -/
def clientFrame (cfg : ClientConfig) (r : ClientRequest) : List UInt8 :=
  (clientHeader cfg).bytes ++ (r.bytes.drop 8).take (clientPayloadSize cfg).toNat

section Client

variable {cfg : ClientConfig} {r : ClientRequest}

theorem ClientRequest.length_bytes (r : ClientRequest) : r.bytes.length = 272 := by
  have hsegs : (r.segmentOffsets.toList.map le64).flatten.length = 256 := by
    rw [List.length_flatten, List.map_map]
    have hlen : ∀ s ∈ r.segmentOffsets.toList, (List.length ∘ le64) s = 8 := fun s _ => by simp
    rw [List.map_congr_left hlen]
    simp
  simp [ClientRequest.bytes_eq, hsegs]

theorem clientPayloadSize_toNat (hn : cfg.numSegments.toNat ≤ 32) :
    (clientPayloadSize cfg).toNat = 8 * (cfg.numSegments.toNat + 1) := by
  rw [clientPayloadSize, UInt64.toNat_mul, UInt64.toNat_add]
  show 8 * ((cfg.numSegments.toNat + 1) % 2 ^ 64) % 2 ^ 64 = _
  omega

theorem length_clientFrame (hn : cfg.numSegments.toNat ≤ 32) :
    (clientFrame cfg r).length = 44 + 8 * (cfg.numSegments.toNat + 1) := by
  rw [clientFrame, List.length_append, OutgoingHeader.length_bytes, List.length_take,
    List.length_drop, r.length_bytes, clientPayloadSize_toNat hn, sizeofOutgoingHeader]
  omega

/-- **What the client transmits** is the frame of the request. -/
theorem packetBytes_fillClientPacket (hn : cfg.numSegments.toNat ≤ 32) (mem : ByteMemory)
    (pkt : Mbuf) (buffer : Addr) :
    packetBytes (fillClientPacket cfg r mem pkt buffer) = clientFrame cfg r := by
  have hsize := clientPayloadSize_toNat hn
  -- the timestamp stays behind, the ids and offsets are taken
  have hlen : ((r.bytes.drop 8).take (clientPayloadSize cfg).toNat).length =
      8 * (cfg.numSegments.toNat + 1) := by
    rw [List.length_take, List.length_drop, r.length_bytes, hsize]
    omega
  have hdata : buffer + (0 : UInt32).toUInt64 = buffer := by simp
  -- the two copies add up to the length of the frame
  have hpkt : (fillClientPacket cfg r mem pkt buffer).2.len.toNat = (clientFrame cfg r).length := by
    rw [length_clientFrame hn]
    simp only [fillClientPacket, mbufCopy, mbufInit, hlen, OutgoingHeader.length_bytes,
      sizeofOutgoingHeader, UInt32.toNat_add, UInt32.toNat_ofNat', UInt32.toNat_zero]
    omega
  have hread := read_stores_consecutive mem buffer.toNat
    [(clientHeader cfg).bytes, (r.bytes.drop 8).take (clientPayloadSize cfg).toNat]
  rw [packetBytes, mbufLength, hpkt]
  simpa [fillClientPacket, mbufCopy, mbufInit, mbufData, hdata, clientFrame, consecutive]
    using hread

end Client

/-! ## The server -/

/-- The packet `m` was received as the frame `frame`. -/
structure ReceivedAs (mem : ByteMemory) (m : Mbuf) (frame : List UInt8) : Prop where
  len : (mbufLength m).toNat = frame.length
  bytes : mem.read (mbufData m).toNat frame.length = frame

/-- The server accepts the packet and finds in it the request, and the client's
and its own addresses. -/
structure ServerDecodes (cfg : ClientConfig) (server : Config) (mem : ByteMemory) (m : Mbuf)
    (r : ClientRequest) : Prop where
  accepted : ∃ len, checkValidPacket mem m server.serverMac = some (payloadPtr m, len)
  packetId : ∀ h size, (parseOutgoingRequestHeader h mem m size).packetId = r.packetId
  segments : readSegments server mem (payloadPtr m) =
    r.segmentOffsets.toList.take cfg.numSegments.toNat
  shost : (EthHdr.ofMem mem (mbufData m).toNat).shost = cfg.clientMac
  dhost : (EthHdr.ofMem mem (mbufData m).toNat).dhost = cfg.serverMac
  saddr : (IpHdr.ofMem mem ((mbufData m).toNat + sizeofEthHdr)).saddr = htonl cfg.clientIp
  daddr : (IpHdr.ofMem mem ((mbufData m).toNat + sizeofEthHdr)).daddr = htonl cfg.serverIp
  srcPort : (UdpHdr.ofMem mem ((mbufData m).toNat + sizeofEthHdr + sizeofIpHdr)).srcPort =
    htons cfg.clientPort.toUInt16
  dstPort : (UdpHdr.ofMem mem ((mbufData m).toNat + sizeofEthHdr + sizeofIpHdr)).dstPort =
    htons cfg.serverPort.toUInt16

section Server

variable {cfg : ClientConfig} {server : Config} {mem : ByteMemory} {m : Mbuf} {r : ClientRequest}

/-- Where the server looks for the protocol, the frame has the second byte of
the fragment offset, which the client sets to zero. -/
theorem getElem_clientFrame_proto (cfg : ClientConfig) (r : ClientRequest) :
    (clientFrame cfg r)[23]? = some 0 := by
  simp [clientFrame, OutgoingHeader.bytes_eq, clientHeader, initializeOutgoingHeader,
    IpHdr.bytes, List.getElem?_append, le16, leBytes]

/-- The server rejects every frame of the client. -/
theorem checkValidPacket_clientFrame (hn : cfg.numSegments.toNat ≤ 32)
    (hreceived : ReceivedAs mem m (clientFrame cfg r)) (ourEth : EthAddr) :
    checkValidPacket mem m ourEth = none := by
  have hlen := length_clientFrame (r := r) hn
  -- byte 23 of the frame is not the protocol
  have hproto : mem ((mbufData m).toNat + 23) = 0 := by
    have hbyte := getElem_clientFrame_proto cfg r
    rw [← hreceived.bytes, List.getElem?_eq_getElem (by simp; omega), getElem_read] at hbyte
    exact Option.some.inj hbyte
  have hnot : (IpHdr.ofMem mem ((mbufData m).toNat + sizeofEthHdr)).proto ≠ ipprotoUdp := by
    show mem ((mbufData m).toNat + 23) ≠ ipprotoUdp
    rw [hproto]
    decide
  unfold checkValidPacket
  simp only [hnot, ne_eq, not_false_eq_true, if_true]
  -- whatever the addresses and the type are
  split
  · rfl
  · split <;> rfl

/-- A rejected request is not decoded. -/
theorem not_serverDecodes (hn : cfg.numSegments.toNat ≤ 32)
    (hreceived : ReceivedAs mem m (clientFrame cfg r)) :
    ¬ ServerDecodes cfg server mem m r := by
  rintro ⟨⟨len, haccepted⟩, -⟩
  rw [checkValidPacket_clientFrame hn hreceived] at haccepted
  simp at haccepted

/-- **The decoders never agree with the encoder**: whatever the client is
configured to send, the server that receives it does not find the request. -/
theorem client_request_never_decoded {clientMem : ByteMemory} {pkt : Mbuf} {buffer : Addr}
    (hn : cfg.numSegments.toNat ≤ 32)
    (hreceived : ReceivedAs mem m (packetBytes (fillClientPacket cfg r clientMem pkt buffer))) :
    ¬ ServerDecodes cfg server mem m r := by
  rw [packetBytes_fillClientPacket hn] at hreceived
  exact not_serverDecodes hn hreceived

end Server

/-- A client that asks for one segment. -/
def oneSegmentClient : ClientConfig where
  clientMac := #v[1, 2, 3, 4, 5, 6]
  serverMac := #v[6, 5, 4, 3, 2, 1]
  clientIp := 0x0a000001
  serverIp := 0x0a000002
  clientPort := 54321
  serverPort := 54321
  numSegments := 1
  txLkey := 0

/-- Its first request. -/
def firstRequest : ClientRequest := ⟨0, 0, 0, Vector.replicate 32 0⟩

/-- The packet of the first request in an empty memory, and a memory and an mbuf
that hold what the server receives. -/
def firstPacket : ByteMemory × Mbuf :=
  fillClientPacket oneSegmentClient firstRequest (fun _ => 0) Mbuf.zeroed 0x1000

theorem firstPacket_receivedAs :
    ReceivedAs firstPacket.1 firstPacket.2 (packetBytes firstPacket) := by
  refine ⟨?_, ?_⟩ <;> simp [packetBytes]

/-- The server does not find the first request in its frame. -/
theorem client_request_never_decoded_firstPacket :
    ¬ ServerDecodes oneSegmentClient { Config.default with
      serverMac := oneSegmentClient.serverMac } firstPacket.1 firstPacket.2 firstRequest :=
  client_request_never_decoded (by decide) firstPacket_receivedAs

/-- The server rejects the frame of the first request, although it is addressed to it. -/
theorem firstPacket_rejected :
    ¬ ∀ (cfg : ClientConfig) (server : Config) (r : ClientRequest) (clientMem mem : ByteMemory)
      (pkt m : Mbuf) (buffer : Addr),
      1 ≤ cfg.numSegments.toNat → cfg.numSegments.toNat ≤ 32 →
      server.numSegments = cfg.numSegments → server.serverMac = cfg.serverMac →
      ReceivedAs mem m (packetBytes (fillClientPacket cfg r clientMem pkt buffer)) →
      ServerDecodes cfg server mem m r := by
  intro hclaim
  have hdecodes := hclaim oneSegmentClient
    { Config.default with serverMac := oneSegmentClient.serverMac } firstRequest (fun _ => 0)
    firstPacket.1 Mbuf.zeroed firstPacket.2 0x1000 (by decide) (by decide) rfl rfl
    firstPacket_receivedAs
  have hreceived := firstPacket_receivedAs
  rw [firstPacket, packetBytes_fillClientPacket (by decide)] at hreceived
  exact not_serverDecodes (by decide) hreceived hdecodes

end Mlx5Netperf
