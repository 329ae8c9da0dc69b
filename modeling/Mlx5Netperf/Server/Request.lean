import Mlx5Netperf.State

/-!
# Reading and Answering One Request

The functions of `main.c` that look at one received packet: its validity check,
its segment list, the checksum over its cache lines, and the two ways to make a
reply header from it. The read-modify-write functions are kept in the order of
their statements, on memory.
-/

namespace Mlx5Netperf

open ByteMemory

/-! ## Reading -/

/-- `check_valid_packet`: the payload and its length, or `none` for a packet that
is not for us. -/
def checkValidPacket (mem : ByteMemory) (m : Mbuf) (ourEth : EthAddr) : Option (ℕ × UInt32) :=
  let ptr := (mbufData m).toNat
  let eth := EthHdr.ofMem mem ptr
  let ipv4 := IpHdr.ofMem mem (ptr + sizeofEthHdr)
  if ourEth ≠ eth.dhost then none
  else if ntohs eth.type ≠ ethtypeIp then none
  else if ipv4.proto ≠ ipprotoUdp then none
  else some (ptr + sizeofEthHdr + sizeofIpHdr + sizeofUdpHdr,
    mbufLength m - UInt32.ofNat fullHeaderSize)

/-- `payload` in `process_server_requests` -/
def payloadPtr (m : Mbuf) : ℕ := (mbufData m).toNat + fullHeaderSize

/-- `payload_len` in `process_server_requests`: a 32-bit difference, then widened. -/
def payloadLen (m : Mbuf) : ℕ := (mbufLength m - UInt32.ofNat fullHeaderSize).toNat

/-- `segments[seg] = read_u64(payload, seg + SEGLIST_OFFSET)` for every segment -/
def readSegments (cfg : Config) (mem : ByteMemory) (payload : ℕ) : List UInt64 :=
  (List.range cfg.numSegments.toNat).map fun seg => readU64 mem (payload + (seg + segListOffset) * 8)

/-- The pointers that the loop of `calculate_checksum` stops at. -/
def checksumPtrs (payload amtToAdd payloadLen : ℕ) : List ℕ :=
  List.range' (payload + amtToAdd) ((payloadLen - amtToAdd + 63) / 64) 64

/-- `calculate_checksum` -/
def calculateChecksum (mem : ByteMemory) (payload amtToAdd payloadLen : ℕ) : UInt64 :=
  (checksumPtrs payload amtToAdd payloadLen).foldl
    (fun ret ptr => ret + if mem ptr = 97 then 1 else 2) 0

/-- `64 - sizeof(OutgoingHeader)` -/
def amtToAdd : ℕ := 64 - sizeofOutgoingHeader

/-- The checksum over the received payload. -/
def incomingChecksum (mem : ByteMemory) (m : Mbuf) : UInt64 :=
  calculateChecksum mem (payloadPtr m) amtToAdd (payloadLen m)

/-! ## Reply headers -/

/-- `parse_outgoing_request_header` -/
def parseOutgoingRequestHeader (requestHeader : RequestHeader) (mem : ByteMemory) (m : Mbuf)
    (payloadSize : UInt64) : RequestHeader :=
  let ptr := (mbufData m).toNat
  let eth := EthHdr.ofMem mem ptr
  let ptr := ptr + sizeofEthHdr
  let ipv4 := IpHdr.ofMem mem ptr
  let ptr := ptr + sizeofIpHdr
  let udp := UdpHdr.ofMem mem ptr
  let ptr := ptr + sizeofUdpHdr
  let packetId := readU32 mem ptr
  initializeReverseRequestHeader requestHeader eth ipv4 udp payloadSize packetId

/-- `parse_outgoing_request_header_into_mbuf`: the packet id first, then the
reversed headers. The UDP checksum is not written. -/
def parseOutgoingRequestHeaderIntoMbuf (mem : ByteMemory) (outgoing m : Mbuf)
    (payloadSize : UInt64) : ByteMemory :=
  let out := (mbufData outgoing).toNat
  let ptr := (mbufData m).toNat
  let outgoingIpv4 := out + sizeofEthHdr
  let ipv4 := ptr + sizeofEthHdr
  let outgoingUdp := outgoingIpv4 + sizeofIpHdr
  let udp := ipv4 + sizeofIpHdr
  let outgoingPacketId := outgoingUdp + sizeofUdpHdr
  -- behind the UDP header stands the id of the packet
  let packetId := readU32 mem (udp + sizeofUdpHdr)
  let mem := mem.store ⟨outgoingPacketId, le32 packetId⟩
  let mem := mem.store ⟨outgoingPacketId + 4, le32 0⟩
  -- the hosts change places
  let mem := mem.store ⟨out + 6, mem.read ptr 6⟩
  let mem := mem.store ⟨out, mem.read (ptr + 6) 6⟩
  let mem := mem.store ⟨out + 12, le16 (htons ethtypeIp)⟩
  -- the IPv4 header in the order of its fields, its checksum left zero
  let mem := mem.store ⟨outgoingIpv4, [versionIhl]⟩
  let mem := mem.store ⟨outgoingIpv4 + 1, [0]⟩
  let mem := mem.store ⟨outgoingIpv4 + 2, le16 (htons (20 + 8 + payloadSize).toUInt16)⟩
  let mem := mem.store ⟨outgoingIpv4 + 4, le16 (htons 1)⟩
  let mem := mem.store ⟨outgoingIpv4 + 6, le16 0⟩
  let mem := mem.store ⟨outgoingIpv4 + 8, [64]⟩
  let mem := mem.store ⟨outgoingIpv4 + 9, [ipprotoUdp]⟩
  let mem := mem.store ⟨outgoingIpv4 + 10, le16 0⟩
  let mem := mem.store ⟨outgoingIpv4 + 16, mem.read (ipv4 + 12) 4⟩
  let mem := mem.store ⟨outgoingIpv4 + 12, mem.read (ipv4 + 16) 4⟩
  -- the ports change places
  let mem := mem.store ⟨outgoingUdp, mem.read (udp + 2) 2⟩
  let mem := mem.store ⟨outgoingUdp + 2, mem.read udp 2⟩
  mem.store ⟨outgoingUdp + 4, le16 (htons (8 + payloadSize).toUInt16)⟩

/-! ## Echo -/

/-- The headers of a request with source and destination swapped, before the
size check of `flip_headers`. -/
def flipHeadersStores (mem : ByteMemory) (ptr : ℕ) (outgoingSize : UInt64) : ByteMemory :=
  let tmpEther := mem.read ptr 6
  let mem := mem.store ⟨ptr, mem.read (ptr + 6) 6⟩
  let mem := mem.store ⟨ptr + 6, tmpEther⟩
  let ipv4 := ptr + sizeofEthHdr
  -- the checksum is cleared before it is computed
  let mem := mem.store ⟨ipv4 + 10, le16 0⟩
  let mem := mem.store ⟨ipv4 + 2, le16 (htons (20 + 8 + outgoingSize).toUInt16)⟩
  let tmp := mem.read (ipv4 + 16) 4
  let mem := mem.store ⟨ipv4 + 16, mem.read (ipv4 + 12) 4⟩
  let mem := mem.store ⟨ipv4 + 12, tmp⟩
  let mem := mem.store ⟨ipv4 + 10, le16 (getChksum (mem.read ipv4 20))⟩
  let udp := ipv4 + sizeofIpHdr
  let tmpUdp := mem.read (udp + 2) 2
  let mem := mem.store ⟨udp + 2, mem.read udp 2⟩
  let mem := mem.store ⟨udp, tmpUdp⟩
  let mem := mem.store ⟨udp + 4, le16 (htons (8 + outgoingSize).toUInt16)⟩
  -- the UDP checksum that was received is not cleared
  mem.store ⟨udp + 6, le16 (getChksum (mem.read udp 8))⟩

/-- `flip_headers`: the return code, the memory and the request. -/
def flipHeaders (mem : ByteMemory) (m : Mbuf) (outgoingSize : UInt64) :
    Int32 × ByteMemory × Mbuf :=
  -- the headers are changed before the size is checked
  let mem := flipHeadersStores mem (mbufData m).toNat outgoingSize
  if m.headLen.toUInt64 < outgoingSize + UInt64.ofNat sizeofRequestHeader then (-einval, mem, m)
  else (0, mem, { m with len := (outgoingSize + UInt64.ofNat sizeofRequestHeader).toUInt32 })

end Mlx5Netperf
