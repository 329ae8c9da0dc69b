import Mlx5Netperf.Lib.ByteOrder
import Mlx5Netperf.Net.Headers

/-!
# Requests and Request Headers

The structures of `inc/base/request.h` and the functions of `requests.c` that
fill them. `OutgoingHeader` and `RequestHeader` are not packed, so their images
in memory have padding that the bytes on the wire do not.
-/

namespace Mlx5Netperf

open ByteOrder StructLayout

/-! ## Structures -/

/-- `OutgoingHeader` -/
structure OutgoingHeader where
  eth : EthHdr
  ipv4 : IpHdr
  udp : UdpHdr
  deriving DecidableEq

/-- `RequestHeader` -/
structure RequestHeader where
  packetHeader : OutgoingHeader
  packetId : UInt32
  idPadding : UInt32
  checksum : UInt64
  deriving DecidableEq

/-- `ClientRequest` (packed) -/
structure ClientRequest where
  timestampOffset : UInt64
  packetId : UInt32
  idPadding : UInt32
  segmentOffsets : Vector UInt64 32

def maxScatters : ℕ := 32
def segListOffset : ℕ := 1
def fullProtoHeader : ℕ := 42
def pktIdSize : ℕ := 0
def fullHeaderSize : ℕ := fullProtoHeader + pktIdSize

/-- `eth_hdr` is packed, `ip_hdr` aligned to 4, `udp_hdr` to its 16-bit members. -/
def OutgoingHeader.members (h : OutgoingHeader) : List Member :=
  [⟨1, h.eth.bytes⟩, ⟨4, h.ipv4.bytes⟩, ⟨2, h.udp.bytes⟩]

/-- The bytes of an `OutgoingHeader` object. -/
def OutgoingHeader.bytes (h : OutgoingHeader) : List UInt8 := image h.members

/-- The bytes of a `RequestHeader` object. -/
def RequestHeader.bytes (h : RequestHeader) : List UInt8 :=
  image [⟨4, h.packetHeader.bytes⟩, ⟨4, le32 h.packetId⟩, ⟨4, le32 h.idPadding⟩,
    ⟨8, le64 h.checksum⟩]

/-- The bytes of a `ClientRequest` object. -/
def ClientRequest.bytes (r : ClientRequest) : List UInt8 :=
  image ([⟨1, le64 r.timestampOffset⟩, ⟨1, le32 r.packetId⟩, ⟨1, le32 r.idPadding⟩] ++
    r.segmentOffsets.toList.map fun s => ⟨1, le64 s⟩)

def sizeofOutgoingHeader : ℕ := 44
def sizeofRequestHeader : ℕ := 64

/-- Two bytes of padding separate the Ethernet header from the aligned IPv4 header. -/
theorem OutgoingHeader.bytes_eq (h : OutgoingHeader) :
    h.bytes = h.eth.bytes ++ [0, 0] ++ h.ipv4.bytes ++ h.udp.bytes := by
  simp [OutgoingHeader.bytes, OutgoingHeader.members, image, place, padding, structAlign]

@[simp] theorem OutgoingHeader.length_bytes (h : OutgoingHeader) :
    h.bytes.length = sizeofOutgoingHeader := by
  simp [OutgoingHeader.bytes_eq, sizeofOutgoingHeader]

/-- Four bytes of padding separate the id from the aligned checksum. -/
theorem RequestHeader.bytes_eq (h : RequestHeader) :
    h.bytes = h.packetHeader.bytes ++ le32 h.packetId ++ le32 h.idPadding ++ [0, 0, 0, 0] ++
      le64 h.checksum := by
  simp [RequestHeader.bytes, image, place, padding, structAlign, sizeofOutgoingHeader]

@[simp] theorem RequestHeader.length_bytes (h : RequestHeader) :
    h.bytes.length = sizeofRequestHeader := by
  simp [RequestHeader.bytes_eq, sizeofOutgoingHeader, sizeofRequestHeader]

theorem ClientRequest.bytes_eq (r : ClientRequest) :
    r.bytes = le64 r.timestampOffset ++ le32 r.packetId ++ le32 r.idPadding ++
      (r.segmentOffsets.toList.map le64).flatten := by
  rw [ClientRequest.bytes, image_packed _ (by simp)]
  simp [Function.comp_def]

/-- The header as the program sends it inline: the members one after the other,
the two ids together as eight bytes, and no padding. -/
def RequestHeader.wireBytes (h : RequestHeader) : List UInt8 :=
  h.packetHeader.eth.bytes ++ h.packetHeader.ipv4.bytes ++ h.packetHeader.udp.bytes ++
    (le32 h.packetId ++ le32 h.idPadding) ++ le64 h.checksum

@[simp] theorem RequestHeader.length_wireBytes (h : RequestHeader) : h.wireBytes.length = 58 := by
  simp [RequestHeader.wireBytes]

/-- `get_server_region(memory, idx, segment_size)` -/
def getServerRegion (memory : UInt64) (idx segmentSize : UInt64) : UInt64 :=
  memory + idx * segmentSize

/-! ## Filling headers -/

/-- `initialize_reverse_request_header`: answer to the sender of the received
headers. The UDP checksum is left as it was. -/
def initializeReverseRequestHeader (requestHeader : RequestHeader) (eth : EthHdr) (ipv4 : IpHdr)
    (udp : UdpHdr) (payloadSize : UInt64) (packetId : UInt32) : RequestHeader where
  packetHeader := {
    eth := { shost := eth.dhost, dhost := eth.shost, type := htons ethtypeIp }
    ipv4 := {
      versionIhl := versionIhl
      tos := 0
      len := htons (20 + 8 + payloadSize).toUInt16
      id := htons 1
      off := 0
      ttl := 64
      proto := ipprotoUdp
      chksum := 0
      saddr := ipv4.daddr
      daddr := ipv4.saddr }
    udp := {
      srcPort := udp.dstPort
      dstPort := udp.srcPort
      len := htons (8 + payloadSize).toUInt16
      chksum := requestHeader.packetHeader.udp.chksum } }
  packetId := packetId
  idPadding := 0
  checksum := requestHeader.checksum

/-- `initialize_outgoing_header` on the zeroed static header: the header of
every request of a client. Both checksums run over their own, still zero, field. -/
def initializeOutgoingHeader (srcAddr dstAddr : EthAddr) (srcIp dstIp : UInt32)
    (srcPort dstPort : UInt16) (payloadSize : UInt64) : OutgoingHeader :=
  let ipv4 : IpHdr := {
    versionIhl := versionIhl
    tos := 0
    len := htons (20 + 8 + payloadSize).toUInt16
    id := htons 1
    off := 0
    ttl := 64
    proto := ipprotoUdp
    chksum := 0
    saddr := htonl srcIp
    daddr := htonl dstIp }
  let udp : UdpHdr := {
    srcPort := htons srcPort
    dstPort := htons dstPort
    len := htons (8 + payloadSize).toUInt16
    chksum := 0 }
  -- the checksums are filled in last
  { eth := { shost := srcAddr, dhost := dstAddr, type := htons ethtypeIp }
    ipv4 := { ipv4 with chksum := getChksum ipv4.bytes }
    udp := { udp with chksum := getChksum udp.bytes } }

end Mlx5Netperf
