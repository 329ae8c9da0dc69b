import Mlx5Netperf.Lib.ByteMemory
import Mlx5Netperf.Lib.ByteOrder

/-!
# Ethernet, IPv4 and UDP Headers

The header structures of `inc/net/`, as the values the program keeps in memory:
a field that travels in network order holds the already swapped word, and a
header is laid out with its fields in declaration order, least significant
byte first.
-/

namespace Mlx5Netperf

open ByteOrder

/-! ## Words in memory -/

def le16 (x : UInt16) : List UInt8 := leBytes 2 x.toNat
def le32 (x : UInt32) : List UInt8 := leBytes 4 x.toNat
def le64 (x : UInt64) : List UInt8 := leBytes 8 x.toNat

@[simp] theorem length_le16 (x : UInt16) : (le16 x).length = 2 := length_leBytes ..
@[simp] theorem length_le32 (x : UInt32) : (le32 x).length = 4 := length_leBytes ..
@[simp] theorem length_le64 (x : UInt64) : (le64 x).length = 8 := length_leBytes ..

/-- `*(uint16_t *)p` -/
def readU16 (mem : ByteMemory) (p : ℕ) : UInt16 := UInt16.ofNat (leValue (mem.read p 2))
/-- `*(uint32_t *)p` -/
def readU32 (mem : ByteMemory) (p : ℕ) : UInt32 := UInt32.ofNat (leValue (mem.read p 4))
/-- `*(uint64_t *)p` -/
def readU64 (mem : ByteMemory) (p : ℕ) : UInt64 := UInt64.ofNat (leValue (mem.read p 8))

/-- A word read from memory has the bytes it was read from. -/
theorem le16_readU16 (mem : ByteMemory) (p : ℕ) : le16 (readU16 mem p) = mem.read p 2 := by
  have hlt : leValue (mem.read p 2) < 2 ^ 16 := by simpa using leValue_lt (mem.read p 2)
  rw [le16, readU16, UInt16.toNat_ofNat', Nat.mod_eq_of_lt hlt]
  simpa using leBytes_leValue (mem.read p 2)

theorem le32_readU32 (mem : ByteMemory) (p : ℕ) : le32 (readU32 mem p) = mem.read p 4 := by
  have hlt : leValue (mem.read p 4) < 2 ^ 32 := by simpa using leValue_lt (mem.read p 4)
  rw [le32, readU32, UInt32.toNat_ofNat', Nat.mod_eq_of_lt hlt]
  simpa using leBytes_leValue (mem.read p 4)

/-- A word is determined by its bytes. -/
theorem ofNat_leValue_le16 (x : UInt16) : UInt16.ofNat (leValue (le16 x)) = x := by
  have hlt : x.toNat < 256 ^ 2 := x.toNat_lt
  rw [le16, leValue_leBytes, Nat.mod_eq_of_lt hlt, UInt16.ofNat_toNat]

/-! ## Byte order conversion -/

def htons (x : UInt16) : UInt16 := bswap16 x
def ntohs (x : UInt16) : UInt16 := bswap16 x
def htonl (x : UInt32) : UInt32 := bswap32 x
def be16toh (x : UInt16) : UInt16 := bswap16 x
def htobe16 (x : UInt16) : UInt16 := bswap16 x
def be32toh (x : UInt32) : UInt32 := bswap32 x
def htobe32 (x : UInt32) : UInt32 := bswap32 x
def htobe64 (x : UInt64) : UInt64 := bswap64 x

@[simp] theorem ntohs_htons (x : UInt16) : ntohs (htons x) = x := bswap16_bswap16 x
@[simp] theorem be16toh_htobe16 (x : UInt16) : be16toh (htobe16 x) = x := bswap16_bswap16 x

/-- A word in network order has its most significant byte first. -/
theorem le32_htobe32 (x : UInt32) : le32 (htobe32 x) = beBytes 4 x.toNat := by
  rw [le32, htobe32, toNat_bswap32, leBytes_swap]

theorem le64_htobe64 (x : UInt64) : le64 (htobe64 x) = beBytes 8 x.toNat := by
  rw [le64, htobe64, toNat_bswap64, leBytes_swap]

/-! ## Headers -/

/-- `struct eth_addr` -/
abbrev EthAddr := Vector UInt8 6

/-- `struct eth_hdr` (packed, 14 bytes) -/
structure EthHdr where
  dhost : EthAddr
  shost : EthAddr
  type : UInt16
  deriving DecidableEq

/-- `struct ip_hdr` (packed, aligned to 4, 20 bytes) -/
structure IpHdr where
  versionIhl : UInt8
  tos : UInt8
  len : UInt16
  id : UInt16
  off : UInt16
  ttl : UInt8
  proto : UInt8
  chksum : UInt16
  saddr : UInt32
  daddr : UInt32
  deriving DecidableEq

/-- `struct udp_hdr` (8 bytes) -/
structure UdpHdr where
  srcPort : UInt16
  dstPort : UInt16
  len : UInt16
  chksum : UInt16
  deriving DecidableEq

def sizeofEthHdr : ℕ := 14
def sizeofIpHdr : ℕ := 20
def sizeofUdpHdr : ℕ := 8

def ethtypeIp : UInt16 := 0x0800
def ipprotoUdp : UInt8 := 17
/-- `VERSION_IHL`: version 4, five words of header -/
def versionIhl : UInt8 := ((4 : UInt8) <<< 4) ||| 5

/-- The bytes of an Ethernet header in memory. -/
def EthHdr.bytes (h : EthHdr) : List UInt8 := h.dhost.toList ++ h.shost.toList ++ le16 h.type

/-- The bytes of an IPv4 header in memory. -/
def IpHdr.bytes (h : IpHdr) : List UInt8 :=
  [h.versionIhl, h.tos] ++ le16 h.len ++ le16 h.id ++ le16 h.off ++ [h.ttl, h.proto] ++
    le16 h.chksum ++ le32 h.saddr ++ le32 h.daddr

/-- The bytes of a UDP header in memory. -/
def UdpHdr.bytes (h : UdpHdr) : List UInt8 :=
  le16 h.srcPort ++ le16 h.dstPort ++ le16 h.len ++ le16 h.chksum

@[simp] theorem EthHdr.length_bytes (h : EthHdr) : h.bytes.length = 14 := by simp [EthHdr.bytes]
@[simp] theorem IpHdr.length_bytes (h : IpHdr) : h.bytes.length = 20 := by simp [IpHdr.bytes]
@[simp] theorem UdpHdr.length_bytes (h : UdpHdr) : h.bytes.length = 8 := by simp [UdpHdr.bytes]

/-- The address stored at `p`. -/
def EthAddr.ofMem (mem : ByteMemory) (p : ℕ) : EthAddr := Vector.ofFn fun i => mem (p + i)

/-- `(struct eth_hdr *)p` -/
def EthHdr.ofMem (mem : ByteMemory) (p : ℕ) : EthHdr where
  dhost := EthAddr.ofMem mem p
  shost := EthAddr.ofMem mem (p + 6)
  type := readU16 mem (p + 12)

/-- `(struct ip_hdr *)p` -/
def IpHdr.ofMem (mem : ByteMemory) (p : ℕ) : IpHdr where
  versionIhl := mem p
  tos := mem (p + 1)
  len := readU16 mem (p + 2)
  id := readU16 mem (p + 4)
  off := readU16 mem (p + 6)
  ttl := mem (p + 8)
  proto := mem (p + 9)
  chksum := readU16 mem (p + 10)
  saddr := readU32 mem (p + 12)
  daddr := readU32 mem (p + 16)

/-- `(struct udp_hdr *)p` -/
def UdpHdr.ofMem (mem : ByteMemory) (p : ℕ) : UdpHdr where
  srcPort := readU16 mem p
  dstPort := readU16 mem (p + 2)
  len := readU16 mem (p + 4)
  chksum := readU16 mem (p + 6)

theorem EthAddr.toList_ofMem (mem : ByteMemory) (p : ℕ) :
    (EthAddr.ofMem mem p).toList = mem.read p 6 := by
  refine List.ext_getElem (by simp) fun i hi hi' => ?_
  simp [EthAddr.ofMem]

/-- An address is determined by its bytes. -/
theorem EthAddr.ofMem_of_read {mem : ByteMemory} {p : ℕ} {a : EthAddr}
    (h : mem.read p 6 = a.toList) : EthAddr.ofMem mem p = a := by
  rw [← Vector.toList_inj, EthAddr.toList_ofMem, h]

/-- A header read from memory has the bytes it was read from. -/
theorem EthHdr.bytes_ofMem (mem : ByteMemory) (p : ℕ) :
    (EthHdr.ofMem mem p).bytes = mem.read p 14 := by
  simp only [EthHdr.bytes, EthHdr.ofMem, EthAddr.toList_ofMem, le16_readU16]
  rw [← ByteMemory.read_add, ← ByteMemory.read_add mem p 12]

theorem IpHdr.bytes_ofMem (mem : ByteMemory) (p : ℕ) :
    (IpHdr.ofMem mem p).bytes = mem.read p 20 := by
  simp only [IpHdr.bytes, IpHdr.ofMem, le16_readU16, le32_readU32]
  simp [ByteMemory.read, List.range_succ, Nat.add_assoc]

theorem UdpHdr.bytes_ofMem (mem : ByteMemory) (p : ℕ) :
    (UdpHdr.ofMem mem p).bytes = mem.read p 8 := by
  simp only [UdpHdr.bytes, UdpHdr.ofMem, le16_readU16]
  rw [← ByteMemory.read_add, ← ByteMemory.read_add mem p 4, ← ByteMemory.read_add mem p 6]

/-- A header depends on its own bytes only. -/
theorem EthHdr.ofMem_congr {mem mem' : ByteMemory} {p : ℕ} (h : ByteMemory.AgreeOn mem mem' p 14) :
    EthHdr.ofMem mem' p = EthHdr.ofMem mem p := by
  have hdhost : EthAddr.ofMem mem' p = EthAddr.ofMem mem p :=
    EthAddr.ofMem_of_read (by rw [EthAddr.toList_ofMem, h.read (by omega) (by omega)])
  have hshost : EthAddr.ofMem mem' (p + 6) = EthAddr.ofMem mem (p + 6) :=
    EthAddr.ofMem_of_read (by rw [EthAddr.toList_ofMem, h.read (by omega) (by omega)])
  have htype : readU16 mem' (p + 12) = readU16 mem (p + 12) := by
    simp only [readU16, h.read (b := p + 12) (k := 2) (by omega) (by omega)]
  simp only [EthHdr.ofMem, hdhost, hshost, htype]

theorem IpHdr.ofMem_congr {mem mem' : ByteMemory} {p : ℕ} (h : ByteMemory.AgreeOn mem mem' p 20) :
    IpHdr.ofMem mem' p = IpHdr.ofMem mem p := by
  have hbyte : ∀ k, k < 20 → mem' (p + k) = mem (p + k) := fun k hk => h _ (by omega) (by omega)
  have h16 : ∀ k, k + 2 ≤ 20 → readU16 mem' (p + k) = readU16 mem (p + k) := by
    intro k hk
    simp only [readU16, h.read (b := p + k) (k := 2) (by omega) (by omega)]
  have h32 : ∀ k, k + 4 ≤ 20 → readU32 mem' (p + k) = readU32 mem (p + k) := by
    intro k hk
    simp only [readU32, h.read (b := p + k) (k := 4) (by omega) (by omega)]
  have hfirst : mem' p = mem p := hbyte 0 (by omega)
  simp only [IpHdr.ofMem, hfirst, hbyte 1 (by omega), h16 2 (by omega), h16 4 (by omega),
    h16 6 (by omega), hbyte 8 (by omega), hbyte 9 (by omega), h16 10 (by omega),
    h32 12 (by omega), h32 16 (by omega)]

theorem UdpHdr.ofMem_congr {mem mem' : ByteMemory} {p : ℕ} (h : ByteMemory.AgreeOn mem mem' p 8) :
    UdpHdr.ofMem mem' p = UdpHdr.ofMem mem p := by
  have h16 : ∀ k, k + 2 ≤ 8 → readU16 mem' (p + k) = readU16 mem (p + k) := by
    intro k hk
    simp only [readU16, h.read (b := p + k) (k := 2) (by omega) (by omega)]
  have hfirst : readU16 mem' p = readU16 mem p := h16 0 (by omega)
  simp only [UdpHdr.ofMem, hfirst, h16 2 (by omega), h16 4 (by omega), h16 6 (by omega)]

/-! ## Checksum -/

/-- `__rte_raw_cksum`: add up the 16-bit words of the buffer, an odd last byte alone. -/
def rteRawCksum : List UInt8 → UInt32 → UInt32
  | a :: b :: rest, sum => rteRawCksum rest (sum + UInt32.ofNat (leValue [a, b]))
  | [a], sum => sum + a.toUInt32
  | [], sum => sum

/-- `__rte_raw_cksum_reduce`: fold the carries back in, twice. -/
def rteRawCksumReduce (sum : UInt32) : UInt16 :=
  let sum := ((sum &&& 0xffff0000) >>> 16) + (sum &&& 0xffff)
  let sum := ((sum &&& 0xffff0000) >>> 16) + (sum &&& 0xffff)
  sum.toUInt16

/-- `get_chksum(hdr)`. The macro takes `sizeof` of a pointer, so it covers the
first eight bytes of the header whatever the header is. -/
def getChksum (hdr : List UInt8) : UInt16 := htons (rteRawCksumReduce (rteRawCksum (hdr.take 8) 0))

end Mlx5Netperf
