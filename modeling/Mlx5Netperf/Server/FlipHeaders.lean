import Mlx5Netperf.Mlx5.GatherRx
import Mlx5Netperf.Server.Request

/-!
# Turning a Request Around

`flip_headers` of `main.c`: which headers it leaves in the buffer of a request,
and which of its calls keep to that buffer and leave a request they refuse as it
was. The swaps and the checksums come before the size is tested, and the test
counts the headroom in front of the data as room for the reply.
-/

namespace Mlx5Netperf

open ByteMemory

/-! ## The headers that are left behind -/

/-- The two hosts change places. -/
def EthHdr.flipped (h : EthHdr) : EthHdr := { h with dhost := h.shost, shost := h.dhost }

/-- The addresses change places; length and checksum are those of the reply. -/
def IpHdr.flipped (h : IpHdr) (outgoingSize : UInt64) : IpHdr :=
  let h := { h with
    chksum := 0
    len := htons (20 + 8 + outgoingSize).toUInt16
    saddr := h.daddr
    daddr := h.saddr }
  { h with chksum := getChksum h.bytes }

/-- The ports change places. The checksum that was received is summed up with
the other fields. -/
def UdpHdr.flipped (h : UdpHdr) (outgoingSize : UInt64) : UdpHdr :=
  let h := { h with
    srcPort := h.dstPort
    dstPort := h.srcPort
    len := htons (8 + outgoingSize).toUInt16 }
  { h with chksum := getChksum h.bytes }

section Stores

variable (mem : ByteMemory) (ptr : ℕ) (outgoingSize : UInt64)

/-- What `flip_headers` leaves in place of the Ethernet header. -/
theorem ethHdr_flipHeadersStores :
    EthHdr.ofMem (flipHeadersStores mem ptr outgoingSize) ptr =
      (EthHdr.ofMem mem ptr).flipped := by
  -- each field is read back through the later stores
  have hdhost : (flipHeadersStores mem ptr outgoingSize).read ptr 6 = mem.read (ptr + 6) 6 := by
    simp (disch := first | (simp only [Store.Misses, length_read, length_le16]; omega) | simp)
      only [flipHeadersStores, sizeofEthHdr, sizeofIpHdr, Nat.add_assoc, Nat.reduceAdd,
        read_store_of_misses, read_store_eq]
  have hshost : (flipHeadersStores mem ptr outgoingSize).read (ptr + 6) 6 = mem.read ptr 6 := by
    simp (disch := first | (simp only [Store.Misses, length_read, length_le16]; omega) | simp)
      only [flipHeadersStores, sizeofEthHdr, sizeofIpHdr, Nat.add_assoc, Nat.reduceAdd,
        read_store_of_misses, read_store_eq]
  have htype : (flipHeadersStores mem ptr outgoingSize).read (ptr + 12) 2 =
      mem.read (ptr + 12) 2 := by
    simp (disch := (simp only [Store.Misses, length_read, length_le16]; omega))
      only [flipHeadersStores, sizeofEthHdr, sizeofIpHdr, Nat.add_assoc, Nat.reduceAdd,
        read_store_of_misses]
  have hnewDhost := EthAddr.ofMem_of_read (hdhost.trans (EthAddr.toList_ofMem mem (ptr + 6)).symm)
  have hnewShost := EthAddr.ofMem_of_read (hshost.trans (EthAddr.toList_ofMem mem ptr).symm)
  simp only [EthHdr.ofMem, EthHdr.flipped, readU16, htype, hnewDhost, hnewShost]

/-- What it leaves in place of the IPv4 header. -/
theorem ipHdr_flipHeadersStores :
    IpHdr.ofMem (flipHeadersStores mem ptr outgoingSize) (ptr + 14) =
      (IpHdr.ofMem mem (ptr + 14)).flipped outgoingSize := by
  -- the checksum runs over a header that is read back from the stores before it
  simp only [flipHeadersStores, ← IpHdr.bytes_ofMem]
  simp (disch := first | (simp only [Store.Misses, length_read, length_le16]; omega) | simp)
    only [sizeofEthHdr, sizeofIpHdr, Nat.add_assoc, Nat.reduceAdd, read_store_of_misses,
      read_store_eq, store_apply_of_misses, IpHdr.ofMem, IpHdr.flipped, readU16, readU32,
      ofNat_leValue_le16]

/-- What it leaves in place of the UDP header. -/
theorem udpHdr_flipHeadersStores :
    UdpHdr.ofMem (flipHeadersStores mem ptr outgoingSize) (ptr + 34) =
      (UdpHdr.ofMem mem (ptr + 34)).flipped outgoingSize := by
  -- as in the IPv4 header, but the old checksum is part of what is summed
  simp only [flipHeadersStores, ← UdpHdr.bytes_ofMem]
  simp (disch := first | (simp only [Store.Misses, length_read, length_le16]; omega) | simp)
    only [sizeofEthHdr, sizeofIpHdr, Nat.add_assoc, Nat.reduceAdd, read_store_of_misses,
      read_store_eq, UdpHdr.ofMem, UdpHdr.flipped, readU16, ofNat_leValue_le16]

/-- Nothing is stored outside the headers. -/
theorem read_flipHeadersStores_of_apart {a n : ℕ} (hapart : RangesApart ptr 42 a n) :
    (flipHeadersStores mem ptr outgoingSize).read a n = mem.read a n := by
  cases hapart with
  | inl hbefore =>
    simp (disch := (simp only [Store.Misses, length_read, length_le16]; omega))
      only [flipHeadersStores, sizeofEthHdr, sizeofIpHdr, read_store_of_misses]
  | inr hafter =>
    simp (disch := (simp only [Store.Misses, length_read, length_le16]; omega))
      only [flipHeadersStores, sizeofEthHdr, sizeofIpHdr, read_store_of_misses]

end Stores

/-! ## Headers that are their own reply -/

theorem EthHdr.flipped_eq_self_iff (h : EthHdr) : h.flipped = h ↔ h.dhost = h.shost := by
  constructor
  · intro heq
    exact (congrArg EthHdr.shost heq)
  · intro hhosts
    cases h
    simp only [EthHdr.flipped] at hhosts ⊢
    rw [hhosts]

/-- The checksum covers the fields in front of the time to live. -/
theorem getChksum_ipHdr (h : IpHdr) : getChksum h.bytes =
    htons (rteRawCksumReduce (rteRawCksum
      ([h.versionIhl, h.tos] ++ le16 h.len ++ le16 h.id ++ le16 h.off) 0)) := by
  have hfront : ([h.versionIhl, h.tos] ++ le16 h.len ++ le16 h.id ++ le16 h.off).length = 8 := by
    simp
  have hbytes : h.bytes = ([h.versionIhl, h.tos] ++ le16 h.len ++ le16 h.id ++ le16 h.off) ++
      ([h.ttl, h.proto] ++ le16 h.chksum ++ le32 h.saddr ++ le32 h.daddr) := by
    simp only [IpHdr.bytes, List.append_assoc]
  -- the macro takes the first eight bytes
  rw [getChksum, hbytes, List.take_left' hfront]

theorem IpHdr.flipped_eq_self_iff (h : IpHdr) (outgoingSize : UInt64) :
    h.flipped outgoingSize = h ↔ h.saddr = h.daddr ∧
      h.len = htons (20 + 8 + outgoingSize).toUInt16 ∧ h.chksum = getChksum h.bytes := by
  rw [getChksum_ipHdr]
  -- zeroing the checksum first changes nothing: it is not among the bytes summed
  cases h with
  | mk versionIhl tos len id off ttl proto chksum saddr daddr =>
    simp only [IpHdr.flipped, getChksum_ipHdr, IpHdr.mk.injEq, true_and]
    constructor
    · rintro ⟨hlen, hchksum, haddrs, -⟩
      exact ⟨haddrs.symm, hlen.symm, hlen ▸ hchksum.symm⟩
    · rintro ⟨haddrs, hlen, hchksum⟩
      exact ⟨hlen.symm, hlen ▸ hchksum.symm, haddrs.symm, haddrs⟩

theorem UdpHdr.flipped_eq_self_iff (h : UdpHdr) (outgoingSize : UInt64) :
    h.flipped outgoingSize = h ↔ h.srcPort = h.dstPort ∧
      h.len = htons (8 + outgoingSize).toUInt16 ∧ h.chksum = getChksum h.bytes := by
  cases h with
  | mk srcPort dstPort len chksum =>
    simp only [UdpHdr.flipped, UdpHdr.mk.injEq]
    constructor
    · rintro ⟨hports, -, hlen, hchksum⟩
      -- a header with these ports and this length is summed as it is
      subst hports hlen
      exact ⟨rfl, rfl, hchksum.symm⟩
    · rintro ⟨hports, hlen, hchksum⟩
      subst hports hlen
      exact ⟨rfl, rfl, rfl, hchksum.symm⟩

/-- A request whose headers `flip_headers` maps to themselves: it is addressed to
its own sender, and its lengths and checksums are those of the reply. -/
structure OwnReply (mem : ByteMemory) (ptr : ℕ) (outgoingSize : UInt64) : Prop where
  hosts : (EthHdr.ofMem mem ptr).dhost = (EthHdr.ofMem mem ptr).shost
  ipv4 : (IpHdr.ofMem mem (ptr + 14)).saddr = (IpHdr.ofMem mem (ptr + 14)).daddr ∧
    (IpHdr.ofMem mem (ptr + 14)).len = htons (20 + 8 + outgoingSize).toUInt16 ∧
    (IpHdr.ofMem mem (ptr + 14)).chksum = getChksum (IpHdr.ofMem mem (ptr + 14)).bytes
  udp : (UdpHdr.ofMem mem (ptr + 34)).srcPort = (UdpHdr.ofMem mem (ptr + 34)).dstPort ∧
    (UdpHdr.ofMem mem (ptr + 34)).len = htons (8 + outgoingSize).toUInt16 ∧
    (UdpHdr.ofMem mem (ptr + 34)).chksum = getChksum (UdpHdr.ofMem mem (ptr + 34)).bytes

/-- **The header bytes survive** exactly in a request that is its own reply. -/
theorem read_flipHeadersStores_eq_iff (mem : ByteMemory) (ptr : ℕ) (outgoingSize : UInt64) :
    (flipHeadersStores mem ptr outgoingSize).read ptr 42 = mem.read ptr 42 ↔
      OwnReply mem ptr outgoingSize := by
  have heth := ethHdr_flipHeadersStores mem ptr outgoingSize
  have hipv4 := ipHdr_flipHeadersStores mem ptr outgoingSize
  have hudp := udpHdr_flipHeadersStores mem ptr outgoingSize
  constructor
  · intro hread
    -- each of the three headers is read from the same bytes as before
    have hagree := agreeOn_iff_read.mpr hread
    constructor
    case hosts =>
      apply (EthHdr.flipped_eq_self_iff _).mp
      rw [← heth]
      exact EthHdr.ofMem_congr fun x hlo hhi => hagree x hlo (by omega)
    case ipv4 =>
      apply (IpHdr.flipped_eq_self_iff _ _).mp
      rw [← hipv4]
      exact IpHdr.ofMem_congr fun x hlo hhi => hagree x (by omega) (by omega)
    case udp =>
      apply (UdpHdr.flipped_eq_self_iff _ _).mp
      rw [← hudp]
      exact UdpHdr.ofMem_congr fun x hlo hhi => hagree x (by omega) (by omega)
  · intro h
    rw [(EthHdr.flipped_eq_self_iff _).mpr h.hosts] at heth
    rw [(IpHdr.flipped_eq_self_iff _ _).mpr h.ipv4] at hipv4
    rw [(UdpHdr.flipped_eq_self_iff _ _).mpr h.udp] at hudp
    -- the 42 bytes are those of the three headers
    have hsplit : ∀ m : ByteMemory, m.read ptr 42 = (EthHdr.ofMem m ptr).bytes ++
        (IpHdr.ofMem m (ptr + 14)).bytes ++ (UdpHdr.ofMem m (ptr + 34)).bytes := by
      intro m
      rw [EthHdr.bytes_ofMem, IpHdr.bytes_ofMem, UdpHdr.bytes_ofMem, ← read_add, ← read_add]
    rw [hsplit, hsplit, heth, hipv4, hudp]

/-! ## The calls that are safe -/

/-- What a caller of `flip_headers` relies on: a reply that is accepted lies in
the buffer, and a request that is refused is as it was. -/
structure FlipsCleanly (mem : ByteMemory) (b : Mbuf) (outgoingSize : UInt64) : Prop where
  inside : (flipHeaders mem b outgoingSize).1 = 0 →
    (flipHeaders mem b outgoingSize).2.2.data.toNat + (flipHeaders mem b outgoingSize).2.2.len.toNat ≤
      (flipHeaders mem b outgoingSize).2.2.head.toNat +
        (flipHeaders mem b outgoingSize).2.2.headLen.toNat
  refused : (flipHeaders mem b outgoingSize).1 = -einval →
    (flipHeaders mem b outgoingSize).2.1.read b.data.toNat 42 = mem.read b.data.toNat 42 ∧
      (flipHeaders mem b outgoingSize).2.2 = b

/-- The refusal has to leave the request as it was. -/
theorem flipsCleanly_refused_iff {mem : ByteMemory} {b : Mbuf} {outgoingSize : UInt64}
    (hshort : b.headLen.toUInt64 < outgoingSize + UInt64.ofNat sizeofRequestHeader) :
    FlipsCleanly mem b outgoingSize ↔ OwnReply mem b.data.toNat outgoingSize := by
  have hcode : (-einval : Int32) ≠ 0 := by decide
  -- the stores were made before the size was tested
  have hflip : flipHeaders mem b outgoingSize =
      (-einval, flipHeadersStores mem b.data.toNat outgoingSize, b) := if_pos hshort
  rw [← read_flipHeadersStores_eq_iff]
  constructor
  · intro h
    have hread := (h.refused (by rw [hflip])).1
    rwa [hflip] at hread
  · intro hread
    constructor
    case inside =>
      intro hret
      rw [hflip] at hret
      exact absurd hret hcode
    case refused =>
      intro _
      rw [hflip]
      exact ⟨hread, rfl⟩

/-- An accepted reply has to end in the buffer. -/
theorem flipsCleanly_accepted_iff {mem : ByteMemory} {b : Mbuf} {outgoingSize : UInt64}
    (hroomy : ¬ b.headLen.toUInt64 < outgoingSize + UInt64.ofNat sizeofRequestHeader) :
    FlipsCleanly mem b outgoingSize ↔
      b.data.toNat + (outgoingSize + UInt64.ofNat sizeofRequestHeader).toNat ≤
        b.head.toNat + b.headLen.toNat := by
  have hcode : (-einval : Int32) ≠ 0 := by decide
  let reply : Mbuf := { b with len := (outgoingSize + UInt64.ofNat sizeofRequestHeader).toUInt32 }
  have hflip : flipHeaders mem b outgoingSize =
      (0, flipHeadersStores mem b.data.toNat outgoingSize, reply) := if_neg hroomy
  -- the length is not truncated: it passed a test against a 32-bit field
  have hlen : reply.len.toNat = (outgoingSize + UInt64.ofNat sizeofRequestHeader).toNat := by
    have hle := UInt64.le_iff_toNat_le.mp (UInt64.not_lt.mp hroomy)
    rw [UInt32.toNat_toUInt64] at hle
    exact (UInt64.toNat_toUInt32 _).trans (Nat.mod_eq_of_lt (hle.trans_lt b.headLen.toNat_lt))
  rw [← hlen]
  constructor
  · intro h
    have hinside := h.inside (by rw [hflip])
    rwa [hflip] at hinside
  · intro hinside
    constructor
    case inside =>
      intro _
      rwa [hflip]
    case refused =>
      intro hret
      rw [hflip] at hret
      exact absurd hret.symm hcode

/-- **When `flip_headers` is clean**, for a request as it was received: a reply
that is accepted has to fit behind the headroom, and a request that is refused
has to be its own reply. -/
theorem flips_cleanly_iff (mem : ByteMemory) {m : Addr} (cqe : Mlx5Cqe64) (b : Mbuf)
    (outgoingSize : UInt64) (hroom : m.toNat + rxBufHead.toNat < 2 ^ 64) :
    FlipsCleanly mem (mbufFillCqe m cqe b) outgoingSize ↔
      if b.headLen.toUInt64 < outgoingSize + UInt64.ofNat sizeofRequestHeader then
        OwnReply mem (m.toNat + rxBufHead.toNat) outgoingSize
      else (outgoingSize + UInt64.ofNat sizeofRequestHeader).toNat + rxBufHead.toNat ≤
        b.headLen.toNat := by
  -- the data starts behind the headroom, in a buffer that does not wrap
  have hdata : (mbufFillCqe m cqe b).data.toNat = m.toNat + rxBufHead.toNat :=
    (UInt64.toNat_add ..).trans (Nat.mod_eq_of_lt hroom)
  have hhead : (mbufFillCqe m cqe b).head = m := rfl
  have hheadLen : (mbufFillCqe m cqe b).headLen = b.headLen := rfl
  split
  case isTrue hshort =>
    rw [← hdata]
    exact flipsCleanly_refused_iff hshort
  case isFalse hroomy =>
    have haccepted := @flipsCleanly_accepted_iff mem (mbufFillCqe m cqe b) outgoingSize hroomy
    rw [haccepted, hdata, hhead, hheadLen]
    omega

/-- A request in a buffer of 320 bytes, in memory that is all zero. -/
def smallBuffer : Mbuf := { Mbuf.zeroed with headLen := 320 }

/-- A reply with 128 bytes of data fits behind the headroom. -/
theorem flips_cleanly_smallBuffer :
    FlipsCleanly (fun _ => 0) (mbufFillCqe 0x6000 ⟨0, 0, 0, 0, 0⟩ smallBuffer) 128 :=
  (flips_cleanly_iff _ _ _ _ (by decide)).mpr ((if_neg (by decide)).mpr (by decide))

/-- One byte more is accepted as well, and runs past the end of the buffer. -/
theorem not_flips_cleanly_smallBuffer :
    ¬ ∀ (mem : ByteMemory) (m : Addr) (cqe : Mlx5Cqe64) (b : Mbuf) (outgoingSize : UInt64),
      m.toNat + rxBufHead.toNat < 2 ^ 64 →
      FlipsCleanly mem (mbufFillCqe m cqe b) outgoingSize := by
  intro hclaim
  have hclean := hclaim (fun _ => 0) 0x6000 ⟨0, 0, 0, 0, 0⟩ smallBuffer 129 (by decide)
  exact absurd (hclean.inside (by decide)) (by decide)

end Mlx5Netperf
