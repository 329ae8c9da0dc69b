import Mlx5Netperf.Lib.OnesComplement
import Mlx5Netperf.Server.FlipHeaders

/-!
# The IPv4 Checksum

What `get_chksum` computes and when a receiver accepts the IPv4 headers that the
program writes with it. The macro sums the first four words of the header only,
leaves the sum uncomplemented, and swaps it once more than the words it was
summed from, so a header verifies only by coincidence of its fields.
-/

namespace Mlx5Netperf

open ByteMemory ByteOrder

/-! ## The sum of the program -/

/-- `__rte_raw_cksum` adds the words in the byte order of the machine. -/
theorem toNat_rteRawCksum (bs : List UInt8) (heven : 2 ∣ bs.length) (sum : UInt32)
    (hroom : sum.toNat + 65535 * bs.length < 2 ^ 32) :
    (rteRawCksum bs sum).toNat = sum.toNat + ((OnesComplement.words bs).map (swap 2)).sum := by
  induction bs using OnesComplement.words.induct generalizing sum with
  | case1 a b rest ih =>
    have ha := a.toNat_lt
    have hb := b.toNat_lt
    simp only [List.length_cons] at heven hroom
    -- the pointer to words reads the low byte first
    have hword : (UInt32.ofNat (leValue [a, b])).toNat = a.toNat + 256 * b.toNat := by
      simp only [leValue, UInt32.toNat_ofNat']
      omega
    have hswap : swap 2 (256 * a.toNat + b.toNat) = a.toNat + 256 * b.toNat := by
      rw [OnesComplement.swap_eq (by omega)]
      omega
    -- 32 bits have room for the sum of any header
    have hsum : (sum + UInt32.ofNat (leValue [a, b])).toNat =
        sum.toNat + (a.toNat + 256 * b.toNat) := by
      rw [UInt32.toNat_add, hword]
      apply Nat.mod_eq_of_lt
      omega
    rw [rteRawCksum, ih (by omega) _ (by omega), hsum, OnesComplement.words_cons_cons,
      List.map_cons, List.sum_cons, hswap, Nat.add_assoc]
  | case2 a => simp at heven
  | case3 => simp [rteRawCksum]

/-- One fold of the carries. -/
theorem toNat_foldCarries (x : UInt32) :
    (((x &&& 0xffff0000) >>> 16) + (x &&& 0xffff)).toNat = x.toNat / 65536 + x.toNat % 65536 := by
  have hx := x.toNat_lt
  have hlow : (x &&& 0xffff).toNat = x.toNat % 65536 := by
    rw [UInt32.toNat_and]
    exact Nat.and_two_pow_sub_one_eq_mod x.toNat 16
  -- the mask keeps the bits that the shift brings down
  have hhigh : ((x &&& 0xffff0000) >>> 16).toNat = x.toNat / 65536 := by
    have hshift : (x.toNat &&& 0xffff0000) >>> 16 = (x.toNat >>> 16) &&& (2 ^ 16 - 1) :=
      Nat.shiftRight_and_distrib
    have hdiv : x.toNat >>> 16 = x.toNat / 65536 := Nat.shiftRight_eq_div_pow ..
    rw [UInt32.toNat_shiftRight, UInt32.toNat_and]
    refine hshift.trans ?_
    rw [Nat.and_two_pow_sub_one_eq_mod, hdiv]
    omega
  rw [UInt32.toNat_add, hlow, hhigh]
  omega

/-- `__rte_raw_cksum_reduce` keeps the sum modulo `2 ^ 16 - 1`, and keeps zero. -/
theorem toNat_rteRawCksumReduce (x : UInt32) :
    (rteRawCksumReduce x).toNat ≡ x.toNat [MOD 65535] ∧
      ((rteRawCksumReduce x).toNat = 0 ↔ x.toNat = 0) := by
  have hx := x.toNat_lt
  let folded := x.toNat / 65536 + x.toNat % 65536
  -- the second fold leaves no carry
  have htwice : (rteRawCksumReduce x).toNat = folded / 65536 + folded % 65536 := by
    simp only [rteRawCksumReduce, UInt32.toNat_toUInt16, toNat_foldCarries, folded]
    omega
  rw [htwice]
  simp only [folded, Nat.ModEq]
  omega

/-! ## The words of a header -/

/-- A field stored in network order is the word of its value. -/
theorem words_le16_htons (x : UInt16) : OnesComplement.words (le16 (htons x)) = [x.toNat] := by
  have hx := x.toNat_lt
  have hbytes : le16 (htons x) = beBytes 2 x.toNat := by
    rw [le16, htons, toNat_bswap16, leBytes_swap]
  rw [hbytes]
  simp only [beBytes, leBytes, List.reverse_cons, List.reverse_nil, List.nil_append,
    List.singleton_append, OnesComplement.words, UInt8.toNat_ofNat', List.cons.injEq, and_true]
  omega

/-- Any stored field is in network order for the value it has there. -/
theorem words_le16 (x : UInt16) : OnesComplement.words (le16 x) = [(ntohs x).toNat] := by
  have hback : htons (ntohs x) = x := bswap16_bswap16 x
  rw [← words_le16_htons, hback]

theorem words_le32_htonl (x : UInt32) :
    OnesComplement.words (le32 (htonl x)) = [x.toNat / 65536, x.toNat % 65536] := by
  have hx := x.toNat_lt
  rw [show le32 (htonl x) = beBytes 4 x.toNat from le32_htobe32 x]
  simp only [beBytes, leBytes, List.reverse_cons, List.reverse_nil, List.nil_append,
    List.cons_append, OnesComplement.words, UInt8.toNat_ofNat', List.cons.injEq, and_true]
  omega

theorem words_le32 (x : UInt32) :
    OnesComplement.words (le32 x) = [(be32toh x).toNat / 65536, (be32toh x).toNat % 65536] := by
  have hback : htonl (be32toh x) = x := by
    rw [← UInt32.toNat_inj, htonl, be32toh, toNat_bswap32, toNat_bswap32, swap_swap]
    exact Nat.mod_eq_of_lt x.toNat_lt
  rw [← words_le32_htonl, hback]

/-- A receiver accepts the header: the one's complement sum of its words has all
bits set. -/
def ChecksumVerifies (header : List UInt8) : Prop :=
  OnesComplement.sum (OnesComplement.words header) = 0xffff

instance (header : List UInt8) : Decidable (ChecksumVerifies header) :=
  inferInstanceAs (Decidable (_ = _))

/-- The four words in front of the time to live. -/
def IpHdr.frontWords (h : IpHdr) : List ℕ :=
  [256 * h.versionIhl.toNat + h.tos.toNat, (ntohs h.len).toNat, (ntohs h.id).toNat,
    (ntohs h.off).toNat]

/-- The words on both sides of the checksum that `get_chksum` does not look at. -/
def IpHdr.otherWords (h : IpHdr) : List ℕ :=
  [256 * h.ttl.toNat + h.proto.toNat, (be32toh h.saddr).toNat / 65536,
    (be32toh h.saddr).toNat % 65536, (be32toh h.daddr).toNat / 65536,
    (be32toh h.daddr).toNat % 65536]

theorem words_frontBytes (h : IpHdr) : OnesComplement.words
    ([h.versionIhl, h.tos] ++ le16 h.len ++ le16 h.id ++ le16 h.off) = h.frontWords := by
  rw [OnesComplement.words_append (by simp), OnesComplement.words_append (by simp),
    OnesComplement.words_append (by simp), words_le16, words_le16, words_le16]
  rfl

/-- The ten words of a header add up to these. -/
theorem sum_words_bytes (h : IpHdr) : (OnesComplement.words h.bytes).sum =
    h.frontWords.sum + (ntohs h.chksum).toNat + h.otherWords.sum := by
  have hsplit : h.bytes = ([h.versionIhl, h.tos] ++ le16 h.len ++ le16 h.id ++ le16 h.off) ++
      ([h.ttl, h.proto] ++ (le16 h.chksum ++ (le32 h.saddr ++ le32 h.daddr))) := by
    simp only [IpHdr.bytes, List.append_assoc]
  rw [hsplit, OnesComplement.words_append (by simp), words_frontBytes,
    OnesComplement.words_append (by simp), OnesComplement.words_append (by simp),
    OnesComplement.words_append (by simp), words_le16, words_le32, words_le32]
  simp only [IpHdr.otherWords, OnesComplement.words, List.sum_append, List.sum_cons, List.sum_nil]
  omega

/-- **The checksum as it is received**: 256 times the front words. -/
theorem ntohs_getChksum (h : IpHdr) :
    (ntohs (getChksum h.bytes)).toNat ≡ 256 * h.frontWords.sum [MOD 65535] ∧
      ((ntohs (getChksum h.bytes)).toNat = 0 ↔ h.frontWords.sum = 0) := by
  let front := [h.versionIhl, h.tos] ++ le16 h.len ++ le16 h.id ++ le16 h.off
  have hlength : front.length = 8 := by simp [front]
  have hwords : OnesComplement.words front = h.frontWords := words_frontBytes h
  -- summed in machine order and swapped once more, the words count 256 times
  have hraw := toNat_rteRawCksum front (hlength ▸ by decide) 0 (by rw [hlength]; decide)
  have hswapped := OnesComplement.sum_map_swap (OnesComplement.words_lt front)
  rw [hwords] at hraw hswapped
  obtain ⟨hmod, hzero⟩ := toNat_rteRawCksumReduce (rteRawCksum front 0)
  rw [hraw, UInt32.toNat_zero, Nat.zero_add] at hmod hzero
  rw [getChksum_ipHdr, ntohs_htons]
  exact ⟨hmod.trans hswapped.1, hzero.trans hswapped.2⟩

/-- **When a header with this checksum verifies**: the words `get_chksum` sums,
counted 257 times, and the others add up to a multiple of `2 ^ 16 - 1`. -/
theorem checksumVerifies_iff (h : IpHdr) :
    ChecksumVerifies { h with chksum := getChksum h.bytes : IpHdr }.bytes ↔
      65535 ∣ 257 * h.frontWords.sum + h.otherWords.sum ∧
        257 * h.frontWords.sum + h.otherWords.sum ≠ 0 := by
  obtain ⟨hmod, hzero⟩ := ntohs_getChksum h
  have htotal : (OnesComplement.words { h with chksum := getChksum h.bytes : IpHdr }.bytes).sum =
      h.frontWords.sum + (ntohs (getChksum h.bytes)).toNat + h.otherWords.sum :=
    sum_words_bytes { h with chksum := getChksum h.bytes }
  -- the front words are summed once themselves and 256 times in the checksum
  have hsame : h.frontWords.sum + (ntohs (getChksum h.bytes)).toNat + h.otherWords.sum ≡
      257 * h.frontWords.sum + h.otherWords.sum [MOD 65535] := by
    calc h.frontWords.sum + (ntohs (getChksum h.bytes)).toNat + h.otherWords.sum
        ≡ h.frontWords.sum + 256 * h.frontWords.sum + h.otherWords.sum [MOD 65535] :=
          (hmod.add_left _).add_right _
      _ = 257 * h.frontWords.sum + h.otherWords.sum := by omega
  rw [ChecksumVerifies, OnesComplement.sum_eq_allOnes_iff (OnesComplement.words_lt _), htotal]
  -- the sum is zero only if no word has a bit set
  apply and_congr
  · exact hsame.dvd_iff (dvd_refl _)
  · omega

/-! ## The two headers -/

/-- `get_chksum` and the fields it does not cover, for a header that starts with
the word `first` and has the given length, id, offset, `ttl` and protocol, and
addresses in host order. -/
def checkTotal (first len id off ttlProto saddr daddr : ℕ) : ℕ :=
  257 * (first + len + id + off) +
    (ttlProto + saddr / 65536 + saddr % 65536 + daddr / 65536 + daddr % 65536)

/-- The total is a positive multiple of `2 ^ 16 - 1`. -/
def IsAllOnes (total : ℕ) : Prop := 65535 ∣ total ∧ total ≠ 0

instance (total : ℕ) : Decidable (IsAllOnes total) := inferInstanceAs (Decidable (_ ∧ _))

/-- The length field that is written for a payload. -/
theorem toNat_ntohs_ipLen (payloadSize : UInt64) :
    (ntohs (htons (20 + 8 + payloadSize).toUInt16)).toNat = (28 + payloadSize.toNat) % 65536 := by
  have hsum : (20 + 8 + payloadSize).toNat = (28 + payloadSize.toNat) % 2 ^ 64 := UInt64.toNat_add ..
  rw [ntohs_htons, UInt64.toNat_toUInt16, hsum]
  omega

theorem be32toh_htonl (x : UInt32) : be32toh (htonl x) = x := by
  rw [← UInt32.toNat_inj, htonl, be32toh, toNat_bswap32, toNat_bswap32, swap_swap]
  exact Nat.mod_eq_of_lt x.toNat_lt

theorem checksumVerifies_outgoing_iff (srcAddr dstAddr : EthAddr) (srcIp dstIp : UInt32)
    (srcPort dstPort : UInt16) (payloadSize : UInt64) :
    ChecksumVerifies
        (initializeOutgoingHeader srcAddr dstAddr srcIp dstIp srcPort dstPort payloadSize).ipv4.bytes ↔
      IsAllOnes (checkTotal 0x4500 ((28 + payloadSize.toNat) % 65536) 1 0 0x4011 srcIp.toNat
        dstIp.toNat) := by
  let header : IpHdr :=
    ⟨versionIhl, 0, htons (20 + 8 + payloadSize).toUInt16, htons 1, 0, 64, ipprotoUdp, 0,
      htonl srcIp, htonl dstIp⟩
  have htotal : 257 * header.frontWords.sum + header.otherWords.sum =
      checkTotal 0x4500 ((28 + payloadSize.toNat) % 65536) 1 0 0x4011 srcIp.toNat dstIp.toNat := by
    -- version and header length, then time to live and protocol
    have hfirst : 256 * versionIhl.toNat + (0 : UInt8).toNat = 0x4500 := by decide
    have hoff : (ntohs 0).toNat = 0 := by decide
    have httl : 256 * (64 : UInt8).toNat + ipprotoUdp.toNat = 0x4011 := by decide
    have hid : (ntohs (htons 1)).toNat = 1 := by decide
    simp only [header, IpHdr.frontWords, IpHdr.otherWords, toNat_ntohs_ipLen, be32toh_htonl, hfirst,
      hoff, httl, hid, checkTotal, List.sum_cons, List.sum_nil]
    omega
  rw [← htotal]
  exact checksumVerifies_iff header

theorem checksumVerifies_flipped_iff (mem : ByteMemory) (b : Mbuf) (outgoingSize : UInt64) :
    ChecksumVerifies ((flipHeaders mem b outgoingSize).2.1.read (b.data.toNat + 14) 20) ↔
      let h := IpHdr.ofMem mem (b.data.toNat + 14)
      IsAllOnes (checkTotal (256 * h.versionIhl.toNat + h.tos.toNat)
        ((28 + outgoingSize.toNat) % 65536) (ntohs h.id).toNat (ntohs h.off).toNat
        (256 * h.ttl.toNat + h.proto.toNat) (be32toh h.saddr).toNat (be32toh h.daddr).toNat) := by
  -- the headers are turned around whether or not the reply is refused
  have hmem : (flipHeaders mem b outgoingSize).2.1 =
      flipHeadersStores mem b.data.toNat outgoingSize := by
    unfold flipHeaders
    split <;> rfl
  rw [hmem, ← IpHdr.bytes_ofMem, ipHdr_flipHeadersStores]
  generalize IpHdr.ofMem mem (b.data.toNat + 14) = h
  let header : IpHdr := { h with
    chksum := 0
    len := htons (20 + 8 + outgoingSize).toUInt16
    saddr := h.daddr
    daddr := h.saddr }
  -- the addresses change places, which their sum does not see
  have htotal : 257 * header.frontWords.sum + header.otherWords.sum =
      checkTotal (256 * h.versionIhl.toNat + h.tos.toNat) ((28 + outgoingSize.toNat) % 65536)
        (ntohs h.id).toNat (ntohs h.off).toNat (256 * h.ttl.toNat + h.proto.toNat)
        (be32toh h.saddr).toNat (be32toh h.daddr).toNat := by
    simp only [header, IpHdr.frontWords, IpHdr.otherWords, toNat_ntohs_ipLen, checkTotal,
      List.sum_cons, List.sum_nil]
    omega
  dsimp only
  rw [← htotal]
  exact checksumVerifies_iff header

/-- **When the IPv4 headers verify**: of a client's request, and of a request
that `flip_headers` turned around. -/
theorem header_checksum_verifies_iff (srcAddr dstAddr : EthAddr) (srcIp dstIp : UInt32)
    (srcPort dstPort : UInt16) (payloadSize : UInt64) (mem : ByteMemory) (b : Mbuf)
    (outgoingSize : UInt64) :
    (ChecksumVerifies (initializeOutgoingHeader srcAddr dstAddr srcIp dstIp srcPort dstPort
        payloadSize).ipv4.bytes ↔
      IsAllOnes (checkTotal 0x4500 ((28 + payloadSize.toNat) % 65536) 1 0 0x4011 srcIp.toNat
        dstIp.toNat)) ∧
    (ChecksumVerifies ((flipHeaders mem b outgoingSize).2.1.read (b.data.toNat + 14) 20) ↔
      let h := IpHdr.ofMem mem (b.data.toNat + 14)
      IsAllOnes (checkTotal (256 * h.versionIhl.toNat + h.tos.toNat)
        ((28 + outgoingSize.toNat) % 65536) (ntohs h.id).toNat (ntohs h.off).toNat
        (256 * h.ttl.toNat + h.proto.toNat) (be32toh h.saddr).toNat (be32toh h.daddr).toNat)) :=
  ⟨checksumVerifies_outgoing_iff srcAddr dstAddr srcIp dstIp srcPort dstPort payloadSize,
    checksumVerifies_flipped_iff mem b outgoingSize⟩

/-- A request between two hosts of one network does not verify. -/
theorem not_checksum_verifies_oneNetwork :
    ¬ ((∀ (srcAddr dstAddr : EthAddr) (srcIp dstIp : UInt32) (srcPort dstPort : UInt16)
      (payloadSize : UInt64),
      ChecksumVerifies (initializeOutgoingHeader srcAddr dstAddr srcIp dstIp srcPort dstPort
        payloadSize).ipv4.bytes) ∧
    ∀ (mem : ByteMemory) (b : Mbuf) (outgoingSize : UInt64),
      ChecksumVerifies ((flipHeaders mem b outgoingSize).2.1.read (b.data.toNat + 14) 20)) := by
  intro hclaim
  have hverifies := hclaim.1 (Vector.replicate 6 0) (Vector.replicate 6 1) 0xc0a80101 0xc0a80102
    50000 50000 16
  exact absurd ((checksumVerifies_outgoing_iff ..).mp hverifies) (by decide)

end Mlx5Netperf
