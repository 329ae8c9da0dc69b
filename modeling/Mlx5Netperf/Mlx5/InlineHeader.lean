import Mlx5Netperf.Mlx5.Descriptor

/-!
# Where the Inlined Header Goes

The five `mlx5_inline_data` calls of a send. Away from the end of the ring their
stores are consecutive. In the last block the pieces behind the first 34 bytes
start from an address in front of the ring.
-/

namespace Mlx5Netperf

open ByteMemory WordArith

/-- The wire bytes of a header in the five pieces that are inlined. -/
def RequestHeader.wirePieces (h : RequestHeader) : List (List UInt8) :=
  [h.packetHeader.eth.bytes, h.packetHeader.ipv4.bytes, h.packetHeader.udp.bytes,
    le32 h.packetId ++ le32 h.idPadding, le64 h.checksum]

theorem RequestHeader.flatten_wirePieces (h : RequestHeader) :
    h.wirePieces.flatten = h.wireBytes := by
  simp [RequestHeader.wirePieces, RequestHeader.wireBytes]

/-- The members are read from the object without its padding. -/
theorem RequestHeader.inlinePieces_eq (h : RequestHeader) :
    h.inlinePieces = [(0, h.packetHeader.eth.bytes), (14, h.packetHeader.ipv4.bytes),
      (34, h.packetHeader.udp.bytes), (42, le32 h.packetId ++ le32 h.idPadding),
      (50, le64 h.checksum)] := by
  simp [RequestHeader.inlinePieces, RequestHeader.bytes_eq, OutgoingHeader.bytes_eq,
    sizeofEthHdr, sizeofIpHdr, sizeofUdpHdr, List.take_append, List.drop_append,
    List.take_of_length_le, List.drop_eq_nil_of_le]

section Ring

variable {v : Mlx5Txq} {base n : ℕ}

/-- A piece that ends before the ring does is stored where it belongs. -/
theorem RingAt.mlx5InlineData_inside (h : RingAt v base n) (hsmall : 64 * n < 2 ^ 32)
    {offset : ℕ} {data : List UInt8} (hpos : 0 < data.length)
    (hfit : 64 * v.slot + 30 + offset + data.length ≤ 64 * n) :
    mlx5InlineData v offset data = [⟨base + 64 * v.slot + 30 + offset, data⟩] := by
  have hbound := h.bound
  have hbefore : ¬ base + 64 * v.slot + 16 + 14 + offset ≥ base + 64 * n := by omega
  -- the piece is not split
  have hleft : ¬ sizeSub (base + 64 * n) (base + 64 * v.slot + 16 + 14 + offset) < data.length := by
    rw [sizeSub_of_le (by omega) (by omega)]
    omega
  simp only [mlx5InlineData, h.endPtr_eq hsmall, h.getSegment_eq hsmall, sizeofCtrlSeg,
    offsetofInlineHdrStart, hbefore, hleft, if_false]

/-- In the last block, an eight-byte piece behind the first 34 bytes is stored 26 bytes in front
of the ring: its own length stands where its offset should. -/
theorem RingAt.mlx5InlineData_past (h : RingAt v base n) (hsmall : 64 * n < 2 ^ 32)
    (hlast : v.slot + 1 = n) {offset : ℕ} {data : List UInt8} (hoff : 34 ≤ offset)
    (hlen : data.length = 8) :
    mlx5InlineData v offset data = [⟨sizeAdd base (2 ^ 64 - 26), data⟩] := by
  have hbound := h.bound
  -- 34 bytes of the last block are behind the start of the inlined data
  have hroom : sizeSub (base + 64 * n) (base + 64 * v.slot + 16 + 14) = 34 := by
    rw [sizeSub_of_le (by omega) (by omega)]
    omega
  -- eight bytes minus 34 wrap around
  have hchunk : sizeSub 8 34 = 2 ^ 64 - 26 := by decide
  have hbehind : base + 64 * v.slot + 16 + 14 + offset ≥ base + 64 * n := by omega
  have hleft : ¬ sizeSub (base + 64 * n) (sizeAdd base (2 ^ 64 - 26)) < 8 := by
    unfold sizeSub sizeAdd
    omega
  simp only [mlx5InlineData, h.endPtr_eq hsmall, h.getSegment_eq hsmall, h.buf, sizeofCtrlSeg,
    offsetofInlineHdrStart, hroom, hlen, hchunk, hbehind, hleft, if_true, if_false]

/-- **Away from the last block the header is one run of bytes.** -/
theorem RingAt.inlineStores_inside (h : RingAt v base n) (hsmall : 64 * n < 2 ^ 32)
    (hinside : v.slot + 1 < n) (header : RequestHeader) :
    inlineStores v header = consecutive (base + 64 * v.slot + 30) header.wirePieces := by
  -- 58 bytes fit in front of the end of the next block
  have hpiece : ∀ {offset : ℕ} {data : List UInt8}, 0 < data.length → offset + data.length ≤ 58 →
      mlx5InlineData v offset data = [⟨base + 64 * v.slot + 30 + offset, data⟩] :=
    fun hpos hle => h.mlx5InlineData_inside hsmall hpos (by omega)
  simp only [inlineStores, RequestHeader.inlinePieces_eq, List.flatMap_cons, List.flatMap_nil]
  rw [hpiece (by simp) (by simp), hpiece (by simp) (by simp), hpiece (by simp) (by simp),
    hpiece (by simp) (by simp), hpiece (by simp) (by simp)]
  simp [consecutive, RequestHeader.wirePieces, Nat.add_assoc]

/-- In the last block the first two pieces fit, and the others go astray. -/
theorem RingAt.inlineStores_last (h : RingAt v base n) (hsmall : 64 * n < 2 ^ 32)
    (hlast : v.slot + 1 = n) (header : RequestHeader) :
    inlineStores v header =
      [⟨base + 64 * v.slot + 30, header.packetHeader.eth.bytes⟩,
        ⟨base + 64 * v.slot + 44, header.packetHeader.ipv4.bytes⟩,
        ⟨sizeAdd base (2 ^ 64 - 26), header.packetHeader.udp.bytes⟩,
        ⟨sizeAdd base (2 ^ 64 - 26), le32 header.packetId ++ le32 header.idPadding⟩,
        ⟨sizeAdd base (2 ^ 64 - 26), le64 header.checksum⟩] := by
  simp only [inlineStores, RequestHeader.inlinePieces_eq, List.flatMap_cons, List.flatMap_nil]
  rw [h.mlx5InlineData_inside hsmall (by simp) (by simp; omega),
    h.mlx5InlineData_inside hsmall (by simp) (by simp; omega),
    h.mlx5InlineData_past hsmall hlast (by omega) (by simp),
    h.mlx5InlineData_past hsmall hlast (by omega) (by simp),
    h.mlx5InlineData_past hsmall hlast (by omega) (by simp)]
  rfl

/-- The inlined header never reaches the control segment or the front of the Ethernet segment. -/
theorem RingAt.inlineStores_misses (h : RingAt v base n) (hsmall : 64 * n < 2 ^ 32)
    {header : RequestHeader} {s : Store} (hs : s ∈ inlineStores v header) :
    s.Misses (base + 64 * v.slot) 30 := by
  have hslot := h.slot_lt
  have hbound := h.bound
  by_cases hlast : v.slot + 1 = n
  · -- the stray pieces lie in front of the ring, or at the top of the address space
    have hstray : sizeAdd base (2 ^ 64 - 26) + 8 ≤ base ∨
        base + 64 * n ≤ sizeAdd base (2 ^ 64 - 26) := by
      unfold sizeAdd
      omega
    rw [h.inlineStores_last hsmall hlast] at hs
    simp only [List.mem_cons, List.not_mem_nil, or_false] at hs
    rcases hs with rfl | rfl | rfl | rfl | rfl <;>
      simp only [Store.Misses, EthHdr.length_bytes, IpHdr.length_bytes, UdpHdr.length_bytes,
        List.length_append, length_le32, length_le64] <;> omega
  · rw [h.inlineStores_inside hsmall (by omega)] at hs
    exact .inr (bounds_of_mem_consecutive hs).1

end Ring

end Mlx5Netperf
