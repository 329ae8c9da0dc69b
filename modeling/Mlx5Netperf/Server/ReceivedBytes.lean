import Mlx5Netperf.Server.Process

/-!
# The Bytes the Server Reads

Where the server looks for the packet id, the segment list and the input of the
checksum, and for which frames these places lie within what was received.
`check_valid_packet` looks at the addresses and the protocol only, so a short
frame with the right ones is read past its end.
-/

namespace Mlx5Netperf

open ByteMemory

/-- The packet id: address and number of bytes. -/
def packetIdSpan (m : Mbuf) : ℕ × ℕ := (payloadPtr m, 4)

/-- The entries of the segment list. -/
def segmentSpans (cfg : Config) (m : Mbuf) : List (ℕ × ℕ) :=
  (List.range cfg.numSegments.toNat).map fun seg => (payloadPtr m + (seg + segListOffset) * 8, 8)

/-- The bytes that `calculate_checksum` looks at. -/
def checksumSpans (m : Mbuf) : List (ℕ × ℕ) :=
  (checksumPtrs (payloadPtr m) amtToAdd (payloadLen m)).map fun ptr => (ptr, 1)

/-- What `process_server_requests` interprets of an accepted packet. An echo
server sends the payload back unread. -/
def interpretedSpans (cfg : Config) (m : Mbuf) : List (ℕ × ℕ) :=
  if cfg.echoMode then []
  else packetIdSpan m :: (segmentSpans cfg m ++
    if cfg.readIncomingPacket then checksumSpans m else [])

/-- A span lies within the bytes received for the packet. -/
def InFrame (m : Mbuf) (span : ℕ × ℕ) : Prop :=
  (mbufData m).toNat ≤ span.1 ∧ span.1 + span.2 ≤ (mbufData m).toNat + (mbufLength m).toNat

/-- If the packet is accepted, its payload length is what is left of the frame
behind the headers, and what is interpreted of it was received. -/
structure ReadsReceived (cfg : Config) (mem : ByteMemory) (m : Mbuf) : Prop where
  payloadLen : ∀ payload len, checkValidPacket mem m cfg.serverMac = some (payload, len) →
    len.toNat + 42 = (mbufLength m).toNat
  spans : checkValidPacket mem m cfg.serverMac ≠ none → ∀ span ∈ interpretedSpans cfg m, InFrame m span

/-- The shortest frame that holds everything the server interprets. -/
def requiredLength (cfg : Config) : ℕ :=
  if cfg.echoMode then 42
  else if cfg.numSegments = 0 then 46
  else 42 + 8 * (cfg.numSegments.toNat + 1)

variable {cfg : Config} {mem : ByteMemory} {m : Mbuf}

/-! ## The readers read the spans -/

/-- The segments depend on the memory at their spans only. -/
theorem readSegments_congr {mem' : ByteMemory}
    (hagree : ∀ span ∈ segmentSpans cfg m, mem'.read span.1 span.2 = mem.read span.1 span.2) :
    readSegments cfg mem' (payloadPtr m) = readSegments cfg mem (payloadPtr m) := by
  refine List.map_congr_left fun seg hseg => ?_
  have hsegment := hagree (payloadPtr m + (seg + segListOffset) * 8, 8)
    (List.mem_map.mpr ⟨seg, hseg, rfl⟩)
  rw [readU64, readU64, hsegment]

/-- And the checksum at the bytes it looks at. -/
theorem incomingChecksum_congr {mem' : ByteMemory}
    (hagree : ∀ span ∈ checksumSpans m, mem'.read span.1 span.2 = mem.read span.1 span.2) :
    incomingChecksum mem' m = incomingChecksum mem m := by
  have hbyte : ∀ ptr ∈ checksumPtrs (payloadPtr m) amtToAdd (payloadLen m), mem' ptr = mem ptr := by
    intro ptr hptr
    have hspan := hagree (ptr, 1) (List.mem_map.mpr ⟨ptr, hptr, rfl⟩)
    simpa [ByteMemory.read] using hspan
  rw [incomingChecksum, incomingChecksum, calculateChecksum, calculateChecksum]
  exact List.foldl_ext _ _ _ fun ret ptr hptr => by rw [hbyte ptr hptr]

/-! ## Which frames are long enough -/

theorem payloadPtr_eq (m : Mbuf) : payloadPtr m = (mbufData m).toNat + 42 := rfl

/-- The payload length does not wrap around on a frame with all its headers. -/
theorem payloadLen_of_le (h : 42 ≤ (mbufLength m).toNat) :
    payloadLen m + 42 = (mbufLength m).toNat := by
  have hle : UInt32.ofNat fullHeaderSize ≤ mbufLength m := UInt32.le_iff_toNat_le.mpr h
  have hheader : (UInt32.ofNat fullHeaderSize).toNat = 42 := rfl
  rw [payloadLen, UInt32.toNat_sub_of_le _ _ hle, hheader]
  omega

/-- The reported payload length is that of `process_server_requests`. -/
theorem checkValidPacket_eq_some {ourEth : EthAddr} {payload : ℕ} {len : UInt32}
    (h : checkValidPacket mem m ourEth = some (payload, len)) :
    payload = payloadPtr m ∧ len.toNat = payloadLen m := by
  unfold checkValidPacket at h
  simp only [Option.ite_none_left_eq_some, Option.some.injEq, Prod.mk.injEq] at h
  obtain ⟨-, -, -, rfl, rfl⟩ := h
  exact ⟨rfl, rfl⟩

/-- **Long enough frames**: every span is inside. -/
theorem inFrame_of_requiredLength (hlen : requiredLength cfg ≤ (mbufLength m).toNat)
    (hecho : cfg.echoMode = false) : ∀ span ∈ interpretedSpans cfg m, InFrame m span := by
  have hrequired : 46 ≤ (mbufLength m).toNat ∧
      (cfg.numSegments.toNat ≠ 0 → 42 + 8 * (cfg.numSegments.toNat + 1) ≤ (mbufLength m).toNat) := by
    simp only [requiredLength, hecho, Bool.false_eq_true, if_false] at hlen
    split at hlen
    · rename_i hzero
      exact ⟨hlen, fun hn => absurd (by rw [hzero]; rfl) hn⟩
    · exact ⟨by omega, fun _ => hlen⟩
  have hpayload := payloadLen_of_le (m := m) (by omega)
  intro span hspan
  simp only [interpretedSpans, hecho, Bool.false_eq_true, if_false, List.mem_cons,
    List.mem_append] at hspan
  -- the spans one after the other
  rcases hspan with rfl | hsegment | hchecksum
  · exact ⟨by simp only [packetIdSpan, payloadPtr_eq]; omega,
      by simp only [packetIdSpan, payloadPtr_eq]; omega⟩
  · obtain ⟨seg, hseg, rfl⟩ := List.mem_map.mp hsegment
    have hlt := List.mem_range.mp hseg
    have hn := hrequired.2 (by omega)
    exact ⟨by simp only [payloadPtr_eq]; omega,
      by simp only [payloadPtr_eq, segListOffset]; omega⟩
  · split at hchecksum
    · obtain ⟨ptr, hptr, rfl⟩ := List.mem_map.mp hchecksum
      obtain ⟨i, hi, rfl⟩ := List.mem_range'.mp hptr
      have hamt : amtToAdd = 20 := rfl
      rw [hamt] at hi ⊢
      exact ⟨by simp only [payloadPtr_eq]; omega, by simp only [payloadPtr_eq]; omega⟩
    · simp at hchecksum

/-- **Only received bytes are read** exactly when the packet is rejected or its
frame is long enough for the configured number of segments. -/
theorem reads_received_iff (cfg : Config) (mem : ByteMemory) (m : Mbuf) :
    ReadsReceived cfg mem m ↔ checkValidPacket mem m cfg.serverMac = none ∨
      requiredLength cfg ≤ (mbufLength m).toNat := by
  constructor
  · rintro ⟨hpayload, hspans⟩
    rcases haccepted : checkValidPacket mem m cfg.serverMac with _ | ⟨payload, len⟩
    · exact .inl rfl
    -- a payload length that is right does not wrap around
    · have hheaders : 42 ≤ (mbufLength m).toNat := by
        have hlen := hpayload payload len haccepted
        omega
      refine .inr ?_
      unfold requiredLength
      split
      · exact hheaders
      · rename_i hecho
        have hin := hspans (by simp [haccepted])
        simp only [interpretedSpans, hecho, Bool.false_eq_true, if_false, List.mem_cons,
          List.mem_append, forall_eq_or_imp] at hin
        obtain ⟨hid, hrest⟩ := hin
        split
        · simpa only [InFrame, packetIdSpan, payloadPtr_eq, Nat.add_assoc,
            Nat.add_le_add_iff_left] using hid.2
        · rename_i hn
          have hpos : 0 < cfg.numSegments.toNat :=
            Nat.pos_of_ne_zero fun hzero => hn (UInt64.toNat_inj.mp (by rw [hzero]; rfl))
          -- the last entry of the segment list reaches farthest
          have hlast := (hrest _ (.inl (List.mem_map.mpr ⟨cfg.numSegments.toNat - 1,
            List.mem_range.mpr (by omega), rfl⟩))).2
          simp only [payloadPtr_eq, segListOffset] at hlast
          omega
  · intro h
    refine ⟨fun payload len haccepted => ?_, fun haccepted span hspan => ?_⟩
    · have hlen : requiredLength cfg ≤ (mbufLength m).toNat := by
        rcases h with hrejected | hlen
        · simp [hrejected] at haccepted
        · exact hlen
      rw [(checkValidPacket_eq_some haccepted).2]
      refine payloadLen_of_le (le_trans ?_ hlen)
      unfold requiredLength
      split
      · exact le_rfl
      · split <;> omega
    · have hlen := h.resolve_left haccepted
      cases hecho : cfg.echoMode with
      | true => simp [interpretedSpans, hecho] at hspan
      | false => exact inFrame_of_requiredLength hlen hecho span hspan

/-- A frame of the minimum length on Ethernet, 60 bytes, in a buffer of zeros: a
UDP packet to the server with the address `00:00:00:00:00:00`. -/
def minimumFrame : ByteMemory × Mbuf :=
  (stores (fun _ => 0) [⟨0x600c, le16 (htons ethtypeIp)⟩, ⟨0x6017, [ipprotoUdp]⟩],
    { Mbuf.zeroed with data := 0x6000, len := 60 })

/-- A server that expects two segments accepts it and reads past its end. -/
theorem reads_not_received_minimumFrame :
    ¬ ∀ (cfg : Config) (mem : ByteMemory) (m : Mbuf), ReadsReceived cfg mem m := by
  intro hclaim
  have hreads := hclaim { Config.default with numSegments := 2 } minimumFrame.1 minimumFrame.2
  have haccepted : checkValidPacket minimumFrame.1 minimumFrame.2 (Vector.replicate 6 0) ≠ none := by
    decide +kernel
  have hlast := hreads.spans haccepted (0x6000 + 42 + 16, 8) (by decide)
  exact absurd hlast.2 (by decide)

end Mlx5Netperf
