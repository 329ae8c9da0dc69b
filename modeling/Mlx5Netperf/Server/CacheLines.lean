import Mlx5Netperf.Server.ReceivedBytes

/-!
# The Cache Lines of a Request

`process_server_requests` passes `calculate_checksum` the distance to the next
cache line behind the headers, and the loop goes on one line at a time. The
distance comes from the size of `OutgoingHeader` in memory, the payload from the
size of the headers on the wire, and the structure has two bytes of padding that
the wire has not.
-/

namespace Mlx5Netperf

/-! ## Lines -/

/-- The cache line of an address. -/
def cacheLine (a : ℕ) : ℕ := a / 64

/-- The addresses that the checksum over a request reads. -/
def checksumReads (m : Mbuf) : List ℕ := checksumPtrs (payloadPtr m) amtToAdd (payloadLen m)

/-- The cache line begins behind the first one of the frame and before its end. -/
def LaterLine (m : Mbuf) (line : ℕ) : Prop :=
  (mbufData m).toNat < 64 * line ∧ 64 * line < (mbufData m).toNat + (mbufLength m).toNat

/-- The checksum reads one byte of each later line of the frame, nothing of its
first line and nothing outside. -/
structure TouchesLinesOnce (m : Mbuf) : Prop where
  later : ∀ line, LaterLine m line → (checksumReads m).countP (fun a => cacheLine a = line) = 1
  first : ∀ a ∈ checksumReads m, cacheLine a ≠ cacheLine (mbufData m).toNat
  inside : ∀ a ∈ checksumReads m,
    (mbufData m).toNat ≤ a ∧ a < (mbufData m).toNat + (mbufLength m).toNat

variable {m : Mbuf}

/-! ## What is read -/

/-- **The bytes that are read** are at offset 62 of the frame and every 64 bytes
from there on. -/
theorem mem_checksumReads (hlen : 42 ≤ (mbufLength m).toNat) {a : ℕ} :
    a ∈ checksumReads m ↔
      ∃ j, a = (mbufData m).toNat + 62 + 64 * j ∧ 62 + 64 * j < (mbufLength m).toNat := by
  have hpayload := payloadLen_of_le hlen
  have hamt : amtToAdd = 20 := rfl
  simp only [checksumReads, checksumPtrs, List.mem_range', payloadPtr_eq, hamt]
  -- the first read is 20 bytes behind the 42 of the headers
  constructor
  · intro h
    obtain ⟨j, hj, haddr⟩ := h
    exact ⟨j, by omega, by omega⟩
  · intro h
    obtain ⟨j, haddr, hj⟩ := h
    exact ⟨j, by omega, by omega⟩

/-- The headers and twenty bytes of payload leave nothing to read. -/
theorem checksumReads_eq_nil (hlen : 42 ≤ (mbufLength m).toNat)
    (hshort : (mbufLength m).toNat ≤ 62) : checksumReads m = [] := by
  apply List.eq_nil_iff_forall_not_mem.mpr
  intro a ha
  obtain ⟨j, -, hj⟩ := (mem_checksumReads hlen).mp ha
  omega

/-- Two bytes in front of the second line are read of every longer frame. -/
theorem mem_checksumReads_first (hlen : 62 < (mbufLength m).toNat) :
    (mbufData m).toNat + 62 ∈ checksumReads m := by
  apply (mem_checksumReads (by omega)).mpr
  exact ⟨0, rfl, by omega⟩

/-- **Each later line is touched once** exactly in the frames without a byte at
offset 62, which have no later line. -/
theorem touchesLinesOnce_iff (hlen : 42 ≤ (mbufLength m).toNat)
    (haligned : 64 ∣ (mbufData m).toNat) :
    TouchesLinesOnce m ↔ (mbufLength m).toNat ≤ 62 := by
  obtain ⟨first, hfirst⟩ := haligned
  constructor
  · intro h
    by_contra hlong
    -- the read at offset 62 is in the line of the headers
    apply h.first _ (mem_checksumReads_first (Nat.lt_of_not_le hlong))
    simp only [cacheLine]
    omega
  · intro hshort
    -- neither a read nor a later line
    have hnil := checksumReads_eq_nil hlen hshort
    constructor
    case later =>
      intro line hline
      obtain ⟨hbehind, hbefore⟩ := hline
      omega
    case first => simp [hnil]
    case inside => simp [hnil]

/-- A frame of the minimum length on Ethernet. -/
theorem touchesLinesOnce_minimumFrame : TouchesLinesOnce minimumFrame.2 :=
  (touchesLinesOnce_iff (by decide) (by decide)).mpr (by decide)

/-- A frame of two lines: one byte of the first is read. -/
theorem not_touchesLinesOnce_twoLines :
    ¬ ∀ m : Mbuf, 42 ≤ (mbufLength m).toNat → 64 ∣ (mbufData m).toNat → TouchesLinesOnce m := by
  intro hclaim
  let frame : Mbuf := { Mbuf.zeroed with data := 0x6000, len := 128 }
  have htouches := hclaim frame (by decide) (by decide)
  exact htouches.first _ (mem_checksumReads_first (by decide)) (by decide)

end Mlx5Netperf
