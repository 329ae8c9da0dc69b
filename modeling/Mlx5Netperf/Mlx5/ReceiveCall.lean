import Mlx5Netperf.Mlx5.ReceiveRing

/-!
# One Call of `mlx5_gather_rx`

On a full ring, with packets reported in ring order, a call takes the oldest
buffers and posts as many others behind the rest.
-/

namespace Mlx5Netperf

/-- The slot that a completion names. -/
def Mlx5Rxq.namedSlot (v : Mlx5Rxq) (cqe : Mlx5Cqe64) : ℕ :=
  (wqeIdx (be16toh cqe.wqeCounter) v.rxWq.wqeCnt).toNat

/-- The entries that a call which returned so many packets has read. -/
def Mlx5Rxq.readEntries (v : Mlx5Rxq) (count : ℕ) : List Mlx5Cqe64 :=
  v.rxCq.entriesAt v.consumerIdx count

/-- The slots that a refill of so many descriptors writes, in order. -/
def Mlx5Rxq.refillSlots (v : Mlx5Rxq) (count : ℕ) : List ℕ :=
  (List.range count).map fun i => (pow2Mod (v.wqHead + UInt32.ofNat i) v.rxWq.wqeCnt).toNat

/-- The counters are those of packets in ring order, the first at position `p`. -/
def InRingOrder (n p : ℕ) (counters : List UInt16) : Prop :=
  ∀ i counter, counters[i]? = some counter → counter.toNat % n = (p + i) % n

/-- The ring between two calls, with the packets reported and not yet taken. -/
structure ReceiveReady (v : Mlx5Rxq) (p : ℕ) (ring : List Addr) (counters : List UInt16) :
    Prop where
  posted : v.Posted p ring
  full : ring.length = v.rxWq.wqeCnt.toNat
  consumerIdx : v.consumerIdx = UInt32.ofNat p
  reports : v.rxCq.Reports mlx5CqeRespSend v.consumerIdx counters
  inOrder : InRingOrder v.rxWq.wqeCnt.toNat p counters
  fits : counters.length ≤ ring.length

namespace ReceiveReady

variable {st st' : State} {p budget : ℕ} {ring ms : List Addr} {counters : List UInt16}

/-- **The two counters** of a full ring are `wqe_cnt` apart. -/
theorem counters_eq {v : Mlx5Rxq} (h : ReceiveReady v p ring counters) :
    v.wqHead - v.consumerIdx = v.rxWq.wqeCnt := by
  -- the difference is taken in 32 bits, the ring holds less
  rw [h.posted.wqHead, h.consumerIdx, WordArith.ofNat_add_sub, h.full, UInt32.ofNat_toNat]

/-- The entries that the loop finds. -/
theorem map_entries (h : ReceiveReady st.rxq p ring counters) (budget : ℕ) :
    (rxPoller.entries budget st).map (fun cqe => be16toh cqe.wqeCounter) = counters.take budget :=
  h.reports.map_poll (by decide) budget

theorem length_entries (h : ReceiveReady st.rxq p ring counters) (budget : ℕ) :
    (rxPoller.entries budget st).length = min budget counters.length := by
  have hlen := congrArg List.length (h.map_entries budget)
  rwa [List.length_map, List.length_take] at hlen

/-- The entry number `i` names the slot of position `p + i`. -/
theorem namedSlot_entry (h : ReceiveReady st.rxq p ring counters) {i : ℕ} {cqe : Mlx5Cqe64}
    (hi : (rxPoller.entries budget st)[i]? = some cqe) :
    st.rxq.namedSlot cqe = (p + i) % st.rxq.rxWq.wqeCnt.toNat := by
  -- the entry carries the counter at its place in the list
  have hcounter : (counters.take budget)[i]? = some (be16toh cqe.wqeCounter) := by
    rw [← h.map_entries budget, List.getElem?_map, hi, Option.map_some]
  have hlt : i < budget := by
    have hlen := (List.getElem?_eq_some_iff.mp hcounter).1
    rw [List.length_take] at hlen
    omega
  rw [List.getElem?_take_of_lt hlt] at hcounter
  exact h.posted.namedSlot (h.inOrder i _ hcounter)

/-- Every entry found names a slot with a buffer. -/
theorem exists_accepts (h : ReceiveReady st.rxq p ring counters) :
    ∀ cqe ∈ rxPoller.entries budget st, ∃ m, rxPoller.Accepts st cqe m := by
  intro cqe hcqe
  obtain ⟨i, hi⟩ := List.mem_iff_getElem?.mp hcqe
  have hlen := (List.getElem?_eq_some_iff.mp hi).1
  have hfits := h.fits
  rw [h.length_entries] at hlen
  -- no more is reported than the ring holds
  obtain ⟨buf, hbuf⟩ : ∃ buf, ring[i]? = some buf :=
    ⟨ring[i], List.getElem?_eq_getElem (by omega)⟩
  -- and the device reports plain receives only
  obtain ⟨hopcode, hformat⟩ := h.reports.of_mem_poll (by decide) cqe hcqe
  refine ⟨buf, hopcode, hformat, ?_⟩
  have hslot := (h.posted.slot i buf hbuf).buffer
  rw [← h.namedSlot_entry hi] at hslot
  exact hslot

/-- **What the loop returns** are the oldest buffers of the ring. -/
theorem loop_takes (h : ReceiveReady st.rxq p ring counters) {st₁ : State}
    (hloop : rxPoller.loop budget st = some (ms, st₁)) :
    ms.length ≤ counters.length ∧ ms = ring.take ms.length := by
  have haccepts := (Poller.loop_eq_some_iff.mp hloop).1
  have hcount := h.length_entries budget
  have hlen := haccepts.length_eq
  have hfits := h.fits
  refine ⟨by omega, List.ext_getElem? fun i => ?_⟩
  -- both lists at position `i`
  rcases Nat.lt_or_ge i ms.length with hlt | hge
  · have hbuf : ring[i]? = some ring[i] := List.getElem?_eq_getElem (by omega)
    have hentry : (rxPoller.entries budget st)[i]? = some (rxPoller.entries budget st)[i] :=
      List.getElem?_eq_getElem (by omega)
    -- the buffer in the slot that entry `i` names
    have htake := (haccepts.get (by omega) hlt).buffer
    have hslot := (h.posted.slot i _ hbuf).buffer
    rw [← h.namedSlot_entry hentry] at hslot
    rw [List.getElem?_take_of_lt hlt, hbuf, List.getElem?_eq_getElem hlt]
    exact htake.symm.trans hslot
  · rw [List.getElem?_eq_none hge, List.getElem?_eq_none (by simp; omega)]

end ReceiveReady

/-- What a call that returned these packets does with slots: the assertion of the
refill holds, each packet is the buffer that was posted in the slot its
completion names, the slots refilled are these slots, and no other is written. -/
structure RefillsTaken (budget : ℕ) (st st' : State) (ms : List Addr) : Prop where
  assertion : ∀ st₁, mlx5GatherRxLoop budget st = some (ms, st₁) →
    refillAssertion st₁.rxq ms.length
  delivered : List.Forall₂ (fun cqe m => st.rxq.PostedIn (st.rxq.namedSlot cqe) m)
    (st.rxq.readEntries ms.length) ms
  refilled : st.rxq.refillSlots ms.length =
    (st.rxq.readEntries ms.length).map st.rxq.namedSlot
  others : ∀ s, s ∉ (st.rxq.readEntries ms.length).map st.rxq.namedSlot →
    st'.rxq.buffers s = st.rxq.buffers s ∧ st'.rxq.rxWq.segAddr s = st.rxq.rxWq.segAddr s

/-- **What one call of `mlx5_gather_rx` does** on a full ring: the packets are
the oldest buffers, as many others are posted behind the rest. -/
structure Gathered (st st' : State) (p : ℕ) (ring : List Addr) (counters : List UInt16)
    (ms bufs : List Addr) : Prop where
  le : ms.length ≤ counters.length
  taken : ms = ring.take ms.length
  length_bufs : bufs.length = ms.length
  ready : ReceiveReady st'.rxq (p + ms.length) (ring.drop ms.length ++ bufs)
    (counters.drop ms.length)
  wqeCnt : st'.rxq.rxWq.wqeCnt = st.rxq.rxWq.wqeCnt
  free : st.rxBufMempool.freeList = bufs ++ st'.rxBufMempool.freeList
  capacity : st'.rxBufMempool.capacity = st.rxBufMempool.capacity
  allocated : st'.rxBufMempool.allocated = st.rxBufMempool.allocated + ms.length
  received : ∀ a, a ∈ ms ∨ ReceivedMbuf st.heap a → ReceivedMbuf st'.heap a
  others : ∀ s, (∀ i < ms.length, s ≠ (p + i) % st.rxq.rxWq.wqeCnt.toNat) →
    st'.rxq.buffers s = st.rxq.buffers s ∧ st'.rxq.rxWq.segAddr s = st.rxq.rxWq.segAddr s

variable {st st' : State} {p budget : ℕ} {ring ms : List Addr} {counters : List UInt16}

/-- The refill, or its absence, after packets were taken. -/
theorem refilled_of_gatherRx {st₁ : State} {p₁ : ℕ} {rest : List Addr}
    (h : st₁.rxq.Posted p₁ rest) (hroom : rest.length + ms.length ≤ st₁.rxq.rxWq.wqeCnt.toNat)
    (hcases : (ms = [] ∧ st' = st₁) ∨
      (ms ≠ [] ∧ mlx5RefillRxqueue ms.length st₁.ringRxCqDoorbell = some st')) :
    ∃ bufs, bufs.length = ms.length ∧ Refilled st₁ st' p₁ rest bufs ∧
      st'.rxq.consumerIdx = st₁.rxq.consumerIdx ∧ st'.rxq.rxWq.wqeCnt = st₁.rxq.rxWq.wqeCnt ∧
      ∃ d, st'.rxq.rxCq = { st₁.rxq.rxCq with dbrec := d } := by
  rcases hcases with ⟨rfl, rfl⟩ | ⟨-, hrefill⟩
  · exact ⟨[], rfl, .nil h, rfl, rfl, _, rfl⟩
  -- the doorbells on either side leave slots and buffers alone
  · obtain ⟨st₂, hloop, rfl⟩ := Option.map_eq_some_iff.mp hrefill
    have hposted : st₁.ringRxCqDoorbell.rxq.Posted p₁ rest := h.congr rfl rfl rfl rfl
    obtain ⟨bufs, hlen, hrefilled⟩ := mlx5RefillRxqueueLoop_refilled hposted hroom hloop
    have hkeeps := mlx5RefillRxqueueLoop_keeps hloop
    exact ⟨bufs, hlen, ⟨hrefilled.free, hrefilled.posted.congr rfl rfl rfl rfl, hrefilled.capacity,
      hrefilled.allocated, hrefilled.received, hrefilled.others⟩, hkeeps.consumerIdx,
      hkeeps.wqeCnt, _, hkeeps.rxCq⟩

theorem ReceiveReady.gathered (h : ReceiveReady st.rxq p ring counters)
    (hcall : mlx5GatherRx st budget = some (ms, st')) :
    ∃ bufs, Gathered st st' p ring counters ms bufs := by
  obtain ⟨st₁, hloop, hcases⟩ := mlx5GatherRx_cases hcall
  rw [mlx5GatherRxLoop_eq] at hloop
  obtain ⟨hle, htaken⟩ := h.loop_takes hloop
  have hfits := h.fits
  have hfull := h.full
  obtain ⟨haccepts, rfl⟩ := Poller.loop_eq_some_iff.mp hloop
  have hlen := haccepts.length_eq
  -- after the loop: the front of the ring is free
  have hrxq := takeAll_rx_rxq hlen st
  have hpool := (takeAll_rx_frame (rxPoller.entries budget st) ms st).2
  have hposted : (rxPoller.takeAll st (rxPoller.entries budget st) ms).rxq.Posted
      (p + ms.length) (ring.drop ms.length) := by
    rw [hrxq]
    exact (h.posted.drop (by omega)).congr rfl rfl rfl rfl
  have hwqe : (rxPoller.takeAll st (rxPoller.entries budget st) ms).rxq.rxWq.wqeCnt =
      st.rxq.rxWq.wqeCnt := by rw [hrxq]
  have hrestlen : (ring.drop ms.length).length = ring.length - ms.length := List.length_drop
  -- and the refill posts behind the rest
  obtain ⟨bufs, hbufs, hrefilled, hconsumer, hwqe', d, hcq⟩ :=
    refilled_of_gatherRx hposted (by rw [hwqe]; omega) hcases
  have hconsumerIdx : st'.rxq.consumerIdx = st.rxq.consumerIdx + UInt32.ofNat ms.length := by
    rw [hconsumer, hrxq]
  refine ⟨bufs, hle, htaken, hbufs, ⟨hrefilled.posted, ?_, ?_, ?_, ?_, ?_⟩, hwqe'.trans hwqe, ?_,
    ?_, ?_, ?_, ?_⟩
  · rw [hwqe', hwqe, List.length_append]
    omega
  · rw [hconsumerIdx, h.consumerIdx, UInt32.ofNat_add]
  · rw [hcq, Cq.reports_dbrec, hconsumerIdx, hrxq]
    exact h.reports.drop hle
  · intro i counter hi
    rw [List.getElem?_drop] at hi
    rw [hwqe', hwqe, Nat.add_assoc]
    exact h.inOrder _ counter hi
  · rw [List.length_drop, List.length_append]
    omega
  · rw [← hpool]
    exact hrefilled.free
  · rw [hrefilled.capacity, hpool]
  · rw [hrefilled.allocated, hpool, hbufs]
  · exact fun a ha => hrefilled.received a (takeAll_rx_received hlen ha)
  · intro s hs
    have hothers := hrefilled.others s fun i hi => by
      -- a lap behind the slots that were taken
      have hslot : (p + ms.length + (ring.drop ms.length).length + i) % st.rxq.rxWq.wqeCnt.toNat =
          (p + i) % st.rxq.rxWq.wqeCnt.toNat := by
        rw [show p + ms.length + (ring.drop ms.length).length + i =
          p + i + st.rxq.rxWq.wqeCnt.toNat by omega, Nat.add_mod_right]
      rw [hwqe, hslot]
      exact hs i (hbufs ▸ hi)
    rw [hrxq] at hothers
    exact hothers

namespace ReceiveReady

/-- The entries a call has read are those its loop found. -/
theorem readEntries_eq {st₁ : State} (hloop : rxPoller.loop budget st = some (ms, st₁)) :
    st.rxq.readEntries ms.length = rxPoller.entries budget st := by
  rw [← Poller.length_entries hloop]
  exact Cq.entriesAt_poll ..

/-- The slots they name follow each other around the ring. -/
theorem namedSlots_eq (h : ReceiveReady st.rxq p ring counters) {st₁ : State}
    (hloop : rxPoller.loop budget st = some (ms, st₁)) :
    (st.rxq.readEntries ms.length).map st.rxq.namedSlot =
      (List.range ms.length).map fun i => (p + i) % st.rxq.rxWq.wqeCnt.toNat := by
  have hlen := Poller.length_entries hloop
  rw [readEntries_eq hloop]
  refine List.ext_getElem (by simp [hlen]) fun i hi _ => ?_
  rw [List.length_map] at hi
  rw [List.getElem_map, List.getElem_map, List.getElem_range]
  exact h.namedSlot_entry (List.getElem?_eq_getElem hi)

/-- So do the slots that the refill writes, from the same slot on. -/
theorem refillSlots_eq {v : Mlx5Rxq} (h : ReceiveReady v p ring counters) (count : ℕ) :
    v.refillSlots count = (List.range count).map fun i => (p + i) % v.rxWq.wqeCnt.toNat := by
  obtain ⟨k, hk, hsize⟩ := h.posted.size
  refine List.map_congr_left fun i _ => ?_
  -- the head is a lap ahead of the oldest buffer
  rw [pow2Mod, WordArith.toNat_and_sub_one hsize, h.posted.wqHead, ← UInt32.ofNat_add,
    WordArith.toNat_ofNat_mod (WordArith.dvd_two_pow_of_le hsize (by omega)), h.full,
    show p + v.rxWq.wqeCnt.toNat + i = p + i + v.rxWq.wqeCnt.toNat by omega, Nat.add_mod_right]

/-- **Slots of a call.** -/
theorem refillsTaken (h : ReceiveReady st.rxq p ring counters)
    (hcall : mlx5GatherRx st budget = some (ms, st')) : RefillsTaken budget st st' ms := by
  obtain ⟨st₁, hloop, -⟩ := mlx5GatherRx_cases hcall
  have hloop' := hloop
  rw [mlx5GatherRxLoop_eq] at hloop'
  have haccepts := (Poller.loop_eq_some_iff.mp hloop').1
  have hnamed := h.namedSlots_eq hloop'
  obtain ⟨hle, -⟩ := h.loop_takes hloop'
  constructor
  case assertion =>
    intro st₂ hst₂
    obtain ⟨-, rfl⟩ := Prod.mk.inj (Option.some.inj (hst₂.symm.trans hloop))
    obtain ⟨-, rfl⟩ := Poller.loop_eq_some_iff.mp hloop'
    -- both sides are the position after the last slot refilled
    have hsame : UInt32.ofNat ms.length + st.rxq.wqHead =
        st.rxq.consumerIdx + UInt32.ofNat ms.length + st.rxq.rxWq.wqeCnt := by
      rw [← h.counters_eq]
      grind
    rw [refillAssertion, takeAll_rx_rxq haccepts.length_eq, wrapsLte]
    simp only [hsame, UInt32.sub_self]
    decide
  case delivered =>
    -- the buffer that was taken is the one posted there
    rw [readEntries_eq hloop', List.forall₂_iff_get]
    refine ⟨haccepts.length_eq, fun i hi hm => ?_⟩
    have hfits := h.fits
    rw [List.get_eq_getElem, List.get_eq_getElem]
    have hentry : (rxPoller.entries budget st)[i]? = some (rxPoller.entries budget st)[i] :=
      List.getElem?_eq_getElem hi
    have hslot := h.posted.slot i ring[i] (List.getElem?_eq_getElem (by omega))
    rw [← h.namedSlot_entry hentry] at hslot
    have hbuffer := (haccepts.get hi hm).buffer
    have hsame : ring[i] = ms[i] := Option.some.inj (hslot.buffer.symm.trans hbuffer)
    exact hsame ▸ hslot
  case refilled => rw [hnamed, h.refillSlots_eq]
  case others =>
    intro s hs
    -- a slot that no entry names is one that no refill writes
    obtain ⟨bufs, hgathered⟩ := h.gathered hcall
    rw [hnamed] at hs
    apply hgathered.others
    rintro i hi rfl
    exact hs (List.mem_map_of_mem (List.mem_range.mpr hi))

/-- **Slot by slot**: every slot has a buffer, together those of the ring. -/
theorem exists_slots {v : Mlx5Rxq} (h : ReceiveReady v p ring counters) :
    ∃ bufs : List Addr, bufs.length = v.rxWq.wqeCnt.toNat ∧
      (∀ s buf, bufs[s]? = some buf → v.PostedIn s buf) ∧ bufs.Perm ring := by
  obtain ⟨n, hn⟩ : ∃ n, n = v.rxWq.wqeCnt.toNat := ⟨_, rfl⟩
  have hslot := h.posted.slot
  have hfull := h.full
  rw [← hn] at hslot hfull ⊢
  -- read `buffers` off slot by slot
  refine ⟨(List.range n).map fun s => (v.buffers s).getD 0, by simp, ?_, ?_⟩
  · intro s buf hs
    rw [List.getElem?_map] at hs
    obtain ⟨s', hs', rfl⟩ := Option.map_eq_some_iff.mp hs
    obtain ⟨hlt, rfl⟩ := List.getElem?_eq_some_iff.mp hs'
    rw [List.getElem_range]
    -- the position whose turn the slot is
    have hmem := (CircularRing.lap_perm_range n p).mem_iff.mpr
      (List.mem_range.mpr (by simpa using hlt))
    obtain ⟨i, hi, his⟩ := List.mem_map.mp hmem
    rw [List.mem_range] at hi
    have hposted := hslot i ring[i] (List.getElem?_eq_getElem (by omega))
    rw [his] at hposted
    rw [hposted.buffer]
    exact hposted
  -- the slots in ring order are the slots from 0 on, rotated
  · have hperm := (CircularRing.lap_perm_range n p).map fun s => (v.buffers s).getD 0
    have hring : ((List.range n).map fun i => (p + i) % n).map (fun s => (v.buffers s).getD 0) =
        ring := by
      refine List.ext_getElem (by simp [hfull]) fun i _ hi => ?_
      simp [(hslot i ring[i] (List.getElem?_eq_getElem hi)).buffer]
    rw [hring] at hperm
    exact hperm.symm

end ReceiveReady

/-- **A call returns** when the pool can replace what it takes. -/
theorem ReceiveReady.returns (h : ReceiveReady st.rxq p ring counters)
    (hpool : min budget counters.length ≤ st.rxBufMempool.freeList.length) :
    ∃ ms st', mlx5GatherRx st budget = some (ms, st') := by
  obtain ⟨ms, hloop⟩ := Poller.exists_loop (@ReceiveReady.exists_accepts _ _ budget _ _ h)
  have hlen := Poller.length_entries hloop
  rw [h.length_entries] at hlen
  exact exists_mlx5GatherRx_of_loop hloop (by omega)

end Mlx5Netperf
