import Mlx5Netperf.Lib.CircularRing
import Mlx5Netperf.Mlx5.Poll

/-!
# The Receive Ring

The slot of a packet comes from the device, the slots that are refilled come from
a counter of the driver. `Mlx5Rxq.Posted` describes the ring by the buffers in
it, oldest first: taking packets removes buffers at the front, refilling appends
buffers behind.
-/

namespace Mlx5Netperf

/-- The slot has the buffer, in `buffers` and in its descriptor. -/
structure Mlx5Rxq.PostedIn (v : Mlx5Rxq) (slot : ℕ) (buf : Addr) : Prop where
  buffer : v.buffers slot = some buf
  segAddr : v.rxWq.segAddr slot = htobe64 (buf + rxBufHead.toUInt64)

/-- The buffers `ring` are posted, oldest first, the first of them at position `p`. -/
structure Mlx5Rxq.Posted (v : Mlx5Rxq) (p : ℕ) (ring : List Addr) : Prop where
  size : ∃ k ≤ 16, v.rxWq.wqeCnt.toNat = 2 ^ k
  wqHead : v.wqHead = UInt32.ofNat (p + ring.length)
  fits : ring.length ≤ v.rxWq.wqeCnt.toNat
  slot : ∀ i buf, ring[i]? = some buf → v.PostedIn ((p + i) % v.rxWq.wqeCnt.toNat) buf

/-- An mbuf as `mlx5_gather_rx` hands it out. -/
structure ReceivedMbuf (heap : Heap) (m : Addr) : Prop where
  head : (heap m).head = m
  release : (heap m).release = some .rxCompletion

namespace Mlx5Rxq.Posted

variable {v : Mlx5Rxq} {p : ℕ} {ring : List Addr}

/-- The head's slot, as the mask computes it. -/
theorem headSlot (h : v.Posted p ring) :
    (pow2Mod v.wqHead v.rxWq.wqeCnt).toNat = (p + ring.length) % v.rxWq.wqeCnt.toNat := by
  obtain ⟨k, hk, hsize⟩ := h.size
  rw [pow2Mod, WordArith.toNat_and_sub_one hsize, h.wqHead,
    WordArith.toNat_ofNat_mod (WordArith.dvd_two_pow_of_le hsize (by omega))]

/-- The slot that a completion names, when its counter is the position of a packet. -/
theorem namedSlot (h : v.Posted p ring) {counter : UInt16} {q : ℕ}
    (hcounter : counter.toNat % v.rxWq.wqeCnt.toNat = q % v.rxWq.wqeCnt.toNat) :
    (wqeIdx counter v.rxWq.wqeCnt).toNat = q % v.rxWq.wqeCnt.toNat := by
  obtain ⟨k, hk, hsize⟩ := h.size
  have hpos : 0 < v.rxWq.wqeCnt.toNat := hsize ▸ Nat.two_pow_pos k
  have hsmall : v.rxWq.wqeCnt.toNat ≤ 2 ^ 16 := hsize ▸ Nat.pow_le_pow_right (by decide) hk
  -- the slot fits into the 16 bits that the driver keeps of it
  have hlt : counter.toNat % v.rxWq.wqeCnt.toNat < 2 ^ 16 :=
    lt_of_lt_of_le (Nat.mod_lt _ hpos) hsmall
  rw [wqeIdx, UInt32.toNat_toUInt16, WordArith.toNat_and_sub_one hsize, UInt16.toNat_toUInt32,
    Nat.mod_eq_of_lt hlt, hcounter]

/-- Packets are taken at the front. -/
theorem drop (h : v.Posted p ring) {n : ℕ} (hn : n ≤ ring.length) :
    v.Posted (p + n) (ring.drop n) := by
  refine ⟨h.size, ?_, ?_, ?_⟩
  · rw [h.wqHead, List.length_drop, Nat.add_assoc, Nat.add_sub_cancel' hn]
  · have hfits := h.fits
    rw [List.length_drop]
    omega
  · intro i buf hi
    rw [List.getElem?_drop] at hi
    rw [Nat.add_assoc]
    exact h.slot (n + i) buf hi

/-- **A buffer is posted behind the others**, in a slot none of them is in. -/
theorem post (h : v.Posted p ring) (hroom : ring.length < v.rxWq.wqeCnt.toNat) {index : ℕ}
    (hindex : index = (p + ring.length) % v.rxWq.wqeCnt.toNat) (buf : Addr) :
    (v.post index buf).Posted p (ring ++ [buf]) := by
  refine ⟨h.size, ?_, ?_, ?_⟩
  · rw [List.length_append, List.length_singleton, ← Nat.add_assoc, UInt32.ofNat_add, ← h.wqHead]
    rfl
  · rw [List.length_append, List.length_singleton]
    exact hroom
  · intro i a hi
    rcases Nat.lt_or_ge i ring.length with hold | hnew
    · -- less than a lap before the new one
      rw [List.getElem?_append_left hold] at hi
      have hne : (p + i) % v.rxWq.wqeCnt.toNat ≠ index := by
        rw [hindex]
        exact CircularRing.mod_ne_of_lt (by omega) (by omega)
      have hslot := h.slot i a hi
      constructor
      · exact (Function.update_of_ne hne _ _).trans hslot.buffer
      · exact (Function.update_of_ne hne _ _).trans hslot.segAddr
    · have hlen := (List.getElem?_eq_some_iff.mp hi).1
      rw [List.length_append, List.length_singleton] at hlen
      -- the new buffer itself
      obtain rfl : i = ring.length := by omega
      rw [List.getElem?_concat_length] at hi
      obtain rfl := Option.some.inj hi
      constructor
      · exact (congrArg _ hindex.symm).trans (Function.update_self ..)
      · exact (congrArg _ hindex.symm).trans (Function.update_self ..)

/-- Only the ring matters, not the consumer's side. -/
theorem congr {v' : Mlx5Rxq} (h : v.Posted p ring) (hwqe : v'.rxWq.wqeCnt = v.rxWq.wqeCnt)
    (hseg : v'.rxWq.segAddr = v.rxWq.segAddr) (hhead : v'.wqHead = v.wqHead)
    (hbuffers : v'.buffers = v.buffers) : v'.Posted p ring := by
  refine ⟨hwqe ▸ h.size, hhead.trans h.wqHead, hwqe ▸ h.fits, ?_⟩
  intro i buf hi
  rw [hwqe]
  exact ⟨by rw [hbuffers]; exact (h.slot i buf hi).buffer,
    by rw [hseg]; exact (h.slot i buf hi).segAddr⟩

end Mlx5Rxq.Posted

/-! ## Taking packets -/

/-- Taking packets moves the consumer index and nothing else of the ring. -/
theorem takeAll_rx_rxq {cqes : List Mlx5Cqe64} {ms : List Addr} (hlen : cqes.length = ms.length)
    (st : State) :
    (rxPoller.takeAll st cqes ms).rxq =
      { st.rxq with consumerIdx := st.rxq.consumerIdx + UInt32.ofNat ms.length } := by
  induction ms generalizing st cqes with
  | nil =>
    obtain rfl := List.length_eq_zero_iff.mp hlen
    simp
  | cons m ms ih =>
    obtain ⟨cqe, cqes, rfl⟩ := List.exists_cons_of_length_eq_add_one hlen
    rw [Poller.takeAll_cons, ih (Nat.succ.inj hlen), List.length_cons, UInt32.ofNat_add]
    simp only [rxPoller, State.receive]
    congr 1
    grind

/-- A packet that is handed out stays one when further packets are. -/
theorem ReceivedMbuf.receive {st : State} {a : Addr} (h : ReceivedMbuf st.heap a) (cqe : Mlx5Cqe64)
    (m : Addr) : ReceivedMbuf (st.receive cqe m).heap a := by
  by_cases ham : a = m
  · subst ham
    constructor <;> simp [State.receive, mbufFillCqe, mbufInit]
  · have hsame : (st.receive cqe m).heap a = st.heap a := Heap.modify_of_ne _ ham
    exact ⟨by rw [hsame]; exact h.head, by rw [hsame]; exact h.release⟩

theorem receivedMbuf_receive (st : State) (cqe : Mlx5Cqe64) (m : Addr) :
    ReceivedMbuf (st.receive cqe m).heap m := by
  constructor <;> simp [State.receive, mbufFillCqe, mbufInit]

/-- **All packets of a call are handed out**, and those handed out before still are. -/
theorem takeAll_rx_received {cqes : List Mlx5Cqe64} {ms : List Addr}
    (hlen : cqes.length = ms.length) {st : State} {a : Addr}
    (h : a ∈ ms ∨ ReceivedMbuf st.heap a) :
    ReceivedMbuf (rxPoller.takeAll st cqes ms).heap a := by
  induction ms generalizing st cqes with
  | nil =>
    obtain rfl := List.length_eq_zero_iff.mp hlen
    exact h.resolve_left (List.not_mem_nil)
  | cons m ms ih =>
    obtain ⟨cqe, cqes, rfl⟩ := List.exists_cons_of_length_eq_add_one hlen
    rw [Poller.takeAll_cons]
    apply ih (Nat.succ.inj hlen)
    -- handed out by this entry, by a later one, or before
    rcases h with hmem | hbefore
    · rcases List.mem_cons.mp hmem with rfl | htail
      · exact .inr (receivedMbuf_receive ..)
      · exact .inl htail
    · exact .inr (hbefore.receive cqe m)

/-! ## Refilling -/

/-- What refilling `nrdesc` slots does: it takes as many buffers from the pool and
posts them behind the others. -/
structure Refilled (st st' : State) (p : ℕ) (ring bufs : List Addr) : Prop where
  free : st.rxBufMempool.freeList = bufs ++ st'.rxBufMempool.freeList
  posted : st'.rxq.Posted p (ring ++ bufs)
  capacity : st'.rxBufMempool.capacity = st.rxBufMempool.capacity
  allocated : st'.rxBufMempool.allocated = st.rxBufMempool.allocated + bufs.length
  received : ∀ a, ReceivedMbuf st.heap a → ReceivedMbuf st'.heap a
  others : ∀ s, (∀ i < bufs.length, s ≠ (p + ring.length + i) % st.rxq.rxWq.wqeCnt.toNat) →
    st'.rxq.buffers s = st.rxq.buffers s ∧ st'.rxq.rxWq.segAddr s = st.rxq.rxWq.segAddr s

/-- The head length is no part of what makes a packet of the application. -/
theorem ReceivedMbuf.setHeadLen {heap : Heap} {a : Addr} (h : ReceivedMbuf heap a) (buf : Addr)
    (n : UInt32) : ReceivedMbuf (heap.modify buf fun b => { b with headLen := n }) a := by
  constructor
  case head =>
    apply Heap.modify_keeps (P := fun b => b.head = a) ?_ h.head
    exact fun _ hb => hb
  case release =>
    apply Heap.modify_keeps (P := fun b => b.release = some .rxCompletion) ?_ h.release
    exact fun _ hb => hb

/-- One round of a refill. -/
theorem Refilled.repost {st : State} {p index : ℕ} {ring : List Addr} {buf : Addr} {pool : Mempool}
    (h : st.rxq.Posted p ring) (hroom : ring.length < st.rxq.rxWq.wqeCnt.toNat)
    (hindex : index = (p + ring.length) % st.rxq.rxWq.wqeCnt.toNat)
    (halloc : mempoolAlloc st.rxBufMempool = some (buf, pool)) :
    Refilled st (st.repost buf pool index) p ring [buf] := by
  obtain ⟨-, -, hpool⟩ := mempoolAlloc_eq_some halloc
  refine ⟨freeList_of_mempoolAlloc halloc, h.post hroom hindex buf, ?_, ?_, ?_, ?_⟩
  · simp [State.repost, hpool]
  · simp [State.repost, hpool]
  · exact fun a ha => ha.setHeadLen buf _
  · intro s hs
    have hne : s ≠ index := by
      rw [hindex]
      exact hs 0 (by simp)
    exact ⟨Function.update_of_ne hne _ _, Function.update_of_ne hne _ _⟩

/-- Two refills, one after the other. -/
theorem Refilled.trans {st st' st'' : State} {p : ℕ} {ring bufs bufs' : List Addr}
    (h : Refilled st st' p ring bufs) (hwqe : st'.rxq.rxWq.wqeCnt = st.rxq.rxWq.wqeCnt)
    (h' : Refilled st' st'' p (ring ++ bufs) bufs') : Refilled st st'' p ring (bufs ++ bufs') := by
  refine ⟨?_, ?_, h'.capacity.trans h.capacity, ?_, fun a ha => h'.received a (h.received a ha), ?_⟩
  · rw [h.free, h'.free, List.append_assoc]
  · rw [← List.append_assoc]
    exact h'.posted
  · rw [h'.allocated, h.allocated, List.length_append, Nat.add_assoc]
  · intro s hs
    have hfirst := h.others s fun i hi => hs i (by rw [List.length_append]; omega)
    have hsecond := h'.others s fun i hi => by
      -- the slots of the second refill are behind those of the first
      have hne := hs (bufs.length + i) (by rw [List.length_append]; omega)
      rw [List.length_append, hwqe]
      convert hne using 2
      omega
    exact ⟨hsecond.1.trans hfirst.1, hsecond.2.trans hfirst.2⟩

theorem Refilled.nil {st : State} {p : ℕ} {ring : List Addr} (h : st.rxq.Posted p ring) :
    Refilled st st p ring [] :=
  ⟨rfl, by rwa [List.append_nil], rfl, rfl, fun _ ha => ha, fun _ _ => ⟨rfl, rfl⟩⟩

/-- **The loop of `mlx5_refill_rxqueue`**, as long as the free slots suffice. -/
theorem mlx5RefillRxqueueLoop_refilled {nrdesc : ℕ} {st st' : State} {p : ℕ} {ring : List Addr}
    (h : st.rxq.Posted p ring) (hroom : ring.length + nrdesc ≤ st.rxq.rxWq.wqeCnt.toNat)
    (hloop : mlx5RefillRxqueueLoop nrdesc st = some st') :
    ∃ bufs, bufs.length = nrdesc ∧ Refilled st st' p ring bufs := by
  induction nrdesc generalizing st ring with
  | zero =>
    obtain rfl := Option.some.inj hloop
    exact ⟨[], rfl, .nil h⟩
  | succ nrdesc ih =>
    obtain ⟨buf, pool, halloc, hrest⟩ := mlx5RefillRxqueueLoop_succ hloop
    have hround := Refilled.repost h (by omega) h.headSlot halloc
    have hroom' : (ring ++ [buf]).length + nrdesc ≤ st.rxq.rxWq.wqeCnt.toNat := by
      rw [List.length_append, List.length_singleton]
      omega
    obtain ⟨bufs, hlen, hbufs⟩ := ih hround.posted hroom' hrest
    refine ⟨buf :: bufs, by rw [List.length_cons, hlen], ?_⟩
    -- the first round, then the others from a ring with one buffer more
    exact hround.trans rfl hbufs

/-! ## The first filling -/

/-- One descriptor of `mlx5_init_rxq` posts one buffer. -/
theorem mlx5InitRxqSlot_refilled {mrLkey : UInt32} {st st' : State} {ring : List Addr}
    (h : st.rxq.Posted 0 ring) (hroom : ring.length < st.rxq.rxWq.wqeCnt.toNat)
    (hslot : mlx5InitRxqSlot mrLkey st ring.length = .ok st') :
    ∃ buf, Refilled st st' 0 ring [buf] ∧ RefillKeeps st st' := by
  -- before the ring is full the slot is the number of buffers in it
  have hindex : ring.length = (0 + ring.length) % st.rxq.rxWq.wqeCnt.toNat := by
    rw [Nat.zero_add, Nat.mod_eq_of_lt hroom]
  simp only [mlx5InitRxqSlot] at hslot
  split at hslot
  case h_1 => simp at hslot
  case h_2 buf pool halloc =>
    obtain rfl := Except.ok.inj hslot
    -- the constant fields of the descriptor are no part of what `Posted` says
    let st₁ : State := { st with rxq := { st.rxq with rxWq := { st.rxq.rxWq with
      segByteCount :=
        Function.update st.rxq.rxWq.segByteCount ring.length (htobe32 (netMtu + rxBufTail))
      segLkey := Function.update st.rxq.rxWq.segLkey ring.length (htobe32 mrLkey) } } }
    have hposted : st₁.rxq.Posted 0 ring := h.congr rfl rfl rfl rfl
    have hround := Refilled.repost hposted hroom hindex halloc
    exact ⟨buf, ⟨hround.free, hround.posted, hround.capacity, hround.allocated, hround.received,
      hround.others⟩, rfl, rfl, rfl, rfl⟩

/-- The loop of `mlx5_init_rxq` posts a buffer in every slot from the first free one on. -/
theorem foldlM_mlx5InitRxqSlot {mrLkey : UInt32} {n : ℕ} {st st' : State} {ring : List Addr}
    (h : st.rxq.Posted 0 ring) (hroom : ring.length + n ≤ st.rxq.rxWq.wqeCnt.toNat)
    (hloop : (List.range' ring.length n).foldlM (mlx5InitRxqSlot mrLkey) st = .ok st') :
    ∃ bufs, bufs.length = n ∧ Refilled st st' 0 ring bufs ∧ RefillKeeps st st' := by
  induction n generalizing st ring with
  | zero =>
    obtain rfl := Except.ok.inj hloop
    exact ⟨[], rfl, .nil h, rfl, rfl, rfl, rfl⟩
  | succ n ih =>
    rw [List.range'_succ, List.foldlM_cons] at hloop
    cases hslot : mlx5InitRxqSlot mrLkey st ring.length with
    | error e =>
      rw [hslot] at hloop
      simp [bind, Except.bind] at hloop
    | ok st₁ =>
      rw [hslot] at hloop
      obtain ⟨buf, hround, hkeeps⟩ := mlx5InitRxqSlot_refilled h (by omega) hslot
      have hlen : (ring ++ [buf]).length = ring.length + 1 := by simp
      obtain ⟨bufs, hbufs, hrest, hkeeps'⟩ := ih hround.posted
        (by rw [hlen, hkeeps.wqeCnt]; omega) (by rw [hlen]; exact hloop)
      exact ⟨buf :: bufs, by rw [List.length_cons, hbufs], hround.trans hkeeps.wqeCnt hrest,
        hkeeps.trans hkeeps'⟩

end Mlx5Netperf
