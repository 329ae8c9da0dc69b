import Mlx5Netperf.Mlx5.Poll

/-!
# What Receiving Leaves Alone

`mlx5_gather_rx` writes the mbufs of the packets that it returns and the head
lengths of the buffers that it posts. Everything of the sending side stays as it is.
-/

namespace Mlx5Netperf

/-- A call touches the receive queue and its pool, and in the heap only `touched`. -/
structure ReceiveKeeps (touched : Addr → Prop) (st st' : State) : Prop where
  mem : st'.mem = st.mem
  txq : st'.txq = st.txq
  mbufMempool : st'.mbufMempool = st.mbufMempool
  txBufMempool : st'.txBufMempool = st.txBufMempool
  workingSetRefcnts : st'.workingSetRefcnts = st.workingSetRefcnts
  requestHeaders : st'.requestHeaders = st.requestHeaders
  trace : st'.trace = st.trace
  heap : ∀ a, ¬ touched a → st'.heap a = st.heap a

namespace ReceiveKeeps

variable {touched touched' : Addr → Prop} {st st' st'' : State}

theorem refl (touched : Addr → Prop) (st : State) : ReceiveKeeps touched st st :=
  ⟨rfl, rfl, rfl, rfl, rfl, rfl, rfl, fun _ _ => rfl⟩

theorem trans (h : ReceiveKeeps touched st st') (h' : ReceiveKeeps touched st' st'') :
    ReceiveKeeps touched st st'' :=
  ⟨h'.mem.trans h.mem, h'.txq.trans h.txq, h'.mbufMempool.trans h.mbufMempool,
    h'.txBufMempool.trans h.txBufMempool, h'.workingSetRefcnts.trans h.workingSetRefcnts,
    h'.requestHeaders.trans h.requestHeaders, h'.trace.trans h.trace,
    fun a ha => (h'.heap a ha).trans (h.heap a ha)⟩

theorem mono (h : ReceiveKeeps touched st st') (hsub : ∀ a, touched a → touched' a) :
    ReceiveKeeps touched' st st' :=
  { h with heap := fun a ha => h.heap a fun htouched => ha (hsub a htouched) }

end ReceiveKeeps

/-- Taking packets writes their mbufs. -/
theorem takeAll_rx_keeps (cqes : List Mlx5Cqe64) (ms : List Addr) (st : State) :
    ReceiveKeeps (· ∈ ms) st (rxPoller.takeAll st cqes ms) := by
  induction cqes generalizing st ms with
  | nil => exact .refl _ _
  | cons cqe cqes ih =>
    cases ms with
    | nil => exact .refl _ _
    | cons m ms =>
      have hround : ReceiveKeeps (· ∈ m :: ms) st (rxPoller.take st cqe m) := by
        refine ⟨rfl, rfl, rfl, rfl, rfl, rfl, rfl, fun a ha => ?_⟩
        exact Heap.modify_of_ne _ fun heq => ha (heq ▸ List.mem_cons_self ..)
      exact hround.trans ((ih ms _).mono fun a ha => List.mem_cons_of_mem _ ha)

/-- Refilling writes buffers that were free. -/
theorem mlx5RefillRxqueueLoop_receiveKeeps {nrdesc : ℕ} {st st' : State}
    (h : mlx5RefillRxqueueLoop nrdesc st = some st') :
    ReceiveKeeps (· ∈ st.rxBufMempool.freeList) st st' := by
  induction nrdesc generalizing st with
  | zero =>
    obtain rfl := Option.some.inj h
    exact .refl _ _
  | succ nrdesc ih =>
    obtain ⟨buf, pool, halloc, hrest⟩ := mlx5RefillRxqueueLoop_succ h
    have hfree := freeList_of_mempoolAlloc halloc
    have hround : ReceiveKeeps (· ∈ st.rxBufMempool.freeList) st
        (st.repost buf pool (pow2Mod st.rxq.wqHead st.rxq.rxWq.wqeCnt).toNat) := by
      refine ⟨rfl, rfl, rfl, rfl, rfl, rfl, rfl, fun a ha => ?_⟩
      have hne : a ≠ buf := by
        rintro rfl
        exact ha (hfree ▸ List.mem_cons_self ..)
      simp only [State.repost, Heap.modify_of_ne _ hne]
    -- the buffers of the later rounds were free before the first
    refine hround.trans ((ih hrest).mono fun a ha => ?_)
    rw [hfree]
    exact List.mem_cons_of_mem _ ha

/-- **What `mlx5_gather_rx` leaves alone.** -/
theorem mlx5GatherRx_keeps {budget : ℕ} {st st' : State} {ms : List Addr}
    (h : mlx5GatherRx st budget = some (ms, st')) :
    ReceiveKeeps (fun a => a ∈ ms ∨ a ∈ st.rxBufMempool.freeList) st st' := by
  obtain ⟨st₁, hloop, hcases⟩ := mlx5GatherRx_cases h
  rw [mlx5GatherRxLoop_eq] at hloop
  obtain ⟨-, rfl⟩ := Poller.loop_eq_some_iff.mp hloop
  have htaken := (takeAll_rx_keeps (rxPoller.entries budget st) ms st).mono
    fun a ha => (.inl ha : a ∈ ms ∨ a ∈ st.rxBufMempool.freeList)
  rcases hcases with ⟨-, rfl⟩ | ⟨-, hrefill⟩
  · exact htaken
  · obtain ⟨st₂, hloop₂, rfl⟩ := Option.map_eq_some_iff.mp hrefill
    have hpool := (takeAll_rx_frame (rxPoller.entries budget st) ms st).2
    have hrefilled := (mlx5RefillRxqueueLoop_receiveKeeps hloop₂).mono fun a ha =>
      (.inr (hpool ▸ ha) : a ∈ ms ∨ a ∈ st.rxBufMempool.freeList)
    -- the doorbells on either side are part of the receive queue
    exact htaken.trans ⟨hrefilled.mem, hrefilled.txq, hrefilled.mbufMempool, hrefilled.txBufMempool,
      hrefilled.workingSetRefcnts, hrefilled.requestHeaders, hrefilled.trace, hrefilled.heap⟩

/-! ## Where the data of a packet is -/

/-- The data of a packet starts behind the room in front of it. -/
def PlacedPacket (heap : Heap) (m : Addr) : Prop := mbufData (heap m) = m + rxBufHead.toUInt64

/-- A packet that is placed stays so when further packets are taken. -/
theorem PlacedPacket.receive {st : State} {a : Addr} (h : PlacedPacket st.heap a) (cqe : Mlx5Cqe64)
    (m : Addr) : PlacedPacket (st.receive cqe m).heap a := by
  by_cases ham : a = m
  · subst ham
    simp [PlacedPacket, State.receive, mbufFillCqe, mbufInit, mbufData]
  · simpa [PlacedPacket, State.receive, Heap.modify_of_ne _ ham] using h

theorem takeAll_rx_placed {cqes : List Mlx5Cqe64} {ms : List Addr} (hlen : cqes.length = ms.length)
    (st : State) : (∀ m ∈ ms, PlacedPacket (rxPoller.takeAll st cqes ms).heap m) ∧
      ∀ a, PlacedPacket st.heap a → PlacedPacket (rxPoller.takeAll st cqes ms).heap a := by
  induction ms generalizing st cqes with
  | nil =>
    obtain rfl := List.length_eq_zero_iff.mp hlen
    exact ⟨by simp, fun _ h => h⟩
  | cons m ms ih =>
    obtain ⟨cqe, cqes, rfl⟩ := List.exists_cons_of_length_eq_add_one hlen
    obtain ⟨htaken, hkept⟩ := ih (Nat.succ.inj hlen) (st.receive cqe m)
    have hfirst : PlacedPacket (st.receive cqe m).heap m := by
      simp [PlacedPacket, State.receive, mbufFillCqe, mbufInit, mbufData]
    refine ⟨fun a ha => ?_, fun a ha => hkept a (ha.receive cqe m)⟩
    rcases List.mem_cons.mp ha with rfl | hlater
    · exact hkept a hfirst
    · exact htaken a hlater

/-- Refilling writes head lengths only. -/
theorem mlx5RefillRxqueueLoop_placed {nrdesc : ℕ} {st st' : State} {a : Addr}
    (h : mlx5RefillRxqueueLoop nrdesc st = some st') (ha : PlacedPacket st.heap a) :
    PlacedPacket st'.heap a := by
  induction nrdesc generalizing st with
  | zero =>
    obtain rfl := Option.some.inj h
    exact ha
  | succ nrdesc ih =>
    obtain ⟨buf, pool, -, hrest⟩ := mlx5RefillRxqueueLoop_succ h
    refine ih hrest ?_
    by_cases hbuf : a = buf
    · subst hbuf
      simpa [PlacedPacket, State.repost, mbufData] using ha
    · simpa [PlacedPacket, State.repost, Heap.modify_of_ne _ hbuf] using ha

/-- **The packets of a call are placed**, and those taken before stay so. -/
theorem mlx5GatherRx_placed {budget : ℕ} {st st' : State} {ms : List Addr}
    (h : mlx5GatherRx st budget = some (ms, st')) :
    (∀ m ∈ ms, PlacedPacket st'.heap m) ∧ ∀ a, PlacedPacket st.heap a → PlacedPacket st'.heap a := by
  obtain ⟨st₁, hloop, hcases⟩ := mlx5GatherRx_cases h
  rw [mlx5GatherRxLoop_eq] at hloop
  obtain ⟨hall, rfl⟩ := Poller.loop_eq_some_iff.mp hloop
  have htaken := takeAll_rx_placed hall.length_eq st
  rcases hcases with ⟨-, rfl⟩ | ⟨-, hrefill⟩
  · exact htaken
  · obtain ⟨st₂, hloop₂, rfl⟩ := Option.map_eq_some_iff.mp hrefill
    -- the doorbells on either side leave the mbufs alone
    have hrefilled : ∀ a, PlacedPacket (rxPoller.takeAll st (rxPoller.entries budget st) ms).heap a →
        PlacedPacket st₂.heap a := fun a ha => mlx5RefillRxqueueLoop_placed hloop₂ ha
    exact ⟨fun m hm => hrefilled m (htaken.1 m hm), fun a ha => hrefilled a (htaken.2 a ha)⟩

end Mlx5Netperf
